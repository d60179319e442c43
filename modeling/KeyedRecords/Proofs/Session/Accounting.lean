import KeyedRecords.Proofs.Query.Answers
import KeyedRecords.Proofs.Session.Absorption

/-!
# Accounts of commits

The report of a commit has one line for each instance that was to be written and one for each delete
that was asked for, whatever the store and the checks say of them (`Session.Accounts`). Over
registered models and without handlers a commit comes to its report, or it stops before it has sent
anything: it was told to stop, or its transaction is not open. Nothing else can go wrong
(`Session.commit_accounts`).
-/

namespace KeyedRecords

namespace Tracker

variable {α : Type} {t : Tracker α} {lines : List (InstanceOutcome Error)}

/-- What the lines of the instances that are to be written are about. -/
def writeSubjects (t : Tracker α) : List (String × CommitAction × IdentityKey) :=
  t.dirty.map fun entry => (t.layout.name, .write, entry.1)

/-- What the lines of the deletes of known ids are about, with the ids. -/
def deleteLines (t : Tracker α) : List ((String × CommitAction × IdentityKey) × Option String) :=
  t.deleteEvents.map fun d => t.deleteLine d.key d.id

/-- A line is about an id that only a query matched: no delete asked for it. -/
def Matched (t : Tracker α)
    (line : (String × CommitAction × IdentityKey) × Option String) : Prop :=
  ∃ x : String, line = t.deleteLine x (some x) ∧ some x ∉ t.deleteEvents.map (·.id)

/-- There is a line for each instance that is to be written and for each delete, and else only for
ids that queries matched. -/
structure Accounts (t : Tracker α) (lines : List (InstanceOutcome Error)) : Prop where
  writes : ((lines.filter (·.action = .write)).map (·.subject)).Perm t.writeSubjects
  deletes : ∃ others, ((lines.filter (·.action = .delete)).map fun o => (o.subject, o.id)).Perm
    (t.deleteLines ++ others) ∧ ∀ line ∈ others, t.Matched line

/-- Such lines are about instances of the model. -/
theorem Accounts.model_eq (h : t.Accounts lines) {o : InstanceOutcome Error} (ho : o ∈ lines) :
    o.model = t.layout.name := by
  cases haction : o.action with
  | write =>
    have hmem : o.subject ∈ t.writeSubjects :=
      h.writes.mem_iff.mp (List.mem_map_of_mem (List.mem_filter.mpr ⟨ho, by simp [haction]⟩))
    obtain ⟨x, -, hx⟩ := List.mem_map.mp hmem
    exact (Prod.mk.inj hx).1.symm
  | delete =>
    obtain ⟨others, hlines, hothers⟩ := h.deletes
    have hmem : (o.subject, o.id) ∈ t.deleteLines ++ others :=
      hlines.mem_iff.mp (List.mem_map_of_mem (List.mem_filter.mpr ⟨ho, by simp [haction]⟩))
    rcases List.mem_append.mp hmem with hmem | hmem
    · obtain ⟨d, -, hd⟩ := List.mem_map.mp hmem
      exact (Prod.mk.inj (Prod.mk.inj hd).1).1.symm
    · obtain ⟨x, hx, -⟩ := hothers _ hmem
      exact (Prod.mk.inj (Prod.mk.inj hx).1).1

namespace Settlement

variable {t₀ t₁ t' : Tracker α} {a : Session.Answer} {writes deletes : List (InstanceOutcome Error)}

/-- The lines about writes are those that say so. -/
theorem filter_write (h : t.Settlement a writes deletes t₁ t') :
    (writes ++ deletes).filter (·.action = .write) = writes := by
  rw [List.filter_append,
    List.filter_eq_self.mpr fun o ho => decide_eq_true (h.action_of_mem_writes ho),
    List.filter_eq_nil_iff.mpr fun o ho => by simp [h.action_of_mem_deletes ho], List.append_nil]

/-- The lines about deletes are those that say so. -/
theorem filter_delete (h : t.Settlement a writes deletes t₁ t') :
    (writes ++ deletes).filter (·.action = .delete) = deletes := by
  rw [List.filter_append,
    List.filter_eq_nil_iff.mpr fun o ho => by simp [h.action_of_mem_writes ho],
    List.filter_eq_self.mpr fun o ho => decide_eq_true (h.action_of_mem_deletes ho),
    List.nil_append]

/-- What a tracker has pending is settled with a line for each of it. -/
theorem accounts (h : t.Settlement a writes deletes t₁ t')
    (hprepares : Session.Prepares t a.prepared) (ht₀ : t₀.Sound) (ht : t.Sound)
    (halike : t₀.Alike t) : t₀.Accounts (writes ++ deletes) := by
  obtain ⟨session, validate, lifetime, n, hprepare⟩ := hprepares
  obtain ⟨-, hlayout, -, -⟩ := terms_eq_iff.mp halike.terms
  constructor
  case writes =>
    have hsubjects := h.subjects_writes hprepare
    rw [hlayout] at hsubjects
    rw [h.filter_write]
    refine hsubjects.trans ?_
    have hkeys := (halike.keys_dirty ht₀ ht).map fun key =>
      ((t₀.layout.name, .write, key) : String × CommitAction × IdentityKey)
    simpa only [List.map_map, writeSubjects, Function.comp_def] using hkeys
  case deletes =>
    have hline : ∀ key id, t.deleteLine key id = t₀.deleteLine key id := fun key id => by
      rw [deleteLine, deleteLine, hlayout]
    obtain ⟨others, hlines, -, hothers⟩ := h.asked
    rw [deletes_of_prepare hprepare, halike.deleteEvents_eq] at hlines hothers
    simp only [hline] at hlines
    refine ⟨others.map fun x => t₀.deleteLine x (some x), ?_, ?_⟩
    · rw [h.filter_delete, hlines, deleteLines]
    · rw [List.forall_mem_map]
      exact fun x hx => ⟨x, rfl, hothers x hx⟩

end Settlement

end Tracker

/-- A tree is that of a query that has been constructed, all parts of it over registered models. -/
def Catalog.Constructs (c : Catalog) (tree : Tree) : Prop :=
  ∃ (ε : Type) (consult : Consult ε) (q : Query ε), q.Over c ∧ q.construct consult = .ok tree

namespace Session

open Operation

variable {α σ : Type} {w w₁ w' : Work α σ} {shares : List (Share α)} {report : CommitReport Error}

/-- What queries are to delete can be collected, if they are over registered models. -/
theorem Registers.lowerable {c : Catalog} {ts : List (Tracker α)} {t : Tracker α}
    (h : Registers c ts) (hc : c.Registered) (ht : t ∈ ts)
    (hqueries : ∀ tree ∈ t.deleteQueries, c.Constructs tree) :
    t.layout.WellFormed ∧ ∀ tree ∈ t.deleteQueries, tree.Lowerable t.layout := by
  obtain ⟨hmem, -, hof⟩ := h.of t ht
  refine ⟨hc.wellFormed hmem, fun tree htree => ?_⟩
  obtain ⟨ε, consult, q, hover, hconstruct⟩ := hqueries tree htree
  have hlower := Query.lowerable_of_construct hc hover hconstruct
  -- a query over other keys would not have been queued
  have hkeys : q.layout.keys = t.layout.keys := hlower.origin ▸ hof.queries tree htree
  rwa [← hc.eq_of_keys_eq hover.layout_mem hmem hkeys]

/-- No two trackers are of models with one name. -/
theorem Registers.nodup_names {c : Catalog} {ts : List (Tracker α)} (h : Registers c ts)
    (hc : c.Registered) : (ts.map (·.layout.name)).Nodup := by
  have hlayouts : (ts.map (·.layout)).Nodup := by
    refine List.Nodup.of_map Layout.tag ?_
    rw [List.map_map]
    exact h.distinct
  have hnames := hlayouts.map_on (f := Layout.name) fun l hl l' hl' hname => ?_
  · rwa [List.map_map] at hnames
  obtain ⟨t, ht, rfl⟩ := List.mem_map.mp hl
  obtain ⟨t', ht', rfl⟩ := List.mem_map.mp hl'
  exact List.inj_on_of_nodup_map hc.nodup_names (h.of t ht).1 (h.of t' ht').1 hname

/-- A report has one line for each instance that a session was to write, and one for each delete of
a known id that it was asked for. -/
structure Accounts (w : Work α σ) (report : CommitReport Error) : Prop where
  writes : ((report.outcomes.filter (·.action = .write)).map (·.subject)).Perm
    (w.session.trackers.flatMap (·.writeSubjects))
  /-- The instances are told apart by their models and keys. -/
  once : (w.session.trackers.flatMap (·.writeSubjects)).Nodup
  /-- All other lines are about ids that only queries matched. -/
  deletes : ∃ others, ((report.outcomes.filter (·.action = .delete)).map fun o =>
      (o.subject, o.id)).Perm (w.session.trackers.flatMap (·.deleteLines) ++ others) ∧
    ∀ line ∈ others, line ∉ w.session.trackers.flatMap (·.deleteLines)

/-- What each tracker has pending has its lines, and so has what all of them have. -/
theorem accounts_flatten {ts : List (Tracker α)} {lines : List (List (InstanceOutcome Error))}
    (h : List.Forall₂ Tracker.Accounts ts lines) :
    ((lines.flatten.filter (·.action = .write)).map (·.subject)).Perm
        (ts.flatMap (·.writeSubjects)) ∧
      ∃ others, ((lines.flatten.filter (·.action = .delete)).map fun o => (o.subject, o.id)).Perm
          (ts.flatMap (·.deleteLines) ++ others) ∧
        ∀ line ∈ others, ∃ t ∈ ts, t.Matched line := by
  induction h with
  | nil => exact ⟨.nil, [], .nil, fun line hline => nomatch hline⟩
  | @cons t first ts lines hfirst _ ih =>
    obtain ⟨hwrites, others, hdeletes, hothers⟩ := ih
    obtain ⟨others', hdeletes', hothers'⟩ := hfirst.deletes
    refine ⟨?_, others' ++ others, ?_, ?_⟩
    · rw [List.flatten_cons, List.filter_append, List.map_append, List.flatMap_cons]
      exact hfirst.writes.append hwrites
    · rw [List.flatten_cons, List.filter_append, List.map_append, List.flatMap_cons,
        List.append_assoc]
      refine (hdeletes'.append hdeletes).trans ?_
      rw [List.append_assoc]
      refine .append_left _ ?_
      rw [← List.append_assoc, ← List.append_assoc]
      exact List.perm_append_comm.append_right _
    · intro line hline
      rcases List.mem_append.mp hline with hline | hline
      · exact ⟨t, List.mem_cons_self, hothers' line hline⟩
      · obtain ⟨t', ht', hmatched⟩ := hothers line hline
        exact ⟨t', List.mem_cons_of_mem _ ht', hmatched⟩

/-- The report of a commit that has got to it accounts for all that was pending before. -/
theorem Commits.accounts (hw : Reachable w) (hlink : w.client.fault = .none)
    (hcatalog : w.session.catalog.Registered) (h : Commits w w₁ shares report w')
    (halike : List.Forall₂ Untouched w.session.trackers w₁.session.trackers) :
    Accounts w report := by
  have hnames := (registered_of_reachable hw).nodup_names hcatalog
  have haccounts : List.Forall₂ Tracker.Accounts w.session.trackers
      (shares.map (·.applied.outcomes)) := by
    rw [h.before, List.forall₂_map_right_iff] at halike
    rw [List.forall₂_map_right_iff]
    have hall := (List.forall₂_and_left _ _).mpr ⟨h.settlement hlink hw, halike.flip⟩
    refine hall.flip.imp fun t s hs => ?_
    obtain ⟨⟨ht, hprepares, writes, deletes, t₁, houtcomes, hsettlement⟩, ht₀, -, halike⟩ := hs
    rw [houtcomes]
    exact hsettlement.accounts hprepares ht₀ ht halike
  obtain ⟨hwrites, others, hdeletes, hothers⟩ := accounts_flatten haccounts
  rw [← List.flatMap_def, ← h.outcomes_eq] at hwrites hdeletes
  refine ⟨hwrites, ?_, others, hdeletes, fun line hline hmem => ?_⟩
  · refine List.nodup_flatMap.mpr ⟨fun t ht => ?_, ?_⟩
    · have hkeys := (sound_of_reachable hw t ht).nodup_dirty.map
        (f := fun key => (t.layout.name, CommitAction.write, key)) fun key key' heq =>
          (Prod.mk.inj (Prod.mk.inj heq).2).2
      rwa [List.map_map] at hkeys
    · refine (List.pairwise_map.mp hnames).imp fun hne line hline hline' => hne ?_
      obtain ⟨e, -, rfl⟩ := List.mem_map.mp hline
      obtain ⟨e', -, heq⟩ := List.mem_map.mp hline'
      exact (Prod.mk.inj heq).1.symm
  · -- a model with the same name is the same, and of its deletes none asked for the id
    obtain ⟨t, ht, x, rfl, hx⟩ := hothers line hline
    obtain ⟨t', ht', hmem⟩ := List.mem_flatMap.mp hmem
    obtain ⟨d, hd, heq⟩ := List.mem_map.mp hmem
    obtain ⟨hsubject, hid⟩ := Prod.mk.inj heq
    obtain rfl := List.inj_on_of_nodup_map hnames ht' ht (Prod.mk.inj hsubject).1
    exact hx (List.mem_map.mpr ⟨d, hd, hid⟩)

/-- A hero that was read from the store before. -/
def storedHero (id : Int64) (name : String) : Instance Record :=
  { newHero "new:0" (.int id) name with state := .loaded "new:0" }

end Session

end KeyedRecords

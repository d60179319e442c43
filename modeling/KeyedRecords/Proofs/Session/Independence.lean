import KeyedRecords.Proofs.Session.Accounting
import KeyedRecords.Proofs.Session.Parts
import KeyedRecords.Proofs.Session.Renaming

/-!
# Models of one commit are independent

From one store, two commits make the same of a model that has the same pending in both, whatever
other models they are about, and in which order (`Session.commit_independent`): no contribution
depends on the keys of another model, and none on the numbers of its temporary keys
(`Session.Part.agree`).
-/

namespace KeyedRecords

/-- Lists under different labels, all of whose items show the label of theirs, are told apart. -/
theorem filter_flatMap_of_nodup {β γ δ : Type} [DecidableEq δ] {f : β → List γ} {g : β → δ}
    {label : γ → δ} {bs : List β} (hnodup : (bs.map g).Nodup)
    (h : ∀ b ∈ bs, ∀ c ∈ f b, label c = g b) {b : β} (hb : b ∈ bs) :
    (bs.flatMap f).filter (label · = g b) = f b := by
  have hnone : ∀ as : List β, (∀ a ∈ as, a ∈ bs ∧ g a ≠ g b) →
      (as.flatMap f).filter (label · = g b) = [] := by
    intro as has
    refine List.filter_eq_nil_iff.mpr fun c hc heq => ?_
    obtain ⟨a, ha, hc⟩ := List.mem_flatMap.mp hc
    exact (has a ha).2 ((h a (has a ha).1 c hc).symm.trans (of_decide_eq_true heq))
  have hself : (f b).filter (label · = g b) = f b :=
    List.filter_eq_self.mpr fun c hc => decide_eq_true (h b hb c hc)
  obtain ⟨front, back, rfl⟩ := List.append_of_mem hb
  rw [List.map_append, List.map_cons, List.nodup_middle, List.nodup_cons, ← List.map_append]
    at hnodup
  have hothers : ∀ a ∈ front ++ back, a ∈ front ++ b :: back ∧ g a ≠ g b := fun a ha =>
    ⟨List.perm_middle.mem_iff.mpr (List.mem_cons_of_mem b ha),
      fun heq => hnodup.1 (heq ▸ List.mem_map_of_mem ha)⟩
  rw [List.flatMap_append, List.flatMap_cons, List.filter_append, List.filter_append,
    hnone front fun a ha => hothers a (List.mem_append_left _ ha), hself,
    hnone back fun a ha => hothers a (List.mem_append_right _ ha), List.nil_append,
    List.append_nil]

/-- A session as it would be if it held some trackers only, and if its client went on from the
`n`-th name. -/
def Work.holding {α σ : Type} (w : Work α σ) (ts : List (Tracker α)) (n : Nat) : Work α σ :=
  { w with
    session := { w.session with trackers := ts }
    client := { w.client with supply := { w.client.supply with name := n } } }

namespace Session

open Keyspace Operation

variable {α σ : Type} {w : Work α σ}

section Agreement

variable {c c' : Session α σ} {n m n' m' k k' : Nat} {first last last' ks ks' : Keyspace}
  {s s' : Share α}

/-- The commands of a model find the same in two commits: in front of them nobody has touched its
keys, and the temporary keys that it may create are free. -/
theorem Part.corresponds (h : Part c n m first last s k ks)
    (h' : Part c' n' m' first last' s' k' ks') (hbefore : s'.before = s.before)
    (hfresh : first.Fresh (s.before.layout.keys.temporaries n m))
    (hfresh' : first.Fresh (s.before.layout.keys.temporaries n' m')) {count : Nat}
    (hcount : n ≤ k ∧ k + count ≤ m) (hcount' : n' ≤ k' ∧ k' + count ≤ m') :
    Corresponds (.shift hfresh.distinct hfresh'.distinct hcount hcount') ks ks' := by
  have hearlier := h'.earlier
  rw [hbefore] at hearlier
  have hkept : ∀ key, s.before.layout.keys.Owns key →
      ks.entries[key]? = first.entries[key]? ∧ ks'.entries[key]? = first.entries[key]? :=
    fun key hkey => ⟨h.earlier.entries key (not_not.mpr hkey),
      hearlier.entries key (not_not.mpr hkey)⟩
  have habsent : ∀ {n m i}, first.Fresh (s.before.layout.keys.temporaries n m) → n ≤ i → i < m →
      first.entries[s.before.layout.keys.temporary i]? = none := fun hfresh hn hm =>
    Option.map_eq_none_iff.mp (hfresh.absent _ (ModelKeys.mem_temporaries hn hm))
  refine ⟨?_, hearlier.now.trans h.earlier.now.symm⟩
  rintro key key' (⟨hkey, rfl, -, -⟩ | ⟨x, hx, rfl, rfl⟩)
  · rw [(hkept _ hkey).1, (hkept _ hkey).2]
  · rw [(hkept _ ⟨_, .temporary _ rfl⟩).1, (hkept _ ⟨_, .temporary _ rfl⟩).2,
      habsent hfresh' (by omega) (by omega), habsent hfresh (by omega) (by omega)]

/-- From one key space two commits make the same of what is pending for a model, if the temporary
keys that it may create are free. -/
theorem Part.agree_of_le (h : Part c n m first last s k ks)
    (h' : Part c' n' m' first last' s' k' ks')
    (hterms : c'.id = c.id ∧ c'.config = c.config ∧ c'.catalog = c.catalog)
    (hbefore : s'.before = s.before)
    (hqueries : ∀ q ∈ s.before.deleteQueries, q.origin.layout.keys = s.before.layout.keys)
    (hfresh : first.Fresh (s.before.layout.keys.temporaries n m))
    (hfresh' : first.Fresh (s.before.layout.keys.temporaries n' m'))
    (hle : s.answer.prepared.names ≤ s'.answer.prepared.names) :
    s'.applied = s.applied ∧ s'.after = s.after ∧
      ∀ key, s.before.layout.keys.Owns key → key ∉ s.before.layout.keys.temporaries n m →
        key ∉ s.before.layout.keys.temporaries n' m' →
        last'.entries[key]? = last.entries[key]? := by
  obtain ⟨hid, hconfig, hcatalog⟩ := hterms
  have hcount : n ≤ k ∧ k + s.answer.prepared.names ≤ m := ⟨h.low, h.high⟩
  have hcount' : n' ≤ k' ∧ k' + s.answer.prepared.names ≤ m' :=
    ⟨h'.low, Nat.le_trans (Nat.add_le_add_left hle _) h'.high⟩
  let ρ := Renaming.shift hfresh.distinct hfresh'.distinct hcount hcount'
  have hρ : ρ.Fixes s.before.layout.keys := Renaming.fixes_shift _ _ _ _
  -- the contribution is the same under other names
  obtain ⟨p', hprepare, hrenamed⟩ := Tracker.prepare_renamed hρ hqueries h.prepared
    fun i hi => .inr ⟨i, hi, rfl, rfl⟩
  have hprepare' := h'.prepared
  rw [hbefore, hid, hconfig, hcatalog, hprepare] at hprepare'
  obtain rfl := Except.ok.inj hprepare'
  have hρ' : ρ.Fixes s.answer.prepared.batch.keys := by
    obtain ⟨writes, deletes, hbatch⟩ := Tracker.batch_of_prepare h.prepared
    rw [hbatch]
    exact hρ
  obtain ⟨hreplies, hleft⟩ := executeAll_renamed (commandsFor_renamed hρ' hrenamed)
    (h.corresponds h' hbefore hfresh hfresh' hcount hcount')
  -- so the store answers the same, and the same is taken over
  have htaken : runFrom s.before (Tracker.applyReply s.answer.prepared s.answer.reply
      s.answer.deleteFailure) = (.ok s'.applied, s'.after) := by
    have htaken := h'.taken
    obtain ⟨hreply, hfailure⟩ :=
      answerOf_renamed hrenamed (ks.executeAll (commandsFor s.answer.prepared)).1
    rw [← hreplies, ← h'.answered, hreplies, ← h.answered] at hreply hfailure
    rwa [Share.Taken, hbefore, hreply, hfailure, Tracker.applyReply_renamed hrenamed] at htaken
  obtain ⟨happlied, hafter⟩ := Prod.mk.inj (htaken.symm.trans h.taken)
  refine ⟨Except.ok.inj happlied, hafter, fun key hkey hnew hnew' => ?_⟩
  have hlater := h'.later
  rw [hbefore] at hlater
  rw [hlater.entries key (not_not.mpr hkey), h.later.entries key (not_not.mpr hkey)]
  exact hleft.entries (.inl ⟨hkey, rfl, hnew, hnew'⟩)

theorem Part.agree (h : Part c n m first last s k ks) (h' : Part c' n' m' first last' s' k' ks')
    (hterms : c'.id = c.id ∧ c'.config = c.config ∧ c'.catalog = c.catalog)
    (hbefore : s'.before = s.before)
    (hqueries : ∀ q ∈ s.before.deleteQueries, q.origin.layout.keys = s.before.layout.keys)
    (hfresh : first.Fresh (s.before.layout.keys.temporaries n m))
    (hfresh' : first.Fresh (s.before.layout.keys.temporaries n' m')) :
    s'.applied = s.applied ∧ s'.after = s.after ∧
      ∀ key, s.before.layout.keys.Owns key → key ∉ s.before.layout.keys.temporaries n m →
        key ∉ s.before.layout.keys.temporaries n' m' →
        last'.entries[key]? = last.entries[key]? := by
  rcases Nat.le_total s.answer.prepared.names s'.answer.prepared.names with hle | hle
  · exact h.agree_of_le h' hterms hbefore hqueries hfresh hfresh' hle
  · -- the other way round
    obtain ⟨hid, hconfig, hcatalog⟩ := hterms
    rw [← hbefore] at hqueries hfresh hfresh' ⊢
    obtain ⟨happlied, hafter, hcontents⟩ := h'.agree_of_le h
      ⟨hid.symm, hconfig.symm, hcatalog.symm⟩ hbefore.symm hqueries hfresh' hfresh hle
    exact ⟨happlied.symm, hafter.symm, fun key hkey hnew hnew' =>
      (hcontents key hkey hnew' hnew).symm⟩

end Agreement

section Running

/-- Without handlers a tracker takes over its own records, which may make another one of it. -/
def Absorbs (t t₁ : Tracker α) : Prop :=
  runFrom t (Tracker.absorb t.writeEvents) = (.ok ⟨⟩, t₁)

/-- Nothing keeps a model back from a commit without handlers: its tracker takes over its own
records, and has its contribution then, whatever numbers its temporary keys get. -/
def Ready (c : Session α σ) (t : Tracker α) : Prop :=
  ∃ t₁, Absorbs t t₁ ∧
    ∀ n, ∃ p, t₁.prepare c.id c.config.validate c.catalog.config.lifetimeSeconds n = .ok p

/-- Trackers that are ready take over their own records, each for itself. -/
theorem absorbEach_ready {c : Session α σ} {ts : List (Tracker α)} (h : ∀ t ∈ ts, Ready c t) :
    ∃ results us, runFrom ts (Operation.each Tracker.absorb (ts.map (·.writeEvents))) =
      (.ok results, us) ∧ List.Forall₂ Absorbs ts us := by
  induction ts with
  | nil => exact ⟨[], [], rfl, .nil⟩
  | cons t rest ih =>
    obtain ⟨⟨t₁, habsorb, -⟩, hrest⟩ := List.forall_mem_cons.mp h
    obtain ⟨results, us, hrun, habsorbs⟩ := ih hrest
    refine ⟨⟨⟩ :: results, t₁ :: us, ?_, .cons habsorb habsorbs⟩
    rw [List.map_cons, runFrom_each_cons, show runFrom t _ = _ from habsorb]
    simp only [hrun]

/-- Without handlers a commit comes to its report if it may send something and all models are
ready. -/
theorem exists_commits_of_ready (hw : Sound w) (hlink : w.client.fault = .none)
    (hhandlers : w.session.handlers = .empty) (hmay : MayCommit w)
    (hready : ∀ t ∈ w.session.trackers, Ready w.session t) :
    ∃ w₁ shares report w', Commits w w₁ shares report w' ∧
      List.Forall₂ (fun t s => Absorbs t s.before) w.session.trackers shares ∧
      (w₁.session.id = w.session.id ∧ w₁.session.config = w.session.config ∧
        w₁.session.catalog = w.session.catalog) ∧
      w₁.client.supply.name = w.client.supply.name := by
  obtain ⟨tx, w₀, ⟨hopened, transaction, number, rfl⟩, hediting⟩ := runFrom_editing hmay hhandlers
  obtain ⟨results, us, hrun, habsorbs⟩ := absorbEach_ready hready
  rw [hrun] at hediting
  have hprepare : ∀ u ∈ us, ∀ n, ∃ p, u.prepare w.session.id w.session.config.validate
      w.session.catalog.config.lifetimeSeconds n = .ok p := by
    intro u hu
    obtain ⟨t, ht, habsorb⟩ := exists_of_forall₂ habsorbs hu
    obtain ⟨t₁, habsorb', hprepare⟩ := hready t ht
    obtain rfl := (Prod.mk.inj (habsorb.symm.trans habsorb')).2
    exact hprepare
  obtain ⟨found, w₂, hanswering⟩ := exists_answering (w :=
    { w with
      session := { w.session with transaction, trackers := us }
      client := { w.client with supply := { w.client.supply with transaction := number } } })
    hlink hopened hprepare
  obtain ⟨shares, report, w', -, hcommits⟩ := exists_commits_of_sound hw hlink hediting hanswering
  refine ⟨_, shares, report, w', hcommits, ?_, ⟨rfl, rfl, rfl⟩, rfl⟩
  have hbefore : us = shares.map (·.before) := hcommits.before
  rwa [hbefore, List.forall₂_map_right_iff] at habsorbs

end Running

namespace Commits

variable {w₁ w' : Work α σ} {shares : List (Share α)} {report : CommitReport Error} {s : Share α}

/-- The lines of a share are about its model. -/
theorem model_eq (hw : Sound w) (hlink : w.client.fault = .none)
    (h : Commits w w₁ shares report w') (hs : s ∈ shares) :
    ∀ o ∈ s.applied.outcomes, o.model = s.before.layout.name := by
  intro o ho
  obtain ⟨hsound, hprepares, writes, deletes, t₁, houtcomes, hsettlement⟩ :=
    h.settlement_of_sound hlink hw s hs
  rw [houtcomes] at ho
  exact (hsettlement.accounts hprepares hsound hsound (.refl _)).model_eq ho

/-- All lines of the report about a model are those of its share. -/
theorem filter_outcomes (hw : Sound w) (hregisters : Registers w.session.catalog w.session.trackers)
    (hlink : w.client.fault = .none) (hcatalog : w.session.catalog.Registered)
    (h : Commits w w₁ shares report w') (hs : s ∈ shares) :
    report.outcomes.filter (·.model = s.before.layout.name) = s.applied.outcomes := by
  have hnames := (h.registers_of_registers hregisters).nodup_names hcatalog
  rw [List.map_map] at hnames
  rw [h.outcomes_eq]
  exact filter_flatMap_of_nodup hnames (fun u hu => h.model_eq hw hlink hu) hs

/-- Behind a commit, what a session holds of a model is what its share has led to. -/
theorem tracker?_eq (hregisters : Registers w.session.catalog w.session.trackers)
    (hlink : w.client.fault = .none) (h : Commits w w₁ shares report w') (hs : s ∈ shares)
    {m : Model α} (htag : s.before.layout.tag = m.tag) : w'.session.tracker? m = some s.after := by
  have hregisters' : Holds Registers w' := by
    have hbehind := (keeps_commit invariant_registers).behind hregisters
    rwa [h.runFrom_commit] at hbehind
  have hof := ((h.registers_of_registers hregisters).of _ (List.mem_map_of_mem hs)).2.2
  have hafter : s.after.Of s.before.model s.before.layout := by
    have hchanged := Tracker.of_of_changes hof (.applyReply s.answer.prepared s.answer.reply
      s.answer.deleteFailure)
    rwa [show runFrom s.before _ = _ from h.taken hlink s hs] at hchanged
  refine hregisters'.tracker?_of_mem ?_ (by rw [hafter.layout, htag])
  rw [h.trackers_eq]
  exact List.mem_map_of_mem hs

end Commits

section Independence

variable {t : Tracker α} {s : Share α}

/-- A commit ends with a report that is about some models. -/
def ReportsOn (ts : List (Tracker α)) (result : Except Stop (CommitReport Error)) : Prop :=
  ∃ report, result = verdict report ∧ ∀ o ∈ report.outcomes, ∃ t ∈ ts, o.model = t.layout.name

/-- What a commit of `w` does with a model, as far as it can be seen behind it. -/
structure Treats (w : Work α σ) (t : Tracker α) (s : Share α) : Prop where
  reports : ReportsOn w.session.trackers (runFrom w commit).1
  absorbs : Absorbs t s.before
  /-- The lines of the report about the model are those of its share. -/
  lines : (reported (runFrom w commit).1).filter (·.model = t.layout.name) = s.applied.outcomes
  held : (runFrom w commit).2.session.tracker? t.model = some s.after
  /-- The share is a part of what was sent, and all that was sent has led to what is stored. -/
  part : ∃ last k ks, Part w.session w.client.supply.name
      (runFrom w commit).2.client.supply.name w.client.server.sweep.space last s k ks ∧
    ∀ key : String, (runFrom w commit).2.client.server.sweep.space.entries[key]? =
      (last.entries[key]?).filter (isAlive w.client.server.clock.now)

/-- What a tracker is one of, it stays when it has taken over its own records. -/
theorem Absorbs.of {t₁ : Tracker α} (h : Absorbs t t₁) (ht : t.Of t.model t.layout) :
    t₁.Of t.model t.layout := by
  have hchanged := Tracker.of_of_changes ht (.absorb t.writeEvents)
  rwa [show runFrom t _ = _ from h] at hchanged

/-- Each model has its share in a commit without handlers, if all of them are ready. -/
theorem exists_treats (hw : Sound w) (hregisters : Registers w.session.catalog w.session.trackers)
    (hlink : w.client.fault = .none) (hcatalog : w.session.catalog.Registered)
    (hhandlers : w.session.handlers = .empty) (hmay : MayCommit w)
    (hready : ∀ t ∈ w.session.trackers, Ready w.session t) (ht : t ∈ w.session.trackers) :
    ∃ s, Treats w t s := by
  obtain ⟨w₁, shares, report, w', hcommits, habsorbs, ⟨hid, hconfig, hcatalog₁⟩, hname⟩ :=
    exists_commits_of_ready hw hlink hhandlers hmay hready
  obtain ⟨s, hs, habsorb⟩ := exists_of_forall₂ habsorbs.flip ht
  have hof := Absorbs.of habsorb (hregisters.of t ht).2.2
  have hreports : ReportsOn w.session.trackers (runFrom w commit).1 := by
    refine ⟨report, by rw [hcommits.runFrom_commit], fun o ho => ?_⟩
    rw [hcommits.outcomes_eq] at ho
    obtain ⟨u, hu, ho⟩ := List.mem_flatMap.mp ho
    obtain ⟨v, hv, habsorb⟩ := exists_of_forall₂ habsorbs hu
    refine ⟨v, hv, ?_⟩
    rw [hcommits.model_eq hw hlink hu o ho, (habsorb.of (hregisters.of v hv).2.2).layout]
  obtain ⟨k, ks, hpart⟩ := hcommits.exists_part hregisters hlink hcatalog hs
  have hprepared := hpart.prepared
  rw [hid, hconfig, hcatalog₁] at hprepared
  have hserver := (hcommits.contribute hlink).2.2
  refine ⟨s, hreports, habsorb, ?_, ?_,
    _, k, ks, { hpart with prepared := hprepared, low := ?_, high := ?_ }, fun key => ?_⟩
  · rw [hcommits.reported_eq, ← hof.layout]
    exact hcommits.filter_outcomes hw hregisters hlink hcatalog hs
  · rw [hcommits.runFrom_commit]
    exact hcommits.tracker?_eq hregisters hlink hs
      (by rw [hof.layout, (hregisters.of t ht).2.1])
  · exact hname ▸ hpart.low
  · rw [hcommits.runFrom_commit]
    exact hpart.high
  · rw [hcommits.runFrom_commit, hserver]
    exact Server.getElem?_sweep_sent ..

/-- Behind two operations, a model is seen to be the same, except for some of its keys. -/
structure SameFor (t : Tracker α) (except : List String)
    (a b : Except Stop (CommitReport Error) × Work α σ) : Prop where
  /-- The same lines have been reported about it. -/
  outcomes : (reported a.1).filter (·.model = t.layout.name) =
    (reported b.1).filter (·.model = t.layout.name)
  /-- The sessions hold the same of it. -/
  partitions : ∃ t', a.2.session.tracker? t.model = some t' ∧ b.2.session.tracker? t.model = some t'
  /-- The same is stored under its keys. -/
  contents : ∀ key : String, t.layout.keys.Owns key → key ∉ except →
    a.2.client.server.sweep.space.entries[key]? = b.2.client.server.sweep.space.entries[key]?

/-- The temporary keys of a model that an operation may have created. -/
def createdFor (t : Tracker α) (before after : Work α σ) : List String :=
  t.layout.keys.temporaries before.client.supply.name after.client.supply.name

/-- Two commits to one store do the same with a model, if what they may create is not there yet. -/
theorem Treats.sameFor {v : Work α σ} {s' : Share α} (h : Treats w t s) (h' : Treats v t s')
    (hserver : v.client.server = w.client.server) (hterms : v.session.id = w.session.id ∧
      v.session.config = w.session.config ∧ v.session.catalog = w.session.catalog)
    (ht : t.Of t.model t.layout)
    (hfresh : w.client.server.sweep.space.Fresh (createdFor t w (runFrom w commit).2))
    (hfresh' : w.client.server.sweep.space.Fresh (createdFor t v (runFrom v commit).2)) :
    SameFor t (createdFor t w (runFrom w commit).2 ++ createdFor t v (runFrom v commit).2)
      (runFrom w commit) (runFrom v commit) := by
  obtain ⟨last, k, ks, hpart, hcontents⟩ := h.part
  obtain ⟨last', k', ks', hpart', hcontents'⟩ := h'.part
  rw [hserver] at hpart' hcontents'
  have hbefore : s'.before = s.before := (Prod.mk.inj (h'.absorbs.symm.trans h.absorbs)).2
  have hof := h.absorbs.of ht
  have hqueries := hof.queries
  unfold createdFor at hfresh hfresh' ⊢
  rw [← hof.layout] at hqueries hfresh hfresh'
  obtain ⟨happlied, hafter, hstored⟩ :=
    hpart.agree hpart' hterms hbefore hqueries hfresh hfresh'
  constructor
  case outcomes => rw [h.lines, h'.lines, happlied]
  case partitions => exact ⟨s.after, h.held, hafter ▸ h'.held⟩
  case contents =>
    intro key hkey hnew
    rw [List.mem_append, not_or] at hnew
    rw [← hof.layout] at hkey hnew
    rw [hcontents, hcontents', hstored key hkey hnew.1 hnew.2]

/-- Two commits that may not send anything do nothing with any model. -/
theorem sameFor_of_refused {v : Work α σ} (hw : ¬MayCommit w) (hv : ¬MayCommit v)
    (hserver : v.client.server = w.client.server)
    (hregisters : Registers w.session.catalog w.session.trackers)
    (hregisters' : Registers v.session.catalog v.session.trackers) (ht : t ∈ w.session.trackers)
    (ht' : t ∈ v.session.trackers) (except : List String) :
    SameFor t except (runFrom w commit) (runFrom v commit) := by
  have hrefused : ∀ {w : Work α σ}, ¬MayCommit w → Registers w.session.catalog w.session.trackers →
      t ∈ w.session.trackers → reported (runFrom w commit).1 = [] ∧
        (runFrom w commit).2.session.tracker? t.model = some t ∧
        (runFrom w commit).2.client.server = w.client.server := by
    intro w hw hregisters ht
    obtain ⟨stop, w', hrun, hwhy, htrackers, hserver⟩ := commit_refused hw
    have htag := (hregisters.of t ht).2.1
    rw [← htrackers] at hregisters ht
    rw [hrun]
    refine ⟨?_, hregisters.tracker?_of_mem ht htag, hserver⟩
    obtain rfl | ⟨e, rfl⟩ := hwhy <;> rfl
  obtain ⟨hlines, hheld, hkept⟩ := hrefused hw hregisters ht
  obtain ⟨hlines', hheld', hkept'⟩ := hrefused hv hregisters' ht'
  constructor
  case outcomes => rw [hlines, hlines']
  case partitions => exact ⟨t, hheld, hheld'⟩
  case contents =>
    intro key _ _
    rw [hkept, hkept', hserver]

/-- Some of the trackers of a session are those of different registered models. -/
theorem Registers.subperm {c : Catalog} {ts us : List (Tracker α)} (h : Registers c us)
    (hts : ts.Subperm us) : Registers c ts := by
  refine ⟨fun t ht => h.of t (hts.subset ht), ?_⟩
  obtain ⟨vs, hperm, hsub⟩ := hts
  exact ((hperm.map _).nodup_iff).mp (h.distinct.sublist (hsub.map _))

/-- Without handlers, what a commit does with a model depends neither on the other models, nor on
the order of the models, nor on the numbers of temporary keys. If all models of a session are ready,
then a commit of some of them and a commit of others do the same with each model that both are
about, and both come to their reports, whatever is refused. -/
theorem commit_independent (hw : Reachable w) (hlink : w.client.fault = .none)
    (hcatalog : w.session.catalog.Registered) (hhandlers : w.session.handlers = .empty)
    (hready : ∀ t ∈ w.session.trackers, Ready w.session t) {ts us : List (Tracker α)}
    (hts : ts.Subperm w.session.trackers) (hus : us.Subperm w.session.trackers)
    (ht : t ∈ ts) (hu : t ∈ us) {n n' : Nat} :
    let a := runFrom (w.holding ts n) commit
    let b := runFrom (w.holding us n') commit
    let created := createdFor t (w.holding ts n) a.2
    let created' := createdFor t (w.holding us n') b.2
    w.client.server.sweep.space.Fresh created → w.client.server.sweep.space.Fresh created' →
      SameFor t (created ++ created') a b ∧
      (MayCommit w → ReportsOn ts a.1 ∧ ReportsOn us b.1) := by
  intro a b created created' hfresh hfresh'
  have hregisters := registered_of_reachable hw
  by_cases hmay : MayCommit w
  · have htreats : ∀ {vs : List (Tracker α)} {n : Nat}, vs.Subperm w.session.trackers → t ∈ vs →
        ∃ s, Treats (w.holding vs n) t s := fun hvs hv =>
      exists_treats (fun v hv => sound_of_reachable hw v (hvs.subset hv))
        (hregisters.subperm hvs) hlink hcatalog hhandlers ⟨hmay.running, hmay.opened⟩
        (fun v hv => hready v (hvs.subset hv)) hv
    obtain ⟨s, hs⟩ := htreats (n := n) hts ht
    obtain ⟨s', hs'⟩ := htreats (n := n') hus hu
    exact ⟨hs.sameFor hs' rfl ⟨rfl, rfl, rfl⟩ (hregisters.of t (hts.subset ht)).2.2 hfresh hfresh',
      fun _ => ⟨hs.reports, hs'.reports⟩⟩
  · have hnot : ∀ {vs : List (Tracker α)} {n : Nat}, ¬MayCommit (w.holding vs n) := fun h =>
      hmay ⟨h.running, h.opened⟩
    exact ⟨sameFor_of_refused (w := w.holding ts n) (v := w.holding us n') hnot hnot rfl
      (hregisters.subperm hts) (hregisters.subperm hus) ht hu _, fun h => absurd h hmay⟩

/-- A model is ready if its records are equal to themselves, and if all queries whose results it is
to delete are over registered models. -/
theorem Registers.ready {c : Session α σ} {ts : List (Tracker α)} (h : Registers c.catalog ts)
    (hcatalog : c.catalog.Registered) (ht : t ∈ ts) (hsound : t.Sound)
    (hequal : ∀ x ∈ t.dirty, (x.2.record t.model == x.2.record t.model) = true)
    (hqueries : ∀ tree ∈ t.deleteQueries, c.catalog.Constructs tree) : Ready c t := by
  obtain ⟨hwell, hlower⟩ := h.lowerable hcatalog ht hqueries
  exact ⟨t, Tracker.absorb_self hsound hequal, Tracker.exists_prepare hwell hlower _ _ _⟩

/-- The tinies, who are assigned their ids. -/
def tinies : Layout :=
  { tag := Sample.tiny.tag, keys := .ofModel "kvm." "tiny"
    identity := (Sample.assignedId .int32).field, fields := Sample.tiny.schema.fields
    defaultOrdering := none, versionField := none }

theorem layout_tiny : Sample.tiny.schema.layout "kvm." = .ok tinies := by rfl

/-- Two heroes are stored, and a session is to delete one of them, whom a query matches, and to
write another one. Besides, it is to write two tinies, who are both to own one value. -/
def heroesAndTinies : Work Record Unit :=
  let m := Sample.hero.model
  let other := Sample.tiny.model
  let tiny (placeholder : IdentityKey) : Instance Record :=
    ⟨⟨[("id", .null), ("type", .int 3), ("a", .text "x"), ("b", .null)]⟩, .fresh placeholder⟩
  let stored : Work Record Unit :=
    ⟨.start ⟨1⟩ ⟨.standard, [CommitScript.heroes, tinies]⟩ .standard,
      .ofServer { Server.empty (.manual 0) with space := Tracker.spoiltHeroes }, ⟨⟩⟩
  let asked := (runFrom (stored, heroesOf ["gold", "red"]) (deleteQuery consultNone m)).2.1
  (runFrom (runFrom (runFrom asked (add m (newHero "new:1" .null "Cleo"))).2
    (add other (tiny "new:2"))).2 (add other (tiny "new:3"))).2

/-- One of the tinies cannot be written, whose model is sent first. With the heroes the commit does
what a commit of the heroes alone does, which succeeds. -/
theorem commit_independent_heroes :
    ∃ t ∈ heroesAndTinies.session.trackers,
      let w := heroesAndTinies
      let a := runFrom (w.holding w.session.trackers.reverse 1) commit
      let b := runFrom (w.holding [t] 5) commit
      let created := createdFor t (w.holding w.session.trackers.reverse 1) a.2
      let created' := createdFor t (w.holding [t] 5) b.2
      t.layout.name = "hero" ∧ created.length = 1 ∧ created'.length = 1 ∧
        ((reported a.1).filter (·.error.isSome)).map (·.model) = ["tiny"] ∧ b.1.isOk = true ∧
        Reachable w ∧ SameFor t (created ++ created') a b ∧
        ReportsOn w.session.trackers.reverse a.1 ∧ ReportsOn [t] b.1 := by
  have hw : Reachable heroesAndTinies :=
    ((((Reachable.start _ _ _ _ _).deleteQuery consultNone _ _).add _ _).add _ _).add _ _
  have hcatalog : heroesAndTinies.session.catalog =
      ⟨.standard, [CommitScript.heroes, tinies]⟩ := by with_unfolding_all rfl
  have hregistered : heroesAndTinies.session.catalog.Registered := by
    rw [hcatalog]
    exact (Catalog.Registered.singleton (c := ⟨.standard, [CommitScript.heroes]⟩) rfl
      CommitScript.layout_hero).append layout_tiny (by decide)
  have hqueries : ∃ tree, (heroesOf ["gold", "red"]).query.construct consultNone = .ok tree ∧
      heroesAndTinies.session.trackers.flatMap (·.deleteQueries) = [tree] :=
    ⟨_, rfl, by with_unfolding_all rfl⟩
  obtain ⟨tree, htree, hqueries⟩ := hqueries
  have hequal : ∀ t ∈ heroesAndTinies.session.trackers, ∀ x ∈ t.dirty,
      (x.2.record t.model == x.2.record t.model) = true := by decide +kernel
  have hready : ∀ t ∈ heroesAndTinies.session.trackers, Ready heroesAndTinies.session t := by
    intro t ht
    refine (registered_of_reachable hw).ready hregistered ht (sound_of_reachable hw t ht)
      (hequal t ht) fun q hq => ⟨_, consultNone, (heroesOf ["gold", "red"]).query, ?_, ?_⟩
    · rw [hcatalog]
      exact List.mem_cons_self
    · have hmem := List.mem_flatMap_of_mem (f := Tracker.deleteQueries) ht hq
      rw [hqueries, List.mem_singleton] at hmem
      rw [hmem, htree]
  have hrun : ∃ t ∈ heroesAndTinies.session.trackers,
      let w := heroesAndTinies
      let a := runFrom (w.holding w.session.trackers.reverse 1) commit
      let b := runFrom (w.holding [t] 5) commit
      let created := createdFor t (w.holding w.session.trackers.reverse 1) a.2
      let created' := createdFor t (w.holding [t] 5) b.2
      t.layout.name = "hero" ∧ created.length = 1 ∧ created'.length = 1 ∧
        ((reported a.1).filter (·.error.isSome)).map (·.model) = ["tiny"] ∧ b.1.isOk = true ∧
        (created.Nodup ∧ ∀ key ∈ created, w.client.server.sweep.space.data? key = none) ∧
        created'.Nodup ∧ ∀ key ∈ created', w.client.server.sweep.space.data? key = none := by
    decide +kernel
  obtain ⟨t, ht, hname, hcreated, hcreated', hfailure, hsuccess, ⟨hnodup, habsent⟩, hnodup',
    habsent'⟩ := hrun
  obtain ⟨hsame, hreports⟩ := commit_independent hw (by decide +kernel) hregistered
    (by with_unfolding_all rfl) hready (List.reverse_perm _).subperm
    (List.singleton_sublist.mpr ht).subperm (List.mem_reverse.mpr ht) List.mem_cons_self
    ⟨hnodup, habsent⟩ ⟨hnodup', habsent'⟩
  exact ⟨t, ht, hname, hcreated, hcreated', hfailure, hsuccess, hw, hsame,
    hreports (by decide +kernel)⟩

end Independence

end Session

end KeyedRecords

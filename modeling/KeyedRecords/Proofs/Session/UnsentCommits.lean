import KeyedRecords.Proofs.Session.Transactions

/-!
# Commits that stop before they send anything

A commit may stop at a handler, at an edit, or at a delete that has no plan. The store, the keys of
all partitions and what is to be deleted are as before then (`Tracker.Reworked`). Edits are taken
over one by one, though, so that those in front of a refused one have been made: the instances are
as before exactly if every edit that would alter one stands behind a refused one
(`Session.unsent_commit`).
-/

namespace KeyedRecords

namespace Tracker

open Operation

variable {α : Type} {t t' t'' : Tracker α} {p q : Partition} {key : IdentityKey} {i i' : Instance α}
  {edited : EventInstance} {edits : List EventInstance}

/-- To put back what is there changes nothing. -/
theorem put_self (h : (t.held p)[key]? = some i) : t.put p key i = t := by
  have hinsert : (t.held p).insert key i = t.held p := by
    refine Std.ExtTreeMap.ext_getElem? fun k => ?_
    rw [Table.getElem?_insert]
    split
    next heq => rw [heq, h]
    next => rfl
  unfold put
  rw [hinsert]
  cases p <;> rfl

/-- An edit puts another instance in the place of the one that is to be written. -/
def Alters (t : Tracker α) (edited : EventInstance) : Prop :=
  ∃ p i i', t.Edits edited p i ∧ t.rebuild i edited = .ok i' ∧ i' ≠ i

/-- An edit is refused. -/
def Rejects (t : Tracker α) (edited : EventInstance) : Prop :=
  ∃ p i e, t.Edits edited p i ∧ t.rebuild i edited = .error e

/-- An edit is about one instance. -/
theorem Edits.unique (h : t.Edits edited p i) (h' : t.Edits edited q i') : p = q ∧ i = i' := by
  obtain rfl := Option.some.inj (h.partition.symm.trans h'.partition)
  exact ⟨rfl, Option.some.inj (h.held.symm.trans h'.held)⟩

/-- What is refused alters nothing. -/
theorem Rejects.not_alters (h : t.Rejects edited) : ¬t.Alters edited := by
  obtain ⟨p, i, e, hedits, hrebuild⟩ := h
  rintro ⟨q, j, j', hedits', hrebuild', -⟩
  obtain ⟨rfl, rfl⟩ := hedits.unique hedits'
  cases hrebuild.symm.trans hrebuild'

/-- An edit is refused, or alters an instance, or leaves all as it is. -/
theorem absorbOne_cases (t : Tracker α) (edited : EventInstance) :
    (t.Rejects edited ∧ ∃ e, runFrom t (absorbOne edited) = (.error e, t)) ∨
    (t.Alters edited ∧ ∃ p i i', (t.held p)[edited.key]? = some i ∧ i' ≠ i ∧
      runFrom t (absorbOne edited) = (.ok ⟨⟩, t.put p edited.key i')) ∨
    (¬t.Rejects edited ∧ ¬t.Alters edited ∧ runFrom t (absorbOne edited) = (.ok ⟨⟩, t)) := by
  by_cases hedits : ∃ p i, t.Edits edited p i
  · obtain ⟨p, i, hedits⟩ := hedits
    have hrun := hedits.runFrom_absorbOne
    cases hrebuild : t.rebuild i edited with
    | error e =>
      rw [hrebuild] at hrun
      exact .inl ⟨⟨p, i, e, hedits, hrebuild⟩, _, hrun⟩
    | ok i' =>
      rw [hrebuild] at hrun
      by_cases hsame : i' = i
      · -- the instance that is made of the record is the one that is there
        subst hsame
        have hput := congrArg (Prod.mk (Except.ok ⟨⟩ : Except Stop Unit)) (put_self hedits.held)
        refine .inr (.inr ⟨?_, ?_, hrun.trans hput⟩)
        · rintro ⟨q, j, e, hedits', hrebuild'⟩
          obtain ⟨rfl, rfl⟩ := hedits.unique hedits'
          cases hrebuild.symm.trans hrebuild'
        · rintro ⟨q, j, j', hedits', hrebuild', hne⟩
          obtain ⟨rfl, rfl⟩ := hedits.unique hedits'
          exact hne (Except.ok.inj (hrebuild'.symm.trans hrebuild))
      · exact .inr (.inl ⟨⟨p, i, i', hedits, hrebuild, hsame⟩, p, i, i', hedits.held, hsame, hrun⟩)
  · refine .inr (.inr ⟨?_, ?_, runFrom_absorbOne_of_not fun p i h => hedits ⟨p, i, h⟩⟩)
    · exact fun ⟨p, i, _, h, _⟩ => hedits ⟨p, i, h⟩
    · exact fun ⟨p, i, _, h, _⟩ => hedits ⟨p, i, h⟩

/-- What stops is refused. -/
theorem rejects_of_isOk (h : (runFrom t (absorbOne edited)).1.isOk = false) : t.Rejects edited := by
  obtain ⟨hrejects, -⟩ | ⟨-, p, i, i', -, -, hrun⟩ | ⟨-, -, hrun⟩ := absorbOne_cases t edited
  · exact hrejects
  · rw [hrun] at h
    cases h
  · rw [hrun] at h
    cases h

/-- Edits have made another tracker of one. What is to be deleted and what was read are as before;
each partition has the keys that it had, and each instance its id and its state. -/
structure Reworked (t t' : Tracker α) : Prop where
  alike : t.Alike t'
  loaded : t'.loaded = t.loaded
  kept : ∀ p (key : IdentityKey) i', (t'.held p)[key]? = some i' →
    ∃ i, (t.held p)[key]? = some i ∧ i'.state = i.state ∧ i'.id? t.model = i.id? t.model

theorem Reworked.refl (t : Tracker α) : Reworked t t :=
  ⟨.refl t, rfl, fun _ _ i hi => ⟨i, hi, rfl, rfl⟩⟩

/-- Edits rework a tracker. -/
theorem absorb_reworked (edits : List EventInstance) (t : Tracker α) :
    t.Reworked (runFrom t (absorb edits)).2 := by
  refine Meets.behind (keeps_absorb_of (P := t.Reworked) ?_) (.refl t)
  intro edited _ t' p i i' h hedits hrebuild
  have hp : p ≠ .deleted ∧ p ≠ .loaded := by
    obtain rfl | rfl := hedits.written <;> simp
  refine ⟨h.alike.trans (.put hedits.held hp.1 i'), ?_, fun q key j hj => ?_⟩
  · rw [← h.loaded]
    cases p <;> first | rfl | exact absurd rfl hp.2
  · -- an instance that has just been made has id and state of the one in whose place it is
    rw [held_put] at hj
    split at hj
    next heq =>
      obtain ⟨rfl, rfl⟩ := heq
      obtain rfl := Option.some.inj hj
      obtain ⟨i₀, hi₀, hstate, hid⟩ := h.kept q _ i hedits.held
      have hmodel := (terms_eq_iff.mp h.alike.terms).1
      refine ⟨i₀, hi₀, (state_of_rebuild hrebuild).trans hstate, ?_⟩
      have hid' := id?_of_rebuild hrebuild
      rw [hmodel] at hid'
      exact hid'.trans hid
    next => exact h.kept q key j hj

/-- Edits of other keys leave an instance as it is. -/
theorem held_absorb (hkey : ∀ edited ∈ edits, edited.key ≠ key) (t : Tracker α) (p : Partition) :
    ((runFrom t (absorb edits)).2.held p)[key]? = (t.held p)[key]? := by
  refine Meets.behind (keeps_absorb_of
    (P := fun t' => (t'.held p)[key]? = (t.held p)[key]?) ?_) rfl
  intro edited hedited t' q i i' h _ _
  rw [held_put, if_neg fun heq => hkey edited hedited heq.2.symm]
  exact h

/-- Every edit that would alter an instance stands behind one that is refused. -/
def Spared (found : List (Tracker α × EventInstance)) : Prop :=
  ∀ front x back, found = front ++ x :: back → x.1.Alters x.2 → ∃ y ∈ front, y.1.Rejects y.2

theorem spared_nil : Spared ([] : List (Tracker α × EventInstance)) := by
  intro front x back h
  cases front <;> cases h

/-- The first edit alters nothing, and if it is not refused this goes on. -/
theorem spared_cons_iff {x : Tracker α × EventInstance} {rest : List (Tracker α × EventInstance)} :
    Spared (x :: rest) ↔ ¬x.1.Alters x.2 ∧ (x.1.Rejects x.2 ∨ Spared rest) := by
  constructor
  · intro h
    refine ⟨fun hx => ?_, ?_⟩
    · obtain ⟨y, hy, -⟩ := h [] x rest rfl hx
      cases hy
    · by_cases hx : x.1.Rejects x.2
      · exact .inl hx
      · refine .inr fun front y back hrest hy => ?_
        obtain ⟨z, hz, hrejects⟩ := h (x :: front) y back (by rw [hrest]; rfl) hy
        rcases List.mem_cons.mp hz with rfl | hz
        · exact absurd hrejects hx
        · exact ⟨z, hz, hrejects⟩
  · rintro ⟨hx, hrest⟩ front y back hfound hy
    cases front with
    | nil =>
      obtain ⟨rfl, -⟩ := List.cons.inj hfound
      exact absurd hy hx
    | cons z front =>
      obtain ⟨rfl, rfl⟩ := List.cons.inj hfound
      obtain hrejects | hrest := hrest
      · exact ⟨x, List.mem_cons_self, hrejects⟩
      · obtain ⟨u, hu, hrejects⟩ := hrest front y back rfl hy
        exact ⟨u, List.mem_cons_of_mem _ hu, hrejects⟩

variable {more : List (Tracker α × EventInstance)}

/-- A tracker stays as it is if its edits are spared, and if none is refused this goes on. -/
theorem absorb_of_spared (h : Spared (edits.map (t, ·) ++ more)) :
    (∃ e, runFrom t (absorb edits) = (.error e, t)) ∨
      runFrom t (absorb edits) = (.ok ⟨⟩, t) ∧ Spared more := by
  induction edits with
  | nil => exact .inr ⟨rfl, h⟩
  | cons edited rest ih =>
    rw [List.map_cons, List.cons_append, spared_cons_iff] at h
    obtain ⟨halters, hrest⟩ := h
    rw [absorb]
    obtain ⟨-, e, hrun⟩ | ⟨hmore, -⟩ | ⟨hrejects, -, hrun⟩ := absorbOne_cases t edited
    · exact .inl ⟨e, runFrom_bind_error hrun _⟩
    · exact absurd hmore halters
    · rw [runFrom_bind_ok hrun]
      exact ih (hrest.resolve_left hrejects)

/-- Conversely, if a tracker has stayed as it was and no two edits are of one key, its edits are
spared, and so are those that follow unless one was refused. -/
theorem spared_of_absorb (hnodup : (edits.map (·.key)).Nodup)
    (hsame : (runFrom t (absorb edits)).2 = t)
    (hmore : ∀ u, (runFrom t (absorb edits)).1 = .ok u → Spared more) :
    Spared (edits.map (t, ·) ++ more) := by
  induction edits with
  | nil => exact hmore ⟨⟩ rfl
  | cons edited rest ih =>
    obtain ⟨hnew, hnodup⟩ := List.nodup_cons.mp hnodup
    rw [List.map_cons, List.cons_append, spared_cons_iff]
    rw [absorb] at hsame hmore
    obtain ⟨hrejects, e, hrun⟩ | ⟨-, p, i, i', hi, hne, hrun⟩ | ⟨hrejects, halters, hrun⟩ :=
      absorbOne_cases t edited
    · exact ⟨hrejects.not_alters, .inl hrejects⟩
    · -- no other edit puts the old instance back
      rw [runFrom_bind_ok hrun] at hsame
      have hother : ∀ x ∈ rest, x.key ≠ edited.key := fun x hx heq =>
        hnew (List.mem_map.mpr ⟨x, hx, heq⟩)
      have hkept := held_absorb hother (t.put p edited.key i') p
      rw [hsame, hi, held_put, if_pos ⟨rfl, rfl⟩] at hkept
      exact absurd (Option.some.inj hkept).symm hne
    · rw [runFrom_bind_ok hrun] at hsame hmore
      exact ⟨halters, .inr (ih hnodup hsame hmore)⟩

/-- The edits of all models, in the order in which they are taken over. -/
def editsOf (ts : List (Tracker α)) (found : List (List EventInstance)) :
    List (Tracker α × EventInstance) :=
  (ts.zip found).flatMap fun (t, edits) => edits.map (t, ·)

/-- Trackers stay as they are if their edits are spared. -/
theorem each_of_spared {ts : List (Tracker α)} {found : List (List EventInstance)}
    (h : Spared (editsOf ts found)) : (runFrom ts (Operation.each absorb found)).2 = ts := by
  induction found generalizing ts with
  | nil => rfl
  | cons edits rest ih =>
    cases ts with
    | nil => rfl
    | cons t others =>
      rw [runFrom_each_cons]
      -- the edits of the first tracker stand in front of those of the others
      obtain ⟨e, hrun⟩ | ⟨hrun, hrest⟩ := absorb_of_spared h
      · rw [hrun]
      · have hothers := ih hrest
        rw [hrun]
        cases hall : runFrom others (Operation.each absorb rest) with
        | mk result others' =>
          rw [hall] at hothers
          cases hothers
          cases result <;> rfl

/-- Conversely, if trackers have stayed as they were, and no two edits of a model are of one key,
the edits are spared. -/
theorem spared_of_each {ts : List (Tracker α)} {found : List (List EventInstance)}
    (hnodup : ∀ edits ∈ found, (edits.map (·.key)).Nodup)
    (hsame : (runFrom ts (Operation.each absorb found)).2 = ts) : Spared (editsOf ts found) := by
  induction found generalizing ts with
  | nil =>
    rw [editsOf, List.zip_nil_right]
    exact spared_nil
  | cons edits rest ih =>
    cases ts with
    | nil => exact spared_nil
    | cons t others =>
      obtain ⟨hnodup, hrest⟩ := List.forall_mem_cons.mp hnodup
      rw [runFrom_each_cons] at hsame
      cases hrun : runFrom t (absorb edits) with
      | mk result t' =>
        rw [hrun] at hsame
        have hfirst : t' = t ∧ ∀ u, result = .ok u →
            (runFrom others (Operation.each absorb rest)).2 = others := by
          cases result with
          | error e => exact ⟨(List.cons.inj hsame).1, nofun⟩
          | ok b =>
            cases hall : runFrom others (Operation.each absorb rest) with
            | mk result others' =>
              rw [hall] at hsame
              cases result <;> exact ⟨(List.cons.inj hsame).1, fun _ _ => (List.cons.inj hsame).2⟩
        obtain ⟨rfl, hothers⟩ := hfirst
        refine spared_of_absorb hnodup (by rw [hrun]) fun u hu => ?_
        rw [hrun] at hu
        exact ih hrest (hothers u hu)

end Tracker

namespace Session

open Operation

variable {α σ β : Type} {w w' : Work α σ} {stop : Stop}

/-- What handlers make of the records that a commit is to write. -/
def firing : Working α σ (List (List EventInstance)) := do
  let tx ← transactionToCommit
  viaClient Client.checkpoint
  fireAll tx (← current).trackers

/-- All that a commit does before it sends anything. -/
def preparing : Working α σ (List Prepared) := do
  discard editing
  prepareAll (← current).trackers

/-- Handlers that stop a commit leave all trackers as they are, and else each tracker takes over
its edits. -/
theorem trackers_editing (w : Work α σ) :
    (runFrom w editing).2.session.trackers =
      match (runFrom w firing).1 with
      | .ok found => (runFrom w.session.trackers (Operation.each Tracker.absorb found)).2
      | .error _ => w.session.trackers := by
  have hfiring : Keeps (fun w₁ : Work α σ => w₁.session.trackers = w.session.trackers) firing :=
    (keeps_transactionToCommit fun _ _ _ _ h => h).bind fun tx => (keeps_checkpoint _).bind fun _ =>
      (current_meets _).bind fun _ => (keeps_fireAll (fun _ _ h => h) tx _).pre fun _ h => h.2
  have htrackers := hfiring.behind rfl
  -- a commit goes on with the edits just where the handlers have stopped to make them
  have hediting := runFrom_bind_bind w transactionToCommit
    (fun tx => do
      viaClient Client.checkpoint
      fireAll tx (← current).trackers)
    fun tx found => do
      discard (viaTrackers (Operation.each Tracker.absorb found))
      return tx
  simp only [bind_assoc] at hediting
  unfold firing at htrackers ⊢
  unfold editing absorbEdits
  simp only [bind_assoc]
  split at hediting
  next found w₁ hrun =>
    obtain ⟨tx, hediting⟩ := hediting
    have hbehind : runFrom w₁ (viaTrackers (Operation.each Tracker.absorb found)) = _ :=
      runFrom_viaTrackers _
    rw [hrun] at htrackers ⊢
    dsimp only at htrackers ⊢
    rw [htrackers] at hbehind
    rw [hediting]
    generalize runFrom w.session.trackers (Operation.each Tracker.absorb found) = taken at hbehind ⊢
    obtain ⟨result, trackers⟩ := taken
    cases result with
    | ok _ => rw [runFrom_bind_ok (runFrom_discard_ok hbehind)]; rfl
    | error e => rw [runFrom_bind_error (runFrom_discard_error hbehind)]
  next stop w₁ hrun =>
    rw [hrun] at htrackers ⊢
    rw [hediting]
    exact htrackers

/-- What stops a commit before it sends anything is what it answers. -/
theorem runFrom_commit_of_preparing (h : runFrom w preparing = (.error stop, w')) :
    runFrom w commit = (.error stop, w') := by
  rw [commit_eq]
  unfold preparing at h
  cases hediting : runFrom w editing with
  | mk result w₁ =>
    cases result with
    | error e =>
      rw [runFrom_bind_error (runFrom_discard_error hediting)] at h
      cases h
      exact runFrom_bind_error hediting _
    | ok tx =>
      rw [runFrom_bind_ok (runFrom_discard_ok hediting)] at h
      rw [runFrom_bind_ok hediting]
      refine runFrom_bind_error ?_ _
      unfold answering
      rw [runFrom_bind_ok (runFrom_current w₁)] at h ⊢
      exact runFrom_bind_error h _

/-- A transaction that is not open stops a commit before its handlers. -/
theorem isOpen_of_editing {tx : TransactionId} (h : runFrom w editing = (.ok tx, w')) :
    ∀ t, w.session.transaction = some t → t.isOpen = true := by
  intro t ht
  unfold editing at h
  obtain ⟨id, w₁, hfound, -⟩ := runFrom_bind_ok_iff.mp h
  unfold transactionToCommit at hfound
  rw [runFrom_bind_ok (runFrom_current w)] at hfound
  simp only [ht] at hfound
  split at hfound
  next hopen => exact hopen
  next => cases hfound

/-- A commit that nothing stops before it sends anything comes to its report. -/
theorem commit_of_preparing (hw : Sound w) (hlink : w.client.fault = .none) {ps : List Prepared}
    (h : runFrom w preparing = (.ok ps, w')) :
    ∃ report, (runFrom w commit).1 = verdict report := by
  unfold preparing at h
  obtain ⟨_, w₁, hdiscard, h⟩ := runFrom_bind_ok_iff.mp h
  rw [runFrom_bind_ok (runFrom_current w₁)] at h
  obtain ⟨tx, hediting⟩ := runFrom_discard_ok_iff.mp hdiscard
  obtain ⟨n, hcommitting⟩ := editing_ok (isOpen_of_editing hediting) hediting
  obtain ⟨t, ht, -, hisOpen⟩ := hcommitting.transaction
  have hlink₁ := ((keeps_editing_link w).ok ⟨rfl, rfl⟩ hediting).2.trans hlink
  obtain ⟨found, w₂, hanswering⟩ := answering_of_prepareAll hlink₁ ⟨t, ht, hisOpen⟩ h
  obtain ⟨shares, report, w₃, -, hcommits⟩ := exists_commits_of_sound hw hlink hediting hanswering
  exact ⟨report, congrArg Prod.fst hcommits.runFrom_commit⟩

/-- What a commit leaves behind that stops before it sends anything. -/
structure Unsent (w w' : Work α σ) : Prop where
  /-- The store is as it was, and all of the session but its transaction and its instances. -/
  beside : ∃ transaction trackers supply app, w' =
    { w with
      session := { w.session with transaction, trackers }
      client := { w.client with supply }
      app }
  reworked : List.Forall₂ Tracker.Reworked w.session.trackers w'.session.trackers
  /-- The instances are as they were if a handler, or what comes before handlers, has stopped the
  commit. -/
  vetoed : ∀ stop, (runFrom w firing).1 = .error stop →
    w'.session.trackers = w.session.trackers
  /-- Behind handlers, they are if each edit that would alter one stands behind a refused one. -/
  spared : ∀ found, (runFrom w firing).1 = .ok found →
    Tracker.Spared (Tracker.editsOf w.session.trackers found) →
      w'.session.trackers = w.session.trackers
  /-- And only then, unless handlers edit an instance twice. -/
  altered : ∀ found, (runFrom w firing).1 = .ok found →
    (∀ edits ∈ found, (edits.map (·.key)).Nodup) →
      w'.session.trackers = w.session.trackers →
        Tracker.Spared (Tracker.editsOf w.session.trackers found)

/-- What lasts behind the edits lasts until something is sent. -/
theorem preparing_of_editing {P : Work α σ → Prop} (hP : Lasting P) (h : P (runFrom w editing).2) :
    P (runFrom w preparing).2 := by
  have hediting : Meets (· = w) editing (fun _ => P) fun _ => P := by
    refine keeps_of_behind ?_
    rintro _ rfl
    exact h
  exact (hediting.discard.bind fun _ => (current_meets _).bind fun _ =>
    (keeps_prepareAll hP.names _).pre fun _ h => h.2).behind rfl

/-- Nothing is sent while a commit is prepared, and edits are all that happens to trackers. -/
theorem unsent_of_preparing (w : Work α σ) : Unsent w (runFrom w preparing).2 := by
  have htrackers : (runFrom w preparing).2.session.trackers =
      (runFrom w editing).2.session.trackers :=
    preparing_of_editing (P := fun w' : Work α σ =>
      w'.session.trackers = (runFrom w editing).2.session.trackers) (fun _ _ _ _ h => h) rfl
  rw [trackers_editing] at htrackers
  constructor
  case beside =>
    have hlasting : Lasting fun w' : Work α σ => ∃ transaction trackers supply app, w' =
        { w with
          session := { w.session with transaction, trackers }
          client := { w.client with supply }
          app } := by
      rintro _ transaction app supply ⟨_, trackers, _, _, rfl⟩
      exact ⟨transaction, trackers, supply, app, rfl⟩
    refine preparing_of_editing hlasting ((keeps_editing_beside hlasting ?_).behind ?_)
    · -- the trackers may be any, whatever else has become of the session
      rintro _ trackers ⟨transaction, _, supply, app, rfl⟩
      exact ⟨transaction, trackers, supply, app, rfl⟩
    · exact ⟨_, _, _, _, rfl⟩
  case reworked =>
    rw [htrackers]
    cases (runFrom w firing).1 with
    | ok found =>
      exact forall₂_each Tracker.Reworked.refl (fun edits t => Tracker.absorb_reworked edits t)
        found _
    | error stop => exact List.forall₂_same.mpr fun t _ => .refl t
  case vetoed =>
    intro stop hfiring
    rw [htrackers, hfiring]
  case spared =>
    intro found hfiring hspared
    rw [htrackers, hfiring]
    exact Tracker.each_of_spared hspared
  case altered =>
    intro found hfiring hnodup hsame
    rw [htrackers, hfiring] at hsame
    exact Tracker.spared_of_each hnodup hsame

/-- A commit that stops before it sends anything changes neither the store nor what is pending, nor
the keys of instances; the instances are as they were just if each edit that would alter one stands
behind a refused one. Every other commit over a working link comes to its report. -/
theorem unsent_commit (w : Work α σ) :
    (∀ stop w', runFrom w preparing = (.error stop, w') →
      runFrom w commit = (.error stop, w') ∧ Unsent w w') ∧
    (Sound w → w.client.fault = .none → ∀ ps w', runFrom w preparing = (.ok ps, w') →
      ∃ report, (runFrom w commit).1 = verdict report) := by
  refine ⟨fun stop w' h => ⟨runFrom_commit_of_preparing h, ?_⟩,
    fun hw hlink ps w' h => commit_of_preparing hw hlink h⟩
  have hunsent := unsent_of_preparing w
  rwa [h] at hunsent

section Examples

/-- A session with two new heroes, the first of which has an id. A handler edits their records. -/
def editedHeroes (edit : IdentityKey → Record → Record) : Work Record Unit :=
  let m : Model Record := Sample.hero.model
  let handler : Handler Unit := fun _ => modify fun (instances, app) =>
    (instances.map fun i => { i with record := edit i.key i.record }, app)
  let w : Work Record Unit :=
    { amongHeroes with session := amongHeroes.session.addHandler .beforeCommit handler }
  (runFrom (runFrom w (add m (newHero "new:1" (.int 1) "Ada"))).2
    (add m (newHero "new:2" .null "Brin"))).2

theorem reachable_editedHeroes (edit : IdentityKey → Record → Record) :
    Reachable (editedHeroes edit) :=
  (((Reachable.start _ _ _ _ _).addHandler _ _).add _ _).add _ _

/-- What stops a commit for an edit that is refused. -/
theorem exists_refused {op : Working α σ β} {message : String}
    (h : (match (runFrom w op).1 with
      | .error (.failed (.consistency m)) => m == message
      | _ => false) = true) :
    ∃ w', runFrom w op = (.error (.failed (.consistency message)), w') := by
  cases hrun : runFrom w op with
  | mk result w' =>
    rw [hrun] at h
    dsimp only at h
    split at h
    next m => exact ⟨w', by rw [eq_of_beq h]⟩
    next => cases h

/-- The names of the heroes that are to be written. -/
def namesToWrite (w : Work Record Unit) : List (Option String) :=
  w.session.trackers.flatMap fun t => t.dirty.map fun (_, i) =>
    match i.value.get? "name" with
    | some (.text name) => some name
    | _ => none

/-- The first of two edits is refused, and the second one is not made. Without edits a commit comes
to its report. -/
theorem unsent_commit_heroes :
    (∃ (w w' : Work Record Unit) (stop : Stop), Reachable w ∧ w.session.dirtyCount = 2 ∧
      runFrom w preparing = (.error stop, w') ∧ runFrom w commit = (.error stop, w') ∧
      Unsent w w' ∧ w'.session.trackers = w.session.trackers) ∧
    ∃ (w : Work Record Unit) (report : CommitReport Error), w.session.dirtyCount = 2 ∧
      (runFrom w commit).1 = verdict report := by
  constructor
  · let w := editedHeroes fun key r =>
      if key = "new:1" then r.set "id" (.int 2) else r.set "name" (.text "Zed")
    obtain ⟨w', h⟩ : ∃ w', runFrom w preparing = (.error (.failed (.consistency
        "a before-commit handler changed the id of hero instance new:1")), w') :=
      exists_refused (by decide +kernel)
    have hfound : (match (runFrom w firing).1 with
        | .ok found => (Tracker.editsOf w.session.trackers found).head?.all fun x =>
          !(runFrom x.1 (Tracker.absorbOne x.2)).1.isOk
        | .error _ => false) = true := by decide +kernel
    obtain ⟨hcommit, hunsent⟩ := (unsent_commit w).1 _ w' h
    refine ⟨w, w', _, reachable_editedHeroes _, by decide +kernel, h, hcommit, hunsent, ?_⟩
    split at hfound
    next found hfiring =>
      refine hunsent.spared found hfiring ?_
      cases hedits : Tracker.editsOf w.session.trackers found with
      | nil => exact Tracker.spared_nil
      | cons x rest =>
        rw [hedits] at hfound
        have hrejects := Tracker.rejects_of_isOk (by simpa using hfound)
        exact Tracker.spared_cons_iff.mpr ⟨hrejects.not_alters, .inl hrejects⟩
    next => cases hfound
  · have hw := reachable_editedHeroes fun _ r => r
    have hok : (runFrom (editedHeroes fun _ r => r) preparing).1.isOk = true := by decide +kernel
    obtain ⟨ps, w', h⟩ := exists_ok_of_isOk hok
    obtain ⟨report, hreport⟩ :=
      (unsent_commit _).2 (sound_of_reachable hw) (by decide +kernel) ps w' h
    exact ⟨_, report, by decide +kernel, hreport⟩

/-- The first of two edits gives a hero another name, and the second one is refused: nothing is
sent, but the hero keeps its new name. -/
theorem altered_despite_refusal :
    ∃ (w w' : Work Record Unit), Reachable w ∧
      runFrom w commit = (.error (.failed (.consistency
        "a before-commit handler changed the id of hero instance new:2")), w') ∧
      w'.client.server = w.client.server ∧
      namesToWrite w = [some "Ada", some "Brin"] ∧ namesToWrite w' = [some "Zed", some "Brin"] := by
  let w := editedHeroes fun _ r => (r.set "name" (.text "Zed")).set "id" (.int 1)
  obtain ⟨w', h⟩ : ∃ w', runFrom w preparing = (.error (.failed (.consistency
      "a before-commit handler changed the id of hero instance new:2")), w') :=
    exists_refused (by decide +kernel)
  have hw' : (runFrom w preparing).2 = w' := congrArg Prod.snd h
  obtain ⟨transaction, trackers, supply, app, hbeside⟩ := (unsent_of_preparing w).beside
  refine ⟨w, w', reachable_editedHeroes _, runFrom_commit_of_preparing h, ?_, by decide +kernel, ?_⟩
  · rw [← hw', hbeside]
  · rw [← hw']
    decide +kernel

end Examples

end Session

end KeyedRecords

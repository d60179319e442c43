import KeyedRecords.Proofs.Commit.History
import KeyedRecords.Proofs.Session.Partitions
import KeyedRecords.Session.Commit

/-!
# What sessions lead to

Whatever a session has been through, its trackers are sound: every key is in one partition at most,
and every instance stands as its partition says (`Session.identityMap_of_reachable`). An operation
of a session, also one that stops half-way, does nothing to its trackers but touch models, forget
all of them, and what the operations of single trackers do (`Tracker.Changes`). So it keeps whatever
these keep (`Session.invariant_of_reachable`).
-/

namespace KeyedRecords

namespace Operation

variable {τ β γ : Type}

/-- An operation of which nothing is known leads somewhere. -/
theorem meets_true (op : Operation τ β) :
    Meets (fun _ => True) op (fun _ _ => True) fun _ _ => True :=
  .intro (fun _ _ _ _ _ => trivial) fun _ _ _ _ _ => trivial

/-- Operations on several states, the first of which is at hand. -/
theorem runFrom_each_cons (f : γ → Operation τ β) (c : γ) (rest : List γ) (t : τ)
    (others : List τ) :
    runFrom (t :: others) (each f (c :: rest)) =
      match runFrom t (f c) with
      | (.error s, t) => (.error s, t :: others)
      | (.ok b, t) =>
        match runFrom others (each f rest) with
        | (.error s, others) => (.error s, t :: others)
        | (.ok bs, others) => (.ok (b :: bs), t :: others) := rfl

/-- Operations on several states relate each of them to what becomes of it, if they do so one by
one. -/
theorem forall₂_each {R : τ → τ → Prop} (hrefl : ∀ t, R t t) {f : γ → Operation τ β}
    (h : ∀ c t, R t (runFrom t (f c)).2) (cs : List γ) (ts : List τ) :
    List.Forall₂ R ts (runFrom ts (each f cs)).2 := by
  induction cs generalizing ts with
  | nil => exact List.forall₂_same.mpr fun t _ => hrefl t
  | cons c rest ih =>
    cases ts with
    | nil => exact .nil
    | cons t others =>
      have hfirst := h c t
      rw [runFrom_each_cons]
      cases hrun : runFrom t (f c) with
      | mk result t' =>
        rw [hrun] at hfirst
        cases result with
        | error e => exact .cons hfirst (List.forall₂_same.mpr fun t _ => hrefl t)
        | ok b =>
          have hothers := ih others
          cases hall : runFrom others (each f rest) with
          | mk result others' =>
            rw [hall] at hothers
            cases result <;> exact .cons hfirst hothers

/-- What is in the second of two related lists is related to something in the first. -/
theorem exists_of_forall₂ {R : β → γ → Prop} {as : List β} {bs : List γ}
    (h : List.Forall₂ R as bs) {b : γ} (hb : b ∈ bs) : ∃ a ∈ as, R a b := by
  induction h with
  | nil => cases hb
  | @cons a b' as bs hab _ ih =>
    rcases List.mem_cons.mp hb with rfl | hb
    · exact ⟨a, List.mem_cons_self, hab⟩
    · obtain ⟨a', ha', hab'⟩ := ih hb
      exact ⟨a', List.mem_cons_of_mem _ ha', hab'⟩

end Operation

/-- What the operations of a tracker make of one, however they end. -/
inductive Tracker.Changes {α : Type} (t : Tracker α) : Tracker α → Prop
  | add (i : Instance α) : Changes t (runFrom t (Tracker.add i)).2
  | delete (i : Instance α) : Changes t (runFrom t (Tracker.delete i)).2
  | deleteId (id : String) : Changes t (runFrom t (Tracker.deleteId id)).2
  | deleteMatching (tree : Tree) : Changes t (runFrom t (Tracker.deleteMatching tree)).2
  | expunge (key : IdentityKey) : Changes t (runFrom t (Tracker.expunge key)).2
  /-- An instance is held that stands as stored ones do. -/
  | markLoaded {i : Instance α} (hi : Partition.loaded.Suits i.state) :
    Changes t (runFrom t (Tracker.markLoaded i)).2
  | absorb (edits : List EventInstance) : Changes t (runFrom t (Tracker.absorb edits)).2
  | applyReply (p : Prepared) (reply : Except BackendError BatchReply)
    (deleteFailure : Option BackendError) :
    Changes t (runFrom t (Tracker.applyReply p reply deleteFailure)).2

namespace Session

open Operation

variable {α σ β γ : Type} {w : Work α σ} {I : Catalog → List (Tracker α) → Prop}

/-- A property of the trackers of a session that its operations keep. -/
structure Invariant (I : Catalog → List (Tracker α) → Prop) : Prop where
  /-- A session that holds nothing has it. -/
  nil : ∀ c, I c []
  /-- A registered model may be touched that was not. -/
  touch : ∀ c ts (m : Model α) l, I c ts → (∀ t ∈ ts, t.layout.tag ≠ m.tag) →
    c.layout m.tag = .ok l → I c (ts ++ [.empty m l])
  /-- A tracker may change. -/
  change : ∀ c ts us t t', I c (ts ++ t :: us) → t.Changes t' → I c (ts ++ t' :: us)

/-- What holds of every tracker by itself, and that its operations keep. -/
theorem Invariant.ofEach {P : Catalog → Tracker α → Prop}
    (hempty : ∀ c (m : Model α) l, c.layout m.tag = .ok l → P c (.empty m l))
    (hchange : ∀ c t t', P c t → t.Changes t' → P c t') :
    Invariant fun c ts => ∀ t ∈ ts, P c t := by
  constructor
  case nil => exact fun c t ht => nomatch ht
  case touch =>
    intro c ts m l h _ hl t ht
    rcases List.mem_append.mp ht with ht | ht
    · exact h t ht
    · obtain rfl := List.mem_singleton.mp ht
      exact hempty c m l hl
  case change =>
    intro c ts us t t' h ht u hu
    rw [List.forall_mem_append, List.forall_mem_cons] at h
    rcases List.mem_append.mp hu with hu | hu
    · exact h.1 u hu
    · rcases List.mem_cons.mp hu with rfl | hu
      · exact hchange c t u h.2.1 ht
      · exact h.2.2 u hu

/-- The trackers of the session have a property. -/
def Holds (I : Catalog → List (Tracker α) → Prop) (w : Work α σ) : Prop :=
  I w.session.catalog w.session.trackers

/-- All trackers of the session are sound. -/
def Sound (w : Work α σ) : Prop := ∀ t ∈ w.session.trackers, t.Sound

/-- Trackers change one by one. -/
theorem Invariant.each (hI : Invariant I) {f : γ → Tracker.Tracking α β}
    (h : ∀ c (t : Tracker α), t.Changes (runFrom t (f c)).2) (cs : List γ) (catalog : Catalog)
    {ts us : List (Tracker α)} (hts : I catalog (ts ++ us)) :
    I catalog (ts ++ (runFrom us (Operation.each f cs)).2) := by
  induction cs generalizing ts us with
  | nil => exact hts
  | cons c rest ih =>
    cases us with
    | nil => exact hts
    | cons t others =>
      have hfirst := hI.change _ _ _ _ _ hts (h c t)
      have hrest : ∀ t', I catalog (ts ++ t' :: others) →
          I catalog (ts ++ t' :: (runFrom others (Operation.each f rest)).2) := by
        intro t' ht'
        rw [List.append_cons] at ht' ⊢
        exact ih ht'
      rw [runFrom_each_cons]
      cases hc : runFrom t (f c) with
      | mk result t' =>
        rw [hc] at hfirst
        cases result with
        | error e => exact hfirst
        | ok b =>
          have hrest := hrest t' hfirst
          cases hr : runFrom others (Operation.each f rest) with
          | mk result others' =>
            rw [hr] at hrest
            cases result <;> exact hrest

/-- The tracker of a model stands somewhere among those of the session, and may be replaced. -/
theorem replaceTracker_of_find? {tag : ModelTag} {t : Tracker α} {ts : List (Tracker α)}
    (h : ts.find? (·.layout.tag == tag) = some t) :
    ∃ us vs, ts = us ++ t :: vs ∧ ∀ t', replaceTracker tag t' ts = us ++ t' :: vs := by
  induction ts with
  | nil => cases h
  | cons first rest ih =>
    by_cases htag : first.layout.tag = tag
    · rw [List.find?_cons_of_pos (by simpa using htag)] at h
      obtain rfl := Option.some.inj h
      exact ⟨[], rest, rfl, fun t' => by rw [replaceTracker, if_pos htag]; rfl⟩
    · rw [List.find?_cons_of_neg (by simpa using htag)] at h
      obtain ⟨us, vs, rfl, hreplace⟩ := ih h
      exact ⟨first :: us, vs, rfl, fun t' => by
        rw [replaceTracker, if_neg htag, hreplace, List.cons_append]⟩

@[simp]
theorem runFrom_current (w : Work α σ) : runFrom w current = (.ok w.session, w) := rfl

theorem current_meets (P : Work α σ → Prop) {E : Stop → Work α σ → Prop} :
    Meets P current (fun s w => s = w.session ∧ P w) E :=
  meets_get.bind fun w => meets_pure fun _ h => ⟨by rw [h.1], h.2⟩

/-- What happens beside the session does not touch its trackers. -/
theorem meets_beside {τ : Type} {part : Work α σ → τ} {replace : τ → Work α σ → Work α σ}
    {op : Operation τ β} {Q : β → Prop}
    (h : Meets (fun _ => True) op (fun b _ => Q b) fun _ _ => True)
    (hreplace : ∀ t w, (replace t w).session = w.session) :
    Meets (Holds I) (Operation.on part replace op) (fun b w => Q b ∧ Holds I w)
      fun _ => Holds I := by
  have hholds : ∀ w t, Holds I w → Holds I (replace t w) := fun w t hw => by
    rwa [Holds, hreplace]
  exact h.on (fun _ _ => trivial) (fun w hw _ t hb => ⟨hb, hholds w t hw⟩)
    fun w hw _ t _ => hholds w t hw

/-- What the client does leaves the trackers as they are. -/
theorem keeps_viaClient (op : Operation Client β) : Keeps (Holds (σ := σ) I) (viaClient op) :=
  (meets_beside (meets_true op) (by intros; rfl)).mono (fun _ h => h) (fun _ _ h => h.2)
    fun _ _ h => h

/-- The layout of a model is registered under its tag. -/
theorem tag_of_layout {c : Catalog} {tag : ModelTag} {l : Layout} (h : c.layout tag = .ok l) :
    l ∈ c.layouts ∧ l.tag = tag := by
  unfold Catalog.layout at h
  split at h
  next found hfound =>
    obtain rfl := Except.ok.inj h
    exact ⟨List.mem_of_find?_eq_some hfound, by simpa using List.find?_some hfound⟩
  next => cases h

/-- Once a model is touched, the session has a tracker of it. -/
theorem touch_meets (hI : Invariant I) (m : Model α) :
    Meets (Holds (σ := σ) I) (touch m) (fun t w => w.session.tracker? m = some t ∧ Holds I w)
      fun _ => Holds I := by
  unfold touch
  refine (current_meets _).bind fun s => ?_
  split
  next t ht =>
    refine meets_pure fun w h => ⟨?_, h.2⟩
    rwa [← h.1]
  next hnone =>
    refine Meets.bind (meets_ofExcept
      (Q := fun l w => (s = w.session ∧ Holds I w) ∧ s.catalog.layout m.tag = .ok l)
      (fun _ hl _ h => ⟨h, hl⟩) fun _ _ _ h => h.2) fun l => ?_
    rintro w ⟨⟨rfl, h⟩, hl⟩
    have hnone : w.session.trackers.find? (·.layout.tag == m.tag) = none := hnone
    refine ⟨?_, hI.touch _ _ m l h (fun t ht => ?_) hl⟩
    · show (w.session.trackers ++ [Tracker.empty m l]).find? (·.layout.tag == m.tag) = _
      have htag : (Tracker.empty m l).layout.tag = m.tag := (tag_of_layout hl).2
      rw [List.find?_append, hnone, List.find?_singleton, htag]
      simp
    · simpa using List.find?_eq_none.mp hnone t ht

/-- An operation of a tracker keeps the property. -/
theorem keeps_viaTracker (hI : Invariant I) (m : Model α) {op : Tracker.Tracking α β}
    (h : ∀ t : Tracker α, t.Changes (runFrom t op).2) :
    Keeps (Holds (σ := σ) I) (viaTracker m op) := by
  unfold viaTracker
  refine (touch_meets hI m).bind fun t => keeps_of_behind ?_
  rintro w ⟨ht, hw⟩
  obtain ⟨us, vs, htrackers, hreplace⟩ := replaceTracker_of_find? ht
  show I w.session.catalog (replaceTracker m.tag
    (runFrom ((w.session.tracker? m).getD t) op).2 w.session.trackers)
  rw [Holds, htrackers] at hw
  rw [ht, Option.getD_some, hreplace]
  exact hI.change _ _ _ _ _ hw (h t)

/-- Operations on all trackers keep the property. -/
theorem keeps_viaTrackers (hI : Invariant I) {f : γ → Tracker.Tracking α β}
    (h : ∀ c (t : Tracker α), t.Changes (runFrom t (f c)).2) (cs : List γ) :
    Keeps (Holds (σ := σ) I) (viaTrackers (Operation.each f cs)) :=
  keeps_of_behind fun w hw =>
    hI.each h cs w.session.catalog (show I w.session.catalog ([] ++ w.session.trackers) from hw)

/-- An instance that is claimed is as stored and as deleted as it was. -/
theorem claim_meets (i : Instance α) :
    Meets (Holds (σ := σ) I) (claim i)
      (fun i' w => (∀ p : Partition, p.Suits i.state → p.Suits i'.state) ∧ Holds I w)
      fun _ => Holds I := by
  unfold claim
  refine (current_meets _).bind fun s => ?_
  refine (meets_ofExcept (Q := fun state w => (∀ p : Partition, p.Suits i.state → p.Suits state) ∧
    Holds I w) (fun state hstate w h => ⟨?_, h.2⟩) fun _ _ _ h => h.2).bind
      fun state => meets_pure fun _ h => h
  -- a claim changes nothing but the session
  intro p hp
  obtain ⟨owner, rfl⟩ : ∃ owner, state = { i.state with session := owner } := by
    unfold Lifecycle.bind at hstate
    split at hstate
    · split at hstate
      · exact ⟨_, (Except.ok.inj hstate).symm⟩
      · cases hstate
    · exact ⟨_, (Except.ok.inj hstate).symm⟩
  exact ⟨hp.persistent, hp.deleted⟩

/-- Planning to write an instance keeps the property. -/
theorem keeps_add (hI : Invariant I) (m : Model α) (i : Instance α) :
    Keeps (Holds (σ := σ) I) (add m i) :=
  (claim_meets i).bind fun i => (keeps_viaTracker hI m fun _ => .add i).pre fun _ h => h.2

theorem keeps_addAll (hI : Invariant I) (m : Model α) (is : List (Instance α)) :
    Keeps (Holds (σ := σ) I) (addAll m is) := by
  induction is with
  | nil => exact meets_pure fun _ h => h
  | cons i rest ih =>
    exact (keeps_add hI m i).bind fun key => ih.bind fun keys => meets_pure fun _ h => h

/-- Planning to delete an instance keeps the property. -/
theorem keeps_delete (hI : Invariant I) (m : Model α) (i : Instance α) :
    Keeps (Holds (σ := σ) I) (delete m i) :=
  (claim_meets i).bind fun i => (keeps_viaTracker hI m fun _ => .delete i).pre fun _ h => h.2

/-- Planning to delete an id keeps the property. -/
theorem keeps_deleteKey (hI : Invariant I) (m : Model α) (id : Value) :
    Keeps (Holds (σ := σ) I) (deleteKey m id) := by
  unfold deleteKey
  refine (current_meets _).bind fun s => ?_
  refine Meets.bind (meets_ofExcept (Q := fun _ => Holds I) (fun _ _ _ h => h.2) fun _ _ _ h => h.2)
    fun id => ?_
  exact keeps_viaTracker hI m fun _ => .deleteId id

/-- Forgetting an instance keeps the property. -/
theorem keeps_expunge (hI : Invariant I) (m : Model α) (i : Instance α) :
    Keeps (Holds (σ := σ) I) (expunge m i) :=
  keeps_viaTracker hI m fun _ => .expunge _

/-- Holding an instance that was read keeps the property. -/
theorem keeps_hold (hI : Invariant I) (m : Model α) {i : Instance α}
    (hi : Partition.loaded.Suits i.state) : Keeps (Holds (σ := σ) I) (hold m i) := by
  unfold hold
  refine (claim_meets i).bind fun i' w hw => ?_
  exact keeps_viaTracker hI m (fun _ => .markLoaded (hw.1 _ hi)) w hw.2

theorem keeps_holdAll (hI : Invariant I) (m : Model α) {is : List (Instance α)}
    (h : ∀ i ∈ is, Partition.loaded.Suits i.state) : Keeps (Holds (σ := σ) I) (holdAll m is) := by
  induction is with
  | nil => exact meets_pure fun _ h => h
  | cons i rest ih =>
    obtain ⟨hi, hrest⟩ := List.forall_mem_cons.mp h
    exact (keeps_hold hI m hi).bind fun _ => (ih hrest).bind fun _ => meets_pure fun _ h => h

section Query

variable {ε : Type} (consult : Consult ε)

/-- An instance stands as one that was read from the store. -/
def AsRead (i : Instance α) : Prop := ∃ placeholder, i.state = .loaded placeholder

/-- What was read from the store is stored, and not to be deleted. -/
theorem AsRead.suits {i : Instance α} (h : AsRead i) : Partition.loaded.Suits i.state := by
  obtain ⟨placeholder, hstate⟩ := h
  rw [hstate]
  exact ⟨by simp [Lifecycle.loaded], by simp [Lifecycle.loaded, Lifecycle.fresh]⟩

/-- Instances are made of stored records as read from the store. -/
theorem instantiate_meets (m : Model α) (rows : List (String × Record)) :
    Meets (fun _ => True) (LiveQuery.instantiate (ε := ε) m rows)
      (fun is _ => ∀ i ∈ is, AsRead i) fun _ _ => True := by
  unfold LiveQuery.instantiate
  refine (meets_true _).bind fun first => (meets_true _).bind fun values => meets_pure fun _ _ => ?_
  intro i hi
  obtain ⟨⟨value, n⟩, -, rfl⟩ := List.mem_map.mp hi
  exact ⟨_, rfl⟩

/-- What a query answers was read from the store. -/
theorem all_meets (m : Model α) :
    Meets (fun _ => True) (LiveQuery.all consult m)
      (fun is _ => ∀ i ∈ is, AsRead i) fun _ _ => True := by
  unfold LiveQuery.all LiveQuery.slice
  exact (meets_true _).bind fun ids => (meets_true _).bind fun rows => instantiate_meets m rows

theorem get?_meets (m : Model α) (id : Value) :
    Meets (fun _ => True) (LiveQuery.get? consult m id)
      (fun found _ => ∀ i, found = some i → AsRead i) fun _ _ => True := by
  unfold LiveQuery.get?
  refine (meets_true _).bind fun _ => (meets_true _).bind fun id => ?_
  split
  next => exact meets_pure fun _ _ => nofun
  next id =>
    refine (meets_true _).bind fun tree => ?_
    -- the record is read if the id is among the results, however that was found out
    split <;> refine (meets_true _).bind fun found => ?_
    all_goals
      dsimp only
      split
      next =>
        refine (meets_true _).bind fun rows => (instantiate_meets m rows).bind fun is => ?_
        exact meets_pure fun _ h i hi => h i (List.mem_of_head? hi)
      next => exact meets_pure fun _ _ => nofun

end Query

/-- Reading an instance keeps the property. -/
theorem keeps_read (hI : Invariant I) (m : Model α) (id : String) :
    Keeps (Holds (σ := σ) I) (read m id) := by
  unfold read
  refine (current_meets _).bind fun s => ?_
  refine Meets.bind (meets_ofExcept (Q := fun _ => Holds I) (fun _ _ _ h => h.2) fun _ _ _ h => h.2)
    fun q => ?_
  refine (meets_beside (get?_meets consultNone m (.text id)) (by intros; rfl)).bind fun found => ?_
  cases found with
  | none => exact meets_pure fun _ h => h.2
  | some i =>
    intro w hw
    have hhold : Keeps (Holds (σ := σ) I) (do return some (← hold m i)) :=
      (keeps_hold hI m (hw.1 i rfl).suits).bind fun _ => meets_pure fun _ h => h
    exact hhold w hw.2

/-- Looking for an instance keeps the property. -/
theorem keeps_get? (hI : Invariant I) (m : Model α) (id : Value) :
    Keeps (Holds (σ := σ) I) (get? m id) := by
  unfold get?
  refine (current_meets _).bind fun s => ?_
  refine Meets.bind (meets_ofExcept (Q := fun _ => Holds I) (fun _ _ _ h => h.2) fun _ _ _ h => h.2)
    fun id => ?_
  split
  · exact meets_pure fun _ h => h
  · exact meets_pure fun _ h => h
  · exact keeps_read hI m id

section Asking

variable {ε : Type} (consult : Consult ε)

/-- A session that asks a query has the property. -/
def HoldsAsking (I : Catalog → List (Tracker α) → Prop) (s : Work α σ × LiveQuery ε) : Prop :=
  Holds I s.1

/-- What a session does by itself, while a query waits. -/
theorem keeps_viaWork {op : Working α σ β} (h : Keeps (Holds I) op) :
    Keeps (HoldsAsking (ε := ε) I) (viaWork op) :=
  h.on (fun _ h => h) (fun _ _ _ _ h => h) fun _ _ _ _ h => h

/-- What a query is asked keeps the trackers as they are. -/
theorem viaQuery_meets {op : LiveQuery.Asking ε β} {Q : β → Prop}
    (h : Meets (fun _ => True) op (fun b _ => Q b) fun _ _ => True) :
    Meets (HoldsAsking (σ := σ) I) (viaQuery op) (fun b s => Q b ∧ HoldsAsking I s)
      fun _ => HoldsAsking I :=
  h.on (fun _ _ => trivial) (fun _ hs _ _ hb => ⟨hb, hs⟩) fun _ hs _ _ _ => hs

/-- Planning to delete what a query matches keeps the property. -/
theorem keeps_deleteQuery (hI : Invariant I) (m : Model α) :
    Keeps (HoldsAsking (σ := σ) I) (deleteQuery consult m) := by
  have hrest : Keeps (HoldsAsking (σ := σ) I)
      (do
        let tree ← viaQuery (LiveQuery.construct consult)
        viaWork (deleteMatching m tree)) :=
    (viaQuery_meets (meets_true _)).bind fun tree =>
      (keeps_viaWork (keeps_viaTracker hI m fun _ => .deleteMatching tree)).pre fun _ h => h.2
  unfold deleteQuery
  refine meets_get.bind fun s => ?_
  obtain ⟨w, live⟩ := s
  dsimp only
  split
  next =>
    split
    next => exact meets_throw_bind fun _ h => h.2
    next => exact hrest.pre fun _ h => h.2
  next => exact hrest.pre fun _ h => h.2

/-- Fetching what a query matches keeps the property. -/
theorem keeps_fetch (hI : Invariant I) (m : Model α) :
    Keeps (HoldsAsking (σ := σ) I) (fetch consult m) := by
  unfold fetch
  refine (viaQuery_meets (all_meets consult m)).bind fun found s hs => ?_
  refine keeps_viaWork ?_ s hs.2
  exact (((touch_meets hI m).mono (fun _ h => h) (fun _ _ h => h.2) fun _ _ h => h).discard).bind
    fun _ => keeps_holdAll hI m fun i hi => (hs.1 i hi).suits

end Asking

section Handlers

variable {P : Work α σ → Prop} (hP : ∀ w app, P w → P { w with app })
include hP

/-- Telling handlers keeps what the application does not matter to. -/
theorem keeps_fire (tx : TransactionId) (kind : EventKind) (l : Layout)
    (is : List EventInstance) : Keeps P (fire tx kind l is) := by
  unfold fire
  refine meets_get.bind fun w => ?_
  refine Meets.bind (Q := fun _ => P) ?_ fun _ =>
    meets_ofExcept (fun _ _ _ h => h) fun _ _ _ h => h
  rintro _ ⟨rfl, h⟩
  exact hP w _ h

theorem keeps_notify (tx : TransactionId) (kind : EventKind) (l : Layout)
    (is : List EventInstance) : Keeps P (notify tx kind l is) := by
  unfold notify
  refine meets_get.bind fun w => ?_
  refine Meets.bind (Q := fun _ => P) ?_ fun _ => meets_pure fun _ h => h
  rintro _ ⟨rfl, h⟩
  exact hP w _ h

theorem keeps_fireAll (tx : TransactionId) (ts : List (Tracker α)) :
    Keeps P (fireAll tx ts) := by
  induction ts with
  | nil => exact meets_pure fun _ h => h
  | cons t rest ih =>
    exact (keeps_fire hP tx _ _ _).bind fun _ => (keeps_fire hP tx _ _ _).discard.bind fun _ =>
      ih.bind fun _ => meets_pure fun _ h => h

theorem keeps_notifyAll (tx : TransactionId) (found : List (Layout × Applied)) :
    Keeps P (notifyAll tx found) := by
  induction found with
  | nil => exact meets_pure fun _ h => h
  | cons f rest ih =>
    exact (keeps_notify hP tx _ _ _).bind fun _ => (keeps_notify hP tx _ _ _).bind fun _ =>
      ih.bind fun _ => meets_pure fun _ h => h

/-- Taking over what handlers edited keeps what the application does not matter to, if single edits
do. -/
theorem keeps_absorbEdits_of (tx : TransactionId)
    (h : ∀ edits, Keeps P (viaTrackers (Operation.each Tracker.absorb edits))) :
    Keeps P (absorbEdits tx) :=
  (current_meets P).bind fun _ => ((keeps_fireAll hP tx _).pre fun _ h => h.2).bind
    fun edits => (h edits).discard

end Handlers

/-- Working out what each model contributes keeps what names do not matter to. -/
theorem keeps_prepareAll {P : Work α σ → Prop}
    (hP : ∀ w name, P w →
      P { w with client := { w.client with supply := { w.client.supply with name } } })
    (ts : List (Tracker α)) : Keeps P (prepareAll ts) := by
  induction ts with
  | nil => exact meets_pure fun _ h => h
  | cons t rest ih =>
    refine meets_get.bind fun w => ?_
    refine Meets.bind (meets_ofExcept (Q := fun _ => P) (fun _ _ _ h => h.2)
      fun _ _ _ h => h.2) fun p => ?_
    have hreserve : Keeps P (discard (viaClient (Client.reserveNames p.names))) :=
      fun w hw => hP w _ hw
    exact hreserve.bind fun _ => ih.bind fun _ => meets_pure fun _ h => h

section Lasting

variable {P : Work α σ → Prop}

/-- A property that depends neither on the transaction, nor on the application, nor on the numbers
that are handed out. -/
def Lasting (P : Work α σ → Prop) : Prop :=
  ∀ w transaction app supply, P w → P
    { w with session := { w.session with transaction }, client := { w.client with supply }, app }

theorem Lasting.holds (I : Catalog → List (Tracker α) → Prop) : Lasting (Holds (σ := σ) I) :=
  fun _ _ _ _ h => h

theorem Lasting.app (hP : Lasting P) (w : Work α σ) (app : σ) (h : P w) : P { w with app } :=
  hP w w.session.transaction app w.client.supply h

theorem Lasting.names (hP : Lasting P) (w : Work α σ) (name : Nat) (h : P w) :
    P { w with client := { w.client with supply := { w.client.supply with name } } } :=
  hP w w.session.transaction w.app _ h

/-- Setting the transaction keeps the property. -/
theorem keeps_putTransaction (hP : Lasting P) (s : Session α σ) (transaction : Option Transaction) :
    Meets (fun w => s = w.session ∧ P w) (put { s with transaction }) (fun _ => P) fun _ => P := by
  refine meets_modify fun w h => ?_
  obtain ⟨rfl, hw⟩ := h
  exact hP w transaction w.app w.client.supply hw

/-- Opening a transaction keeps the property. -/
theorem keeps_begin (hP : Lasting P) : Keeps P begin := by
  refine (current_meets _).bind fun s => ?_
  split
  next => exact meets_throw fun _ h => h.2
  next =>
    refine Meets.bind (Q := fun _ w => s = w.session ∧ P w) ?_ fun id =>
      (keeps_putTransaction hP s _).bind fun _ => meets_pure fun _ h => h
    rintro w ⟨rfl, hw⟩
    exact ⟨rfl, hP w w.session.transaction w.app _ hw⟩

/-- Finding the transaction to commit keeps the property. -/
theorem keeps_transactionToCommit (hP : Lasting P) : Keeps P transactionToCommit := by
  refine (current_meets _).bind fun s => ?_
  split
  next =>
    split
    next => exact meets_pure fun _ h => h.2
    next => exact meets_throw fun _ h => h.2
  next =>
    split
    next => exact (keeps_begin hP).pre fun _ h => h.2
    next => exact meets_throw fun _ h => h.2

/-- A client that is told to stop has the property as before. -/
theorem keeps_checkpoint (P : Work α σ → Prop) : Keeps P (viaClient Client.checkpoint) := by
  refine keeps_of_behind fun w hw => ?_
  have hclient : (runFrom w.client Client.checkpoint).2 = w.client := by
    unfold Client.checkpoint
    rw [runFrom_bind_ok (runFrom_get w.client)]
    split <;> rfl
  show P { w with client := (runFrom w.client Client.checkpoint).2 }
  rwa [hclient]

/-- Ending a transaction keeps the property. -/
theorem keeps_finish (hP : Lasting P) : Keeps P finish :=
  (current_meets _).bind fun s => keeps_putTransaction hP s none

/-- Marking the transaction as sent keeps the property. -/
theorem keeps_execute (hP : Lasting P) : Keeps P execute := by
  refine (current_meets _).bind fun s => ?_
  split
  next =>
    refine Meets.bind (meets_ofExcept (Q := fun _ w => s = w.session ∧ P w)
      (fun _ _ _ h => h) fun _ _ _ h => h.2) fun t => ?_
    exact keeps_putTransaction hP s (some t)
  next => exact meets_pure fun _ h => h.2

theorem keeps_settle (hP : Lasting P) : Keeps P settle :=
  (current_meets _).bind fun s => keeps_putTransaction hP s _

/-- An operation that ends the transaction when it stops keeps the property. -/
theorem keeps_orFinish (hP : Lasting P) {op : Working α σ β} (h : Keeps P op) :
    Keeps P (tryCatch op fun stop => do
      finish
      throw stop) :=
  h.orElse fun _ => (keeps_finish hP).bind fun _ => meets_throw fun _ h => h

end Lasting

/-- Sending commands keeps what the client keeps. -/
theorem keeps_send_of {P : Work α σ → Prop} (hP : Lasting P) {commands : List Command}
    (h : Keeps P (viaClient (Client.pipeline commands))) : Keeps P (send commands) := by
  unfold send
  split
  next => exact meets_pure fun _ h => h
  next => exact keeps_orFinish hP h

theorem keeps_send (commands : List Command) : Keeps (Holds (σ := σ) I) (send commands) :=
  keeps_send_of (.holds I) (keeps_viaClient _)

/-- A commit keeps what the client keeps and the trackers keep that take over edits and answers. -/
theorem keeps_commit_of {P : Work α σ → Prop} (hP : Lasting P)
    (hedits : ∀ edits, Keeps P (viaTrackers (Operation.each Tracker.absorb edits)))
    (hclient : ∀ commands, Keeps P (viaClient (Client.pipeline commands)))
    (hanswers : ∀ found, Keeps P (viaTrackers (Operation.each
      (fun a : Answer => Tracker.applyReply a.prepared a.reply a.deleteFailure) found))) :
    Keeps P commit := by
  unfold commit
  refine (keeps_transactionToCommit hP).bind fun tx => (keeps_checkpoint _).bind fun _ => ?_
  refine (keeps_absorbEdits_of hP.app tx hedits).bind fun _ => (current_meets _).bind fun s => ?_
  refine Meets.pre (P := P) ?_ fun _ h => h.2
  refine (keeps_prepareAll hP.names s.trackers).bind fun prepared => ?_
  refine (keeps_execute hP).bind fun _ => (keeps_send_of hP (hclient _)).bind fun replies => ?_
  refine (keeps_settle hP).bind fun _ => ?_
  split
  next => exact (keeps_finish hP).bind fun _ => meets_throw_bind fun _ h => h
  next =>
    refine (keeps_orFinish hP (hanswers _)).bind fun applied => (current_meets _).bind fun s => ?_
    refine Meets.pre (P := P) ?_ fun _ h => h.2
    refine (keeps_notifyAll hP.app tx _).bind fun notifications => ?_
    refine (keeps_finish hP).bind fun _ => ?_
    dsimp only
    split
    next => exact meets_pure fun _ h => h
    next => exact meets_throw fun _ h => h

/-- A commit keeps the property. -/
theorem keeps_commit (hI : Invariant I) : Keeps (Holds (σ := σ) I) commit :=
  keeps_commit_of (.holds I) (keeps_viaTrackers hI fun edited _ => .absorb edited)
    (fun _ => keeps_viaClient _)
    (keeps_viaTrackers hI fun a _ => .applyReply a.prepared a.reply a.deleteFailure)

/-- A commit registers no models. -/
theorem catalog_commit (w : Work α σ) :
    (runFrom w commit).2.session.catalog = w.session.catalog := by
  have hkeeps : Keeps (fun w' => w'.session.catalog = w.session.catalog)
      (commit (α := α) (σ := σ)) :=
    keeps_commit_of (fun _ _ _ _ h => h) (fun _ => keeps_of_behind fun _ h => h)
      (fun _ => keeps_of_behind fun _ h => h) fun _ => keeps_of_behind fun _ h => h
  exact hkeeps.behind rfl

/-- What a session can come to, whatever the operations before have answered, and whatever others
have done to the store meanwhile. -/
inductive Reachable : Work α σ → Prop
  /-- A session that holds nothing. -/
  | start (id : SessionId) (catalog : Catalog) (config : SessionConfig) (client : Client)
    (app : σ) : Reachable ⟨.start id catalog config, client, app⟩
  /-- Others have used the store, or the application has changed its state. -/
  | meanwhile {w : Work α σ} (client : Client) (app : σ) (h : Reachable w) :
    Reachable { w with client, app }
  | addHandler {w : Work α σ} (kind : EventKind) (handler : Handler σ) (h : Reachable w) :
    Reachable { w with session := w.session.addHandler kind handler }
  | add {w : Work α σ} (m : Model α) (i : Instance α) (h : Reachable w) :
    Reachable (runFrom w (add m i)).2
  | addAll {w : Work α σ} (m : Model α) (is : List (Instance α)) (h : Reachable w) :
    Reachable (runFrom w (addAll m is)).2
  | delete {w : Work α σ} (m : Model α) (i : Instance α) (h : Reachable w) :
    Reachable (runFrom w (delete m i)).2
  | deleteKey {w : Work α σ} (m : Model α) (id : Value) (h : Reachable w) :
    Reachable (runFrom w (deleteKey m id)).2
  | deleteQuery {ε : Type} {w : Work α σ} (consult : Consult ε) (m : Model α) (live : LiveQuery ε)
    (h : Reachable w) : Reachable (runFrom (w, live) (deleteQuery consult m)).2.1
  | get? {w : Work α σ} (m : Model α) (id : Value) (h : Reachable w) :
    Reachable (runFrom w (get? m id)).2
  | fetch {ε : Type} {w : Work α σ} (consult : Consult ε) (m : Model α) (live : LiveQuery ε)
    (h : Reachable w) : Reachable (runFrom (w, live) (fetch consult m)).2.1
  | expunge {w : Work α σ} (m : Model α) (i : Instance α) (h : Reachable w) :
    Reachable (runFrom w (expunge m i)).2
  | expungeAll {w : Work α σ} (h : Reachable w) :
    Reachable { w with session := w.session.expungeAll }
  | rollback {w : Work α σ} (h : Reachable w) : Reachable { w with session := w.session.rollback }
  | begin {w : Work α σ} (h : Reachable w) : Reachable (runFrom w begin).2
  | commit {w : Work α σ} (h : Reachable w) : Reachable (runFrom w commit).2

/-- Whatever a session comes to, its trackers have what their operations keep. -/
theorem invariant_of_reachable (hI : Invariant I) (h : Reachable w) : Holds I w := by
  induction h with
  | start id catalog config client app => exact hI.nil catalog
  | meanwhile client app h ih => exact ih
  | addHandler kind handler h ih => exact ih
  | add m i h ih => exact (keeps_add hI m i).behind ih
  | addAll m is h ih => exact (keeps_addAll hI m is).behind ih
  | delete m i h ih => exact (keeps_delete hI m i).behind ih
  | deleteKey m id h ih => exact (keeps_deleteKey hI m id).behind ih
  | @deleteQuery _ w consult m live h ih =>
    exact (keeps_deleteQuery consult hI m).behind (s := (w, live)) ih
  | get? m id h ih => exact (keeps_get? hI m id).behind ih
  | @fetch _ w consult m live h ih => exact (keeps_fetch consult hI m).behind (s := (w, live)) ih
  | expunge m i h ih => exact (keeps_expunge hI m i).behind ih
  | expungeAll h ih => exact hI.nil _
  | rollback h ih => exact hI.nil _
  | begin h ih => exact (keeps_begin (.holds I)).behind ih
  | commit h ih => exact (keeps_commit hI).behind ih

/-- An operation that keeps trackers sound without fail. -/
theorem keeps_of_total {op : Tracker.Tracking α β}
    (h : Meets Tracker.Sound op (fun _ => Tracker.Sound) fun _ _ => False) :
    Keeps Tracker.Sound op :=
  h.mono (fun _ h => h) (fun _ _ h => h) fun _ _ h => h.elim

/-- Whatever is done with a sound tracker, it stays sound. -/
theorem sound_of_changes {t t' : Tracker α} (h : t.Sound) (ht : t.Changes t') : t'.Sound := by
  cases ht with
  | add i => exact (keeps_of_total (Tracker.add_meets i)).behind h
  | delete i => exact (keeps_of_total (Tracker.delete_meets i)).behind h
  | deleteId id => exact (keeps_of_total (Tracker.deleteId_meets id)).behind h
  | deleteMatching tree => exact (Tracker.deleteMatching_meets tree).behind h
  | expunge key => exact (keeps_of_total (Tracker.expunge_meets key)).behind h
  | markLoaded hi => exact (keeps_of_total (Tracker.markLoaded_meets hi)).behind h
  | absorb edits => exact (Tracker.absorb_meets edits).behind h
  | applyReply p reply deleteFailure =>
    exact ((Tracker.applyReply_meets p reply deleteFailure).mono (fun _ h => h) (fun _ _ h => h)
      fun _ _ h => h.1).behind h

/-- Operations keep trackers sound. -/
theorem invariant_sound :
    Invariant (fun (_ : Catalog) (ts : List (Tracker α)) => ∀ t ∈ ts, t.Sound) :=
  .ofEach (fun _ _ _ _ => .empty _ _) fun _ _ _ => sound_of_changes

/-- Whatever a session comes to, its trackers are sound. -/
theorem sound_of_reachable (h : Reachable w) : Sound w := invariant_of_reachable invariant_sound h

/-- A tracker maps each key to one instance at most, in the partition where that instance
belongs. -/
structure IdentityMap (t : Tracker α) : Prop where
  /-- A key is in one partition at most. -/
  sole : ∀ (key : IdentityKey) p q, key ∈ t.held p → key ∈ t.held q → p = q
  /-- What was added has never been stored. -/
  added : ∀ (key : IdentityKey) i, t.added[key]? = some i →
    i.state.persistent = false ∧ i.state.deleted = false
  /-- What was modified is stored, and stays so. -/
  modified : ∀ (key : IdentityKey) i, t.modified[key]? = some i →
    i.state.persistent = true ∧ i.state.deleted = false
  /-- What was read is stored, and stays so. -/
  loaded : ∀ (key : IdentityKey) i, t.loaded[key]? = some i →
    i.state.persistent = true ∧ i.state.deleted = false
  /-- What is to be deleted is stored. -/
  deleted : ∀ (key : IdentityKey) i, t.deleted[key]? = some i →
    i.state.persistent = true ∧ i.state.deleted = true
  /-- Any key can be taken out. -/
  pop : ∀ key, ∃ found t', runFrom t (Tracker.pop key) = (.ok found, t')
  /-- Taking over the reply to a commit, behind whatever edits handlers have made, does not stop at
  a key that two partitions hold. -/
  applyReply : ∀ edits p reply deleteFailure e,
    (runFrom (runFrom t (Tracker.absorb edits)).2
      (Tracker.applyReply p reply deleteFailure)).1 = .error e → ¬Tracker.Duplicate α e

/-- A sound tracker is an identity map. -/
theorem IdentityMap.of_sound {t : Tracker α} (h : t.Sound) : IdentityMap t := by
  constructor
  case sole =>
    intro key p q hp hq
    exact h.sole key p q (Std.ExtTreeMap.mem_iff_isSome_getElem?.mp hp)
      (Std.ExtTreeMap.mem_iff_isSome_getElem?.mp hq)
  case added =>
    intro key i hi
    have hi := h.suits .added key i hi
    exact ⟨by simpa using hi.persistent, by simpa using hi.deleted⟩
  case modified =>
    intro key i hi
    have hi := h.suits .modified key i hi
    exact ⟨by simpa using hi.persistent, by simpa using hi.deleted⟩
  case loaded =>
    intro key i hi
    have hi := h.suits .loaded key i hi
    exact ⟨by simpa using hi.persistent, by simpa using hi.deleted⟩
  case deleted =>
    intro key i hi
    have hi := h.suits .deleted key i hi
    exact ⟨by simpa using hi.persistent, by simpa using hi.deleted⟩
  case pop =>
    intro key
    obtain ⟨found, t', hrun, -⟩ := (Tracker.pop_meets key).exists_ok h
    exact ⟨found, t', hrun⟩
  case applyReply =>
    intro edits p reply deleteFailure e he
    have habsorbed := (Tracker.absorb_meets edits).behind h
    have hrun : runFrom (runFrom t (Tracker.absorb edits)).2
        (Tracker.applyReply p reply deleteFailure) = (.error e, _) := Prod.ext he rfl
    exact ((Tracker.applyReply_meets p reply deleteFailure).error habsorbed hrun).2.not_duplicate

/-- Whatever a session comes to, what it holds of a model is an identity map. -/
theorem identityMap_of_reachable (h : Reachable w) : ∀ t ∈ w.session.trackers, IdentityMap t :=
  fun t ht => .of_sound (sound_of_reachable h t ht)

/-- A session has written a hero and fetched it by its id, then plans to delete it and to write
another one. -/
theorem identityMap_of_reachable_heroes :
    ∃ w : Work Record Unit, Reachable w ∧ ∃ t ∈ w.session.trackers,
      t.deleted.keys = ["1"] ∧ t.added.keys = ["new:2"] ∧ IdentityMap t := by
  let hero (key name : String) : Instance Record :=
    ⟨⟨[("id", .null), ("name", .text name), ("team", .text "red"), ("handle", .null),
      ("version", .int 0)]⟩, .fresh key⟩
  let m : Model Record := Sample.hero.model
  let w₀ : Work Record Unit :=
    ⟨.start ⟨1⟩ ⟨.standard, [CommitScript.heroes]⟩ .standard, .ofServer (.empty (.manual 0)), ⟨⟩⟩
  let w := (runFrom (runFrom (runFrom (runFrom (runFrom w₀ (add m (hero "new:1" "Ada"))).2 commit).2
    (get? m (.int 1))).2 (deleteKey m (.int 1))).2 (add m (hero "new:2" "Brin"))).2
  have hw : Reachable w :=
    ((((Reachable.start _ _ _ _ _).add m _).commit.get? m _).deleteKey m _).add m _
  have htracker : ∃ t ∈ w.session.trackers, t.deleted.keys = ["1"] ∧ t.added.keys = ["new:2"] := by
    decide +kernel
  obtain ⟨t, ht, hdeleted, hadded⟩ := htracker
  exact ⟨w, hw, t, ht, hdeleted, hadded, identityMap_of_reachable hw t ht⟩

end Session

end KeyedRecords

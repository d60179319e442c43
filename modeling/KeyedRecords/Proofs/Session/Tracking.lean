import KeyedRecords.Proofs.Query.Asking
import KeyedRecords.Proofs.Session.Reachable

/-!
# What tracking changes

To add, delete, read, fetch or forget instances changes what a session holds, uses the store and
takes names. It does nothing else, neither to the session nor to its client (`Session.Tracks`).
-/

namespace KeyedRecords

namespace Session

open Operation

variable {α σ β : Type} {w w₀ : Work α σ}

/-- Nothing has changed but what the session holds, the store, and the names that are taken. -/
def Tracks (w w' : Work α σ) : Prop :=
  ∃ trackers client, w.client.Uses client ∧
    w' = { w with session := { w.session with trackers }, client }

theorem Tracks.refl (w : Work α σ) : Tracks w w := ⟨_, _, .refl _, rfl⟩

/-- No model is registered. -/
theorem Tracks.catalog (h : Tracks w w') : w'.session.catalog = w.session.catalog := by
  obtain ⟨_, _, -, rfl⟩ := h
  rfl

/-- Instances are tracked. -/
theorem Tracks.hold (h : Tracks w₀ w) (trackers : List (Tracker α)) :
    Tracks w₀ { w with session := { w.session with trackers } } := by
  obtain ⟨_, client, hclient, rfl⟩ := h
  exact ⟨trackers, client, hclient, rfl⟩

/-- The store is asked. -/
theorem Tracks.use (h : Tracks w₀ w) {client : Client} (hclient : w.client.Uses client) :
    Tracks w₀ { w with client } := by
  obtain ⟨trackers, _, hbefore, rfl⟩ := h
  exact ⟨trackers, client, hbefore.trans hclient, rfl⟩

variable (w₀) (m : Model α)

theorem tracks_touch : Keeps (Tracks w₀) (touch m) := by
  unfold touch
  refine (current_meets _).bind fun s => ?_
  split
  next => exact meets_pure fun _ h => h.2
  next =>
    refine Meets.bind (meets_ofExcept (Q := fun _ w => s = w.session ∧ Tracks w₀ w)
      (fun _ _ _ h => h) fun _ _ _ h => h.2) fun l => ?_
    rintro w ⟨rfl, h⟩
    exact h.hold _

theorem tracks_viaTracker (op : Tracker.Tracking α β) : Keeps (Tracks w₀) (viaTracker m op) :=
  (tracks_touch w₀ m).bind fun _ => keeps_of_behind fun _ h => h.hold _

theorem tracks_claim (i : Instance α) : Keeps (Tracks w₀) (claim i) :=
  (current_meets _).bind fun _ =>
    Meets.bind (meets_ofExcept (Q := fun _ => Tracks w₀) (fun _ _ _ h => h.2) fun _ _ _ h => h.2)
      fun _ => meets_pure fun _ h => h

theorem tracks_add (i : Instance α) : Keeps (Tracks w₀) (add m i) :=
  (tracks_claim w₀ i).bind fun _ => tracks_viaTracker w₀ m _

/-- An instance that is added registers no models. -/
theorem catalog_add (w : Work α σ) (i : Instance α) :
    (runFrom w (add m i)).2.session.catalog = w.session.catalog :=
  ((tracks_add w m i).behind (.refl w)).catalog

theorem tracks_addAll (is : List (Instance α)) : Keeps (Tracks w₀) (addAll m is) := by
  induction is with
  | nil => exact meets_pure fun _ h => h
  | cons i rest ih =>
    exact (tracks_add w₀ m i).bind fun key => ih.bind fun keys => meets_pure fun _ h => h

theorem tracks_delete (i : Instance α) : Keeps (Tracks w₀) (delete m i) :=
  (tracks_claim w₀ i).bind fun _ => tracks_viaTracker w₀ m _

theorem tracks_deleteKey (id : Value) : Keeps (Tracks w₀) (deleteKey m id) :=
  (current_meets _).bind fun _ =>
    Meets.bind (meets_ofExcept (Q := fun _ => Tracks w₀) (fun _ _ _ h => h.2) fun _ _ _ h => h.2)
      fun _ => tracks_viaTracker w₀ m _

theorem tracks_hold (i : Instance α) : Keeps (Tracks w₀) (hold m i) :=
  (tracks_claim w₀ i).bind fun _ => tracks_viaTracker w₀ m _

theorem tracks_holdAll (is : List (Instance α)) : Keeps (Tracks w₀) (holdAll m is) := by
  induction is with
  | nil => exact meets_pure fun _ h => h
  | cons i rest ih =>
    exact (tracks_hold w₀ m i).bind fun _ => ih.bind fun _ => meets_pure fun _ h => h

theorem tracks_read (id : String) : Keeps (Tracks w₀) (read m id) := by
  unfold read
  refine (current_meets _).bind fun s => ?_
  refine Meets.bind (meets_ofExcept (Q := fun _ => Tracks w₀) (fun _ _ _ h => h.2)
    fun _ _ _ h => h.2) fun q => ?_
  refine Meets.bind (Q := fun _ => Tracks w₀) (keeps_of_behind fun w h => ?_) fun found => ?_
  · exact h.use ((LiveQuery.uses_get? w.client consultNone m (.text id)).behind
      (s := (LiveQuery.ofQuery q, w.client)) (.refl _))
  · cases found with
    | none => exact meets_pure fun _ h => h
    | some i => exact (tracks_hold w₀ m i).bind fun _ => meets_pure fun _ h => h

theorem tracks_get? (id : Value) : Keeps (Tracks w₀) (get? m id) := by
  unfold get?
  refine (current_meets _).bind fun s => ?_
  refine Meets.bind (meets_ofExcept (Q := fun _ => Tracks w₀) (fun _ _ _ h => h.2)
    fun _ _ _ h => h.2) fun id => ?_
  split
  · exact meets_pure fun _ h => h
  · exact meets_pure fun _ h => h
  · exact tracks_read w₀ m id

section Asking

variable {ε : Type} (consult : Consult ε)

/-- What a session does by itself, while a query waits. -/
theorem tracks_viaWork {op : Working α σ β} (h : Keeps (Tracks w₀) op) :
    Keeps (fun s => Tracks w₀ s.1) (viaWork (ε := ε) op) :=
  h.on (fun _ h => h) (fun _ _ _ _ h => h) fun _ _ _ _ h => h

/-- What a query is asked uses the store. -/
theorem tracks_viaQuery {op : LiveQuery.Asking ε β}
    (h : ∀ c : Client, Keeps (fun s => c.Uses s.2) op) :
    Keeps (fun s => Tracks w₀ s.1) (viaQuery op) :=
  keeps_of_behind fun s hs =>
    hs.use ((h s.1.client).behind (s := (s.2, s.1.client)) (.refl _))

theorem tracks_deleteQuery : Keeps (fun s => Tracks w₀ s.1) (deleteQuery consult m) := by
  have hrest : Keeps (fun s => Tracks w₀ s.1) (do
      let tree ← viaQuery (LiveQuery.construct consult)
      viaWork (deleteMatching m tree)) :=
    (tracks_viaQuery w₀ fun c => LiveQuery.keeps_construct consult c.Uses).bind fun _ =>
      tracks_viaWork w₀ (tracks_viaTracker w₀ m _)
  unfold deleteQuery
  refine meets_get.bind fun s => ?_
  obtain ⟨w, live⟩ := s
  dsimp only
  split
  next =>
    split
    next => exact meets_throw_bind fun _ h => h.2
    next => exact hrest.pre fun _ h => h.2
  next => exact hrest.pre fun _ h => h.2

theorem tracks_fetch : Keeps (fun s => Tracks w₀ s.1) (fetch consult m) :=
  (tracks_viaQuery w₀ fun c => LiveQuery.uses_all c consult m).bind fun found =>
    tracks_viaWork w₀ ((tracks_touch w₀ m).discard.bind fun _ => tracks_holdAll w₀ m found)

end Asking

end Session

end KeyedRecords

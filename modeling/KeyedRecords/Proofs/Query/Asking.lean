import KeyedRecords.Proofs.Client.Contracts
import KeyedRecords.Proofs.Store.Effects
import KeyedRecords.Query.Live

/-!
# What asking changes

Whatever is asked, the commands are sent by `ResultSet.runOne`, so what this keeps is kept by every
read of a result set. Asking a query may change the store and takes names, and does nothing else to
the client (`Client.Uses`).
-/

namespace KeyedRecords

namespace Client

open Operation

variable {c c' : Client}

/-- The store has been used and names have been taken, and nothing else about a client has
changed. -/
def Uses (c c' : Client) : Prop :=
  ∃ server name, c' = { c with server, supply := { c.supply with name } }

theorem Uses.refl (c : Client) : Uses c c := ⟨_, _, rfl⟩

/-- The store may be used further, and more names be taken. -/
theorem Uses.step (h : Uses c c') (server : Server) (name : Nat) :
    Uses c { c' with server, supply := { c'.supply with name } } := by
  obtain ⟨_, _, rfl⟩ := h
  exact ⟨server, name, rfl⟩

theorem Uses.trans {c'' : Client} (h : c.Uses c') (h' : c'.Uses c'') : c.Uses c'' := by
  obtain ⟨server, name, rfl⟩ := h'
  exact h.step server name

/-- A client that is told to stop has not changed. -/
theorem keeps_checkpoint (P : Client → Prop) : Keeps P checkpoint := by
  unfold checkpoint
  refine meets_get.bind fun client => ?_
  split
  · exact meets_throw fun _ h => h.2
  · exact meets_pure fun _ h => h.2

/-- A pipeline uses the store. -/
theorem Uses.keeps_pipeline (c : Client) (commands : List Command) :
    Keeps (Uses c) (pipeline commands) := by
  refine keeps_of_behind fun c' h => ?_
  unfold pipeline
  rw [runFrom_bind_ok (runFrom_get c')]
  split
  next => exact h
  next => exact h.step _ c'.supply.name

/-- Names are taken. -/
theorem Uses.keeps_reserveNames (c : Client) (count : Nat) : Keeps (Uses c) (reserveNames count) :=
  keeps_of_behind fun c' h => h.step c'.server (c'.supply.name + count)

end Client

namespace ResultSet

open Operation

variable {α : Type} {I : ResultSet × Client → Prop}

/-- What a result set is, read off the state. -/
theorem keeps_current {next : ResultSet → Reading α} (h : ∀ r, Keeps I (next r)) :
    Keeps I (current >>= next) :=
  Meets.bind (Q := fun _ => I) (fun _ => id) h

section Reads

variable (h : ∀ read : Command, (∀ key, ¬read.Writes key) → Keeps I (runOne read))
include h

/-- A read, and what is made of its reply. -/
theorem keeps_read {read : Command} (hread : ∀ key, ¬read.Writes key)
    (answer : Reply → Except Error α) :
    Keeps I (runOne read >>= fun reply => ofExcept (answer reply)) :=
  (h read hread).bind fun _ => meets_ofExcept (fun _ _ _ => id) fun _ _ _ => id

/-- Counting keeps what reads keep. -/
theorem keeps_count : Keeps I count := by
  have hsize : ∀ read : Command, (∀ key, ¬read.Writes key) → Keeps I (do
      return (← ofExcept (← runOne read).asInt).toNat) := by
    intro read hread
    have hkeeps : Keeps I ((runOne read >>= fun reply => ofExcept reply.asInt) >>= fun n =>
        pure n.toNat) :=
      (keeps_read h hread Reply.asInt).bind fun _ => meets_pure fun _ => id
    rwa [bind_assoc] at hkeeps
  refine keeps_current fun r => ?_
  cases r.plan.reader with
  | empty => exact meets_pure fun _ => id
  | set key => exact hsize _ fun _ => id
  | sorted key reversed => exact hsize _ fun _ => id
  | list key => exact hsize _ fun _ => id

/-- Asking for a member keeps what reads keep. -/
theorem keeps_contains (member : String) : Keeps I (contains member) := by
  refine keeps_current fun r => ?_
  dsimp only
  split
  · exact meets_pure fun _ => id
  next key hsource =>
    split
    · have hkeeps : Keeps I ((runOne (.zscore key member) >>= fun reply =>
          ofExcept reply.asDouble?) >>= fun score => pure score.isSome) :=
        (keeps_read h (fun _ => id) Reply.asDouble?).bind fun _ => meets_pure fun _ => id
      rwa [bind_assoc] at hkeeps
    · exact keeps_read h (fun _ => id) Reply.asBool

/-- Reading ids keeps what reads keep. -/
theorem keeps_ids (start : Int) (stop : Option Int) : Keeps I (ids start stop) := by
  have hread : ∀ read : Command, (∀ key, ¬read.Writes key) → Keeps I (readIds read) :=
    fun read hread => keeps_read h hread Reply.asList
  refine keeps_current fun r => ?_
  cases r.plan.reader with
  | empty => exact meets_pure fun _ => id
  | set key => exact (hread _ fun _ => id).bind fun found => meets_pure fun _ => id
  | sorted key reversed =>
    dsimp only
    split
    · exact meets_pure fun _ => id
    · exact hread _ fun _ => id
  | list key =>
    dsimp only
    split
    · exact meets_pure fun _ => id
    · exact hread _ fun _ => id

end Reads

variable (c : Client)

/-- What the client does while a result set waits. -/
theorem keeps_viaClient {C : Client → Prop} {op : Operation Client α} (h : Keeps C op) :
    Keeps (fun s => C s.2) (viaClient op) :=
  h.on (fun _ h => h) (fun _ _ _ _ h => h) fun _ _ _ _ h => h

theorem keeps_setMaterialized (C : Client → Prop) (b : Bool) :
    Keeps (fun s => C s.2) (setMaterialized b) :=
  meets_modify fun _ h => h

/-- Replies are checked by themselves. -/
theorem keeps_checkReplies {σ : Type} (P : σ → Prop) (replies : List Reply) :
    Keeps P (checkReplies replies) := by
  induction replies with
  | nil => exact meets_pure fun _ => id
  | cons reply rest ih =>
    exact (Meets.discard (meets_ofExcept (fun _ _ _ => id) fun _ _ _ => id)).bind fun _ => ih

/-- Reads use the store. -/
theorem uses_run (reads : List Command) : Keeps (fun s => c.Uses s.2) (run reads) := by
  unfold run
  refine (keeps_viaClient (Client.keeps_checkpoint _)).bind fun _ => keeps_current fun r => ?_
  generalize (if r.materialized then [] else r.plan.commands) = ahead
  dsimp only
  refine (keeps_viaClient (Client.Uses.keeps_pipeline c _)).bind fun replies => ?_
  split
  next => exact meets_throw_bind fun _ => id
  next =>
    refine (keeps_checkReplies _ _).bind fun _ => ?_
    split
    · exact meets_pure fun _ => id
    · exact (keeps_setMaterialized _ _).bind fun _ => meets_pure fun _ => id

theorem uses_runOne (read : Command) : Keeps (fun s => c.Uses s.2) (runOne read) := by
  refine (uses_run c [read]).bind fun replies => ?_
  cases replies with
  | nil => exact meets_throw fun _ => id
  | cons reply rest => exact meets_pure fun _ => id

/-- Reading records uses the store. -/
theorem uses_records (l : Layout) (ids : List String) (fields : Option (List String)) :
    Keeps c.Uses (records l ids fields) := by
  unfold records
  split
  · exact meets_pure fun _ => id
  · refine (Client.keeps_checkpoint _).bind fun _ => ?_
    refine (Client.Uses.keeps_pipeline c _).bind fun replies => ?_
    split
    · exact meets_throw_bind fun _ => id
    · exact meets_ofExcept (fun _ _ _ => id) fun _ _ _ => id

end ResultSet

namespace LiveQuery

open Operation

variable {ε α : Type} (c : Client) (consult : Consult ε)

/-- What the client does while a query waits. -/
theorem keeps_viaClient {C : Client → Prop} {op : Operation Client α} (h : Keeps C op) :
    Keeps (fun s => C s.2) (viaClient (ε := ε) op) :=
  h.on (fun _ h => h) (fun _ _ _ _ h => h) fun _ _ _ _ h => h

/-- The client is not needed to make a tree of a query. -/
theorem keeps_construct (C : Client → Prop) : Keeps (fun s => C s.2) (construct consult) := by
  unfold construct
  refine meets_get.bind fun s => ?_
  obtain ⟨live, client⟩ := s
  dsimp only
  split
  next => exact meets_pure fun _ h => h.2
  next =>
    refine Meets.bind (Q := fun _ s => (live, client) = s ∧ C s.2)
      (meets_ofExcept (fun _ _ _ h => h) fun _ _ _ h => h.2) fun tree => ?_
    rintro _ ⟨rfl, h⟩
    exact h

/-- Planning takes names. -/
theorem uses_prepare : Keeps (fun s => c.Uses s.2) (prepare consult) := by
  unfold prepare
  refine meets_get.bind fun s => Meets.pre (P := fun s => c.Uses s.2) ?_ fun _ h => h.2
  split
  next => exact meets_pure fun _ => id
  next =>
    refine (keeps_construct consult _).bind fun tree => meets_get.bind fun s => ?_
    refine Meets.pre (P := fun s => c.Uses s.2) ?_ fun _ h => h.2
    refine Meets.bind (Q := fun _ s => c.Uses s.2)
      (meets_ofExcept (fun _ _ _ => id) fun _ _ _ => id) fun plan => ?_
    refine (keeps_viaClient (Client.Uses.keeps_reserveNames c _)).discard.bind fun _ => ?_
    have hset : ∀ f : LiveQuery ε × Client → LiveQuery ε × Client, (∀ s, (f s).2 = s.2) →
        Keeps (fun s => c.Uses s.2) (modify f : Asking ε Unit) := fun f hf =>
      meets_modify fun s h => by rwa [hf]
    refine Meets.bind (hset _ fun _ => rfl) fun _ => ?_
    exact meets_pure fun _ h => h

theorem uses_viaResults {op : ResultSet.Reading α} (h : Keeps (fun s => c.Uses s.2) op) :
    Keeps (fun s => c.Uses s.2) (viaResults consult op) :=
  (uses_prepare c consult).bind fun _ =>
    h.on (fun _ h => h) (fun _ _ _ _ h => h) fun _ _ _ _ h => h

/-- Instances take names. -/
theorem uses_instantiate (m : Model α) (rows : List (String × Record)) :
    Keeps (fun s => c.Uses s.2) (instantiate (ε := ε) m rows) :=
  (keeps_viaClient (Client.Uses.keeps_reserveNames c _)).bind fun _ =>
    Meets.bind (Q := fun _ s => c.Uses s.2)
      (meets_ofExcept (fun _ _ _ => id) fun _ _ _ => id) fun _ => meets_pure fun _ => id

/-- Fetching records uses the store. -/
theorem uses_fetch (ids : List String) (fields : Option (List String)) :
    Keeps (fun s => c.Uses s.2) (fetch (ε := ε) ids fields) :=
  meets_get.bind fun _ =>
    (keeps_viaClient (ResultSet.uses_records c _ ids fields)).pre fun _ h => h.2

/-- Reading all instances uses the store. -/
theorem uses_all (m : Model α) : Keeps (fun s => c.Uses s.2) (all consult m) :=
  (uses_viaResults c consult
      (ResultSet.keeps_ids (fun read _ => ResultSet.uses_runOne c read) 0 none)).bind
    fun ids => (uses_fetch c ids none).bind fun rows => uses_instantiate c m rows

/-- Reading the instance of an id uses the store. -/
theorem uses_get? (m : Model α) (id : Value) :
    Keeps (fun s => c.Uses s.2) (get? consult m id) := by
  have hencode : Keeps (fun s => c.Uses s.2) (encodeId (ε := ε) id) :=
    meets_get.bind fun _ => meets_pure fun _ h => h.2
  unfold get?
  refine (uses_prepare c consult).discard.bind fun _ => hencode.bind fun id => ?_
  split
  next => exact meets_pure fun _ h => h
  next id =>
    refine (keeps_construct consult _).bind fun tree => ?_
    have hcontains := uses_viaResults c consult
      (ResultSet.keeps_contains (fun read _ => ResultSet.uses_runOne c read) id)
    -- the record is read if the id is among the results, however that was found out
    have hread : ∀ found : Bool, Keeps (fun s => c.Uses s.2) (do
        if found then return (← instantiate m (← fetch [id] none)).head? else return none :
          Asking ε (Option (Instance α))) := by
      intro found
      split
      · exact (uses_fetch c [id] none).bind fun rows => (uses_instantiate c m rows).bind fun is =>
          meets_pure fun _ h => h
      · exact meets_pure fun _ h => h
    split
    · exact Meets.bind (Q := fun _ s => c.Uses s.2) (meets_pure fun _ h => h) hread
    · exact hcontains.bind hread

end LiveQuery

end KeyedRecords

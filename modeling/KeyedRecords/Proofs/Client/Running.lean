import KeyedRecords.Client.Basic
import KeyedRecords.Proofs.Result

/-!
# Running operations of a client

`runFrom` runs an operation on a client, or on something larger that a client is a part of. A client
whose link works and that has not been told to stop gets all replies of its server.
-/

namespace KeyedRecords

namespace Operation

variable {σ τ α β : Type} {s : σ}

@[simp]
theorem runFrom_get (s : σ) : runFrom s (get : Operation σ σ) = (.ok s, s) := rfl

/-- A result that is no error. -/
theorem runFrom_ofExcept {x : Except Error α} {a : α} (h : x = .ok a) (s : σ) :
    runFrom s (ofExcept x) = (.ok a, s) := by
  rw [h]
  rfl

/-- A result is no error if it succeeds as an operation. -/
theorem runFrom_ofExcept_ok_iff {x : Except Error α} {a : α} {s' : σ} :
    runFrom s (ofExcept x) = (.ok a, s') ↔ x = .ok a ∧ s' = s := by
  constructor
  · intro h
    cases x with
    | ok b =>
      cases h
      exact ⟨rfl, rfl⟩
    | error e => cases h
  · rintro ⟨rfl, rfl⟩
    rfl

theorem fst_runFrom_ofExcept_ok_iff {x : Except Error α} {a : α} :
    (runFrom s (ofExcept x)).1 = .ok a ↔ x = .ok a := by
  cases x with
  | ok b => exact ⟨fun h => congrArg _ (Except.ok.inj h), fun h => congrArg _ (Except.ok.inj h)⟩
  | error e => exact ⟨nofun, nofun⟩

/-- An operation on a part of the state changes that part only. -/
theorem runFrom_on {part : σ → τ} {replace : τ → σ → σ} {op : Operation τ α} {a : α} {t : τ}
    (h : runFrom (part s) op = (.ok a, t)) :
    runFrom s (on part replace op) = (.ok a, replace t s) := by
  have hon : runFrom s (on part replace op) =
      ((runFrom (part s) op).1, replace (runFrom (part s) op).2 s) := rfl
  rw [hon, h]

end Operation

/-- It can be seen whether a link works. -/
instance (fault : Fault) : Decidable (fault = .none) :=
  match fault with
  | .none => .isTrue rfl
  | .disconnect | .dropLast | .dropAll | .extra | .replace _ _ | .forge _ => .isFalse nofun

namespace Client

/-- The link works, and there is no reason to stop. -/
structure Works (client : Client) : Prop where
  fault : client.fault = .none
  cancelled : client.cancelled = false

variable {client : Client}

/-- There is no reason to stop. -/
theorem Works.runFrom_checkpoint (h : client.Works) :
    runFrom client checkpoint = (.ok ⟨⟩, client) := by
  unfold checkpoint
  rw [runFrom_bind_ok (Operation.runFrom_get client), h.cancelled]
  rfl

/-- All replies reach the client if the link works. -/
theorem runFrom_pipeline (h : client.fault = .none) (commands : List Command) :
    runFrom client (pipeline commands) =
      (.ok (client.server.sweep.space.executeAll commands).1,
        { client with server := (client.server.pipeline commands).2 }) := by
  unfold pipeline
  rw [runFrom_bind_ok (Operation.runFrom_get client), h]
  rfl

theorem Works.runFrom_pipeline (h : client.Works) (commands : List Command) :
    runFrom client (pipeline commands) =
      (.ok (client.server.sweep.space.executeAll commands).1,
        { client with server := (client.server.pipeline commands).2 }) :=
  Client.runFrom_pipeline h.fault commands

end Client

end KeyedRecords

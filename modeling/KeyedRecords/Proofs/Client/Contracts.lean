import KeyedRecords.Proofs.Client.Running

/-!
# Contracts of operations

An operation meets a contract if it leads from states with one property to states with another, and
stops only in states with a third, for reasons that the third allows (`Operation.Meets`). Contracts
of composed operations follow from those of their parts, one rule for each way of composing them.
-/

namespace KeyedRecords

namespace Operation

variable {σ τ α β : Type} {P P' : σ → Prop} {Q Q' : α → σ → Prop} {R : β → σ → Prop}
  {E E' : Stop → σ → Prop}

/-- From a state with `P` the operation leads to a state with `Q`, or stops in one with `E`. -/
def Meets (P : σ → Prop) (op : Operation σ α) (Q : α → σ → Prop) (E : Stop → σ → Prop) : Prop :=
  ∀ s, P s →
    match runFrom s op with
    | (.ok a, s') => Q a s'
    | (.error e, s') => E e s'

/-- The operation keeps a property of the state, however it ends. -/
abbrev Keeps (I : σ → Prop) (op : Operation σ α) : Prop := Meets I op (fun _ => I) fun _ => I

namespace Meets

variable {op : Operation σ α} {s s' : σ}

/-- What holds when the operation has answered. -/
theorem ok (h : Meets P op Q E) (hs : P s) {a : α} (hrun : runFrom s op = (.ok a, s')) :
    Q a s' := by
  have hmeets := h s hs
  rwa [hrun] at hmeets

/-- What holds when the operation has stopped. -/
theorem error (h : Meets P op Q E) (hs : P s) {e : Stop} (hrun : runFrom s op = (.error e, s')) :
    E e s' := by
  have hmeets := h s hs
  rwa [hrun] at hmeets

/-- An operation that does not stop answers. -/
theorem exists_ok (h : Meets P op Q fun _ _ => False) (hs : P s) :
    ∃ a s', runFrom s op = (.ok a, s') ∧ Q a s' := by
  cases hrun : runFrom s op with
  | mk result s' =>
    cases result with
    | ok a => exact ⟨a, s', rfl, h.ok hs hrun⟩
    | error e => exact (h.error hs hrun).elim

/-- What holds behind an operation however it ends. -/
theorem behind {I : σ → Prop} (h : Meets P op (fun _ => I) fun _ => I) (hs : P s) :
    I (runFrom s op).2 := by
  have hmeets := h s hs
  split at hmeets
  next hrun => rwa [hrun]
  next hrun => rwa [hrun]

/-- An operation meets a contract if its answers and its reasons to stop do. -/
theorem intro (hok : ∀ s a s', P s → runFrom s op = (.ok a, s') → Q a s')
    (herror : ∀ s e s', P s → runFrom s op = (.error e, s') → E e s') : Meets P op Q E := by
  intro s hs
  cases hrun : runFrom s op with
  | mk result s' =>
    cases result with
    | ok a => exact hok s a s' hs hrun
    | error e => exact herror s e s' hs hrun

/-- A contract that asks for more, or promises less. -/
theorem mono (h : Meets P op Q E) (hP : ∀ s, P' s → P s) (hQ : ∀ a s, Q a s → Q' a s)
    (hE : ∀ e s, E e s → E' e s) : Meets P' op Q' E' :=
  .intro (fun s a s' hs hrun => hQ a s' (h.ok (hP s hs) hrun))
    fun s e s' hs hrun => hE e s' (h.error (hP s hs) hrun)

/-- A contract that asks for more. -/
theorem pre (h : Meets P op Q E) (hP : ∀ s, P' s → P s) : Meets P' op Q E :=
  h.mono hP (fun _ _ hs => hs) fun _ _ hs => hs

/-- An operation and what is done with its answer. -/
theorem bind {next : α → Operation σ β} (h : Meets P op Q E)
    (hnext : ∀ a, Meets (Q a) (next a) R E) : Meets P (op >>= next) R E := by
  intro s hs
  rw [runFrom_bind]
  have hmeets := h s hs
  split at hmeets
  next hrun =>
    rw [hrun]
    exact hnext _ _ hmeets
  next hrun =>
    rw [hrun]
    exact hmeets

/-- An operation whose answer is changed. -/
theorem map {f : α → β} (h : Meets P op Q E) (hf : ∀ a s, Q a s → R (f a) s) :
    Meets P (f <$> op) R E := by
  rw [map_eq_pure_bind]
  exact h.bind fun a s hs => hf a s hs

/-- An operation whose answer is not needed. -/
theorem discard {I : σ → Prop} (h : Meets P op (fun _ => I) E) :
    Meets P (discard op) (fun _ => I) E :=
  h.map fun _ _ hs => hs

/-- An operation with a way out for when it stops. -/
theorem orElse {handle : Stop → Operation σ α} (h : Meets P op Q E)
    (hhandle : ∀ e, Meets (E e) (handle e) Q E') : Meets P (tryCatch op handle) Q E' := by
  intro s hs
  have hmeets := h s hs
  rw [runFrom_tryCatch]
  split at hmeets
  next hrun =>
    rw [hrun]
    exact hmeets
  next hrun =>
    rw [hrun]
    exact hhandle _ _ hmeets

end Meets

/-- An operation behind which a property holds, however it ends. -/
theorem keeps_of_behind {op : Operation σ α} {I : σ → Prop}
    (h : ∀ s, P s → I (runFrom s op).2) : Meets P op (fun _ => I) fun _ => I := by
  intro s hs
  have hI := h s hs
  split
  next hrun => rwa [hrun] at hI
  next hrun => rwa [hrun] at hI

theorem meets_pure {a : α} (h : ∀ s, P s → Q a s) : Meets P (pure a) Q E := h

theorem meets_throw {e : Stop} (h : ∀ s, P s → E e s) : Meets P (throw e) Q E := h

/-- What would come behind a stop does not matter. -/
theorem meets_throw_bind {e : Stop} {next : α → Operation σ β} (h : ∀ s, P s → E e s) :
    Meets P (throw e >>= next) R E := h

theorem meets_get : Meets P get (fun a s => a = s ∧ P s) E := fun _ hs => ⟨rfl, hs⟩

theorem meets_modify {f : σ → σ} {I : σ → Prop} (h : ∀ s, P s → I (f s)) :
    Meets P (modify f) (fun _ => I) E := h

/-- A result as an operation leaves the state as it is. -/
theorem meets_ofExcept {x : Except Error α} (hok : ∀ a, x = .ok a → ∀ s, P s → Q a s)
    (herror : ∀ e, x = .error e → ∀ s, P s → E (.failed e) s) : Meets P (ofExcept x) Q E := by
  cases x with
  | ok a => exact hok a rfl
  | error e => exact herror e rfl

/-- An operation on a part of the state. -/
theorem Meets.on {part : σ → τ} {replace : τ → σ → σ} {op : Operation τ α} {P' : τ → Prop}
    {Q' : α → τ → Prop} {E' : Stop → τ → Prop} (h : Meets P' op Q' E') (hP : ∀ s, P s → P' (part s))
    (hQ : ∀ s, P s → ∀ a t, Q' a t → Q a (replace t s))
    (hE : ∀ s, P s → ∀ e t, E' e t → E e (replace t s)) : Meets P (on part replace op) Q E := by
  intro s hs
  have hon : runFrom s (Operation.on part replace op) =
      ((runFrom (part s) op).1, replace (runFrom (part s) op).2 s) := rfl
  have hmeets := h (part s) (hP s hs)
  rw [hon]
  split at hmeets
  next hrun =>
    rw [hrun]
    exact hQ s hs _ _ hmeets
  next hrun =>
    rw [hrun]
    exact hE s hs _ _ hmeets

end Operation

end KeyedRecords

/-!
# Successful results

When a composed computation that may fail succeeds or fails, and where one that also has a state
leads.
-/

namespace KeyedRecords

variable {ε ε' α β : Type}

/-- A composed computation succeeds if both of its parts do. -/
theorem bind_ok_iff {x : Except ε α} {f : α → Except ε β} {b : β} :
    (x >>= f) = .ok b ↔ ∃ a, x = .ok a ∧ f a = .ok b := by
  cases x with
  | error e => simp [bind, Except.bind]
  | ok a => simp [bind, Except.bind]

/-- A composed computation fails if one of its parts does. -/
theorem bind_error_iff {x : Except ε α} {f : α → Except ε β} {e : ε} :
    (x >>= f) = .error e ↔ x = .error e ∨ ∃ a, x = .ok a ∧ f a = .error e := by
  cases x with
  | error e' => simp [bind, Except.bind]
  | ok a => simp [bind, Except.bind]

/-- A composed computation has a result if both of its parts have one. -/
theorem exists_bind_ok {x : Except ε α} {f : α → Except ε β} {a : α} (h : x = .ok a)
    (hnext : ∃ b, f a = .ok b) : ∃ b, (x >>= f) = .ok b := by
  obtain ⟨b, hb⟩ := hnext
  exact ⟨b, bind_ok_iff.mpr ⟨a, h, hb⟩⟩

/-- A composed computation has a result with a property if its second part has one. -/
theorem exists_bind_ok_and {x : Except ε α} {f : α → Except ε β} {a : α} {P : β → Prop}
    (h : x = .ok a) (hnext : ∃ b, f a = .ok b ∧ P b) : ∃ b, (x >>= f) = .ok b ∧ P b := by
  obtain ⟨b, hb, hP⟩ := hnext
  exact ⟨b, bind_ok_iff.mpr ⟨a, h, hb⟩, hP⟩

/-- A changed result comes from a successful computation. -/
theorem map_ok_iff {x : Except ε α} {f : α → β} {b : β} :
    f <$> x = .ok b ↔ ∃ a, x = .ok a ∧ f a = b := by
  cases x with
  | error e => simp [Functor.map, Except.map]
  | ok a => simp [Functor.map, Except.map]

/-- A computation whose errors are changed succeeds as before. -/
theorem mapError_ok_iff {x : Except ε α} {f : ε → ε'} {a : α} :
    x.mapError f = .ok a ↔ x = .ok a := by
  cases x with
  | error e => exact ⟨(nomatch ·), (nomatch ·)⟩
  | ok b =>
    constructor
    · intro h
      exact congrArg Except.ok (Except.ok.inj h)
    · intro h
      exact congrArg Except.ok (Except.ok.inj h)

/-- A computation returns just the value it is given. -/
theorem pure_ok_iff {a b : α} : (pure a : Except ε α) = .ok b ↔ a = b := by
  simp [pure, Except.pure]

/-- A computation that fails does not succeed. -/
theorem throw_ok_iff {e : ε} {a : α} : (throw e : Except ε α) = .ok a ↔ False := by
  simp [throw, throwThe, MonadExceptOf.throw]

/-- If every single computation succeeds, so do all of them, one behind the other. -/
theorem mapM_ok {f : α → Except ε β} {g : α → β} {as : List α} (h : ∀ a ∈ as, f a = .ok (g a)) :
    as.mapM f = .ok (as.map g) := by
  induction as with
  | nil => rfl
  | cons a rest ih =>
    rw [List.mapM_cons, h a List.mem_cons_self, ih fun b hb => h b (List.mem_cons_of_mem _ hb)]
    rfl

/-- If all computations succeed, each one by itself with the value that is given, these are the
results. -/
theorem eq_map_of_mapM_ok {f : α → Except ε β} {g : α → β} {as : List α} {bs : List β}
    (h : as.mapM f = .ok bs) (hg : ∀ a b, f a = .ok b → b = g a) : bs = as.map g := by
  induction as generalizing bs with
  | nil =>
    cases h
    rfl
  | cons a rest ih =>
    rw [List.mapM_cons] at h
    simp only [bind_ok_iff, pure_ok_iff] at h
    obtain ⟨b, hb, others, hothers, rfl⟩ := h
    rw [hg a b hb, ih hothers, List.map_cons]

section State

variable {σ γ : Type} {s s' : σ}

/-- The result of an operation on a state, and the state behind it. -/
def runFrom (s : σ) (op : ExceptT ε (StateM σ) α) : Except ε α × σ := (ExceptT.run op).run s

/-- A composed operation goes on where its first part has ended, or ends where that failed. -/
theorem runFrom_bind (s : σ) (op : ExceptT ε (StateM σ) α) (next : α → ExceptT ε (StateM σ) β) :
    runFrom s (op >>= next) =
      match runFrom s op with
      | (.ok a, s') => runFrom s' (next a)
      | (.error e, s') => (.error e, s') := by
  unfold runFrom ExceptT.run StateT.run
  simp only [bind, ExceptT.bind, ExceptT.mk, StateT.bind, ExceptT.bindCont]
  cases op s with
  | mk result next => cases result <;> rfl

/-- A composed operation whose first part succeeds. -/
theorem runFrom_bind_ok {op : ExceptT ε (StateM σ) α} {a : α} (h : runFrom s op = (.ok a, s'))
    (next : α → ExceptT ε (StateM σ) β) : runFrom s (op >>= next) = runFrom s' (next a) := by
  rw [runFrom_bind, h]

/-- A composed operation succeeds if its parts do, one behind the other. -/
theorem runFrom_bind_ok_iff {op : ExceptT ε (StateM σ) α} {next : α → ExceptT ε (StateM σ) β}
    {b : β} :
    runFrom s (op >>= next) = (.ok b, s') ↔
      ∃ a s₁, runFrom s op = (.ok a, s₁) ∧ runFrom s₁ (next a) = (.ok b, s') := by
  rw [runFrom_bind]
  cases runFrom s op with
  | mk result s₁ =>
    cases result with
    | error e => simp
    | ok a =>
      refine ⟨fun h => ⟨a, s₁, rfl, h⟩, ?_⟩
      rintro ⟨_, _, ⟨⟩, h⟩
      exact h

/-- A composed operation whose first part fails. -/
theorem runFrom_bind_error {op : ExceptT ε (StateM σ) α} {e : ε}
    (h : runFrom s op = (.error e, s')) (next : α → ExceptT ε (StateM σ) β) :
    runFrom s (op >>= next) = (.error e, s') := by
  rw [runFrom_bind, h]

/-- The result of a successful operation, changed. -/
theorem runFrom_map_ok {op : ExceptT ε (StateM σ) α} {a : α} (h : runFrom s op = (.ok a, s'))
    (f : α → β) : runFrom s (f <$> op) = (.ok (f a), s') := by
  rw [map_eq_pure_bind, runFrom_bind_ok h]
  rfl

/-- A successful operation whose result is not needed. -/
theorem runFrom_discard_ok {op : ExceptT ε (StateM σ) α} {a : α}
    (h : runFrom s op = (.ok a, s')) : runFrom s (discard op) = (.ok ⟨⟩, s') :=
  runFrom_map_ok h _

/-- A failure stays one when the result would be changed. -/
theorem runFrom_map_error {op : ExceptT ε (StateM σ) α} {e : ε}
    (h : runFrom s op = (.error e, s')) (f : α → β) :
    runFrom s (f <$> op) = (.error e, s') := by
  rw [map_eq_pure_bind, runFrom_bind_error h]

/-- Nor is it answered when the result is not needed. -/
theorem runFrom_discard_error {op : ExceptT ε (StateM σ) α} {e : ε}
    (h : runFrom s op = (.error e, s')) : runFrom s (discard op) = (.error e, s') :=
  runFrom_map_error h _

/-- An operation succeeds just if it does when its result is not needed. -/
theorem runFrom_discard_ok_iff {op : ExceptT ε (StateM σ) α} {u : PUnit} :
    runFrom s (discard op) = (.ok u, s') ↔ ∃ a, runFrom s op = (.ok a, s') := by
  cases hop : runFrom s op with
  | mk result s₁ =>
    cases result with
    | ok a =>
      rw [runFrom_discard_ok hop]
      simp
    | error e =>
      rw [runFrom_discard_error hop]
      simp

/-- Behind two operations a third one goes on where they have ended, or they have failed. -/
theorem runFrom_bind_bind (s : σ) (first : ExceptT ε (StateM σ) α)
    (next : α → ExceptT ε (StateM σ) β) (rest : α → β → ExceptT ε (StateM σ) γ) :
    match runFrom s (first >>= next) with
    | (.ok b, s') => ∃ a, runFrom s (first >>= fun a => next a >>= rest a) = runFrom s' (rest a b)
    | (.error e, s') => runFrom s (first >>= fun a => next a >>= rest a) = (.error e, s') := by
  rw [runFrom_bind s first next, runFrom_bind s first]
  cases runFrom s first with
  | mk result s₁ =>
    cases result with
    | error e => rfl
    | ok a =>
      dsimp only
      rw [runFrom_bind s₁ (next a)]
      cases runFrom s₁ (next a) with
      | mk result s' =>
        cases result with
        | error e => rfl
        | ok b => exact ⟨a, rfl⟩

/-- A failure may be answered by another operation, which goes on where the first has ended. -/
theorem runFrom_tryCatch (s : σ) (op : ExceptT ε (StateM σ) α)
    (handle : ε → ExceptT ε (StateM σ) α) :
    runFrom s (tryCatch op handle) =
      match runFrom s op with
      | (.ok a, s') => (.ok a, s')
      | (.error e, s') => runFrom s' (handle e) := by
  have hcatch : runFrom s (tryCatch op handle) = ExceptT.tryCatch op handle s := rfl
  rw [hcatch]
  unfold ExceptT.tryCatch runFrom ExceptT.run StateT.run
  simp only [bind, ExceptT.mk, StateT.bind]
  cases op s with
  | mk result next => cases result <;> rfl

end State

end KeyedRecords

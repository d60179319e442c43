import KeyedRecords.Proofs.Result
import KeyedRecords.Proofs.Store.Contents

/-!
# Running steps

`Keyspace.run` runs an operation that changes a key space and may fail. Runs of composed operations
are taken apart by `run_bind_ok` and `run_bind_error`. Whatever its key holds, a primitive step that
adds or removes members puts at most one value there, and none if it fails (`Keyspace.Revises`). On
a key that fits its kind it does not fail, and is described by what is there afterwards.
-/

namespace KeyedRecords

namespace Keyspace

section Run

variable {ε α β : Type}

/-- The result of an operation, and the key space behind it. -/
def run (ks : Keyspace) (op : ExceptT ε (StateM Keyspace) α) : Except ε α × Keyspace :=
  (ExceptT.run op).run ks

@[simp]
theorem run_pure (ks : Keyspace) (a : α) :
    ks.run (pure a : ExceptT ε (StateM Keyspace) α) = (.ok a, ks) := rfl

@[simp]
theorem run_get (ks : Keyspace) :
    ks.run (get : ExceptT ε (StateM Keyspace) Keyspace) = (.ok ks, ks) := rfl

@[simp]
theorem run_modify (ks : Keyspace) (f : Keyspace → Keyspace) :
    ks.run (modify f : ExceptT ε (StateM Keyspace) PUnit) = (.ok ⟨⟩, f ks) := rfl

theorem run_bind_ok {ks ks' : Keyspace} {op : ExceptT ε (StateM Keyspace) α} {a : α}
    (h : ks.run op = (.ok a, ks')) (next : α → ExceptT ε (StateM Keyspace) β) :
    ks.run (op >>= next) = ks'.run (next a) :=
  runFrom_bind_ok h next

theorem run_bind_error {ks ks' : Keyspace} {op : ExceptT ε (StateM Keyspace) α} {e : ε}
    (h : ks.run op = (.error e, ks')) (next : α → ExceptT ε (StateM Keyspace) β) :
    ks.run (op >>= next) = (.error e, ks') :=
  runFrom_bind_error h next

theorem run_map_ok {ks ks' : Keyspace} {op : ExceptT ε (StateM Keyspace) α} {a : α}
    (h : ks.run op = (.ok a, ks')) (f : α → β) : ks.run (f <$> op) = (.ok (f a), ks') :=
  runFrom_map_ok h f

theorem run_map_error {ks ks' : Keyspace} {op : ExceptT ε (StateM Keyspace) α} {e : ε}
    (h : ks.run op = (.error e, ks')) (f : α → β) : ks.run (f <$> op) = (.error e, ks') :=
  runFrom_map_error h f

theorem run_discard_ok {ks ks' : Keyspace} {op : ExceptT ε (StateM Keyspace) α} {a : α}
    (h : ks.run op = (.ok a, ks')) : ks.run (discard op) = (.ok ⟨⟩, ks') :=
  runFrom_discard_ok h

end Run

/-- Reading leaves the key space as it is. -/
theorem run_read {α : Type} (ks : Keyspace) (f : Keyspace → Except CommandFault α) :
    ks.run (Step.read f) = (f ks, ks) := by
  unfold Step.read
  rw [run_bind_ok (run_get ks)]
  cases f ks <;> rfl

theorem run_delete (ks : Keyspace) (keys : List String) :
    ks.run (Step.delete keys) =
      (.ok (ks.entries.size - (ks.delete keys).entries.size), ks.delete keys) := rfl

/-- The number that a counter stands at; a missing one stands at zero. -/
def counter? (ks : Keyspace) (key : String) : Option Int :=
  match ks.data? key with
  | none => some 0
  | some (.string s) => (Number.readInt64? s).map Int64.toInt
  | some _ => none

/-- A counter that can be read takes the next number, unless that is too great. -/
theorem run_increment_of_some {ks : Keyspace} {key : String} {n : Int}
    (hn : ks.counter? key = some n) :
    ks.run (Step.increment key) =
      if Number.fitsInt64 (n + 1) then
        (.ok (n + 1), ks.update key (.string (Number.intText (n + 1))))
      else (.error .notInteger, ks) := by
  -- what follows once the number has been read
  let next (n : Int) : Step Int :=
    if Number.fitsInt64 (n + 1) then do
      set (ks.update key (.string (Number.intText (n + 1))))
      return n + 1
    else throw .notInteger
  have hread : ks.run (Step.increment key) = ks.run (next n) := by
    unfold counter? at hn
    unfold Step.increment
    rw [run_bind_ok (run_get ks)]
    cases hd : ks.data? key with
    | none =>
      rw [hd] at hn
      cases hn
      rfl
    | some d =>
      rw [hd] at hn
      cases d with
      | string s =>
        obtain ⟨m, hm, rfl⟩ := Option.map_eq_some_iff.mp hn
        simp only [hm]
        rfl
      | _ => cases hn
  rw [hread]
  simp only [next]
  split <;> rfl

/-- A counter that cannot be read takes no number. -/
theorem run_increment_of_none {ks : Keyspace} {key : String} (hn : ks.counter? key = none) :
    ∃ e, ks.run (Step.increment key) = (.error e, ks) := by
  unfold counter? at hn
  unfold Step.increment
  rw [run_bind_ok (run_get ks)]
  cases hd : ks.data? key with
  | none =>
    rw [hd] at hn
    cases hn
  | some d =>
    rw [hd] at hn
    cases d with
    | string s =>
      have hread : Number.readInt64? s = none := Option.map_eq_none_iff.mp hn
      simp only [hread]
      exact ⟨_, rfl⟩
    | _ => exact ⟨_, rfl⟩

/-- A counter takes the next number, or fails and stands where it stood. -/
theorem run_increment (ks : Keyspace) (key : String) :
    (∃ e, ks.run (Step.increment key) = (.error e, ks)) ∨
      ∃ n, ks.counter? key = some n ∧ Number.fitsInt64 (n + 1) = true ∧
        ks.run (Step.increment key) =
          (.ok (n + 1), ks.update key (.string (Number.intText (n + 1)))) := by
  cases hn : ks.counter? key with
  | none => exact .inl (run_increment_of_none hn)
  | some n =>
    rw [run_increment_of_some hn]
    cases hfits : Number.fitsInt64 (n + 1) with
    | false => exact .inl ⟨_, rfl⟩
    | true => exact .inr ⟨n, rfl, hfits, rfl⟩

section Revisions

variable {α β : Type} {key : String} {op : Step α}

/-- A step leaves the key space as it is, or it does not fail and puts another value under its
key. -/
def Revises (key : String) (op : Step α) : Prop :=
  ∀ ks : Keyspace, (∃ e, ks.run op = (.error e, ks)) ∨
    ∃ a, ks.run op = (.ok a, ks) ∨ ∃ d, ks.run op = (.ok a, ks.update key d)

theorem revises_pure (a : α) : Revises key (pure a : Step α) := fun _ => .inr ⟨a, .inl rfl⟩

/-- A value is put under the key, and the answer is made of what has been read before. -/
theorem revises_update (d : Data) (a : α) :
    Revises key (modify (·.update key d) >>= fun _ => pure a) :=
  fun _ => .inr ⟨a, .inr ⟨d, rfl⟩⟩

/-- Nothing has been changed yet when the key has been read. -/
theorem revises_read_bind {f : Keyspace → Except CommandFault β} {next : β → Step α}
    (h : ∀ b, Revises key (next b)) : Revises key (Step.read f >>= next) := by
  intro ks
  cases hread : f ks with
  | error e => exact .inl ⟨e, run_bind_error (by rw [run_read, hread]) _⟩
  | ok b =>
    rw [run_bind_ok (by rw [run_read, hread])]
    exact h b ks

theorem revises_increment (key : String) : Revises key (Step.increment key) := by
  intro ks
  obtain ⟨e, hrun⟩ | ⟨n, -, -, hrun⟩ := run_increment ks key
  · exact .inl ⟨e, hrun⟩
  · exact .inr ⟨n + 1, .inr ⟨_, hrun⟩⟩

theorem revises_addMembers (key : String) (members : List String) :
    Revises key (Step.addMembers key members) := by
  unfold Step.addMembers
  split
  · exact revises_pure _
  · exact revises_read_bind fun _ => revises_update _ _

theorem revises_removeMembers (key : String) (members : List String) :
    Revises key (Step.removeMembers key members) := by
  refine revises_read_bind fun before => ?_
  cases before with
  | none => exact revises_pure _
  | some before => exact revises_update _ _

theorem revises_addScored (key : String) (items : List (Double × String)) :
    Revises key (Step.addScored key items) := by
  unfold Step.addScored
  split
  · exact revises_pure _
  · exact revises_read_bind fun _ => revises_update _ _

theorem revises_removeScored (key : String) (members : List String) :
    Revises key (Step.removeScored key members) := by
  refine revises_read_bind fun before => ?_
  cases before with
  | none => exact revises_pure _
  | some before => exact revises_update _ _

theorem revises_setFields (key : String) (pairs : List (String × String)) :
    Revises key (Step.setFields key pairs) := by
  unfold Step.setFields
  split
  · exact revises_pure _
  · exact revises_read_bind fun _ => revises_update _ _

theorem revises_removeFields (key : String) (fields : List String) :
    Revises key (Step.removeFields key fields) := by
  refine revises_read_bind fun before => ?_
  cases before with
  | none => exact revises_pure _
  | some before => exact revises_update _ _

theorem revises_pushItems (key : String) (items : List String) :
    Revises key (Step.pushItems key items) :=
  revises_read_bind fun _ => revises_update _ _

/-- A key that does not expire does not when its value is revised. -/
theorem Revises.lasts (h : Revises key op) {ks : Keyspace} (hlasts : ks.Lasts key) :
    (ks.run op).2.Lasts key := by
  obtain ⟨e, hrun⟩ | ⟨a, hrun | ⟨d, hrun⟩⟩ := h ks
  · rwa [hrun]
  · rwa [hrun]
  · rw [hrun]
    exact hlasts.update d

end Revisions

section Collections

variable {ks : Keyspace} {key : String}

/-- Members enter a set. -/
theorem run_addMembers (h : ks.Fits key .set) (members : List String) (hne : members ≠ []) :
    ∃ n ks', ks.run (Step.addMembers key members) = (.ok n, ks') ∧ ChangedAt key .set ks ks' ∧
      ∀ m, ks'.score? key m = if m ∈ members then some .one else ks.score? key m := by
  obtain ⟨s, hs, hscore⟩ := h.set?
  have hempty : members.isEmpty = false := by simpa [List.isEmpty_iff] using hne
  let after := Members.insertAll (s.getD ∅) members
  refine ⟨after.size - (s.getD ∅).size, ks.update key (.set after), ?_, .update ks rfl, ?_⟩
  · unfold Step.addMembers
    rw [hempty, if_neg Bool.false_ne_true, run_bind_ok (by rw [run_read, hs]),
      run_bind_ok (run_modify ks _), run_pure]
  · intro m
    rw [score?_update, if_pos rfl, hscore]
    simp only [Data.score?, after, Members.mem_insertAll]
    by_cases hm : m ∈ members <;> simp [hm]

/-- Members leave a set. -/
theorem run_removeMembers (h : ks.Fits key .set) (members : List String) :
    ∃ n ks', ks.run (Step.removeMembers key members) = (.ok n, ks') ∧ ChangedAt key .set ks ks' ∧
      ∀ m, ks'.score? key m = if m ∈ members then none else ks.score? key m := by
  obtain ⟨s, hs, hscore⟩ := h.set?
  unfold Step.removeMembers
  rw [run_bind_ok (by rw [run_read, hs])]
  -- a missing set is left missing, and has no members before or after
  cases s with
  | none =>
    refine ⟨0, ks, rfl, .refl h, fun m => ?_⟩
    rw [hscore]
    simp
  | some before =>
    let after := Members.eraseAll before members
    refine ⟨before.size - after.size, ks.update key (.set after), ?_, .update ks rfl, fun m => ?_⟩
    · rw [run_bind_ok (run_modify ks _), run_pure]
    · rw [score?_update, if_pos rfl, hscore]
      simp only [Data.score?, after, Members.mem_eraseAll, Option.getD_some]
      by_cases hm : m ∈ members <;> simp [hm]

/-- A member enters a sorted set, or takes another place there. -/
theorem run_addScored (h : ks.Fits key .sortedSet) (score : Double) (member : String) :
    ∃ n ks', ks.run (Step.addScored key [(score, member)]) = (.ok n, ks') ∧
      ChangedAt key .sortedSet ks ks' ∧
      ∀ m, ks'.score? key m = if m = member then some score else ks.score? key m := by
  obtain ⟨z, hz, hscore⟩ := h.sortedSet?
  let after := Table.insertAll (z.getD ∅) [(member, score)]
  refine ⟨after.size - (z.getD ∅).size, ks.update key (.sortedSet after), ?_, .update ks rfl, ?_⟩
  · unfold Step.addScored
    rw [List.isEmpty_cons, if_neg Bool.false_ne_true, run_bind_ok (by rw [run_read, hz]),
      run_bind_ok (run_modify ks _), run_pure]
    rfl
  · intro m
    rw [score?_update, if_pos rfl, hscore]
    exact Table.getElem?_insert _ _ _ _

/-- Members leave a sorted set. -/
theorem run_removeScored (h : ks.Fits key .sortedSet) (members : List String) :
    ∃ n ks', ks.run (Step.removeScored key members) = (.ok n, ks') ∧
      ChangedAt key .sortedSet ks ks' ∧
      ∀ m, ks'.score? key m = if m ∈ members then none else ks.score? key m := by
  obtain ⟨z, hz, hscore⟩ := h.sortedSet?
  unfold Step.removeScored
  rw [run_bind_ok (by rw [run_read, hz])]
  -- a missing sorted set is left missing
  cases z with
  | none =>
    refine ⟨0, ks, rfl, .refl h, fun m => ?_⟩
    rw [hscore]
    simp
  | some before =>
    let after := Table.eraseAll before members
    refine ⟨before.size - after.size, ks.update key (.sortedSet after), ?_, .update ks rfl,
      fun m => ?_⟩
    · rw [run_bind_ok (run_modify ks _), run_pure]
    · rw [score?_update, if_pos rfl, hscore]
      exact Table.getElem?_eraseAll _ _ _

end Collections

section Hashes

variable {ks : Keyspace} {key : String}

/-- Fields of a hash are set. -/
theorem run_setFields (h : ks.Fits key .hash) (pairs : List (String × String)) (hne : pairs ≠ []) :
    ∃ n ks', ks.run (Step.setFields key pairs) = (.ok n, ks') ∧ ChangedAt key .hash ks ks' ∧
      ∀ f, ks'.field? key f = (pairs.reverse.lookup f).or (ks.field? key f) := by
  obtain ⟨t, ht, -, hfield⟩ := h.hash?
  have hempty : pairs.isEmpty = false := by simpa [List.isEmpty_iff] using hne
  let after := Table.insertAll (t.getD ∅) pairs
  refine ⟨after.size - (t.getD ∅).size, ks.update key (.hash after), ?_, .update ks rfl, ?_⟩
  · unfold Step.setFields
    rw [hempty, if_neg Bool.false_ne_true, run_bind_ok (by rw [run_read, ht]),
      run_bind_ok (run_modify ks _), run_pure]
  · intro f
    rw [field?_update, if_pos rfl, hfield]
    exact Table.getElem?_insertAll _ _ _

/-- Fields of a hash are removed. -/
theorem run_removeFields (h : ks.Fits key .hash) (fields : List String) :
    ∃ n ks', ks.run (Step.removeFields key fields) = (.ok n, ks') ∧ ChangedAt key .hash ks ks' ∧
      ∀ f, ks'.field? key f = if f ∈ fields then none else ks.field? key f := by
  obtain ⟨t, ht, -, hfield⟩ := h.hash?
  unfold Step.removeFields
  rw [run_bind_ok (by rw [run_read, ht])]
  -- a missing hash is left missing
  cases t with
  | none =>
    refine ⟨0, ks, rfl, .refl h, fun f => ?_⟩
    rw [hfield]
    simp
  | some before =>
    let after := Table.eraseAll before fields
    refine ⟨before.size - after.size, ks.update key (.hash after), ?_, .update ks rfl, fun f => ?_⟩
    · rw [run_bind_ok (run_modify ks _), run_pure]
    · rw [field?_update, if_pos rfl, hfield]
      exact Table.getElem?_eraseAll _ _ _

end Hashes

end Keyspace

end KeyedRecords

import KeyedRecords.Proofs.Store.Algebra
import KeyedRecords.Store.Execute

/-!
# Running commands

A command whose steps do not fail is answered by what they answer, and leads where they lead. The
commands of a list that all succeed lead from one key space to another (`Keyspace.Succeeds`). Of
commands that store the result of set algebra, all there is to know is that they succeed and which
members their destination has afterwards (`Keyspace.Stores`).
-/

namespace KeyedRecords

/-- Whether a reply says that its command failed. -/
def Reply.isError : Reply → Bool
  | .error _ => true
  | _ => false

namespace Keyspace

variable {ks ks' ks'' : Keyspace} {c : Command} {cs more : List Command}

/-- A command is answered by its steps. -/
theorem execute_eq (ks : Keyspace) (c : Command) :
    ks.execute c =
      match ks.run (Step.ofCommand c) with
      | (.ok reply, ks') => (reply, ks')
      | (.error e, ks') => (.error e.message, ks') := rfl

theorem execute_ok {c : Command} {reply : Reply}
    (h : ks.run (Step.ofCommand c) = (.ok reply, ks')) : ks.execute c = (reply, ks') := by
  rw [execute_eq, h]

theorem execute_snd (ks : Keyspace) (c : Command) :
    (ks.execute c).2 = (ks.run (Step.ofCommand c)).2 := by
  rw [execute_eq]
  cases ks.run (Step.ofCommand c) with
  | mk result ks' => cases result <;> rfl

/-- A command that reads is answered with what it has read, and changes nothing. -/
theorem execute_read {α : Type} {c : Command} (f : Keyspace → Except CommandFault α)
    {answer : α → Reply} {a : α}
    (hc : Step.ofCommand c = Step.read f >>= fun a => pure (answer a)) (h : f ks = .ok a) :
    ks.execute c = (answer a, ks) := by
  refine execute_ok ?_
  rw [hc, run_bind_ok (by rw [run_read, h])]
  rfl

/-- If the read fails, then so does the command. -/
theorem execute_read_error {α : Type} {c : Command} (f : Keyspace → Except CommandFault α)
    {answer : α → Reply} {e : CommandFault}
    (hc : Step.ofCommand c = Step.read f >>= fun a => pure (answer a)) (h : f ks = .error e) :
    ks.execute c = (.error e.message, ks) := by
  rw [execute_eq, hc, run_bind_error (by rw [run_read, h])]

/-- In any case it changes nothing. -/
theorem execute_read_snd {α : Type} {c : Command} (f : Keyspace → Except CommandFault α)
    {answer : α → Reply}
    (hc : Step.ofCommand c = Step.read f >>= fun a => pure (answer a)) (ks : Keyspace) :
    (ks.execute c).2 = ks := by
  cases h : f ks with
  | ok a => rw [execute_read f hc h]
  | error e => rw [execute_read_error f hc h]

/-- A commit leads where its script leads. -/
theorem execute_commit_snd (ks : Keyspace) (b : Batch) :
    (ks.execute (.eval (.commit b))).2 = (ks.run (CommitScript.run b)).2 := by
  have hcommand : Step.ofCommand (.eval (.commit b)) = Reply.commit <$> CommitScript.run b := rfl
  rw [execute_snd, hcommand]
  -- the reply is changed, not the key space behind the script
  cases hrun : ks.run (CommitScript.run b) with
  | mk result ks' =>
    cases result with
    | ok reply => rw [run_map_ok hrun]
    | error e => rw [run_map_error hrun]

/-- A commit that is answered with the reply to its batch has run its script. -/
theorem execute_commit_ok {b : Batch} {reply : BatchReply}
    (h : ks.execute (.eval (.commit b)) = (.commit reply, ks')) :
    ks.run (CommitScript.run b) = (.ok reply, ks') := by
  have hcommand : Step.ofCommand (.eval (.commit b)) = Reply.commit <$> CommitScript.run b := rfl
  rw [execute_eq, hcommand] at h
  cases hrun : ks.run (CommitScript.run b) with
  | mk result ks'' =>
    cases result with
    | error e =>
      rw [run_map_error hrun] at h
      cases h
    | ok reply' =>
      rw [run_map_ok hrun] at h
      cases h
      rfl

/-- Commands are executed one behind the other. -/
theorem executeAll_append (ks : Keyspace) (cs more : List Command) :
    ks.executeAll (cs ++ more) =
      ((ks.executeAll cs).1 ++ ((ks.executeAll cs).2.executeAll more).1,
        ((ks.executeAll cs).2.executeAll more).2) := by
  induction cs generalizing ks with
  | nil => rfl
  | cons c rest ih =>
    rw [List.cons_append]
    simp only [executeAll, ih, List.cons_append]

/-- Commands that change nothing are answered from one key space. -/
theorem executeAll_map (ks : Keyspace) {α : Type} (f : α → Command) (as : List α)
    (h : ∀ a ∈ as, (ks.execute (f a)).2 = ks) :
    ks.executeAll (as.map f) = (as.map fun a => (ks.execute (f a)).1, ks) := by
  induction as with
  | nil => rfl
  | cons a rest ih =>
    obtain ⟨ha, hrest⟩ := List.forall_mem_cons.mp h
    simp only [List.map_cons, executeAll, ha, ih hrest]

/-- Every command is answered once. -/
theorem length_executeAll (ks : Keyspace) (cs : List Command) :
    (ks.executeAll cs).1.length = cs.length := by
  induction cs generalizing ks with
  | nil => rfl
  | cons c rest ih =>
    unfold executeAll
    simp only [List.length_cons, ih]

/-- All commands of a list succeed. -/
def Passes (ks : Keyspace) (cs : List Command) : Prop :=
  ∀ reply ∈ (ks.executeAll cs).1, reply.isError = false

theorem passes_cons :
    ks.Passes (c :: cs) ↔ (ks.execute c).1.isError = false ∧ (ks.execute c).2.Passes cs := by
  simp only [Passes, executeAll, List.forall_mem_cons]

theorem passes_append :
    ks.Passes (cs ++ more) ↔ ks.Passes cs ∧ (ks.executeAll cs).2.Passes more := by
  simp only [Passes, executeAll_append, List.mem_append, or_imp, forall_and]

/-- All commands of a list succeed, and lead from one key space to another. -/
structure Succeeds (ks : Keyspace) (cs : List Command) (ks' : Keyspace) : Prop where
  /-- No reply reports a failure. -/
  replies : ∀ reply ∈ (ks.executeAll cs).1, reply.isError = false
  /-- This is the key space behind the last command. -/
  leads : (ks.executeAll cs).2 = ks'

namespace Succeeds

/-- Without commands, nothing happens. -/
theorem nil (ks : Keyspace) : ks.Succeeds [] ks := ⟨by simp [executeAll], rfl⟩

/-- Commands that succeed one list behind the other. -/
theorem append {cs more : List Command} (h : ks.Succeeds cs ks') (hmore : ks'.Succeeds more ks'') :
    ks.Succeeds (cs ++ more) ks'' := by
  obtain ⟨hreplies, rfl⟩ := h
  refine ⟨fun reply hreply => ?_, ?_⟩
  · rw [executeAll_append] at hreply
    rcases List.mem_append.mp hreply with hreply | hreply
    · exact hreplies reply hreply
    · exact hmore.replies reply hreply
  · rw [executeAll_append]
    exact hmore.leads

/-- One command whose steps succeed. -/
theorem of_run {c : Command} {reply : Reply} (h : ks.run (Step.ofCommand c) = (.ok reply, ks'))
    (hreply : reply.isError = false) : ks.Succeeds [c] ks' := by
  have hexecute := execute_ok h
  refine ⟨fun r hr => ?_, ?_⟩
  · simp only [executeAll, hexecute, List.mem_singleton] at hr
    rwa [hr]
  · simp only [executeAll, hexecute]

/-- One command that counts. -/
theorem of_count {c : Command} {op : Step Nat} {n : Nat}
    (hc : Step.ofCommand c = Reply.count <$> op) (h : ks.run op = (.ok n, ks')) :
    ks.Succeeds [c] ks' := by
  have hcount : ks.run (Step.ofCommand c) = (.ok (.count n), ks') := by
    rw [hc]
    exact run_map_ok h _
  exact of_run hcount rfl

end Succeeds

/-- Commands succeed and change nothing but one key, which then holds a collection of a kind with
just the members that have a property. -/
def Stores (ks : Keyspace) (cs : List Command) (dest : String) (kind : DataKind)
    (P : String → Prop) : Prop :=
  ∃ ks', ks.Succeeds cs ks' ∧ ChangedAt dest kind ks ks' ∧ ∀ m, ks'.Has dest m ↔ P m

namespace Stores

variable {c : Command} {cs more : List Command} {dest : String} {keys : List String}
  {kind kind' : DataKind} {P Q : String → Prop}

/-- Properties that mean the same. -/
theorem congr (h : ks.Stores cs dest kind P) (hPQ : ∀ m, P m ↔ Q m) :
    ks.Stores cs dest kind Q := by
  obtain ⟨ks', hcs, hchanged, hhas⟩ := h
  exact ⟨ks', hcs, hchanged, fun m => (hhas m).trans (hPQ m)⟩

/-- A key may be written more than once. -/
theorem append (hcs : ks.Succeeds cs ks') (hchanged : ChangedAt dest kind' ks ks')
    (h : ks'.Stores more dest kind P) : ks.Stores (cs ++ more) dest kind P := by
  obtain ⟨ks'', hmore, hlater, hhas⟩ := h
  exact ⟨ks'', hcs.append hmore, hchanged.trans hlater, hhas⟩

/-- A collection that is to expire is stored. -/
theorem expire (h : ks.Stores cs dest kind P) (seconds : Nat) :
    ks.Stores (cs ++ [.expire dest seconds]) dest kind P := by
  obtain ⟨ks', hcs, hchanged, hhas⟩ := h
  -- the time of expiry is counted in milliseconds from now
  have hexpire : ks'.run (Step.ofCommand (.expire dest seconds)) =
      (.ok (.flag (ks'.entries.contains dest)), ks'.expire dest (ks'.now + 1000 * seconds)) := rfl
  refine ⟨_, hcs.append (.of_run hexpire rfl), hchanged.trans (.expire hchanged.fits _), ?_⟩
  intro m
  rw [← hhas m]
  unfold Has Keyspace.score?
  rw [data?_expire]

/-- A command that replaces what a key holds. -/
theorem of_replace {op : Step Nat} {n : Nat} {d : Data} (hc : Step.ofCommand c = Reply.count <$> op)
    (h : ks.run op = (.ok n, ks.replace dest d)) (hkind : d.kind = kind) :
    ks.Stores [c] dest kind fun m => (d.score? m).isSome = true := by
  refine ⟨_, .of_count hc h, .replace ks hkind, fun m => ?_⟩
  rw [Has, score?_replace, if_pos rfl]

/-- A command that stores the set which an operation makes of sets. -/
theorem of_sets {f : List Members → Members}
    (hc : Step.ofCommand c = Reply.count <$> Step.storeSets dest keys f)
    (h : ∀ key ∈ keys, ks.Fits key .set) :
    ks.Stores [c] dest .set fun m => m ∈ f (keys.map ks.setAt) := by
  obtain ⟨n, hrun⟩ := run_storeSets h dest f
  refine (of_replace hc hrun rfl).congr fun m => ?_
  simp [Data.score?]

/-- A command that stores the sorted set which an operation makes of weighted ones. -/
theorem of_sorted {weights : Option (List Double)} {pairs : List (String × Double)}
    {f : List (Table Double) → Table Double}
    (hc : Step.ofCommand c = Reply.count <$> Step.storeSorted dest keys weights f)
    (hpairs : ks.run (Step.pairWeights keys weights) = (.ok pairs, ks))
    (h : ∀ p ∈ pairs, ks.FitsScored p.1) :
    ks.Stores [c] dest .sortedSet fun m => m ∈ f (pairs.map ks.weightedAt) := by
  obtain ⟨n, hrun⟩ := run_storeSorted hpairs h dest f
  refine (of_replace hc hrun rfl).congr fun m => ?_
  rw [Data.score?, Std.ExtTreeMap.mem_iff_isSome_getElem?]

/-- The command that stores the members of the first sorted set that are in no other. -/
theorem of_sortedDiff (h : ∀ key ∈ keys, ks.FitsScored key) :
    ks.Stores [.zdiffstore dest keys] dest .sortedSet
      fun m => m ∈ Table.diffAll (keys.map ks.scoredAt) := by
  obtain ⟨n, hrun⟩ := run_storeSortedDiff h dest
  refine (of_replace rfl hrun rfl).congr fun m => ?_
  rw [Data.score?, Std.ExtTreeMap.mem_iff_isSome_getElem?]

end Stores

end Keyspace

end KeyedRecords

import KeyedRecords.Proofs.Commit.History
import KeyedRecords.Proofs.Store.Starvation

/-!
# Commands that fail

A command that fails changes nothing (`Keyspace.eq_self_of_failed`): each step reads what it needs
before it changes anything, and what it has read it can change without fail. So a pipeline does what
it would do without the commands that fail in it (`Keyspace.executeAll_answered`).
-/

namespace KeyedRecords

namespace Keyspace

section Atomic

variable {ε α β : Type} {A : α → Prop} {B : β → Prop} {op : ExceptT ε (StateM Keyspace) α}

/-- An operation fails and leaves the key space as it was, or it gives an answer with a property. -/
def Atomic (A : α → Prop) (op : ExceptT ε (StateM Keyspace) α) : Prop :=
  ∀ ks : Keyspace, (∃ e, ks.run op = (.error e, ks)) ∨ ∃ a ks', A a ∧ ks.run op = (.ok a, ks')

theorem atomic_pure {a : α} (h : A a) : Atomic A (pure a : ExceptT ε (StateM Keyspace) α) :=
  fun ks => .inr ⟨a, ks, h, rfl⟩

theorem atomic_throw (e : ε) : Atomic A (throw e : ExceptT ε (StateM Keyspace) α) :=
  fun _ => .inl ⟨e, rfl⟩

/-- What is done may depend on the key space. -/
theorem atomic_get_bind {next : Keyspace → ExceptT ε (StateM Keyspace) α}
    (h : ∀ ks, Atomic A (next ks)) : Atomic A (get >>= next) := by
  intro ks
  rw [run_bind_ok (run_get ks)]
  exact h ks ks

/-- Nothing has changed yet when a key has been read, so what follows may still fail. -/
theorem atomic_read_bind {f : Keyspace → Except CommandFault β} {next : β → Step α}
    (h : ∀ b, Atomic A (next b)) : Atomic A (Step.read f >>= next) := by
  intro ks
  cases hread : f ks with
  | error e => exact .inl ⟨e, run_bind_error (by rw [run_read, hread]) _⟩
  | ok b =>
    rw [run_bind_ok (by rw [run_read, hread])]
    exact h b ks

/-- A change does not fail, if nothing else is done behind it. -/
theorem atomic_modify_bind {f : Keyspace → Keyspace} {a : α} (h : A a) :
    Atomic A (modify f >>= fun _ => pure a : ExceptT ε (StateM Keyspace) α) :=
  fun ks => .inr ⟨a, f ks, h, rfl⟩

/-- An operation whose answer is changed. -/
theorem Atomic.map {f : α → β} (h : Atomic A op) (hf : ∀ a, A a → B (f a)) :
    Atomic B (f <$> op) := by
  intro ks
  obtain ⟨e, hrun⟩ | ⟨a, ks', ha, hrun⟩ := h ks
  · exact .inl ⟨e, run_map_error hrun f⟩
  · exact .inr ⟨f a, ks', hf a ha, run_map_ok hrun f⟩

end Atomic

section Steps

/-- Any answer will do. -/
abbrev Whole {α : Type} (op : Step α) : Prop := Atomic (fun _ => True) op

theorem Revises.whole {α : Type} {key : String} {op : Step α} (h : Revises key op) :
    Whole op := by
  intro ks
  obtain ⟨e, hrun⟩ | ⟨a, hrun | ⟨d, hrun⟩⟩ := h ks
  · exact .inl ⟨e, hrun⟩
  · exact .inr ⟨a, ks, trivial, hrun⟩
  · exact .inr ⟨a, _, trivial, hrun⟩

theorem whole_store (dest : String) (data : Data) (size : Nat) :
    Whole (Step.store dest data size) :=
  atomic_modify_bind trivial

/-- A commit fails only if the ids to delete cannot be found out, which is before it touches
anything: a refusal of one instance is part of the reply. -/
theorem whole_run (b : Batch) : Whole (CommitScript.run b) := by
  intro ks
  obtain ⟨e, hids⟩ | ⟨ids, hids⟩ := CommitScript.run_idsOf ks b.deletes
  · exact .inl ⟨e, CommitScript.run_eq_of_error hids⟩
  · exact .inr ⟨_, _, trivial, CommitScript.run_eq hids⟩

end Steps

/-- A command that does not collect members fails and changes nothing, or is answered with a reply
that reports no failure. -/
theorem atomic_ofCommand {c : Command} (hc : c.destination? = none) :
    Atomic (·.isError = false) (Step.ofCommand c) := by
  have hcount : ∀ {op : Step Nat}, Whole op → Atomic (·.isError = false) (Reply.count <$> op) :=
    fun h => h.map fun _ _ => rfl
  cases c with
  | get key =>
    refine atomic_get_bind fun ks => ?_
    split
    · exact atomic_pure rfl
    · exact atomic_pure rfl
    · exact atomic_throw _
  | set key value => exact atomic_modify_bind rfl
  | del keys => exact fun ks => .inr ⟨_, _, rfl, rfl⟩
  | existsKey key => exact fun ks => .inr ⟨_, _, rfl, rfl⟩
  | expire key seconds => exact fun ks => .inr ⟨_, _, rfl, rfl⟩
  | ttl key => exact fun ks => .inr ⟨_, _, rfl, rfl⟩
  | incr key => exact (revises_increment key).whole.map (f := Reply.int) fun _ _ => rfl
  | sadd key members => exact hcount (revises_addMembers key members).whole
  | srem key members => exact hcount (revises_removeMembers key members).whole
  | smembers key => exact atomic_read_bind fun _ => atomic_pure rfl
  | scard key => exact atomic_read_bind fun _ => atomic_pure rfl
  | sismember key member => exact atomic_read_bind fun _ => atomic_pure rfl
  | sinterstore | sunionstore | sdiffstore | zinterstore | zunionstore | zdiffstore => cases hc
  | zadd key items => exact hcount (revises_addScored key items).whole
  | zrem key members => exact hcount (revises_removeScored key members).whole
  | zrange key start stop reversed => exact atomic_read_bind fun _ => atomic_pure rfl
  | zcard key => exact atomic_read_bind fun _ => atomic_pure rfl
  | zscore key member =>
    refine atomic_read_bind fun z => ?_
    split
    · exact atomic_pure rfl
    · exact atomic_pure rfl
  | hset key pairs => exact hcount (revises_setFields key pairs).whole
  | hget key field =>
    refine atomic_read_bind fun h => ?_
    split
    · exact atomic_pure rfl
    · exact atomic_pure rfl
  | hdel key fields => exact hcount (revises_removeFields key fields).whole
  | hgetall key => exact atomic_read_bind fun _ => atomic_pure rfl
  | hmget key fields => exact atomic_read_bind fun _ => atomic_pure rfl
  | rpush key items => exact hcount (revises_pushItems key items).whole
  | lrange key start stop => exact atomic_read_bind fun _ => atomic_pure rfl
  | llen key => exact atomic_read_bind fun _ => atomic_pure rfl
  | sort key pattern? descending alpha dest =>
    refine atomic_read_bind fun items => ?_
    cases dest with
    | none => exact atomic_pure rfl
    | some dest => exact hcount (whole_store dest _ _)
  | eval script =>
    cases script with
    | resolveUnique => cases hc
    | commit b => exact (whole_run b).map (f := Reply.commit) fun _ _ => rfl

/-- A command that fails leaves the key space as it was. -/
theorem execute_cases (ks : Keyspace) (c : Command) :
    (ks.execute c).1.isError = false ∨ (ks.execute c).2 = ks := by
  cases hc : c.destination? with
  | some dest =>
    -- what collects members puts them under its destination last
    obtain ⟨reply, -, hrun⟩ | ⟨reply, d, hreply, -, hrun⟩ := collects_of_destination hc ks
    · exact .inr (congrArg Prod.snd hrun)
    · exact .inl ((congrArg (·.1.isError) hrun).trans hreply)
  | none =>
    rw [execute_eq]
    obtain ⟨e, hrun⟩ | ⟨reply, ks', hreply, hrun⟩ := atomic_ofCommand hc ks
    · rw [hrun]
      exact .inr rfl
    · rw [hrun]
      exact .inl hreply

/-- A pipeline does what it would do without the commands that fail in it. -/
theorem executeAll_answered (ks : Keyspace) (cs : List Command) :
    let answered := (cs.zip (ks.executeAll cs).1).filter fun a => !a.2.isError
    ks.executeAll (answered.map Prod.fst) = (answered.map Prod.snd, (ks.executeAll cs).2) := by
  induction cs generalizing ks with
  | nil => rfl
  | cons c rest ih =>
    -- the rest goes on from where the first command has led, which is nowhere if it failed
    have hrest := ih (ks.execute c).2
    simp only [executeAll, List.zip_cons_cons] at hrest ⊢
    cases herror : (ks.execute c).1.isError with
    | false =>
      rw [List.filter_cons_of_pos (by simp [herror])]
      simp only [List.map_cons, executeAll, hrest]
    | true =>
      have hsame := (execute_cases ks c).resolve_left (by simp [herror])
      rw [List.filter_cons_of_neg (by simp [herror])]
      rw [hsame] at hrest ⊢
      exact hrest

/-- A command that fails changes nothing: every key has the value and the time of expiry that it had
before. -/
theorem eq_self_of_failed {ks : Keyspace} {c : Command} (h : (ks.execute c).1.isError = true) :
    (ks.execute c).2 = ks :=
  (execute_cases ks c).resolve_left (by simp [h])

/-- A commit is to delete a hero who is there, and the members of a text by mistake. It fails, and
the hero is there still. -/
theorem eq_self_of_failed_commit :
    ∃ (ks : Keyspace) (c : Command), (ks.execute c).1.isError = true ∧ (ks.execute c).2 = ks ∧
      (ks.data? (CommitScript.heroes.keys.object "1")).isSome = true := by
  let ada : Batch :=
    { Batch.ofLayout CommitScript.heroes with
      writes := [.ofRecord CommitScript.heroes (IdentityKey.placeholder 0)
        (.ofList [("name", .text "Ada"), ("team", .text "red")]) none] }
  let ks := ((Keyspace.empty.execute (.eval (.commit ada))).2.execute (.set "doomed" "1")).2
  let c : Command :=
    .eval (.commit { Batch.ofLayout CommitScript.heroes with
      deletes := [.ids ["1"], .key "doomed"] })
  have hfails : (ks.execute c).1.isError = true := by decide +kernel
  exact ⟨ks, c, hfails, eq_self_of_failed hfails, by decide +kernel⟩

end Keyspace

end KeyedRecords

import KeyedRecords.Proofs.Commit.Footprint

/-!
# What commands may change

Every command names the keys that it may change (`Command.Writes`): a commit those of its model, but
for the results of queries, and a read none. However a command ends, it edits these keys and does
nothing else (`Keyspace.edits_ofCommand`), and so does a pipeline (`Keyspace.edited_executeAll`).
-/

namespace KeyedRecords

/-- A command may change what a key holds, or when it expires. -/
def Command.Writes : Command → String → Prop
  | .set key _, k | .expire key _, k | .incr key, k => k = key
  | .sadd key _, k | .srem key _, k | .zadd key _, k | .zrem key _, k => k = key
  | .hset key _, k | .hdel key _, k | .rpush key _, k => k = key
  | .del keys, k => k ∈ keys
  | .sinterstore dest _, k | .sunionstore dest _, k | .sdiffstore dest _, k => k = dest
  | .zinterstore dest _ _ _, k | .zunionstore dest _ _ _, k | .zdiffstore dest _, k => k = dest
  | .sort _ _ _ _ dest, k => dest = some k
  | .eval (.resolveUnique _ _ dest _), k => k = dest
  | .eval (.commit b), k => ∃ s, b.keys.InSection k s ∧ s ≠ .temporary
  | _, _ => False

namespace Keyspace

variable {K : String → Prop}

/-- A step that counts edits what its operation does. -/
theorem edits_count {op : Step Nat} (h : Edits K op) : Edits K (Reply.count <$> op) := h.map

/-- A read that may fail, and an answer made of it. -/
theorem edits_answer {α : Type} (f : Keyspace → Except CommandFault α) (answer : α → Reply) :
    Edits K (Step.read f >>= fun a => pure (answer a)) :=
  (edits_read f).bind fun _ => edits_pure _

/-- What collects members edits its destination. -/
theorem edits_collect {c : Command} {dest : String} (hc : c.destination? = some dest)
    (hdest : K dest) : Edits K (Step.ofCommand c) := by
  intro ks
  rw [← execute_snd]
  obtain ⟨reply, -, hrun⟩ | ⟨reply, d, -, -, hrun⟩ := collects_of_destination hc ks
  · rw [hrun]
    exact .refl
  · rw [hrun]
    exact .replace .refl hdest d

/-- However a command ends, it edits the keys that it may change. -/
theorem edits_ofCommand (c : Command) : Edits c.Writes (Step.ofCommand c) := by
  cases c with
  | get key =>
    refine edits_get_bind fun ks => ?_
    split
    · exact edits_pure _
    · exact edits_pure _
    · exact edits_throw _
  | set key value =>
    intro ks
    exact Edited.replace (K := (· = key)) .refl rfl (.string value)
  | del keys => exact edits_count (edits_delete fun _ hkey => hkey)
  | existsKey key => exact edits_get_bind fun _ => edits_pure _
  | expire key seconds =>
    intro ks
    exact Edited.expire (K := (· = key)) .refl rfl _
  | ttl key => exact edits_get_bind fun _ => edits_pure _
  | incr key => exact (revises_increment key).edits_self.map
  | sadd key members => exact edits_count (revises_addMembers key members).edits_self
  | srem key members => exact edits_count (revises_removeMembers key members).edits_self
  | smembers key => exact edits_answer _ _
  | scard key => exact edits_answer _ _
  | sismember key member => exact edits_answer _ _
  | sinterstore dest keys => exact edits_collect rfl rfl
  | sunionstore dest keys => exact edits_collect rfl rfl
  | sdiffstore dest keys => exact edits_collect rfl rfl
  | zadd key items => exact edits_count (revises_addScored key items).edits_self
  | zrem key members => exact edits_count (revises_removeScored key members).edits_self
  | zrange key start stop reversed => exact edits_answer _ _
  | zcard key => exact edits_answer _ _
  | zscore key member =>
    refine (edits_read _).bind fun z => ?_
    split
    · exact edits_pure _
    · exact edits_pure _
  | zinterstore dest keys weights aggregate => exact edits_collect rfl rfl
  | zunionstore dest keys weights aggregate => exact edits_collect rfl rfl
  | zdiffstore dest keys => exact edits_collect rfl rfl
  | hset key pairs => exact edits_count (revises_setFields key pairs).edits_self
  | hget key field =>
    refine (edits_read _).bind fun h => ?_
    split
    · exact edits_pure _
    · exact edits_pure _
  | hdel key fields => exact edits_count (revises_removeFields key fields).edits_self
  | hgetall key => exact edits_answer _ _
  | hmget key fields => exact edits_answer _ _
  | rpush key items => exact edits_count (revises_pushItems key items).edits_self
  | lrange key start stop => exact edits_answer _ _
  | llen key => exact edits_answer _ _
  | sort key pattern? descending alpha dest =>
    refine (edits_read _).bind fun items => ?_
    cases dest with
    | none => exact edits_pure _
    | some dest =>
      refine edits_count (edits_store ?_ _ _)
      rfl
  | eval script =>
    cases script with
    | resolveUnique hash values dest ids => exact edits_collect rfl rfl
    | commit b => exact (CommitScript.edits_lasting b).map

/-- A command edits the keys that it may change, whether or not it fails. -/
theorem edited_execute (ks : Keyspace) (c : Command) : Edited c.Writes ks (ks.execute c).2 := by
  rw [execute_snd]
  exact edits_ofCommand c ks

/-- A pipeline edits what its commands may change, whichever of them fail. -/
theorem edited_executeAll (ks : Keyspace) (cs : List Command) :
    Edited (fun key => ∃ c ∈ cs, c.Writes key) ks (ks.executeAll cs).2 := by
  induction cs generalizing ks with
  | nil => exact .refl
  | cons c rest ih =>
    have hfirst : Edited (fun key => ∃ c' ∈ c :: rest, c'.Writes key) ks (ks.execute c).2 :=
      (edited_execute ks c).mono fun key hkey => ⟨c, List.mem_cons_self, hkey⟩
    refine hfirst.trans ((ih _).mono ?_)
    rintro key ⟨c', hc', hkey⟩
    exact ⟨c', List.mem_cons_of_mem c hc', hkey⟩

end Keyspace

end KeyedRecords

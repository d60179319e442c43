import KeyedRecords.Proofs.Commit.History
import KeyedRecords.Proofs.Store.Effects
import KeyedRecords.Store.Server

/-!
# No empty collections

On a server that started without keys, every key that is there holds a text or a collection with a
member (`Server.contains_iff_of_reached`): whatever the commands were and whichever of them failed,
each edit of a key keeps the key space free of empty collections (`Keyspace.Pruned`), and so does
dropping the keys that have expired.
-/

namespace KeyedRecords

/-- Something is in a collection: a member of a set or sorted set, an item of a list, or the name of
a field of a hash. -/
def Data.Contains : Data → String → Prop
  | .string _, _ => False
  | .set s, m => m ∈ s
  | .sortedSet z, m => m ∈ z
  | .list l, m => m ∈ l
  | .hash h, m => m ∈ h

/-- A collection is empty just if nothing is in it. -/
theorem Data.isEmpty_iff {d : Data} (hkind : d.kind ≠ .string) :
    d.isEmpty = true ↔ ∀ m, ¬d.Contains m := by
  cases d with
  | string s => exact absurd rfl hkind
  | set s => exact Std.ExtTreeSet.isEmpty_iff.trans Std.ExtTreeSet.eq_empty_iff_forall_not_mem
  | sortedSet z => exact Std.ExtTreeMap.isEmpty_iff.trans Std.ExtTreeMap.eq_empty_iff_forall_not_mem
  | list l => exact List.isEmpty_iff.trans List.eq_nil_iff_forall_not_mem
  | hash h => exact Std.ExtTreeMap.isEmpty_iff.trans Std.ExtTreeMap.eq_empty_iff_forall_not_mem

theorem Data.exists_contains {d : Data} (hkind : d.kind ≠ .string) (h : d.isEmpty = false) :
    ∃ m, d.Contains m := by
  by_contra hnone
  have hempty := (Data.isEmpty_iff hkind).mpr (not_exists.mp hnone)
  rw [h] at hempty
  cases hempty

namespace Keyspace

variable {K : String → Prop} {ks ks' : Keyspace} {key m : String} {d : Data}

/-- Something is in the collection of a key. -/
def Contains (ks : Keyspace) (key m : String) : Prop :=
  ∃ d, ks.data? key = some d ∧ d.Contains m

/-- No key holds an empty collection. -/
def Pruned (ks : Keyspace) : Prop := ∀ key d, ks.data? key = some d → d.isEmpty = false

theorem pruned_of_none (h : ∀ key, ks.data? key = none) : ks.Pruned := by
  intro key d hd
  rw [h key] at hd
  cases hd

theorem pruned_empty : empty.Pruned := pruned_of_none fun _ => rfl

namespace Pruned

/-- A key under which an empty collection is put is dropped. -/
theorem puts (hpruned : ks.Pruned) (h : Puts key d ks ks') : ks'.Pruned := by
  intro k d' hd'
  rw [h.data?_eq] at hd'
  split at hd'
  · split at hd'
    next => cases hd'
    next hempty =>
      cases hd'
      exact Bool.eq_false_iff.mpr hempty
  · exact hpruned k d' hd'

/-- A time of expiry is no part of what a key holds. -/
theorem expire (hpruned : ks.Pruned) (key : String) (time : Nat) : (ks.expire key time).Pruned := by
  intro k d hd
  rw [data?_expire] at hd
  exact hpruned k d hd

theorem delete (hpruned : ks.Pruned) (keys : List String) : (ks.delete keys).Pruned := by
  intro k d hd
  rw [data?_delete] at hd
  split at hd
  · cases hd
  · exact hpruned k d hd

/-- The keys that have not expired hold what they held. -/
theorem sweep (hpruned : ks.Pruned) (now : Nat) : (ks.sweep now).Pruned := by
  intro k d hd
  rcases data?_sweep_or ks now k with hnone | hsame
  · rw [hnone] at hd
    cases hd
  · rw [hsame] at hd
    exact hpruned k d hd

/-- No edit leaves an empty collection behind. -/
theorem edited (hpruned : ks.Pruned) (h : Edited K ks ks') : ks'.Pruned := by
  induction h with
  | refl => exact hpruned
  | update _ _ d ih => exact ih.puts (puts_update _ _ d)
  | replace _ _ d ih => exact ih.puts (puts_replace _ _ d)
  | expire _ _ time ih => exact ih.expire _ time
  | delete _ _ ih => exact ih.delete _

/-- Neither does a pipeline, whichever of its commands fail. -/
theorem executeAll (hpruned : ks.Pruned) (cs : List Command) : (ks.executeAll cs).2.Pruned :=
  hpruned.edited (edited_executeAll ks cs)

/-- A key that is there holds a text, or a collection that something is in. -/
theorem contains_iff (hpruned : ks.Pruned) (key : String) :
    ks.entries.contains key = true ↔ ks.kind? key = some .string ∨ ∃ m, ks.Contains key m := by
  have hthere : ks.entries.contains key = true ↔ ∃ d, ks.data? key = some d := by
    rw [Std.ExtTreeMap.contains_eq_isSome_getElem?, ← Option.isSome_map (f := Entry.data)]
    exact Option.isSome_iff_exists
  rw [hthere]
  constructor
  · rintro ⟨d, hd⟩
    by_cases hkind : d.kind = .string
    · exact .inl (by rw [kind?, hd, Option.map_some, hkind])
    · obtain ⟨m, hm⟩ := Data.exists_contains hkind (hpruned key d hd)
      exact .inr ⟨m, d, hd, hm⟩
  · rintro (hkind | ⟨m, d, hd, -⟩)
    · obtain ⟨d, hd, -⟩ := Option.map_eq_some_iff.mp hkind
      exact ⟨d, hd⟩
    · exact ⟨d, hd⟩

end Pruned

end Keyspace

namespace Server

/-- What can become of a server that started without keys: pipelines are run, the clock is moved or
runs by itself, keys that have expired are dropped, all keys are deleted, and counters are set to
zero. -/
inductive Reached : Server → Prop
  | empty (clock : Clock) : Reached (.empty clock)
  | pipeline {s : Server} (h : Reached s) (cs : List Command) : Reached (s.pipeline cs).2
  | advance {s s' : Server} (h : Reached s) {milliseconds : Nat}
      (hs' : s.advance milliseconds = .ok s') : Reached s'
  | elapse {s : Server} (h : Reached s) (milliseconds : Nat) : Reached (s.elapse milliseconds)
  | sweep {s : Server} (h : Reached s) : Reached s.sweep
  | flush {s : Server} (h : Reached s) : Reached s.flush
  | resetStats {s : Server} (h : Reached s) : Reached s.resetStats

/-- When time passes, the keys stay as they are, and the clock does not go back. -/
theorem advance_ok {s s' : Server} {milliseconds : Nat} (h : s.advance milliseconds = .ok s') :
    s'.space = s.space ∧ s.clock.now ≤ s'.clock.now := by
  unfold advance at h
  split at h
  next now hclock =>
    cases h
    rw [hclock]
    exact ⟨rfl, Nat.le_add_right now milliseconds⟩
  next => cases h

/-- So it is when time passes by itself. -/
theorem elapse_spec (s : Server) (milliseconds : Nat) :
    (s.elapse milliseconds).space = s.space ∧ s.clock.now ≤ (s.elapse milliseconds).clock.now := by
  unfold elapse
  split
  next => exact ⟨rfl, Nat.le_refl _⟩
  next elapsed hclock =>
    rw [hclock]
    exact ⟨rfl, Nat.le_add_right elapsed milliseconds⟩

/-- Such a server holds no empty collections. -/
theorem Reached.pruned {s : Server} (h : s.Reached) : s.space.Pruned := by
  induction h with
  | empty clock => exact Keyspace.pruned_empty
  | pipeline _ cs ih => exact (ih.sweep _).executeAll cs
  | advance _ hs' ih =>
    rw [(advance_ok hs').1]
    exact ih
  | elapse _ milliseconds ih =>
    rw [(elapse_spec _ milliseconds).1]
    exact ih
  | sweep _ ih => exact ih.sweep _
  | flush _ _ => exact Keyspace.pruned_of_none fun _ => rfl
  | resetStats _ ih => exact ih

/-- Whatever pipelines were run on a server that started without keys, each key that holds a
collection holds one that something is in. So a key is there just if it holds a text or something is
in its collection. -/
theorem contains_iff_of_reached {s : Server} (h : s.Reached) :
    (∀ key d, s.space.data? key = some d → d.kind ≠ .string → ∃ m, d.Contains m) ∧
      ∀ key, s.space.entries.contains key = true ↔
        s.space.kind? key = some .string ∨ ∃ m, s.space.Contains key m :=
  ⟨fun key d hd hkind => Data.exists_contains hkind (h.pruned key d hd),
    h.pruned.contains_iff⟩

/-- A hero comes and goes, a list is taken for a set, and a hash expires: the list is there with what
is in it, and nothing is left of the collection of all ids and of the hash. -/
theorem contains_iff_of_reached_heroes :
    ∃ s : Server, s.Reached ∧ (∃ m, s.space.Contains "log" m) ∧
      (¬∃ m, s.space.Contains CommitScript.heroes.keys.ids m) ∧
      ¬∃ m, s.space.Contains "draft" m := by
  let batch := Batch.ofLayout CommitScript.heroes
  let ada : InstanceWrite := .ofRecord CommitScript.heroes (IdentityKey.placeholder 0)
    (.ofList [("name", .text "Ada"), ("team", .text "red")]) none
  let s := ((Server.empty (.manual 0)).pipeline
    [.eval (.commit { batch with writes := [ada] }), .rpush "log" ["came"], .sadd "log" ["gone"],
      .hset "draft" [("name", "Bob")], .expire "draft" 1]).2
  let later : Server := { s with clock := .manual 1000 }
  let left := (later.pipeline
    [.eval (.commit { batch with deletes := [.ids ["1"]] }), .sadd "log" [], .hdel "draft" ["name"],
      .sinterstore "both" ["log", "log"]]).2
  have hadvance : s.advance 1000 = .ok later := rfl
  have hlater : later.Reached := .advance (.pipeline (.empty _) _) hadvance
  have hleft : left.Reached := hlater.pipeline _
  obtain ⟨-, hiff⟩ := contains_iff_of_reached hleft
  have hlog := (hiff "log").mp (by decide +kernel)
  refine ⟨left, hleft, hlog.resolve_left (by decide +kernel), fun hids => ?_, fun hdraft => ?_⟩
  · exact absurd ((hiff CommitScript.heroes.keys.ids).mpr (.inr hids)) (by decide +kernel)
  · exact absurd ((hiff "draft").mpr (.inr hdraft)) (by decide +kernel)

end Server

end KeyedRecords

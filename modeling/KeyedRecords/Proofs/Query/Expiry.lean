import KeyedRecords.Proofs.Query.Plans
import KeyedRecords.Sample.Models

/-!
# Temporary keys expire

The commands of a plan change temporary keys only, and whichever of these are there afterwards
expire when they should (`Tree.plan_writes_temporaries`). This holds on every key space: every block
ends with the command that lets its key expire, so a command that fails half way leaves no key that
stays.
-/

namespace KeyedRecords

namespace Keyspace

variable {ks : Keyspace} {key dest : String} {time : Nat}

/-- A key expires at a time, if it is there. -/
def ExpiresAt (ks : Keyspace) (key : String) (time : Nat) : Prop :=
  ∀ e, ks.entries[key]? = some e → e.expiresAt = some time

theorem expiresAt_expire (ks : Keyspace) (key : String) (time : Nat) :
    (ks.expire key time).ExpiresAt key time := by
  intro e he
  rw [getElem?_expire, if_pos rfl] at he
  obtain ⟨before, -, rfl⟩ := Option.map_eq_some_iff.mp he
  rfl

/-- A key still expires when it did where it has its entry still. -/
theorem ExpiresAt.of_entries {ks' : Keyspace} (h : ks.ExpiresAt key time)
    (hsame : ks'.entries[key]? = ks.entries[key]?) : ks'.ExpiresAt key time := by
  intro e he
  rw [hsame] at he
  exact h e he

/-- A key still expires when it did if only others have changed. -/
theorem ExpiresAt.beside {ks' : Keyspace} {K : String → Prop} (h : ks.ExpiresAt key time)
    (hbeside : Beside K ks ks') (hkey : ¬K key) : ks'.ExpiresAt key time :=
  h.of_entries (hbeside.entries key hkey)

/-- While a key has not expired, it is not dropped. -/
theorem ExpiresAt.getElem?_sweep {now : Nat} (h : ks.ExpiresAt key time) (hnow : now < time) :
    (ks.sweep now).entries[key]? = ks.entries[key]? :=
  getElem?_sweep_of_alive fun e he => by simpa [isAlive, h e he] using hnow

/-- A sort that stores its list edits nothing but the key of the list. -/
theorem edits_sort (key : String) (pattern? : Option String) (descending alpha : Bool)
    (dest : String) :
    Edits (· = dest) (Step.ofCommand (.sort key pattern? descending alpha (some dest))) :=
  (edits_read _).bind fun _ => (edits_store (K := (· = dest)) rfl _ _).map

/-- A sort that stores its list, which then expires, changes the key of the list only. -/
theorem sort_writes (ks : Keyspace) (key : String) (pattern? : Option String)
    (descending alpha : Bool) (dest : String) (seconds : Nat) :
    let cs := [.sort key pattern? descending alpha (some dest), .expire dest seconds]
    Beside (· = dest) ks (ks.executeAll cs).2 ∧
      (ks.executeAll cs).2.ExpiresAt dest (ks.now + 1000 * seconds) := by
  have hsort := beside_execute (edits_sort key pattern? descending alpha dest).touches ks
  have hexpire : ∀ ks time, Beside (· = dest) ks (ks.expire dest time) := fun ks =>
    .expire ks rfl
  simp only [executeAll, execute_expire, hsort.now]
  exact ⟨hsort.trans (hexpire _ _), expiresAt_expire _ _ _⟩

end Keyspace

namespace Lowering

open Keyspace

variable {t : Target} {n : Nat} {cs : List Command} {keys : List String} {plan : Plan}
  {found : Fragment} {sort : Option SortOrder}

/-- The key of a block expires behind it, whatever fails. -/
theorem Block.expiresAt (h : Block t n cs) (ks : Keyspace) :
    (ks.executeAll cs).2.ExpiresAt (t.temporary n) (ks.now + 1000 * t.lifetime) := by
  -- the key is given its time last, and that counts from when the block began
  have hnow := (h.beside ks).now
  cases h with
  | collect hc =>
    simp only [executeAll, execute_expire, now_expire] at hnow ⊢
    rw [hnow]
    exact expiresAt_expire _ _ _
  | given hids =>
    simp only [executeAll, execute_expire, now_expire] at hnow ⊢
    rw [hnow]
    exact expiresAt_expire _ _ _

/-- So do the keys of blocks one behind the other. -/
theorem Blocks.expiresAt (h : Blocks t n cs keys) (ks : Keyspace) :
    ∀ key ∈ keys, (ks.executeAll cs).2.ExpiresAt key (ks.now + 1000 * t.lifetime) := by
  induction h generalizing ks with
  | nil => exact fun _ hkey => absurd hkey List.not_mem_nil
  | @cons n cs more keys hblock hmore ih =>
    intro key hkey
    rw [executeAll_append]
    have hlater := ih (ks.executeAll cs).2
    rw [(hblock.beside ks).now] at hlater
    by_cases hmem : key ∈ keys
    · exact hlater key hmem
    · -- a key that no later block fills is left as its own block left it
      obtain rfl := (List.mem_cons.mp hkey).resolve_right hmem
      exact (hblock.expiresAt ks).beside (hmore.beside _) hmem

/-- Behind the commands of its fragment, a plan has none but those that sort the ids: they put no
given ids anywhere, and fill at most one more key, which then expires. -/
theorem Planned.exists_sort (h : Planned t n found sort plan) :
    ∃ more later, plan.commands = found.commands ++ more ∧
      plan.temporaries = found.temporaries ++ later ∧ (∀ key ids, .sadd key ids ∉ more) ∧
      ∀ ks : Keyspace, Beside (· ∈ later) ks (ks.executeAll more).2 ∧
        ∀ key ∈ later, (ks.executeAll more).2.ExpiresAt key (ks.now + 1000 * t.lifetime) := by
  cases h with
  | stored =>
    exact ⟨[], [], by simp [storagePlan], by simp [storagePlan], by simp, fun ks =>
      ⟨.refl ks, by simp⟩⟩
  | elided =>
    exact ⟨[], [], by simp [storagePlan], by simp [storagePlan], by simp, fun ks =>
      ⟨.refl ks, by simp⟩⟩
  | sorted =>
    refine ⟨_, _, rfl, rfl, by simp [sortCommand], fun ks => ?_⟩
    simp only [List.mem_singleton, forall_eq]
    exact sort_writes ks _ _ _ _ _ _

/-- The commands of a plan change its temporary keys only, and let all of these expire. -/
theorem Planned.writes (h : Planned t n found sort plan)
    (hfound : Blocks t n found.commands found.temporaries) (ks : Keyspace) :
    Beside (· ∈ plan.temporaries) ks (ks.executeAll plan.commands).2 ∧
      ∀ key ∈ plan.temporaries,
        (ks.executeAll plan.commands).2.ExpiresAt key (ks.now + 1000 * t.lifetime) := by
  obtain ⟨more, later, hcommands, htemporaries, -, hsort⟩ := h.exists_sort
  have hbeside := hfound.beside ks
  obtain ⟨hmore, hlater⟩ := hsort (ks.executeAll found.commands).2
  rw [hbeside.now] at hlater
  rw [hcommands, htemporaries, executeAll_append]
  constructor
  · exact (hbeside.mono fun _ => List.mem_append_left _).trans
      (hmore.mono fun _ => List.mem_append_right _)
  · intro key hkey
    by_cases hmem : key ∈ later
    · exact hlater key hmem
    · have hfirst := (List.mem_append.mp hkey).resolve_right hmem
      exact (hfound.expiresAt ks key hfirst).beside hmore hmem

end Lowering

namespace Tree

variable {tree : Tree} {sort : Option SortOrder} {lifetime n : Nat} {plan : Plan}

/-- The commands of a plan write temporary keys only, and let all of these expire. On every key
space, whatever fails, each other key has its value and its time of expiry still, and each temporary
key that is there afterwards expires when its lifetime, counted from now, is over. -/
theorem plan_writes_temporaries (h : tree.lower sort lifetime n = .ok plan) (ks : Keyspace) :
    (∀ key ∈ plan.temporaries, tree.origin.layout.keys.InSection key .temporary) ∧
    (∀ key ∉ plan.temporaries, (ks.executeAll plan.commands).2.entries[key]? = ks.entries[key]?) ∧
    ∀ key ∈ plan.temporaries, ∀ e, (ks.executeAll plan.commands).2.entries[key]? = some e →
      e.expiresAt = some (ks.now + 1000 * lifetime) := by
  obtain ⟨found, hfound, hplanned⟩ := lower_ok h
  have hblocks := Lowering.lowerNode_blocks hfound
  obtain ⟨hbeside, hexpires⟩ := hplanned.writes hblocks ks
  exact ⟨hplanned.temporaries hblocks, hbeside.entries, hexpires⟩

/-- Where the collection of all ids is a text by mistake, given ids cannot be restricted to it, and
what has been put under the temporary key so far expires. -/
theorem plan_writes_temporaries_planets :
    ∃ (tree : Tree) (plan : Plan) (ks : Keyspace) (key : String) (e : Entry),
      tree.lower (some ⟨"name", false⟩) 60 0 = .ok plan ∧
        (ks.executeAll plan.commands).1.any Reply.isError = true ∧ key ∈ plan.temporaries ∧
        (ks.executeAll plan.commands).2.entries[key]? = some e ∧
        e.expiresAt = some (ks.now + 1000 * 60) := by
  let l : Layout :=
    { tag := Sample.planet.tag, keys := .ofModel "kvm." "planet"
      identity := (Sample.assignedId .int64).field, fields := Sample.planet.schema.fields
      defaultOrdering := some ⟨"score", false⟩, versionField := none }
  let tree : Tree := .select ⟨l, none⟩ l.identity.name [.int 1]
  let ks : Keyspace := ⟨Table.insertAll ∅ [(l.keys.ids, ⟨.string "ids", none⟩)], 5000⟩
  obtain ⟨plan, hplan⟩ : ∃ plan, tree.lower (some ⟨"name", false⟩) 60 0 = .ok plan := ⟨_, rfl⟩
  have hmem : l.keys.temporary 0 ∈ plan.temporaries := by
    cases hplan
    exact List.mem_cons_self
  have hfails : (ks.executeAll plan.commands).1.any Reply.isError = true := by
    cases hplan
    decide +kernel
  obtain ⟨e, he⟩ : ∃ e, (ks.executeAll plan.commands).2.entries[l.keys.temporary 0]? = some e := by
    refine Option.isSome_iff_exists.mp ?_
    cases hplan
    decide +kernel
  obtain ⟨-, -, hexpires⟩ := plan_writes_temporaries hplan ks
  exact ⟨tree, plan, ks, _, e, hplan, hfails, hmem, he, hexpires _ hmem e he⟩

end Tree

end KeyedRecords

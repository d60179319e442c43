import KeyedRecords.Proofs.Store.Contents
import KeyedRecords.Proofs.Text.Prefix
import KeyedRecords.Store.Server

/-!
# Scanning keys

A scan starts at the first key that is not less than a text, and stops at the first one that does
not begin with it. It still finds all keys that begin with the text (`Keyspace.scan_eq_filter`),
because these stand together in the order of the keys. Where the elements of a list with a property
come first, taking them from the front is as good as looking at all elements
(`takeWhile_eq_filter`, `dropWhile_eq_filter`).
-/

namespace KeyedRecords

section Front

variable {α : Type} {p : α → Bool} {a : α} {as : List α}

/-- If elements with a property come first and the first one does not have it, none has it. -/
theorem all_false_of_head (h : (a :: as).Pairwise fun a b => p b = true → p a = true)
    (ha : p a = false) : ∀ b ∈ a :: as, p b = false := by
  intro b hb
  rcases List.mem_cons.mp hb with rfl | hb
  · exact ha
  · have hearlier : p b = true → p a = true := (List.pairwise_cons.mp h).1 b hb
    rw [ha] at hearlier
    exact Bool.eq_false_iff.mpr fun hpb => Bool.false_ne_true (hearlier hpb)

/-- If elements with a property come first, all of them can be taken from the front. -/
theorem takeWhile_eq_filter (h : as.Pairwise fun a b => p b = true → p a = true) :
    as.takeWhile p = as.filter p := by
  induction as with
  | nil => rfl
  | cons a rest ih =>
    cases hp : p a with
    | true => rw [List.takeWhile_cons_of_pos hp, List.filter_cons_of_pos hp, ih h.of_cons]
    | false =>
      have hnone := all_false_of_head h hp
      rw [List.takeWhile_cons_of_neg (by simp [hp]), List.filter_eq_nil_iff.mpr]
      exact fun b hb => by simp [hnone b hb]

/-- If elements with a property come first, dropping from the front leaves just the others. -/
theorem dropWhile_eq_filter (h : as.Pairwise fun a b => p b = true → p a = true) :
    as.dropWhile p = as.filter fun a => !p a := by
  induction as with
  | nil => rfl
  | cons a rest ih =>
    cases hp : p a with
    | true =>
      rw [List.dropWhile_cons_of_pos hp, List.filter_cons_of_neg (by simp [hp]), ih h.of_cons]
    | false =>
      have hnone := all_false_of_head h hp
      rw [List.dropWhile_cons_of_neg (by simp [hp]), List.filter_eq_self.mpr]
      exact fun b hb => by simp [hnone b hb]

end Front

/-- A list has just the texts with a property, each once and in ascending order. -/
structure Enumerates (P : String → Prop) (found : List String) : Prop where
  /-- Each text is less than those behind it. -/
  ascending : found.Pairwise (· < ·)
  mem_iff : ∀ text, text ∈ found ↔ P text

namespace Enumerates

variable {P : String → Prop} {found found' : List String}

theorem nodup (h : Enumerates P found) : found.Nodup := by
  refine h.ascending.imp ?_
  rintro a _ hlt rfl
  exact String.lt_irrefl a hlt

/-- There is one such list. -/
theorem unique (h : Enumerates P found) (h' : Enumerates P found') : found = found' := by
  have hperm : found.Perm found' := (List.perm_ext_iff_of_nodup h.nodup h'.nodup).mpr
    fun text => (h.mem_iff text).trans (h'.mem_iff text).symm
  refine List.Perm.eq_of_pairwise ?_ h.ascending h'.ascending hperm
  intro a b _ _ hab hba
  exact absurd hba (String.lt_asymm hab)

end Enumerates

namespace Keyspace

/-- The keys are in ascending order. -/
theorem keys_ascending (ks : Keyspace) : ks.keys.Pairwise (· < ·) :=
  (Std.ExtTreeMap.ordered_keys (t := ks.entries)).imp fun h => compareOfLessAndEq_eq_lt.mp h

/-- A scan finds all keys that begin with a text. -/
theorem scan_eq_filter (ks : Keyspace) (start : String) :
    ks.scan start = ks.keys.filter (Text.startsWith · start) := by
  -- the keys below the text come first
  have hbelow : ks.keys.Pairwise fun a b =>
      decide (b < start) = true → decide (a < start) = true := by
    refine ks.keys_ascending.imp fun hab hb => ?_
    exact decide_eq_true (String.lt_trans hab (of_decide_eq_true hb))
  -- and of those that follow, the ones that begin with it
  have hbegin : (ks.keys.filter fun key => !decide (key < start)).Pairwise fun a b =>
      Text.startsWith b start = true → Text.startsWith a start = true := by
    refine (ks.keys_ascending.filter _).imp_of_mem fun ha _ hab hb => ?_
    have hfrom := (List.mem_filter.mp ha).2
    exact Text.startsWith_of_lt (by simpa using hfrom) hab hb
  rw [scan, dropWhile_eq_filter hbelow, takeWhile_eq_filter hbegin, List.filter_filter]
  refine List.filter_congr fun key _ => ?_
  cases hkey : Text.startsWith key start with
  | false => rfl
  | true => simpa using Text.not_lt_of_startsWith hkey

/-- A scan enumerates the keys that begin with a text. -/
theorem scan_enumerates (ks : Keyspace) (start : String) :
    Enumerates (fun key => key ∈ ks.entries ∧ ∃ rest, key = start ++ rest) (ks.scan start) := by
  rw [scan_eq_filter]
  refine ⟨ks.keys_ascending.filter _, fun key => ?_⟩
  rw [List.mem_filter, Text.startsWith_iff, keys, Std.ExtTreeMap.mem_keys]

/-- What is less than the text or only begins like it is passed over. -/
example :
    let there : List String := ["b", "a;", "a:b", "a", "a:", "a:é"]
    let ks : Keyspace := ⟨Table.insertAll ∅ (there.map fun key => (key, ⟨.string "", none⟩)), 0⟩
    ks.scan "a:" = ["a:", "a:b", "a:é"] := by
  decide +kernel

/-- The keys that are left when those that have expired are dropped. -/
theorem mem_sweep_iff (ks : Keyspace) (now : Nat) (key : String) :
    key ∈ (ks.sweep now).entries ↔ ∃ e, ks.entries[key]? = some e ∧ isAlive now e = true := by
  rw [Std.ExtTreeMap.mem_iff_isSome_getElem?, getElem?_sweep, Option.isSome_iff_exists]
  simp only [Option.filter_eq_some_iff]

end Keyspace

namespace Server

/-- On every key space a scan answers the one list that has just the keys that begin with a text,
each once and in ascending order. A server answers in the same way of the keys that have not expired
by its clock. -/
theorem keys_complete (start : String) (found : List String) :
    (∀ ks : Keyspace, ks.scan start = found ↔
      Enumerates (fun key => key ∈ ks.entries ∧ ∃ rest, key = start ++ rest) found) ∧
    ∀ s : Server, (s.keys start).1 = found ↔
      Enumerates (fun key => (∃ e, s.space.entries[key]? = some e ∧
        Keyspace.isAlive s.clock.now e = true) ∧ ∃ rest, key = start ++ rest) found := by
  have hscan : ∀ ks : Keyspace, ks.scan start = found ↔
      Enumerates (fun key => key ∈ ks.entries ∧ ∃ rest, key = start ++ rest) found := by
    intro ks
    constructor
    · rintro rfl
      exact ks.scan_enumerates start
    · exact (ks.scan_enumerates start).unique
  refine ⟨hscan, fun s => ?_⟩
  have hkeys : (s.keys start).1 = (s.space.sweep s.clock.now).scan start := rfl
  rw [hkeys, hscan]
  simp only [Keyspace.mem_sweep_iff]

end Server

end KeyedRecords

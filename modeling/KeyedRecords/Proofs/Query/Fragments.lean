import KeyedRecords.Proofs.Model.Keys
import KeyedRecords.Proofs.Query.Denotation
import KeyedRecords.Proofs.Store.Execution
import KeyedRecords.Query.Lowering

/-!
# What fragments compute

Fragments compute sets of ids: run on a key space that mirrors a given one, and in which their
temporary keys are free, they succeed, change nothing but these keys, and leave each set under its
key. `Fragments.Computes` says so of several nodes and `Fragment.Computes` of one. The operations
that put fragments together preserve it.
-/

namespace KeyedRecords

/-- Keys are free to be created: they are different and hold nothing. -/
structure Keyspace.Fresh (ks : Keyspace) (keys : List String) : Prop where
  /-- No two of them are the same. -/
  distinct : keys.Nodup
  /-- None of them holds anything. -/
  absent : ∀ key ∈ keys, ks.data? key = none

/-- Besides results of queries on a model, a key space holds what another one holds. -/
def Layout.Mirrors (l : Layout) (base ks : Keyspace) : Prop :=
  ∀ key, ¬l.keys.InSection key .temporary → ks.data? key = base.data? key

/-- Keys are free if they are with others behind them. -/
theorem Keyspace.Fresh.left {ks : Keyspace} {keys more : List String}
    (h : ks.Fresh (keys ++ more)) : ks.Fresh keys :=
  ⟨(List.nodup_append.mp h.distinct).1, fun key hkey => h.absent key (List.mem_append_left _ hkey)⟩

/-- Keys are still free when only others in front of them have changed. -/
theorem Keyspace.Fresh.right {ks ks' : Keyspace} {keys more : List String}
    (h : ks.Fresh (keys ++ more)) (hsame : ∀ key, key ∉ keys → ks'.data? key = ks.data? key) :
    ks'.Fresh more := by
  obtain ⟨-, hmore, hdisjoint⟩ := List.nodup_append.mp h.distinct
  refine ⟨hmore, fun key hkey => ?_⟩
  rw [hsame key fun hmem => hdisjoint key hmem key hkey rfl]
  exact h.absent key (List.mem_append_right _ hkey)

/-- A key space still mirrors another one when only results of queries have changed. -/
theorem Layout.Mirrors.of_same {l : Layout} {base ks ks' : Keyspace} {keys : List String}
    (h : l.Mirrors base ks) (hkeys : ∀ key ∈ keys, l.keys.InSection key .temporary)
    (hsame : ∀ key, key ∉ keys → ks'.data? key = ks.data? key) : l.Mirrors base ks' := by
  intro key hkey
  rw [hsame key fun hmem => hkey (hkeys key hmem)]
  exact h key hkey

namespace Fragments

variable {l : Layout} {base : Keyspace} {parts : Fragments} {sets : List (String → Prop)}

/-- Fragments leave sets of ids under their keys. -/
structure Computes (l : Layout) (base : Keyspace) (parts : Fragments)
    (sets : List (String → Prop)) : Prop where
  /-- There are as many keys as sets. -/
  length : parts.keys.length = sets.length
  /-- What is created is temporary. -/
  temporaries : ∀ key ∈ parts.temporaries, l.keys.InSection key .temporary
  /-- Keys are created by the fragments, or belong to the model. -/
  keys : ∀ key ∈ parts.keys, key ∈ parts.temporaries ∨ ¬l.keys.InSection key .temporary
  /-- The commands succeed and leave the ids under the keys. -/
  runs : ∀ ks, l.Mirrors base ks → ks.Fresh parts.temporaries →
    ∃ ks', ks.Succeeds parts.commands ks' ∧
      (∀ key, key ∉ parts.temporaries → ks'.data? key = ks.data? key) ∧
      (∀ key ∈ parts.keys, ks'.Fits key l.memberKind) ∧
      ∀ id, parts.keys.map (ks'.Has · id) = sets.map (· id)

/-- Fragments of nodes and then of more nodes. -/
def append (a b : Fragments) : Fragments :=
  ⟨a.keys ++ b.keys, a.commands ++ b.commands, a.temporaries ++ b.temporaries⟩

/-- A key of fragments is not created by others behind them. -/
theorem Computes.not_mem_of_mem_keys (h : parts.Computes l base sets) {later : List String}
    (hlater : ∀ key ∈ later, l.keys.InSection key .temporary)
    (hdistinct : (parts.temporaries ++ later).Nodup) {key : String} (hkey : key ∈ parts.keys) :
    key ∉ later := by
  intro hmem
  rcases h.keys key hkey with htemporary | hsection
  · exact (List.nodup_append.mp hdistinct).2.2 key htemporary key hmem rfl
  · exact hsection (hlater key hmem)

theorem Computes.empty : Fragments.empty.Computes l base [] :=
  ⟨rfl, by simp [Fragments.empty], by simp [Fragments.empty], fun ks _ _ =>
    ⟨ks, .nil ks, fun _ _ => rfl, by simp [Fragments.empty], fun _ => rfl⟩⟩

/-- Keys of the model that hold collections of ids. -/
theorem Computes.ofKeys {keys : List String} (hkeys : ∀ key ∈ keys, base.Fits key l.memberKind)
    (hsection : ∀ key ∈ keys, ¬l.keys.InSection key .temporary) :
    Fragments.Computes l base ⟨keys, [], []⟩ (keys.map fun key id => base.Has key id) := by
  -- no command is needed, since the keys of the model hold the sets already
  refine ⟨by simp, by simp, fun key hkey => .inr (hsection key hkey), fun ks hks _ => ?_⟩
  refine ⟨ks, .nil ks, fun _ _ => rfl, fun key hkey => ?_, fun id => ?_⟩
  · exact (hkeys key hkey).of_data?_eq (hks key (hsection key hkey))
  · rw [List.map_map]
    refine List.map_congr_left fun key hkey => ?_
    exact propext (Keyspace.has_of_data?_eq (hks key (hsection key hkey)) id)

/-- Fragments one behind the other compute the sets of both. -/
theorem Computes.append {a b : Fragments} {more : List (String → Prop)}
    (ha : a.Computes l base sets) (hb : b.Computes l base more) :
    (a.append b).Computes l base (sets ++ more) := by
  refine ⟨?_, fun key hkey => ?_, fun key hkey => ?_, fun ks hks hfresh => ?_⟩
  · simp [Fragments.append, ha.length, hb.length]
  · exact (List.mem_append.mp hkey).elim (ha.temporaries key) (hb.temporaries key)
  · rcases List.mem_append.mp hkey with hkey | hkey
    · exact (ha.keys key hkey).imp_left (List.mem_append_left _)
    · exact (hb.keys key hkey).imp_left (List.mem_append_right _)
  · obtain ⟨ks₁, hrun₁, hsame₁, hfits₁, hmean₁⟩ := ha.runs ks hks hfresh.left
    obtain ⟨ks₂, hrun₂, hsame₂, hfits₂, hmean₂⟩ :=
      hb.runs ks₁ (hks.of_same ha.temporaries hsame₁) (hfresh.right hsame₁)
    -- what the first fragments have left is still there
    have hkept : ∀ key ∈ a.keys, ks₂.data? key = ks₁.data? key := fun key hkey =>
      hsame₂ key (ha.not_mem_of_mem_keys hb.temporaries hfresh.distinct hkey)
    refine ⟨ks₂, hrun₁.append hrun₂, fun key hkey => ?_, fun key hkey => ?_, fun id => ?_⟩
    · have hnot : key ∉ a.temporaries ∧ key ∉ b.temporaries :=
        ⟨fun h => hkey (List.mem_append_left _ h), fun h => hkey (List.mem_append_right _ h)⟩
      rw [hsame₂ key hnot.2, hsame₁ key hnot.1]
    · rcases List.mem_append.mp hkey with hkey | hkey
      · exact (hfits₁ key hkey).of_data?_eq (hkept key hkey)
      · exact hfits₂ key hkey
    · have hleft : a.keys.map (ks₂.Has · id) = a.keys.map (ks₁.Has · id) :=
        List.map_congr_left fun key hkey => propext (Keyspace.has_of_data?_eq (hkept key hkey) id)
      simp only [Fragments.append, List.map_append]
      rw [hleft, hmean₁, hmean₂]

end Fragments

namespace Fragment

variable {l : Layout} {base : Keyspace} {found : Fragment} {parts : Fragments}
  {sets : List (String → Prop)} {P Q : String → Prop} {key dest : String}

/-- The fragment of one node among those of others. -/
def alone (found : Fragment) : Fragments :=
  ⟨found.source.toList, found.commands, found.temporaries⟩

/-- Fragments with one key are one fragment alone. -/
theorem alone_atKey (hkeys : parts.keys = [key]) : (parts.atKey key).alone = parts := by
  simp [alone, Fragments.atKey, ← hkeys]

/-- A fragment leaves a set of ids under its key; without a key, there are no such ids. -/
structure Computes (l : Layout) (base : Keyspace) (found : Fragment) (P : String → Prop) :
    Prop where
  /-- The fragment is one that leaves the ids under its key. -/
  alone : found.alone.Computes l base (found.source.toList.map fun _ => P)
  /-- Without a key there is nothing to leave. -/
  nothing : found.source = none → ∀ id, ¬P id

/-- Sets with the same ids. -/
theorem Computes.congr (h : found.Computes l base P) (hPQ : ∀ id, P id ↔ Q id) :
    found.Computes l base Q := by
  obtain rfl : P = Q := funext fun id => propext (hPQ id)
  exact h

/-- A fragment with a key, in front of others. -/
theorem Computes.cons_of_some (h : found.Computes l base P) (hsource : found.source = some key)
    (hrest : parts.Computes l base sets) :
    (Fragments.cons found parts).Computes l base (P :: sets) := by
  -- with a key, the fragment stands for just one set
  have hcons := h.alone.append hrest
  rw [hsource] at hcons
  exact hcons

/-- The one set of a fragment, if there is one. -/
theorem Computes.exists_alone (h : found.Computes l base P) (id : String) :
    (∃ Q ∈ found.source.toList.map fun _ => P, Q id) ↔ P id := by
  cases hsource : found.source with
  | none => simpa using h.nothing hsource id
  | some key => simp

/-- Commands that have run for nothing. -/
theorem Computes.ofNothing (h : parts.Computes l base sets) (hP : ∀ id, ¬P id) :
    (parts.nothing).Computes l base P := by
  refine ⟨⟨rfl, h.temporaries, ?_, fun ks hks hfresh => ?_⟩, fun _ => hP⟩
  · simp [Fragment.alone, Fragments.nothing]
  -- the commands still run, though their results are not used
  · obtain ⟨ks', hrun, hsame, -, -⟩ := h.runs ks hks hfresh
    exact ⟨ks', hrun, hsame, by simp [Fragment.alone, Fragments.nothing], fun _ => rfl⟩

/-- The ids are under a key already. -/
theorem Computes.atKey (h : parts.Computes l base [P]) (hkeys : parts.keys = [key]) :
    (parts.atKey key).Computes l base P := by
  refine ⟨?_, by simp [Fragments.atKey]⟩
  rw [alone_atKey hkeys]
  exact h

/-- Commands that store a set of ids, behind fragments that they read. -/
theorem Computes.create {cs : List Command} (h : parts.Computes l base sets)
    (hdest : l.keys.InSection dest .temporary)
    (hstores : ∀ ks, l.Mirrors base ks → (∀ key ∈ parts.keys, ks.Fits key l.memberKind) →
      (∀ id, parts.keys.map (ks.Has · id) = sets.map (· id)) → ks.data? dest = none →
      ks.Stores cs dest l.memberKind P) :
    Fragment.Computes l base ⟨some dest, parts.commands ++ cs, parts.temporaries ++ [dest]⟩ P := by
  refine ⟨⟨rfl, fun key hkey => ?_, fun key hkey => ?_, fun ks hks hfresh => ?_⟩, (nomatch ·)⟩
  · rcases List.mem_append.mp hkey with hkey | hkey
    · exact h.temporaries key hkey
    · rwa [List.mem_singleton.mp hkey]
  · refine .inl (List.mem_append_right _ ?_)
    simpa [Fragment.alone] using hkey
  -- behind the fragments, the new key is still free
  · obtain ⟨ks₁, hrun₁, hsame₁, hfits₁, hmean₁⟩ := h.runs ks hks hfresh.left
    have hfree := (hfresh.right hsame₁).absent dest (List.mem_singleton_self dest)
    obtain ⟨ks₂, hrun₂, hchanged, hhas⟩ :=
      hstores ks₁ (hks.of_same h.temporaries hsame₁) hfits₁ hmean₁ hfree
    refine ⟨ks₂, hrun₁.append hrun₂, fun key hkey => ?_, fun key hkey => ?_, fun id => ?_⟩
    · have hnot : key ∉ parts.temporaries ∧ key ≠ dest := by
        simpa [Fragment.alone] using hkey
      rw [hchanged.data? hnot.2, hsame₁ key hnot.1]
    · obtain rfl : key = dest := by simpa [Fragment.alone] using hkey
      exact hchanged.fits
    · simp [Fragment.alone, hhas id]

end Fragment

end KeyedRecords

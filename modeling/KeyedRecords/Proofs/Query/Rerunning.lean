import KeyedRecords.Proofs.Query.Chains
import KeyedRecords.Proofs.Query.Expiry

/-!
# Running plans again

A plan that is run again meets what an earlier run has left under its temporary keys. Most of its
commands replace that unread; given ids are added to it instead, which makes no difference to a set
of some of these ids (`Keyspace.Leftover`), and fails if it is no set. So behind a plan whose
commands succeed the key space is the same as without the leftovers (`Lowering.Planned.alike`).
-/

namespace KeyedRecords

namespace Keyspace

variable {ks ks' : Keyspace} {c : Command} {cs more : List Command} {K K' : String → Prop}
  {key dest : String}

/-- Commands do alike on two key spaces: they all succeed on both or on neither, and if they do, the
key spaces behind them are the same but for some keys. -/
structure Alike (K : String → Prop) (cs : List Command) (ks ks' : Keyspace) : Prop where
  passes : ks.Passes cs ↔ ks'.Passes cs
  beside : ks.Passes cs → Beside K (ks.executeAll cs).2 (ks'.executeAll cs).2

namespace Alike

theorem nil (h : Beside K ks ks') : Alike K [] ks ks' :=
  ⟨iff_of_true (by simp [Passes, executeAll]) (by simp [Passes, executeAll]), fun _ => h⟩

theorem mono (h : Alike K cs ks ks') (hK : ∀ key, K key → K' key) : Alike K' cs ks ks' :=
  ⟨h.passes, fun hpasses => (h.beside hpasses).mono hK⟩

/-- One command more in front, which succeeds on both. -/
theorem cons (hc : (ks.execute c).1.isError = false) (hc' : (ks'.execute c).1.isError = false)
    (h : Alike K cs (ks.execute c).2 (ks'.execute c).2) : Alike K (c :: cs) ks ks' := by
  constructor
  case passes =>
    rw [passes_cons, passes_cons, h.passes]
    exact and_congr_left' (iff_of_true hc hc')
  case beside => exact fun hpasses => h.beside (passes_cons.mp hpasses).2

/-- Commands one behind the other; how the later ones do matters only if the earlier ones
succeed. -/
theorem append (h : Alike K cs ks ks')
    (hmore : Beside K (ks.executeAll cs).2 (ks'.executeAll cs).2 →
      Alike K' more (ks.executeAll cs).2 (ks'.executeAll cs).2) : Alike K' (cs ++ more) ks ks' := by
  constructor
  case passes =>
    rw [passes_append, passes_append, ← h.passes]
    exact and_congr_right fun hpasses => (hmore (h.beside hpasses)).passes
  case beside =>
    intro hpasses
    obtain ⟨hcs, hrest⟩ := passes_append.mp hpasses
    rw [executeAll_append, executeAll_append]
    exact (hmore (h.beside hcs)).beside hrest

/-- A key expires on both. -/
theorem expire (h : Beside K ks ks') (key : String) (seconds : Nat) :
    Alike K [.expire key seconds] ks ks' := by
  refine .cons rfl rfl (.nil ⟨fun k hk => ?_, ?_⟩)
  · simp only [execute_expire, getElem?_expire, h.entries k hk, h.now]
  · simp only [execute_expire, now_expire, h.now]

/-- A key is replaced on both, and expires. -/
theorem replace (h : Overwrites ks ks' c dest) (hks : Beside K ks ks') (seconds : Nat) :
    Alike (fun key => K key ∧ key ≠ dest) [c, .expire dest seconds] ks ks' := by
  obtain ⟨reply, hreply, hc, hc'⟩ | ⟨reply, d, hreply, hc, hc'⟩ := h
  · have hfails : ∀ {ks : Keyspace}, ks.execute c = (reply, ks) →
        ¬ks.Passes [c, .expire dest seconds] := by
      intro ks hc hpasses
      have hok := (passes_cons.mp hpasses).1
      rw [hc, hreply] at hok
      cases hok
    exact ⟨iff_of_false (hfails hc) (hfails hc'), fun hpasses => absurd hpasses (hfails hc)⟩
  · refine .cons (by rw [hc]; exact hreply) (by rw [hc']; exact hreply) (expire ?_ dest seconds)
    rw [hc, hc']
    refine ⟨fun k hk => ?_, by simp only [now_replace, hks.now]⟩
    rw [getElem?_replace, getElem?_replace]
    split
    · rfl
    next hne => exact hks.entries k fun hmem => hk ⟨hmem, hne⟩

end Alike

/-- Keys that given ids are put under hold nothing, or a set of some of these ids. -/
def Leftover (ks : Keyspace) (cs : List Command) : Prop :=
  ∀ key ids, .sadd key ids ∈ cs → ks.Fits key .set ∧ ∀ m, ks.Has key m → m ∈ ids

theorem not_has_of_none (h : ks.data? key = none) (m : String) : ¬ks.Has key m := by
  simp [Has, score?, h]

/-- Ids are added to a set of some of them. -/
theorem execute_sadd_leftover {ids : List String} (hfits : ks.Fits key .set)
    (hsub : ∀ m, ks.Has key m → m ∈ ids) (hids : ids ≠ []) :
    ∃ n, ks.execute (.sadd key ids) = (.count n, ks.update key (.set (.insertAll ∅ ids))) := by
  obtain ⟨s, hs, hscore⟩ := hfits.set?
  have hmem : ∀ m ∈ s.getD ∅, m ∈ ids := fun m hm => hsub m (by simp [Has, hscore, hm])
  -- none of the members is new to the ids, so just these are there afterwards
  have hall : Members.insertAll (s.getD ∅) ids = Members.insertAll ∅ ids := by
    refine Std.ExtTreeSet.ext_mem fun m => ?_
    rw [Members.mem_insertAll, Members.mem_insertAll]
    exact ⟨fun h => .inl (h.elim id (hmem m)), fun h => .inl (h.resolve_right (by simp))⟩
  have hempty : ids.isEmpty = false := by simpa [List.isEmpty_iff] using hids
  have hrun : ks.run (Step.addMembers key ids) =
      (.ok ((Members.insertAll ∅ ids).size - (s.getD ∅).size),
        ks.update key (.set (.insertAll ∅ ids))) := by
    unfold Step.addMembers
    rw [hempty, if_neg Bool.false_ne_true, run_bind_ok (by rw [run_read, hs])]
    simp only [hall]
    rw [run_bind_ok (run_modify ks _), run_pure]
  exact ⟨_, execute_ok (run_map_ok hrun _)⟩

/-- Ids are added to nothing but sets. -/
theorem fits_of_execute_sadd {ids : List String} (hids : ids ≠ [])
    (h : (ks.execute (.sadd key ids)).1.isError = false) : ks.Fits key .set := by
  have hempty : ids.isEmpty = false := by simpa [List.isEmpty_iff] using hids
  cases hs : ks.set? key with
  | error e =>
    have hrun : ks.run (Step.addMembers key ids) = (.error e, ks) := by
      unfold Step.addMembers
      rw [hempty, if_neg Bool.false_ne_true]
      exact run_bind_error (by rw [run_read, hs]) _
    have hcommand : Step.ofCommand (.sadd key ids) = Reply.count <$> Step.addMembers key ids := rfl
    rw [execute_eq, hcommand, run_map_error hrun] at h
    cases h
  | ok s =>
    intro d hd
    unfold set? at hs
    rw [hd] at hs
    cases d <;> first | rfl | cases hs

end Keyspace

namespace Lowering

open Keyspace

variable {t : Target} {filled keys : List String} {n : Nat} {cs : List Command}
  {ks ks' : Keyspace} {K P : String → Prop} {found : Fragment} {sort : Option SortOrder}
  {plan : Plan}

/-- A block with given ids puts them under the key that it fills, and restricts them. -/
theorem Block.given_of_sadd (h : Block t n cs) {key : String} {ids : List String}
    (hmem : .sadd key ids ∈ cs) : key = t.temporary n ∧ ids ≠ [] ∧
      cs = [.sadd key ids, t.restrictCommand key, .expire key t.lifetime] := by
  cases h with
  | collect hc =>
    obtain rfl := (List.mem_pair.mp hmem).resolve_right (by simp)
    cases hc
  | given hids =>
    simp only [List.mem_cons, List.not_mem_nil, or_false] at hmem
    rcases hmem with hsadd | hrestrict | hexpire
    · cases hsadd
      exact ⟨rfl, hids, rfl⟩
    · have hdest := t.destination?_restrictCommand (t.temporary n)
      rw [← hrestrict] at hdest
      cases hdest
    · cases hexpire

theorem Blocks.mem_of_sadd (h : Blocks t n cs keys) {key : String} {ids : List String}
    (hmem : .sadd key ids ∈ cs) : key ∈ keys := by
  induction h with
  | nil => exact absurd hmem List.not_mem_nil
  | cons hblock _ ih =>
    rcases List.mem_append.mp hmem with hmem | hmem
    · exact List.mem_cons.mpr (.inl (hblock.given_of_sadd hmem).1)
    · exact List.mem_cons_of_mem _ (ih hmem)

/-- What is left under the keys of later blocks is there still behind a block. -/
theorem Block.leftover (h : Block t n cs) {more : List Command} (hmore : Blocks t (n + 1) more keys)
    (hkeys : t.temporary n ∉ keys) (hleft : ks.Leftover more) :
    (ks.executeAll cs).2.Leftover more := by
  intro key ids hmem
  obtain ⟨hfits, hsub⟩ := hleft key ids hmem
  have hne : key ≠ t.temporary n := fun heq => hkeys (heq ▸ hmore.mem_of_sadd hmem)
  have hsame := (h.beside ks).data? hne
  exact ⟨hfits.of_data?_eq hsame, fun m hm => hsub m ((has_of_data?_eq hsame m).mp hm)⟩

/-- A block does alike, whether its key is free or holds leftovers: it fills that key, and reads
keys that hold the same. -/
theorem Link.alike (h : Link t filled n cs) (hready : ∀ key, t.Ready filled key → ¬K key)
    (hks : Beside K ks ks') (hleft : ks.Leftover cs) (hfree : ks'.data? (t.temporary n) = none) :
    Alike (fun key => K key ∧ key ≠ t.temporary n) cs ks ks' := by
  cases h with
  | collect hc hsources =>
    refine .replace (overwrites_of_destination hc fun key hkey => ?_) hks _
    exact hks.data? (hready key (hsources key hkey))
  | @given ids hids =>
    have hdest := t.ids_ne_temporary n
    generalize t.temporary n = dest at *
    have hmodel : ¬K t.layout.keys.ids :=
      hready _ (.inr (ModelKeys.InSection.not_of_ne (.ids rfl) (by simp)))
    obtain ⟨hfits, hsub⟩ := hleft dest ids List.mem_cons_self
    obtain ⟨m, hrun⟩ := execute_sadd_leftover hfits hsub hids
    obtain ⟨m', hrun'⟩ := execute_sadd_leftover (.of_none hfree)
      (fun m hm => absurd hm (not_has_of_none hfree m)) hids
    refine .cons (by rw [hrun]; rfl) (by rw [hrun']; rfl) ?_
    rw [hrun, hrun']
    -- by now the key holds the given ids on both, though it may be about to expire on one of them
    refine (Alike.replace (K := fun key => K key ∨ key = dest) ?_ ⟨fun k hk => ?_, ?_⟩ _).mono ?_
    · refine overwrites_of_destination (t.destination?_restrictCommand dest) fun key hkey => ?_
      have hsource : key = dest ∨ key = t.layout.keys.ids := by
        unfold Target.restrictCommand at hkey
        split at hkey <;> simpa [Command.sources, or_comm] using hkey
      rw [data?_update, data?_update]
      rcases hsource with rfl | rfl
      · rw [if_pos rfl, if_pos rfl]
      · rw [if_neg hdest, if_neg hdest]
        exact hks.data? hmodel
    · have hne : k ≠ dest := fun heq => hk (.inr heq)
      rw [getElem?_update, getElem?_update, if_neg hne, if_neg hne]
      exact hks.entries k fun hmem => hk (.inl hmem)
    · rw [now_update, now_update, hks.now]
    · rintro key ⟨hmem | heq, hne⟩
      · exact ⟨hmem, hne⟩
      · exact absurd heq hne

/-- Blocks in a chain do alike, whether their keys are free or hold leftovers. -/
theorem Chain.alike (h : Chain t filled n cs keys) (hkeys : keys.Nodup)
    (hsection : ∀ key, key ∈ keys ∨ P key → t.layout.keys.InSection key .temporary)
    (hP : ∀ key ∈ keys, ¬P key) (hfilled : ∀ key ∈ filled, ¬(key ∈ keys ∨ P key))
    (hks : Beside (fun key => key ∈ keys ∨ P key) ks ks') (hleft : ks.Leftover cs)
    (hfree : ∀ key ∈ keys, ks'.data? key = none) : Alike P cs ks ks' := by
  -- block by block: the key spaces differ in what is still to be filled, and in nothing else
  induction h generalizing ks ks' with
  | nil => exact .nil (hks.mono fun key hkey => hkey.resolve_left List.not_mem_nil)
  | @cons filled n cs more keys hlink hmore ih =>
    obtain ⟨hhead, hnodup⟩ := List.nodup_cons.mp hkeys
    have hready : ∀ key, t.Ready filled key → ¬(key ∈ t.temporary n :: keys ∨ P key) :=
      fun key hkey => hkey.elim (hfilled key) fun hnot hmem => hnot (hsection key hmem)
    have hblock := hlink.alike hready hks (fun key ids hmem => hleft key ids
      (List.mem_append_left _ hmem)) (hfree _ List.mem_cons_self)
    have hsmaller : ∀ key, key ∈ keys ∨ P key → key ∈ t.temporary n :: keys ∨ P key :=
      fun key => Or.imp_left (List.mem_cons_of_mem _)
    refine hblock.append fun hafter => ih hnodup (fun key hkey => hsection key (hsmaller key hkey))
      (fun key hkey => hP key (List.mem_cons_of_mem _ hkey)) ?_ (hafter.mono ?_)
      (hlink.block.leftover hmore.blocks hhead fun key ids hmem => hleft key ids
        (List.mem_append_right _ hmem)) ?_
    · intro key hkey
      rcases List.mem_append.mp hkey with hkey | hkey
      · exact fun hmem => hfilled key hkey (hsmaller key hmem)
      · obtain rfl := List.mem_singleton.mp hkey
        exact not_or.mpr ⟨hhead, hP _ List.mem_cons_self⟩
    · rintro key ⟨hmem | hPkey, hne⟩
      · exact .inl ((List.mem_cons.mp hmem).resolve_left hne)
      · exact .inr hPkey
    · intro key hkey
      have hne : key ≠ t.temporary n := fun heq => hhead (heq ▸ hkey)
      rw [(hlink.block.beside ks').data? hne]
      exact hfree key (List.mem_cons_of_mem _ hkey)

/-- The commands of a plan do alike, whether its temporary keys are free or hold leftovers. -/
theorem Planned.alike (h : Planned t n found sort plan)
    (hchain : Chain t [] n found.commands found.temporaries)
    (hsource : ∀ key, found.source = some key → t.Ready found.temporaries key)
    (hpattern : ∀ field member,
      ¬t.layout.keys.InSection (patternKey (t.layout.keys.sortPattern field) member) .temporary)
    (hkeys : plan.temporaries.Nodup) (hks : Beside (· ∈ plan.temporaries) ks ks')
    (hleft : ks.Leftover plan.commands) (hfree : ∀ key ∈ plan.temporaries, ks'.data? key = none) :
    Alike (fun _ => False) plan.commands ks ks' := by
  have hsection := h.temporaries hchain.blocks
  -- without a sort behind it, the chain is all there is
  have hstored : plan.commands = found.commands → plan.temporaries = found.temporaries →
      Alike (fun _ => False) plan.commands ks ks' := by
    intro hcommands htemporaries
    rw [hcommands] at hleft ⊢
    rw [htemporaries] at hkeys hks hfree hsection
    exact hchain.alike hkeys (fun key hkey => hsection key (hkey.resolve_right id)) (by simp)
      (by simp) (hks.mono fun _ => .inl) hleft hfree
  cases h with
  | stored => exact hstored rfl rfl
  | elided => exact hstored rfl rfl
  | @sorted key order f hkey _ _ =>
    dsimp only [storagePlan, sortCommand] at *
    generalize t.temporary (n + found.temporaries.length) = dest at *
    obtain ⟨hnodup, -, hdisjoint⟩ := List.nodup_append.mp hkeys
    have hdest : ∀ k ∈ found.temporaries, k ≠ dest := fun k hk heq =>
      hdisjoint k hk dest (List.mem_singleton_self _) heq
    have hmem : ∀ k, k ∈ found.temporaries ∨ k = dest ↔ k ∈ found.temporaries ++ [dest] := by simp
    have hbehind : Alike (· = dest) found.commands ks ks' :=
      hchain.alike hnodup (fun k hk => hsection k ((hmem k).mp hk)) hdest (by simp)
        (hks.mono fun k hk => (hmem k).mpr hk)
        (fun k ids hk => hleft k ids (List.mem_append_left _ hk))
        fun k hk => hfree k (List.mem_append_left _ hk)
    refine hbehind.append fun hafter => (Alike.replace ?_ hafter t.lifetime).mono fun _ hk =>
      hk.2 hk.1
    have hdestSection := hsection dest (List.mem_append_right _ (List.mem_singleton_self _))
    refine overwrites_sort (hafter.data? ?_) (fun pattern hpat member => hafter.data? ?_) _ _ _
    · exact (hsource key hkey).elim (hdest key) fun hnot heq => hnot (heq ▸ hdestSection)
    · split at hpat
      · cases hpat
      · cases hpat
        exact fun heq => hpattern f.name member (heq ▸ hdestSection)

/-- If the commands of blocks succeed, given ids were not put under keys of another kind. -/
theorem Blocks.fits_of_passes (h : Blocks t n cs keys) (hkeys : keys.Nodup)
    (hpasses : ks.Passes cs) {key : String} {ids : List String} (hmem : .sadd key ids ∈ cs) :
    ks.Fits key .set := by
  induction h generalizing ks with
  | nil => exact absurd hmem List.not_mem_nil
  | @cons n cs more keys hblock hmore ih =>
    obtain ⟨hhead, hnodup⟩ := List.nodup_cons.mp hkeys
    obtain ⟨hfirst, hrest⟩ := passes_append.mp hpasses
    rcases List.mem_append.mp hmem with hmem | hmem
    · obtain ⟨rfl, hids, rfl⟩ := hblock.given_of_sadd hmem
      exact fits_of_execute_sadd hids (passes_cons.mp hfirst).1
    -- a later block meets its key as it is now
    · have hne : key ≠ t.temporary n := fun heq => hhead (heq ▸ hmore.mem_of_sadd hmem)
      exact (ih hnodup hrest hmem).of_data?_eq ((hblock.beside ks).data? hne).symm

/-- What blocks leave of given ids is a collection of the kind of the model, of some of them. -/
theorem Blocks.given_behind (h : Blocks t n cs keys) (hfresh : ks.Fresh keys)
    (hfits : ks.Fits t.layout.keys.ids t.layout.memberKind) {key : String} {ids : List String}
    (hmem : .sadd key ids ∈ cs) :
    (ks.executeAll cs).2.Fits key t.layout.memberKind ∧
      ∀ m, (ks.executeAll cs).2.Has key m → m ∈ ids := by
  induction h generalizing ks with
  | nil => exact absurd hmem List.not_mem_nil
  | @cons n cs more keys hblock hmore ih =>
    rw [executeAll_append]
    rcases List.mem_append.mp hmem with hmem | hmem
    · obtain ⟨rfl, hids, rfl⟩ := hblock.given_of_sadd hmem
      obtain ⟨ks', hrun, hchanged, hhas⟩ := (Target.stores_ids hfits
        (hfresh.absent _ List.mem_cons_self) (t.ids_ne_temporary n) hids).expire t.lifetime
      have hleads := hrun.leads
      simp only [List.cons_append, List.nil_append] at hleads
      -- no later block fills this key
      have hsame := (hmore.beside ks').data? (List.nodup_cons.mp hfresh.distinct).1
      rw [hleads]
      exact ⟨hchanged.fits.of_data?_eq hsame, fun m hm =>
        ((hhas m).mp ((has_of_data?_eq hsame m).mp hm)).1⟩
    · exact ih (hblock.fresh hfresh) (hfits.of_data?_eq
        ((hblock.beside ks).data? (t.ids_ne_temporary n))) hmem

section Plans

variable {key : String} {ids : List String}

/-- Given ids are put under temporary keys of the plan. -/
theorem Planned.mem_of_sadd (h : Planned t n found sort plan)
    (hblocks : Blocks t n found.commands found.temporaries)
    (hmem : .sadd key ids ∈ plan.commands) : key ∈ plan.temporaries := by
  obtain ⟨more, later, hcommands, htemporaries, hmore, -⟩ := h.exists_sort
  rw [hcommands] at hmem
  rw [htemporaries]
  have hmem := (List.mem_append.mp hmem).resolve_right (hmore key ids)
  exact List.mem_append_left _ (hblocks.mem_of_sadd hmem)

/-- If the commands of a plan succeed, given ids were not put under keys of another kind. -/
theorem Planned.fits_of_passes (h : Planned t n found sort plan)
    (hblocks : Blocks t n found.commands found.temporaries) (hkeys : plan.temporaries.Nodup)
    (hpasses : ks.Passes plan.commands) (hmem : .sadd key ids ∈ plan.commands) :
    ks.Fits key .set := by
  obtain ⟨more, later, hcommands, htemporaries, hmore, -⟩ := h.exists_sort
  rw [hcommands] at hpasses hmem
  rw [htemporaries] at hkeys
  have hmem := (List.mem_append.mp hmem).resolve_right (hmore key ids)
  exact hblocks.fits_of_passes (List.nodup_append.mp hkeys).1 (passes_append.mp hpasses).1 hmem

/-- What a plan leaves of given ids is a collection of the kind of the model, of some of them. -/
theorem Planned.given_behind (h : Planned t n found sort plan)
    (hblocks : Blocks t n found.commands found.temporaries) (hfresh : ks.Fresh plan.temporaries)
    (hfits : ks.Fits t.layout.keys.ids t.layout.memberKind)
    (hmem : .sadd key ids ∈ plan.commands) :
    (ks.executeAll plan.commands).2.Fits key t.layout.memberKind ∧
      ∀ m, (ks.executeAll plan.commands).2.Has key m → m ∈ ids := by
  obtain ⟨more, later, hcommands, htemporaries, hmore, hsort⟩ := h.exists_sort
  rw [htemporaries] at hfresh
  rw [hcommands] at hmem ⊢
  have hmem := (List.mem_append.mp hmem).resolve_right (hmore key ids)
  have hfilled := hblocks.mem_of_sadd hmem
  obtain ⟨hkind, hsub⟩ := hblocks.given_behind hfresh.left hfits hmem
  -- a sort behind the fragment fills a key of its own
  have hsame := (hsort (ks.executeAll found.commands).2).1.data? fun hlater =>
    (List.nodup_append.mp hfresh.distinct).2.2 key hfilled key hlater rfl
  rw [executeAll_append]
  exact ⟨hkind.of_data?_eq hsame, fun m hm => hsub m ((has_of_data?_eq hsame m).mp hm)⟩

end Plans

end Lowering

end KeyedRecords

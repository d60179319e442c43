import KeyedRecords.Proofs.Query.Rerunning
import KeyedRecords.Proofs.Store.Members

/-!
# The kinds of results

If all commands of a plan succeed, each of its temporary keys holds a collection of the kind that
the plan counts on, whatever the other keys hold: the command that filled it last stores no other
kind (`Command.stores?`). So a result that is under a temporary key can be read from there
(`Lowering.Planned.fits_reader`).
-/

namespace KeyedRecords

/-- The key under which a command stores a collection that it has made, and of which kind. -/
def Command.stores? : Command → Option (String × DataKind)
  | .sinterstore dest _ | .sunionstore dest _ | .sdiffstore dest _ => some (dest, .set)
  | .zinterstore dest _ _ _ | .zunionstore dest _ _ _ | .zdiffstore dest _ =>
    some (dest, .sortedSet)
  | .eval (.resolveUnique _ _ dest ids) => some (dest, if ids.isSome then .sortedSet else .set)
  | .sort _ _ _ _ (some dest) => some (dest, .list)
  | _ => none

/-- A reader expects a collection of one kind under its key. -/
def Reader.expects? : Reader → Option (String × DataKind)
  | .empty => none
  | .set key => some (key, .set)
  | .sorted key _ => some (key, .sortedSet)
  | .list key => some (key, .list)

namespace Keyspace

variable {ks : Keyspace} {c : Command} {dest : String} {kind : DataKind}

/-- What replaces the value of a key is found there, if the command did not fail. -/
theorem fits_of_count {op : Step Nat} (hc : Step.ofCommand c = Reply.count <$> op)
    (h : (∃ e, ks.run op = (.error e, ks)) ∨
      ∃ n d, d.kind = kind ∧ ks.run op = (.ok n, ks.replace dest d))
    (hok : (ks.execute c).1.isError = false) : (ks.execute c).2.Fits dest kind := by
  rw [execute_eq, hc] at hok ⊢
  obtain ⟨e, hrun⟩ | ⟨n, d, hd, hrun⟩ := h
  · rw [run_map_error hrun] at hok
    cases hok
  · rw [run_map_ok hrun]
    exact (puts_replace ks dest d).fits hd

/-- What a sort stores is a list. -/
theorem fits_of_sort {key : String} {pattern? : Option String} {descending alpha : Bool}
    (hok : (ks.execute (.sort key pattern? descending alpha (some dest))).1.isError = false) :
    (ks.execute (.sort key pattern? descending alpha (some dest))).2.Fits dest .list := by
  obtain ⟨items, -, hstored⟩ := exists_sorted hok
  rw [hstored]
  exact (puts_replace ks dest (.list items)).fits rfl

/-- Behind a command that stores a collection, its destination holds one of that kind. -/
theorem fits_of_stores (hc : c.stores? = some (dest, kind))
    (hok : (ks.execute c).1.isError = false) : (ks.execute c).2.Fits dest kind := by
  cases c with
  | sinterstore | sunionstore | sdiffstore =>
    cases hc
    exact fits_of_count rfl ((run_storeSets_cases ks _ _ _).imp_right
      fun ⟨n, hrun⟩ => ⟨n, _, rfl, hrun⟩) hok
  | zinterstore | zunionstore =>
    cases hc
    exact fits_of_count rfl ((run_storeSorted_cases ks _ _ _ _).imp_right
      fun ⟨n, _, _, hrun⟩ => ⟨n, _, rfl, hrun⟩) hok
  | zdiffstore =>
    cases hc
    exact fits_of_count rfl ((run_storeSortedDiff_cases ks _ _).imp_right
      fun ⟨n, hrun⟩ => ⟨n, _, rfl, hrun⟩) hok
  | sort key pattern? descending alpha target =>
    cases target with
    | none => cases hc
    | some target =>
      cases hc
      exact fits_of_sort hok
  | eval script =>
    cases script with
    | resolveUnique =>
      cases hc
      exact fits_of_count rfl (run_resolveUnique_cases ks _ _ _ _) hok
    | commit => cases hc
  | _ => cases hc

/-- A command that collects members stores a collection of them. -/
theorem exists_stores (hc : c.destination? = some dest) :
    ∃ kind, c.stores? = some (dest, kind) := by
  cases c with
  | sinterstore | sunionstore | sdiffstore | zinterstore | zunionstore | zdiffstore =>
    cases hc
    exact ⟨_, rfl⟩
  | eval script =>
    cases script with
    | resolveUnique =>
      cases hc
      exact ⟨_, rfl⟩
    | commit => cases hc
  | _ => cases hc

end Keyspace

namespace Lowering

open Keyspace

variable {t : Target} {n : Nat} {cs : List Command} {keys : List String} {ks : Keyspace}
  {found : Fragment} {sort : Option SortOrder} {plan : Plan}

/-- Collections that commands store are of the kind of the model. -/
def OfMemberKind (t : Target) (cs : List Command) : Prop :=
  ∀ c ∈ cs, ∀ dest kind, c.stores? = some (dest, kind) → kind = t.layout.memberKind

/-- Commands one behind the other. -/
theorem ofMemberKind_append {more : List Command} :
    OfMemberKind t (cs ++ more) ↔ OfMemberKind t cs ∧ OfMemberKind t more :=
  List.forall_mem_append

/-- A time of expiry behind a command stores nothing. -/
theorem ofMemberKind_create {c : Command} {dest : String} {seconds : Nat}
    (h : c.stores? = some (dest, t.layout.memberKind)) :
    OfMemberKind t [c, .expire dest seconds] := by
  intro c' hc' key kind hkind
  rcases List.mem_pair.mp hc' with rfl | rfl
  · rw [h] at hkind
    cases hkind
    rfl
  · cases hkind

/-- Commands that combine results make sorted sets on ordered models, and sets on others. -/
theorem Target.stores?_combine {command : String → List String → Command}
    (h : command ∈ [t.unionCommand, t.intersectCommand, t.differenceCommand]) (dest : String)
    (keys : List String) : (command dest keys).stores? = some (dest, t.layout.memberKind) := by
  simp only [List.mem_cons, List.not_mem_nil, or_false] at h
  unfold Layout.memberKind
  rcases h with rfl | rfl | rfl
  · unfold unionCommand
    cases t.layout.isOrdered <;> rfl
  · unfold intersectCommand
    cases t.layout.isOrdered <;> rfl
  · unfold differenceCommand
    cases t.layout.isOrdered <;> rfl

theorem Target.stores?_restrictCommand (t : Target) (dest : String) :
    (t.restrictCommand dest).stores? = some (dest, t.layout.memberKind) := by
  unfold restrictCommand Layout.memberKind
  cases t.layout.isOrdered <;> rfl

/-- The fragments of nodes store collections of the kind of the model. -/
theorem composable_ofMemberKind (t : Target) :
    Composable t fun _ parts => OfMemberKind t parts.commands where
  keys _ := List.forall_mem_nil _
  append h hmore := ofMemberKind_append.mpr ⟨h, hmore⟩
  nothing h := h
  combine h hcommand :=
    ofMemberKind_append.mpr ⟨h, ofMemberKind_create (Target.stores?_combine hcommand ..)⟩
  given := by
    intro n ids hids
    have hsadd : OfMemberKind t [.sadd (t.temporary n) ids] := by
      intro c hc key kind hkind
      obtain rfl := List.mem_singleton.mp hc
      cases hkind
    exact ofMemberKind_append.mpr ⟨hsadd, ofMemberKind_create (t.stores?_restrictCommand _)⟩
  owners := by
    refine ofMemberKind_create ?_
    unfold Layout.memberKind
    cases t.layout.isOrdered <;> rfl

/-- Behind a block that succeeds, its key holds a collection of the kind of the model. -/
theorem Block.fits (h : Block t n cs) (hkinds : OfMemberKind t cs) (hpasses : ks.Passes cs) :
    (ks.executeAll cs).2.Fits (t.temporary n) t.layout.memberKind := by
  cases h with
  | @collect c hc =>
    obtain ⟨kind, hstores⟩ := exists_stores hc
    obtain rfl := hkinds c List.mem_cons_self _ _ hstores
    have hfits := fits_of_stores hstores (passes_cons.mp hpasses).1
    simp only [executeAll, execute_expire]
    exact hfits.of_data?_eq (data?_expire ..)
  | given =>
    have hrestrict := (passes_cons.mp (passes_cons.mp hpasses).2).1
    have hfits := fits_of_stores (t.stores?_restrictCommand _) hrestrict
    simp only [executeAll, execute_expire]
    exact hfits.of_data?_eq (data?_expire ..)

/-- So do the keys of blocks one behind the other. -/
theorem Blocks.fits (h : Blocks t n cs keys) (hkinds : OfMemberKind t cs)
    (hpasses : ks.Passes cs) :
    ∀ key ∈ keys, (ks.executeAll cs).2.Fits key t.layout.memberKind := by
  induction h generalizing ks with
  | nil => exact fun _ hkey => absurd hkey List.not_mem_nil
  | @cons n cs more keys hblock hmore ih =>
    intro key hkey
    obtain ⟨hkinds, hlater⟩ := ofMemberKind_append.mp hkinds
    obtain ⟨hfirst, hrest⟩ := passes_append.mp hpasses
    rw [executeAll_append]
    by_cases hmem : key ∈ keys
    · exact ih hlater hrest key hmem
    · -- no later block fills this key
      obtain rfl := (List.mem_cons.mp hkey).resolve_right hmem
      exact (hblock.fits hkinds hfirst).of_data?_eq ((hmore.beside _).data? hmem)

/-- If the commands of a plan succeed, a temporary key that it is read from holds a collection of the
kind that is read. -/
theorem Planned.fits_reader (h : Planned t n found sort plan)
    (hblocks : Blocks t n found.commands found.temporaries)
    (hkinds : OfMemberKind t found.commands) {key : String} {kind : DataKind}
    (hreader : plan.reader.expects? = some (key, kind)) (hkey : key ∈ plan.temporaries)
    (hpasses : ks.Passes plan.commands) : (ks.executeAll plan.commands).2.Fits key kind := by
  cases h with
  | stored h =>
    have hfits := hblocks.fits hkinds hpasses key hkey
    -- an ordered model is read as a sorted set, and another as a set
    unfold Layout.memberKind Layout.isOrdered at hfits
    unfold storagePlan at hreader
    dsimp only at hreader
    split at hreader
    next => cases hreader
    next hsource horder =>
      cases hreader
      rwa [horder] at hfits
    next hsource horder =>
      cases hreader
      rwa [horder] at hfits
  | elided hsource horder =>
    have hfits := hblocks.fits hkinds hpasses key hkey
    unfold Layout.memberKind Layout.isOrdered at hfits
    cases hreader
    cases hordering : t.layout.defaultOrdering with
    | none =>
      rw [hordering] at horder
      cases horder
    | some order => rwa [hordering] at hfits
  | sorted hsource horder hf =>
    cases hreader
    obtain ⟨-, hsort⟩ := passes_append.mp hpasses
    have hfits := fits_of_sort (passes_cons.mp hsort).1
    dsimp only
    rw [executeAll_append]
    simp only [executeAll, execute_expire]
    exact hfits.of_data?_eq (data?_expire ..)

end Lowering

end KeyedRecords

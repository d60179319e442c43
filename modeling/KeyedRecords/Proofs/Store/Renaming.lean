import KeyedRecords.Proofs.Model.Keys
import KeyedRecords.Proofs.Store.Footprint
import KeyedRecords.Proofs.Store.Reading

/-!
# Other names for keys

A `Renaming` pairs keys of one key space with keys of another, and two key spaces correspond if
paired keys have the same entries (`Keyspace.Corresponds`). An operation simulates another one if
from corresponding key spaces both answer the same and lead to corresponding key spaces again
(`Keyspace.Simulates`). What is not paired does not matter to either.
-/

namespace KeyedRecords

/-- Keys, each with the name that it has in another key space. -/
structure Renaming where
  Pairs : String → String → Prop
  /-- A key has one name there, which is no other key's. -/
  eq_iff : ∀ {key key' other other'}, Pairs key key' → Pairs other other' →
    (key = other ↔ key' = other')

/-- Related items stay so beside the same weights. -/
theorem forall₂_zip_right {α α' β : Type} {R : α → α' → Prop} {as : List α} {as' : List α'}
    (h : List.Forall₂ R as as') (bs : List β) :
    List.Forall₂ (fun p p' => R p.1 p'.1 ∧ p.2 = p'.2) (as.zip bs) (as'.zip bs) := by
  induction h generalizing bs with
  | nil => exact .nil
  | cons hhead _ ih =>
    cases bs with
    | nil => exact .nil
    | cons b rest => exact .cons ⟨hhead, rfl⟩ (ih rest)

namespace Renaming

variable {ρ : Renaming} {key key' : String} {keys keys' : List String}

/-- A key is one of several if its name there is one of theirs. -/
theorem mem_iff (hkey : ρ.Pairs key key') (h : List.Forall₂ ρ.Pairs keys keys') :
    key ∈ keys ↔ key' ∈ keys' := by
  induction h with
  | nil => simp
  | cons hhead _ ih => rw [List.mem_cons, List.mem_cons, ρ.eq_iff hkey hhead, ih]

/-- The keys of a model keep their names, except for results of queries. -/
def Fixes (ρ : Renaming) (k : ModelKeys) : Prop :=
  ∀ {key s}, k.InSection key s → s ≠ .temporary → ρ.Pairs key key

namespace Fixes

variable {k : ModelKeys} (h : ρ.Fixes k)
include h

theorem ids : ρ.Pairs k.ids k.ids := h (.ids rfl) (by simp)

theorem counter : ρ.Pairs k.counter k.counter := h (.counter rfl) (by simp)

theorem object (id : String) : ρ.Pairs (k.object id) (k.object id) := h (.object id rfl) (by simp)

theorem container (id name : String) : ρ.Pairs (k.container id name) (k.container id name) :=
  k.container_eq_object id name ▸ h.object _

theorem index (field value : String) : ρ.Pairs (k.index field value) (k.index field value) :=
  h (.index field value rfl) (by simp)

theorem unique (field : String) : ρ.Pairs (k.unique field) (k.unique field) :=
  h (.unique field rfl) (by simp)

end Fixes

end Renaming

namespace Keyspace

variable {ε α β : Type} {ρ : Renaming} {ks ks' : Keyspace} {key key' dest dest' : String}
  {keys keys' : List String}

/-- Paired keys have the same entries, at the same time. -/
structure Corresponds (ρ : Renaming) (ks ks' : Keyspace) : Prop where
  entries : ∀ {key key'}, ρ.Pairs key key' → ks'.entries[key']? = ks.entries[key]?
  now : ks'.now = ks.now

namespace Corresponds

section Reading

variable (h : Corresponds ρ ks ks')
include h

theorem data? (hkey : ρ.Pairs key key') : ks'.data? key' = ks.data? key := by
  rw [Keyspace.data?, Keyspace.data?, h.entries hkey]

theorem kind? (hkey : ρ.Pairs key key') : ks'.kind? key' = ks.kind? key := by
  rw [Keyspace.kind?, Keyspace.kind?, h.data? hkey]

theorem set? (hkey : ρ.Pairs key key') : ks'.set? key' = ks.set? key := set?_congr (h.data? hkey)

theorem sortedSet? (hkey : ρ.Pairs key key') : ks'.sortedSet? key' = ks.sortedSet? key :=
  sortedSet?_congr (h.data? hkey)

theorem hash? (hkey : ρ.Pairs key key') : ks'.hash? key' = ks.hash? key :=
  hash?_congr (h.data? hkey)

theorem members (hkey : ρ.Pairs key key') : ks'.members key' = ks.members key :=
  members_congr (h.data? hkey)

theorem scored (hkey : ρ.Pairs key key') : ks'.scored key' = ks.scored key :=
  scored_congr (h.data? hkey)

theorem sets (hkeys : List.Forall₂ ρ.Pairs keys keys') : ks'.sets keys' = ks.sets keys :=
  sets_congr (hkeys.imp fun _ _ hkey => h.data? hkey)

theorem weighted {pairs pairs' : List (String × Double)}
    (hpairs : List.Forall₂ (fun p p' => ρ.Pairs p.1 p'.1 ∧ p.2 = p'.2) pairs pairs') :
    ks'.weighted pairs' = ks.weighted pairs :=
  weighted_congr (hpairs.imp fun _ _ hpair => ⟨h.data? hpair.1, hpair.2⟩)

theorem owners (hkey : ρ.Pairs key key') (values : List String) :
    ks'.owners key' values = ks.owners key values :=
  owners_congr (h.data? hkey) values

end Reading

section Changing

variable (h : Corresponds ρ ks ks')
include h

theorem update (hkey : ρ.Pairs key key') (d : Data) :
    Corresponds ρ (ks.update key d) (ks'.update key' d) := by
  constructor
  case entries =>
    intro k k' hk
    simp only [getElem?_update, ρ.eq_iff hk hkey, h.entries hk, h.entries hkey]
  case now => simp only [now_update, h.now]

theorem replace (hkey : ρ.Pairs key key') (d : Data) :
    Corresponds ρ (ks.replace key d) (ks'.replace key' d) := by
  constructor
  case entries =>
    intro k k' hk
    simp only [getElem?_replace, ρ.eq_iff hk hkey, h.entries hk]
  case now => simp only [now_replace, h.now]

theorem expire (hkey : ρ.Pairs key key') (time : Nat) :
    Corresponds ρ (ks.expire key time) (ks'.expire key' time) := by
  constructor
  case entries =>
    intro k k' hk
    simp only [getElem?_expire, ρ.eq_iff hk hkey, h.entries hk]
  case now => simp only [now_expire, h.now]

theorem delete (hkeys : List.Forall₂ ρ.Pairs keys keys') :
    Corresponds ρ (ks.delete keys) (ks'.delete keys') := by
  refine ⟨fun {k k'} hk => ?_, h.now⟩
  simp only [Keyspace.delete, Table.getElem?_eraseAll, ρ.mem_iff hk hkeys, h.entries hk]

end Changing

end Corresponds

/-- From corresponding key spaces two operations answer the same, and lead to corresponding key
spaces again. -/
def Simulates (ρ : Renaming) (op op' : ExceptT ε (StateM Keyspace) α) : Prop :=
  ∀ ks ks' : Keyspace, Corresponds ρ ks ks' →
    (ks'.run op').1 = (ks.run op).1 ∧ Corresponds ρ (ks.run op).2 (ks'.run op').2

section Composing

variable {op op' : ExceptT ε (StateM Keyspace) α}
  {next next' : α → ExceptT ε (StateM Keyspace) β}

theorem simulates_pure (a : α) :
    Simulates ρ (pure a : ExceptT ε (StateM Keyspace) α) (pure a) :=
  fun _ _ h => ⟨rfl, h⟩

theorem simulates_throw (e : ε) :
    Simulates ρ (throw e : ExceptT ε (StateM Keyspace) α) (throw e) :=
  fun _ _ h => ⟨rfl, h⟩

theorem simulates_throw_bind (e : ε) : Simulates ρ (throw e >>= next) (throw e >>= next') :=
  fun _ _ h => ⟨rfl, h⟩

/-- Operations and what is done with their common answer. -/
theorem Simulates.bind (h : Simulates ρ op op') (hnext : ∀ a, Simulates ρ (next a) (next' a)) :
    Simulates ρ (op >>= next) (op' >>= next') := by
  intro ks ks' hks
  have hop := h ks ks' hks
  cases hrun : ks.run op with
  | mk result ks₁ =>
    cases hrun' : ks'.run op' with
    | mk result' ks₁' =>
      rw [hrun, hrun'] at hop
      obtain ⟨hresult, hks₁⟩ := hop
      obtain rfl : result' = result := hresult
      cases result' with
      | error e =>
        rw [run_bind_error hrun, run_bind_error hrun']
        exact ⟨rfl, hks₁⟩
      | ok a =>
        rw [run_bind_ok hrun, run_bind_ok hrun']
        exact hnext a ks₁ ks₁' hks₁

/-- What is done may depend on what the key spaces have in common. -/
theorem simulates_get_bind {next next' : Keyspace → ExceptT ε (StateM Keyspace) β}
    (hnext : ∀ ks ks', Corresponds ρ ks ks' → Simulates ρ (next ks) (next' ks')) :
    Simulates ρ (get >>= next) (get >>= next') := by
  intro ks ks' hks
  rw [run_bind_ok (run_get ks), run_bind_ok (run_get ks')]
  exact hnext ks ks' hks ks ks' hks

theorem Simulates.map {f : α → β} (h : Simulates ρ op op') :
    Simulates ρ (f <$> op) (f <$> op') := by
  rw [map_eq_pure_bind, map_eq_pure_bind]
  exact h.bind fun _ => simulates_pure _

/-- Operations whose answers are not needed. -/
theorem Simulates.discard (h : Simulates ρ op op') : Simulates ρ (discard op) (discard op') := h.map

theorem simulates_modify {f f' : Keyspace → Keyspace}
    (hf : ∀ ks ks', Corresponds ρ ks ks' → Corresponds ρ (f ks) (f' ks')) :
    Simulates ρ (modify f : ExceptT ε (StateM Keyspace) PUnit) (modify f') :=
  fun ks ks' h => ⟨rfl, hf ks ks' h⟩

theorem simulates_set {ks ks' : Keyspace} (h : Corresponds ρ ks ks') :
    Simulates ρ (set ks : ExceptT ε (StateM Keyspace) PUnit) (set ks') :=
  fun _ _ _ => ⟨rfl, h⟩

end Composing

section Steps

theorem simulates_read {f f' : Keyspace → Except CommandFault α}
    (hf : ∀ ks ks', Corresponds ρ ks ks' → f' ks' = f ks) :
    Simulates ρ (Step.read f) (Step.read f') := by
  intro ks ks' h
  rw [run_read, run_read]
  exact ⟨hf ks ks' h, h⟩

/-- The number of keys that were there depends on more than what the key spaces have in common, so
it must not be needed. -/
theorem simulates_delete (hkeys : List.Forall₂ ρ.Pairs keys keys') :
    Simulates ρ (discard (Step.delete keys)) (discard (Step.delete keys')) :=
  fun _ _ h => ⟨rfl, h.delete hkeys⟩

variable (hkey : ρ.Pairs key key')
include hkey

theorem simulates_update (d : Data) :
    Simulates ρ (modify (·.update key d) : ExceptT ε (StateM Keyspace) PUnit)
      (modify (·.update key' d)) :=
  simulates_modify fun _ _ h => h.update hkey d

theorem simulates_increment : Simulates ρ (Step.increment key) (Step.increment key') := by
  unfold Step.increment
  refine simulates_get_bind fun ks ks' h => ?_
  dsimp only
  rw [h.data? hkey]
  have hnext : ∀ current : Int, Simulates ρ
      (if Number.fitsInt64 (current + 1) then do
        set (ks.update key (.string (Number.intText (current + 1))))
        return current + 1
      else throw .notInteger : Step Int)
      (if Number.fitsInt64 (current + 1) then do
        set (ks'.update key' (.string (Number.intText (current + 1))))
        return current + 1
      else throw .notInteger) := by
    intro current
    split
    · exact (simulates_set (h.update hkey _)).bind fun _ => simulates_pure _
    · exact simulates_throw _
  cases ks.data? key with
  | none => exact (simulates_pure _).bind hnext
  | some d =>
    cases d with
    | string s =>
      dsimp only
      split
      · exact (simulates_pure _).bind hnext
      · exact simulates_throw_bind _
    | _ => exact simulates_throw_bind _

theorem simulates_addMembers (members : List String) :
    Simulates ρ (Step.addMembers key members) (Step.addMembers key' members) := by
  unfold Step.addMembers
  split
  · exact simulates_pure _
  · exact (simulates_read fun _ _ h => h.set? hkey).bind fun _ =>
      (simulates_update hkey _).bind fun _ => simulates_pure _

theorem simulates_removeMembers (members : List String) :
    Simulates ρ (Step.removeMembers key members) (Step.removeMembers key' members) := by
  unfold Step.removeMembers
  refine (simulates_read fun _ _ h => h.set? hkey).bind fun before => ?_
  cases before with
  | none => exact simulates_pure _
  | some before => exact (simulates_update hkey _).bind fun _ => simulates_pure _

theorem simulates_addScored (items : List (Double × String)) :
    Simulates ρ (Step.addScored key items) (Step.addScored key' items) := by
  unfold Step.addScored
  split
  · exact simulates_pure _
  · exact (simulates_read fun _ _ h => h.sortedSet? hkey).bind fun _ =>
      (simulates_update hkey _).bind fun _ => simulates_pure _

theorem simulates_removeScored (members : List String) :
    Simulates ρ (Step.removeScored key members) (Step.removeScored key' members) := by
  unfold Step.removeScored
  refine (simulates_read fun _ _ h => h.sortedSet? hkey).bind fun before => ?_
  cases before with
  | none => exact simulates_pure _
  | some before => exact (simulates_update hkey _).bind fun _ => simulates_pure _

theorem simulates_setFields (pairs : List (String × String)) :
    Simulates ρ (Step.setFields key pairs) (Step.setFields key' pairs) := by
  unfold Step.setFields
  split
  · exact simulates_pure _
  · exact (simulates_read fun _ _ h => h.hash? hkey).bind fun _ =>
      (simulates_update hkey _).bind fun _ => simulates_pure _

theorem simulates_removeFields (fields : List String) :
    Simulates ρ (Step.removeFields key fields) (Step.removeFields key' fields) := by
  unfold Step.removeFields
  refine (simulates_read fun _ _ h => h.hash? hkey).bind fun before => ?_
  cases before with
  | none => exact simulates_pure _
  | some before => exact (simulates_update hkey _).bind fun _ => simulates_pure _

end Steps

section Storing

variable (hdest : ρ.Pairs dest dest')
include hdest

theorem simulates_store (d : Data) (size : Nat) :
    Simulates ρ (Step.store dest d size) (Step.store dest' d size) :=
  (simulates_modify fun _ _ h => h.replace hdest d).bind fun _ => simulates_pure _

theorem simulates_storeSets (hkeys : List.Forall₂ ρ.Pairs keys keys')
    (f : List Members → Members) :
    Simulates ρ (Step.storeSets dest keys f) (Step.storeSets dest' keys' f) :=
  (simulates_read fun _ _ h => h.sets hkeys).bind fun _ => simulates_store hdest _ _

theorem simulates_storeSorted (hkeys : List.Forall₂ ρ.Pairs keys keys')
    (weights : Option (List Double)) (f : List (Table Double) → Table Double) :
    Simulates ρ (Step.storeSorted dest keys weights f)
      (Step.storeSorted dest' keys' weights f) := by
  have hstore : ∀ {pairs pairs' : List (String × Double)},
      List.Forall₂ (fun p p' => ρ.Pairs p.1 p'.1 ∧ p.2 = p'.2) pairs pairs' →
      Simulates ρ
        (do
          let result := f (← Step.read (·.weighted pairs))
          Step.store dest (.sortedSet result) result.size)
        (do
          let result := f (← Step.read (·.weighted pairs'))
          Step.store dest' (.sortedSet result) result.size) := fun hpairs =>
    (simulates_read fun _ _ h => h.weighted hpairs).bind fun _ => simulates_store hdest _ _
  unfold Step.storeSorted Step.pairWeights
  cases weights with
  | none =>
    simp only [pure_bind]
    refine hstore ?_
    rw [List.forall₂_map_left_iff, List.forall₂_map_right_iff]
    exact hkeys.imp fun _ _ hkey => ⟨hkey, rfl⟩
  | some weights =>
    simp only [hkeys.length_eq]
    split
    · simp only [pure_bind]
      exact hstore (forall₂_zip_right hkeys weights)
    · exact simulates_throw_bind _

theorem simulates_storeSortedDiff (hkeys : List.Forall₂ ρ.Pairs keys keys') :
    Simulates ρ (Step.storeSortedDiff dest keys) (Step.storeSortedDiff dest' keys') :=
  (simulates_read fun _ _ h => mapM_eq_of_forall₂ (hkeys.imp fun _ _ hkey => h.scored hkey)).bind
    fun _ => simulates_store hdest _ _

theorem simulates_resolveUnique {hash hash' : String} (hhash : ρ.Pairs hash hash')
    (values : List String) {ids : Option String} (hids : ∀ key ∈ ids, ρ.Pairs key key) :
    Simulates ρ (Step.resolveUnique hash values dest ids)
      (Step.resolveUnique hash' values dest' ids) := by
  unfold Step.resolveUnique
  refine (simulates_read fun _ _ h => h.owners hhash values).bind fun found => ?_
  cases ids with
  | none => exact simulates_store hdest _ _
  | some ids =>
    exact (simulates_read fun _ _ h => h.sortedSet? (hids ids rfl)).bind fun _ =>
      simulates_store hdest _ _

end Storing

end Keyspace

/-- A command does under some names what another one does under others. -/
def Command.Renamed (ρ : Renaming) (c c' : Command) : Prop :=
  Keyspace.Simulates ρ (Step.ofCommand c) (Step.ofCommand c')

namespace Keyspace

variable {ρ : Renaming} {ks ks' : Keyspace} {c c' : Command} {cs cs' : List Command}

/-- A command is answered as it is under other names. -/
theorem execute_renamed (hc : c.Renamed ρ c') (h : Corresponds ρ ks ks') :
    (ks'.execute c').1 = (ks.execute c).1 ∧ Corresponds ρ (ks.execute c).2 (ks'.execute c').2 := by
  obtain ⟨hresult, hks⟩ := hc ks ks' h
  rw [execute_snd, execute_snd]
  refine ⟨?_, hks⟩
  rw [execute_eq, execute_eq]
  cases hrun : ks.run (Step.ofCommand c) with
  | mk result ks₁ =>
    cases hrun' : ks'.run (Step.ofCommand c') with
    | mk result' ks₁' =>
      rw [hrun, hrun'] at hresult
      obtain rfl : result' = result := hresult
      cases result' <;> rfl

/-- So are commands one behind the other. -/
theorem executeAll_renamed (hcs : List.Forall₂ (Command.Renamed ρ) cs cs')
    (h : Corresponds ρ ks ks') :
    (ks'.executeAll cs').1 = (ks.executeAll cs).1 ∧
      Corresponds ρ (ks.executeAll cs).2 (ks'.executeAll cs').2 := by
  induction hcs generalizing ks ks' with
  | nil => exact ⟨rfl, h⟩
  | cons hc _ ih =>
    obtain ⟨hreply, hks⟩ := execute_renamed hc h
    obtain ⟨hreplies, hks⟩ := ih hks
    exact ⟨by simp only [executeAll, hreply, hreplies], hks⟩

end Keyspace

end KeyedRecords

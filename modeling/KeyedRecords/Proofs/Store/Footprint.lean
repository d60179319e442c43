import KeyedRecords.Proofs.Store.Starvation

/-!
# Footprints

However an operation ends, it leads from one key space to another by edits of single keys
(`Keyspace.Edits`), and what every edit preserves, the operation preserves. Above all it touches
some keys only: it changes nothing beside them (`Keyspace.Beside`, `Keyspace.Touches`). The edits of
a composed operation follow from those of its parts.
-/

namespace KeyedRecords

namespace Keyspace

variable {ε α β : Type} {K K' : String → Prop} {op : ExceptT ε (StateM Keyspace) α}
  {ks ks' ks'' : Keyspace} {key : String}

/-- Nothing has changed but what the keys in `K` hold, and when they expire. -/
structure Beside (K : String → Prop) (ks ks' : Keyspace) : Prop where
  /-- All other keys have their entries still. -/
  entries : ∀ key, ¬K key → ks'.entries[key]? = ks.entries[key]?
  /-- No time has passed. -/
  now : ks'.now = ks.now

namespace Beside

@[refl]
theorem refl (ks : Keyspace) : Beside K ks ks := ⟨fun _ _ => rfl, rfl⟩

theorem trans (h : Beside K ks ks') (h' : Beside K ks' ks'') : Beside K ks ks'' :=
  ⟨fun key hkey => (h'.entries key hkey).trans (h.entries key hkey), h'.now.trans h.now⟩

/-- More keys may be said to have changed. -/
theorem mono (h : Beside K ks ks') (hK : ∀ key, K key → K' key) : Beside K' ks ks' :=
  ⟨fun key hkey => h.entries key fun hmem => hkey (hK key hmem), h.now⟩

/-- All other keys hold what they held. -/
theorem data? (h : Beside K ks ks') (hkey : ¬K key) : ks'.data? key = ks.data? key := by
  rw [Keyspace.data?, Keyspace.data?, h.entries key hkey]

/-- A change of no key is none. -/
theorem eq_self (h : Beside K ks ks') (hK : ∀ key, ¬K key) : ks' = ks := by
  obtain ⟨entries, now⟩ := ks
  obtain ⟨entries', now'⟩ := ks'
  obtain rfl : entries' = entries :=
    Std.ExtTreeMap.ext_getElem? fun key => h.entries key (hK key)
  obtain rfl : now' = now := h.now
  rfl

/-- A value that is put under a key changes no other one. -/
theorem of_puts {d : Data} (h : Puts key d ks ks') (hkey : K key) : Beside K ks ks' :=
  ⟨fun k hk => h.other k fun heq => hk (heq ▸ hkey), h.now⟩

theorem delete (ks : Keyspace) {keys : List String} (hkeys : ∀ key ∈ keys, K key) :
    Beside K ks (ks.delete keys) := by
  refine ⟨fun k hk => ?_, rfl⟩
  rw [Keyspace.delete, Table.getElem?_eraseAll, if_neg fun hmem => hk (hkeys k hmem)]

theorem expire (ks : Keyspace) (hkey : K key) (time : Nat) : Beside K ks (ks.expire key time) := by
  refine ⟨fun k hk => ?_, now_expire ks key time⟩
  have hne : k ≠ key := fun heq => hk (heq ▸ hkey)
  rw [getElem?_expire, if_neg hne]

end Beside

/-- Only the keys in `K` may hold something else behind the operation, however it ends. -/
def Touches (K : String → Prop) (op : ExceptT ε (StateM Keyspace) α) : Prop :=
  ∀ ks : Keyspace, Beside K ks (ks.run op).2

/-- A footprint may be taken too large. -/
theorem Touches.mono (h : Touches K op) (hK : ∀ key, K key → K' key) : Touches K' op :=
  fun ks => (h ks).mono hK

/-- Edits of keys in `K`, one after another, lead from one key space to another. -/
inductive Edited (K : String → Prop) (ks : Keyspace) : Keyspace → Prop
  | refl : Edited K ks ks
  | update {before : Keyspace} (h : Edited K ks before) {key : String} (hkey : K key) (d : Data) :
      Edited K ks (before.update key d)
  | replace {before : Keyspace} (h : Edited K ks before) {key : String} (hkey : K key) (d : Data) :
      Edited K ks (before.replace key d)
  | expire {before : Keyspace} (h : Edited K ks before) {key : String} (hkey : K key)
      (time : Nat) : Edited K ks (before.expire key time)
  | delete {before : Keyspace} (h : Edited K ks before) {keys : List String}
      (hkeys : ∀ key ∈ keys, K key) : Edited K ks (before.delete keys)

namespace Edited

/-- Edits behind edits. -/
theorem trans (h : Edited K ks ks') (h' : Edited K ks' ks'') : Edited K ks ks'' := by
  induction h' with
  | refl => exact h
  | update _ hkey d ih => exact ih.update hkey d
  | replace _ hkey d ih => exact ih.replace hkey d
  | expire _ hkey time ih => exact ih.expire hkey time
  | delete _ hkeys ih => exact ih.delete hkeys

/-- More keys may be said to have been edited. -/
theorem mono (h : Edited K ks ks') (hK : ∀ key, K key → K' key) : Edited K' ks ks' := by
  induction h with
  | refl => exact .refl
  | update _ hkey d ih => exact ih.update (hK _ hkey) d
  | replace _ hkey d ih => exact ih.replace (hK _ hkey) d
  | expire _ hkey time ih => exact ih.expire (hK _ hkey) time
  | delete _ hkeys ih => exact ih.delete fun key hkey => hK key (hkeys key hkey)

/-- Edits change nothing beside the keys that are edited. -/
theorem beside (h : Edited K ks ks') : Beside K ks ks' := by
  induction h with
  | refl => exact .refl ks
  | @update before _ key hkey d ih => exact ih.trans (.of_puts (puts_update before key d) hkey)
  | @replace before _ key hkey d ih => exact ih.trans (.of_puts (puts_replace before key d) hkey)
  | expire _ hkey time ih => exact ih.trans (.expire _ hkey time)
  | delete _ hkeys ih => exact ih.trans (.delete _ hkeys)

end Edited

/-- However the operation ends, it has made edits of the keys in `K` and done nothing else. -/
def Edits (K : String → Prop) (op : ExceptT ε (StateM Keyspace) α) : Prop :=
  ∀ ks : Keyspace, Edited K ks (ks.run op).2

/-- Only the keys that an operation edits hold something else behind it. -/
theorem Edits.touches (h : Edits K op) : Touches K op := fun ks => (h ks).beside

/-- More keys may be said to be edited. -/
theorem Edits.mono (h : Edits K op) (hK : ∀ key, K key → K' key) : Edits K' op :=
  fun ks => (h ks).mono hK

theorem edits_pure (a : α) : Edits K (pure a : ExceptT ε (StateM Keyspace) α) := fun _ => .refl

theorem edits_throw (e : ε) : Edits K (throw e : ExceptT ε (StateM Keyspace) α) := fun _ => .refl

/-- An operation and what is done with its answer. -/
theorem Edits.bind {next : α → ExceptT ε (StateM Keyspace) β} (h : Edits K op)
    (hnext : ∀ a, Edits K (next a)) : Edits K (op >>= next) := by
  intro ks
  have hop := h ks
  cases hrun : ks.run op with
  | mk result ks' =>
    rw [hrun] at hop
    cases result with
    | error e => rwa [run_bind_error hrun]
    | ok a =>
      rw [run_bind_ok hrun]
      exact hop.trans (hnext a ks')

/-- What is done may depend on the key space. -/
theorem edits_get_bind {next : Keyspace → ExceptT ε (StateM Keyspace) β}
    (hnext : ∀ ks, Edits K (next ks)) : Edits K (get >>= next) :=
  Edits.bind (fun _ => .refl) hnext

theorem Edits.map {f : α → β} (h : Edits K op) : Edits K (f <$> op) := by
  rw [map_eq_pure_bind]
  exact h.bind fun _ => edits_pure _

/-- An operation whose answer is not needed. -/
theorem Edits.discard (h : Edits K op) : Edits K (discard op) := h.map

theorem edits_read (f : Keyspace → Except CommandFault α) : Edits K (Step.read f) := by
  intro ks
  rw [run_read]
  exact .refl

theorem edits_delete {keys : List String} (hkeys : ∀ key ∈ keys, K key) :
    Edits K (Step.delete keys) :=
  fun _ => .delete .refl hkeys

/-- A step that puts at most one value under its key edits nothing but this key. -/
theorem Revises.edits_self {op : Step α} (h : Revises key op) : Edits (· = key) op := by
  intro ks
  obtain ⟨e, hrun⟩ | ⟨a, hrun | ⟨d, hrun⟩⟩ := h ks
  · rw [hrun]
    exact .refl
  · rw [hrun]
    exact .refl
  · rw [hrun]
    exact Edited.update (K := (· = key)) .refl rfl d

/-- The key may be one of several. -/
theorem Revises.edits {op : Step α} (h : Revises key op) (hkey : K key) : Edits K op :=
  h.edits_self.mono fun _ heq => heq ▸ hkey

/-- What is stored replaces what its key held. -/
theorem edits_store (hkey : K key) (d : Data) (size : Nat) : Edits K (Step.store key d size) :=
  fun _ => .replace .refl hkey d

/-- A command touches what its step does. -/
theorem beside_execute {c : Command} (h : Touches K (Step.ofCommand c)) (ks : Keyspace) :
    Beside K ks (ks.execute c).2 := by
  rw [execute_snd]
  exact h ks

/-- A command that collects members touches nothing but its destination. -/
theorem beside_collect {c : Command} {dest : String} (hc : c.destination? = some dest)
    (ks : Keyspace) : Beside (· = dest) ks (ks.execute c).2 := by
  obtain ⟨reply, -, hrun⟩ | ⟨reply, d, -, -, hrun⟩ := collects_of_destination hc ks
  · rw [hrun]
  · rw [hrun]
    exact .of_puts (puts_replace ks dest d) rfl

end Keyspace

end KeyedRecords

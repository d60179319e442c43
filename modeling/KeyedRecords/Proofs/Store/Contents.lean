import KeyedRecords.Store.Keyspace

/-!
# What keys hold

Views of a key space that do not depend on how a value is represented: the score of a member of a
collection (`Keyspace.score?`), the text of a field of a hash (`Keyspace.field?`), and whether a key
holds nothing but a value of one kind (`Keyspace.Fits`). Each operation on a key space is described
by what it does to `Keyspace.data?`, from which the views follow.
-/

namespace KeyedRecords

section Table

variable {β : Type}

/-- Looking up in a table with one more entry. -/
theorem Table.getElem?_insert (t : Table β) (k a : String) (v : β) :
    (t.insert k v)[a]? = if a = k then some v else t[a]? := by
  rw [Std.ExtTreeMap.getElem?_insert]
  simp only [Std.compare_eq_iff_eq, eq_comm (a := k)]

/-- Looking up in a table without one entry. -/
theorem Table.getElem?_erase (t : Table β) (k a : String) :
    (t.erase k)[a]? = if a = k then none else t[a]? := by
  rw [Std.ExtTreeMap.getElem?_erase]
  simp only [Std.compare_eq_iff_eq, eq_comm (a := k)]

/-- Looking up in a table without some entries. -/
theorem Table.getElem?_eraseAll (t : Table β) (keys : List String) (a : String) :
    (t.eraseAll keys)[a]? = if a ∈ keys then none else t[a]? := by
  induction keys generalizing t with
  | nil => simp [Table.eraseAll]
  | cons k rest ih =>
    have step : Table.eraseAll t (k :: rest) = Table.eraseAll (t.erase k) rest := rfl
    rw [step, ih, getElem?_erase]
    -- the key is erased at once, or later, or not at all
    by_cases hrest : a ∈ rest <;> by_cases hk : a = k <;> simp [hrest, hk]

/-- Looking up in a table with more entries: the last one of a name counts. -/
theorem Table.getElem?_insertAll (t : Table β) (entries : List (String × β)) (a : String) :
    (t.insertAll entries)[a]? = (entries.reverse.lookup a).or t[a]? := by
  induction entries generalizing t with
  | nil => simp [Table.insertAll]
  | cons e rest ih =>
    obtain ⟨k, v⟩ := e
    have step : Table.insertAll t ((k, v) :: rest) = Table.insertAll (t.insert k v) rest := rfl
    rw [step, ih, getElem?_insert, List.reverse_cons, List.lookup_append, Option.or_assoc,
      List.lookup_cons, List.lookup_nil]
    by_cases hk : a = k
    -- the first entry counts only if no later one has its name
    · simp [hk]
    · have hne : (a == k) = false := by simpa using hk
      simp [hk, hne]

end Table

/-- The members of a set with more members. -/
theorem Members.mem_insertAll (s : Members) (members : List String) (a : String) :
    a ∈ s.insertAll members ↔ a ∈ members ∨ a ∈ s := by
  induction members generalizing s with
  | nil => simp [Members.insertAll]
  | cons m rest ih =>
    have step : Members.insertAll s (m :: rest) = Members.insertAll (s.insert m) rest := rfl
    rw [step, ih, Std.ExtTreeSet.mem_insert, Std.compare_eq_iff_eq, List.mem_cons]
    grind

/-- The members of a set without some members. -/
theorem Members.mem_eraseAll (s : Members) (members : List String) (a : String) :
    a ∈ s.eraseAll members ↔ a ∉ members ∧ a ∈ s := by
  induction members generalizing s with
  | nil => simp [Members.eraseAll]
  | cons m rest ih =>
    have step : Members.eraseAll s (m :: rest) = Members.eraseAll (s.erase m) rest := rfl
    rw [step, ih, Std.ExtTreeSet.mem_erase, ne_eq, Std.compare_eq_iff_eq, List.mem_cons]
    grind

namespace Data

/-- The score of a member of a collection; the members of a set have the score one. -/
def score? : Data → String → Option Double
  | .set s, m => if m ∈ s then some .one else none
  | .sortedSet z, m => z[m]?
  | _, _ => none

/-- The text of a field of a hash. -/
def field? : Data → String → Option String
  | .hash h, f => h[f]?
  | _, _ => none

/-- An empty value has no members. -/
theorem score?_of_isEmpty {d : Data} (h : d.isEmpty = true) (m : String) : d.score? m = none := by
  cases d <;> simp_all [isEmpty, score?, Std.ExtTreeSet.isEmpty_iff, Std.ExtTreeMap.isEmpty_iff]

/-- An empty value has no fields. -/
theorem field?_of_isEmpty {d : Data} (h : d.isEmpty = true) (f : String) : d.field? f = none := by
  cases d <;> simp_all [isEmpty, field?, Std.ExtTreeMap.isEmpty_iff]

end Data

namespace Keyspace

/-- The score of a member of the collection of a key. -/
def score? (ks : Keyspace) (key m : String) : Option Double :=
  (ks.data? key).bind (·.score? m)

/-- The text of a field of the hash of a key. -/
def field? (ks : Keyspace) (key f : String) : Option String :=
  (ks.data? key).bind (·.field? f)

/-- A member belongs to the collection of a key. -/
def Has (ks : Keyspace) (key m : String) : Prop := (ks.score? key m).isSome = true

/-- A key holds nothing, or a value of a kind. -/
def Fits (ks : Keyspace) (key : String) (kind : DataKind) : Prop :=
  ∀ d, ks.data? key = some d → d.kind = kind

variable {ks : Keyspace} {key k : String} {d : Data} {kind : DataKind}

/-- A value has been put under a key. -/
structure Puts (key : String) (d : Data) (ks ks' : Keyspace) : Prop where
  /-- All other keys have their entries still. -/
  other : ∀ k, k ≠ key → ks'.entries[k]? = ks.entries[k]?
  /-- No time has passed. -/
  now : ks'.now = ks.now
  /-- The key holds the value; nothing is kept of an empty one. -/
  data : ks'.data? key = if d.isEmpty then none else some d

/-- The entries behind an update: that of its key keeps its time of expiry. -/
theorem getElem?_update (ks : Keyspace) (key k : String) (d : Data) :
    (ks.update key d).entries[k]? =
      if k = key then
        if d.isEmpty then none else some ⟨d, (ks.entries[key]?).bind Entry.expiresAt⟩
      else ks.entries[k]? := by
  unfold update
  split
  · rw [Table.getElem?_erase]
  · rw [Table.getElem?_insert]

/-- The entries behind a replacement. -/
theorem getElem?_replace (ks : Keyspace) (key k : String) (d : Data) :
    (ks.replace key d).entries[k]? =
      if k = key then if d.isEmpty then none else some ⟨d, none⟩ else ks.entries[k]? := by
  unfold replace
  split
  · rw [Table.getElem?_erase]
  · rw [Table.getElem?_insert]

/-- The entries when a key has got a time of expiry. -/
theorem getElem?_expire (ks : Keyspace) (key : String) (time : Nat) (k : String) :
    (ks.expire key time).entries[k]? =
      if k = key then (ks.entries[k]?).map fun e => { e with expiresAt := some time }
      else ks.entries[k]? := by
  unfold expire
  split
  next e he =>
    rw [Table.getElem?_insert]
    split
    next hk => rw [hk, he, Option.map_some]
    next => rfl
  next hnone =>
    split
    next hk => rw [hk, hnone, Option.map_none]
    next => rfl

@[simp]
theorem now_update (ks : Keyspace) (key : String) (d : Data) : (ks.update key d).now = ks.now := by
  unfold update
  split <;> rfl

@[simp]
theorem now_replace (ks : Keyspace) (key : String) (d : Data) :
    (ks.replace key d).now = ks.now := by
  unfold replace
  split <;> rfl

@[simp]
theorem now_expire (ks : Keyspace) (key : String) (time : Nat) :
    (ks.expire key time).now = ks.now := by
  unfold expire
  split <;> rfl

/-- An update puts a value under its key. -/
theorem puts_update (ks : Keyspace) (key : String) (d : Data) :
    Puts key d ks (ks.update key d) := by
  refine ⟨fun k hk => ?_, now_update ks key d, ?_⟩
  · rw [getElem?_update, if_neg hk]
  · rw [data?, getElem?_update, if_pos rfl]
    split <;> rfl

/-- A replacement puts a value under its key, whatever was there. -/
theorem puts_replace (ks : Keyspace) (key : String) (d : Data) :
    Puts key d ks (ks.replace key d) := by
  refine ⟨fun k hk => ?_, now_replace ks key d, ?_⟩
  · rw [getElem?_replace, if_neg hk]
  · rw [data?, getElem?_replace, if_pos rfl]
    split <;> rfl

namespace Puts

variable {ks' : Keyspace}

/-- What keys hold after a value has been put under one. -/
theorem data?_eq (h : Puts key d ks ks') (k : String) :
    ks'.data? k = if k = key then (if d.isEmpty then none else some d) else ks.data? k := by
  split
  next hk => rw [hk, h.data]
  next hk => rw [data?, data?, h.other k hk]

/-- The members of collections after a value has been put under a key. -/
theorem score?_eq (h : Puts key d ks ks') (k m : String) :
    ks'.score? k m = if k = key then d.score? m else ks.score? k m := by
  unfold score?
  rw [h.data?_eq]
  split
  · -- what is not kept had no members
    split
    next hempty => rw [Data.score?_of_isEmpty hempty]; rfl
    next => rfl
  · rfl

/-- The fields of hashes after a value has been put under a key. -/
theorem field?_eq (h : Puts key d ks ks') (k f : String) :
    ks'.field? k f = if k = key then d.field? f else ks.field? k f := by
  unfold field?
  rw [h.data?_eq]
  split
  · split
    next hempty => rw [Data.field?_of_isEmpty hempty]; rfl
    next => rfl
  · rfl

/-- A key under which a value has been put fits the kind of that value. -/
theorem fits (h : Puts key d ks ks') (hkind : d.kind = kind) : ks'.Fits key kind := by
  intro d' hd'
  rw [h.data] at hd'
  split at hd'
  · cases hd'
  · cases hd'
    exact hkind

end Puts

theorem data?_update (ks : Keyspace) (key k : String) (d : Data) :
    (ks.update key d).data? k =
      if k = key then (if d.isEmpty then none else some d) else ks.data? k :=
  (puts_update ks key d).data?_eq k

theorem score?_update (ks : Keyspace) (key : String) (d : Data) (k m : String) :
    (ks.update key d).score? k m = if k = key then d.score? m else ks.score? k m :=
  (puts_update ks key d).score?_eq k m

theorem score?_replace (ks : Keyspace) (key : String) (d : Data) (k m : String) :
    (ks.replace key d).score? k m = if k = key then d.score? m else ks.score? k m :=
  (puts_replace ks key d).score?_eq k m

theorem field?_update (ks : Keyspace) (key : String) (d : Data) (k f : String) :
    (ks.update key d).field? k f = if k = key then d.field? f else ks.field? k f :=
  (puts_update ks key d).field?_eq k f

theorem data?_delete (ks : Keyspace) (keys : List String) (k : String) :
    (ks.delete keys).data? k = if k ∈ keys then none else ks.data? k := by
  unfold delete data?
  rw [Table.getElem?_eraseAll]
  split <;> rfl

/-- The time of expiry is no part of what a key holds. -/
theorem data?_expire (ks : Keyspace) (key : String) (time : Nat) (k : String) :
    (ks.expire key time).data? k = ks.data? k := by
  rw [data?, data?, getElem?_expire]
  split
  · rw [Option.map_map]
    rfl
  · rfl

/-- Keys that have expired are dropped. -/
theorem getElem?_sweep (ks : Keyspace) (now : Nat) (key : String) :
    (ks.sweep now).entries[key]? = (ks.entries[key]?).filter (isAlive now) :=
  Std.ExtTreeMap.getElem?_filter'

/-- A key that has not expired is not dropped. -/
theorem getElem?_sweep_of_alive {now : Nat}
    (h : ∀ e, ks.entries[key]? = some e → isAlive now e = true) :
    (ks.sweep now).entries[key]? = ks.entries[key]? := by
  rw [getElem?_sweep]
  cases he : ks.entries[key]? with
  | none => rfl
  | some e => rw [Option.filter_some, if_pos (h e he)]

/-- A key that may have expired holds nothing, or what it held. -/
theorem data?_sweep_or (ks : Keyspace) (now : Nat) (key : String) :
    (ks.sweep now).data? key = none ∨ (ks.sweep now).data? key = ks.data? key := by
  unfold data?
  rw [getElem?_sweep]
  cases ks.entries[key]? with
  | none => exact .inl rfl
  | some e =>
    cases halive : isAlive now e with
    | false => exact .inl (by simp [Option.filter, halive])
    | true => exact .inr (by simp [Option.filter, halive])

/-- A key has no time of expiry. -/
def Lasts (ks : Keyspace) (key : String) : Prop :=
  ∀ e, ks.entries[key]? = some e → e.expiresAt = none

theorem Lasts.of_none (h : ks.entries[key]? = none) : ks.Lasts key := by
  intro e he
  rw [h] at he
  cases he

theorem Lasts.of_entries {ks' : Keyspace} (h : ks.Lasts key)
    (hsame : ks'.entries[key]? = ks.entries[key]?) : ks'.Lasts key := by
  intro e he
  rw [hsame] at he
  exact h e he

/-- A key without a time of expiry gets none when something else is put under it. -/
theorem Lasts.update (h : ks.Lasts key) (d : Data) : (ks.update key d).Lasts key := by
  intro e he
  rw [getElem?_update, if_pos rfl] at he
  split at he
  next => cases he
  next =>
    cases he
    exact Option.bind_eq_none_iff.mpr h

/-- A key without a time of expiry is never dropped. -/
theorem Lasts.getElem?_sweep (h : ks.Lasts key) (now : Nat) :
    (ks.sweep now).entries[key]? = ks.entries[key]? :=
  getElem?_sweep_of_alive fun e he => by simp [isAlive, h e he]

/-- While no key has expired, there is nothing to drop. -/
theorem sweep_eq_self (h : ∀ e ∈ ks.entries.toList, isAlive ks.now e.2 = true) :
    ks.sweep ks.now = ks := by
  -- the filter takes out no entry, since each is alive
  have hentries : (ks.sweep ks.now).entries = ks.entries := by
    refine Std.ExtTreeMap.ext_getElem? fun k => getElem?_sweep_of_alive fun e he => ?_
    exact h (k, e) (Std.ExtTreeMap.mem_toList_iff_getElem?_eq_some.mpr he)
  exact congrArg (Keyspace.mk · ks.now) hentries

theorem score?_delete (ks : Keyspace) (keys : List String) (k m : String) :
    (ks.delete keys).score? k m = if k ∈ keys then none else ks.score? k m := by
  unfold score?
  rw [data?_delete]
  split <;> rfl

theorem field?_delete (ks : Keyspace) (keys : List String) (k f : String) :
    (ks.delete keys).field? k f = if k ∈ keys then none else ks.field? k f := by
  unfold field?
  rw [data?_delete]
  split <;> rfl

/-- What a key holds decides what its members are. -/
theorem has_of_data?_eq {ks' : Keyspace} (h : ks'.data? k = ks.data? k) (m : String) :
    ks'.Has k m ↔ ks.Has k m := by
  unfold Has score?
  rw [h]

/-- What a key holds decides which kind it fits. -/
theorem Fits.of_data?_eq {ks' : Keyspace} (h : ks'.data? k = ks.data? k) (hfits : ks.Fits k kind) :
    ks'.Fits k kind := by
  intro d hd
  rw [h] at hd
  exact hfits d hd

/-- A key that holds nothing fits every kind. -/
theorem Fits.of_none (h : ks.data? key = none) : ks.Fits key kind := by
  intro d hd
  rw [h] at hd
  cases hd

/-- A deletion keeps the kinds of all keys. -/
theorem Fits.delete (h : ks.Fits k kind) (keys : List String) : (ks.delete keys).Fits k kind := by
  intro d hd
  rw [data?_delete] at hd
  split at hd
  · cases hd
  · exact h d hd

/-- A key that fits the kind of sets reads as a set. -/
theorem Fits.set? (h : ks.Fits key .set) :
    ∃ s, ks.set? key = .ok s ∧ ∀ m, ks.score? key m = if m ∈ s.getD ∅ then some .one else none := by
  unfold Keyspace.set? score?
  cases hd : ks.data? key with
  | none => exact ⟨none, rfl, by simp⟩
  | some d =>
    have hkind := h d hd
    cases d <;> simp_all [Data.kind, Data.score?]

/-- A key that fits the kind of sorted sets reads as a sorted set. -/
theorem Fits.sortedSet? (h : ks.Fits key .sortedSet) :
    ∃ z, ks.sortedSet? key = .ok z ∧ ∀ m, ks.score? key m = (z.getD ∅)[m]? := by
  unfold Keyspace.sortedSet? score?
  cases hd : ks.data? key with
  | none => exact ⟨none, rfl, by simp⟩
  | some d =>
    have hkind := h d hd
    cases d <;> simp_all [Data.kind, Data.score?]

/-- A key that fits the kind of lists reads as a list. -/
theorem Fits.list? (h : ks.Fits key .list) : ∃ l, ks.list? key = .ok l := by
  unfold Keyspace.list?
  cases hd : ks.data? key with
  | none => exact ⟨none, rfl⟩
  | some d =>
    have hkind := h d hd
    cases d <;> simp_all [Data.kind]

/-- A key that fits the kind of hashes reads as a hash. -/
theorem Fits.hash? (h : ks.Fits key .hash) :
    ∃ t, ks.hash? key = .ok t ∧ (t = none ↔ ks.data? key = none) ∧
      ∀ f, ks.field? key f = (t.getD ∅)[f]? := by
  unfold Keyspace.hash? field?
  cases hd : ks.data? key with
  | none => exact ⟨none, rfl, by simp, by simp⟩
  | some d =>
    have hkind := h d hd
    cases d <;> simp_all [Data.kind, Data.field?]

/-- A key with a field holds a hash. -/
theorem exists_hash_of_field? {f raw : String} (h : ks.field? key f = some raw) :
    ∃ t, ks.hash? key = .ok (some t) ∧ ∀ name, t[name]? = ks.field? key name := by
  obtain ⟨d, hd, hfield⟩ := Option.bind_eq_some_iff.mp h
  unfold Keyspace.hash? field?
  rw [hd]
  cases d with
  | hash t => exact ⟨t, rfl, fun name => rfl⟩
  | _ => cases hfield

/-- A key is read as a hash if it holds one. -/
theorem hash?_eq_some_iff {t : Table String} :
    ks.hash? key = .ok (some t) ↔ ks.data? key = some (.hash t) := by
  unfold hash?
  split
  next hdata => simp [hdata]
  next hdata => simp [hdata]
  next d hother hdata =>
    refine ⟨nofun, fun h => ?_⟩
    exact absurd (Option.some.inj (hdata.symm.trans h)) (hother t)

/-- A key that holds a hash has the fields of it. -/
theorem field?_of_hash? {t : Table String} (h : ks.hash? key = .ok (some t)) (f : String) :
    ks.field? key f = t[f]? := by
  rw [field?, hash?_eq_some_iff.mp h]
  rfl

/-- A key that fits the kind of hashes has no members. -/
theorem Fits.score?_eq_none (h : ks.Fits key kind) (hset : kind ≠ .set)
    (hsorted : kind ≠ .sortedSet) (m : String) : ks.score? key m = none := by
  unfold score?
  cases hd : ks.data? key with
  | none => rfl
  | some d =>
    have hkind := h d hd
    cases d <;> simp_all [Data.kind, Data.score?]

/-- A key that fits another kind than that of hashes has no fields. -/
theorem Fits.field?_eq_none (h : ks.Fits key kind) (hhash : kind ≠ .hash) (f : String) :
    ks.field? key f = none := by
  unfold field?
  cases hd : ks.data? key with
  | none => rfl
  | some d =>
    have hkind := h d hd
    cases d <;> simp_all [Data.kind, Data.field?]

/-- Nothing but one key has changed, and that key holds nothing but a value of a kind. -/
structure ChangedAt (key : String) (kind : DataKind) (ks ks' : Keyspace) : Prop where
  /-- All other keys have their entries still. -/
  other : ∀ k, k ≠ key → ks'.entries[k]? = ks.entries[k]?
  /-- No time has passed. -/
  now : ks'.now = ks.now
  /-- The key holds what it should. -/
  fits : ks'.Fits key kind

namespace ChangedAt

variable {ks' : Keyspace}

/-- A key space that has not changed at all. -/
theorem refl (h : ks.Fits key kind) : ChangedAt key kind ks ks := ⟨fun _ _ => rfl, rfl, h⟩

/-- Putting a value under a key changes one key. -/
theorem of_puts (h : Puts key d ks ks') (hkind : d.kind = kind) : ChangedAt key kind ks ks' :=
  ⟨h.other, h.now, h.fits hkind⟩

theorem update (ks : Keyspace) (hkind : d.kind = kind) :
    ChangedAt key kind ks (ks.update key d) :=
  of_puts (puts_update ks key d) hkind

theorem replace (ks : Keyspace) (hkind : d.kind = kind) :
    ChangedAt key kind ks (ks.replace key d) :=
  of_puts (puts_replace ks key d) hkind

/-- A key that is to expire keeps what it holds. -/
theorem expire (h : ks.Fits key kind) (time : Nat) :
    ChangedAt key kind ks (ks.expire key time) := by
  refine ⟨fun k hk => ?_, now_expire ks key time, fun d' hd' => ?_⟩
  · rw [getElem?_expire, if_neg hk]
  · rw [data?_expire] at hd'
    exact h d' hd'

/-- Two changes of one key are one change of it. -/
theorem trans {ks'' : Keyspace} {kind' : DataKind} (h : ChangedAt key kind ks ks')
    (h' : ChangedAt key kind' ks' ks'') : ChangedAt key kind' ks ks'' :=
  ⟨fun k hk => (h'.other k hk).trans (h.other k hk), h'.now.trans h.now, h'.fits⟩

/-- All other keys hold what they held. -/
theorem data? (h : ChangedAt key kind ks ks') (hk : k ≠ key) : ks'.data? k = ks.data? k := by
  unfold Keyspace.data?
  rw [h.other k hk]

/-- All other collections have their members still. -/
theorem score? (h : ChangedAt key kind ks ks') (hk : k ≠ key) (m : String) :
    ks'.score? k m = ks.score? k m := by
  unfold Keyspace.score?
  rw [h.data? hk]

/-- All other hashes have their fields still. -/
theorem field? (h : ChangedAt key kind ks ks') (hk : k ≠ key) (f : String) :
    ks'.field? k f = ks.field? k f := by
  unfold Keyspace.field?
  rw [h.data? hk]

/-- Other keys keep their kinds. -/
theorem fits_of {kind' : DataKind} (h : ChangedAt key kind ks ks') (hfits : ks.Fits k kind')
    (hk : k = key → kind = kind') : ks'.Fits k kind' := by
  by_cases hkey : k = key
  · obtain rfl := hk hkey
    rw [hkey]
    exact h.fits
  · intro d hd
    rw [h.data? hkey] at hd
    exact hfits d hd

end ChangedAt

end Keyspace

end KeyedRecords

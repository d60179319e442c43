import KeyedRecords.Proofs.Keyed
import KeyedRecords.Proofs.Result
import KeyedRecords.Query.Basic

/-!
# Merging criteria

Criteria are merged twice: by key while a query is built, and by field when its tree is made. A
merge keeps all keys and of equal values one (`Criteria.Merged`). Equal values need not be stored as
one text, since both zeros are equal. What is kept stands for everything that was asked only if
equal values of a field are stored alike, or were all in the first criterion on the field, of which
nothing is dropped (`Criteria.StoredAlike`).
-/

namespace KeyedRecords

/-- A double that equals another is the same, unless it is zero. -/
theorem Double.eq_of_beq {x y : Double} (h : (x == y) = true) (hx : x.magnitude ≠ 0) : x = y := by
  have hparts : (!x.isNaN && (x.bits == y.bits || (x.magnitude == 0 && y.magnitude == 0))) = true :=
    h
  simp only [Bool.and_eq_true, Bool.or_eq_true, beq_iff_eq] at hparts
  -- two doubles are equal if they have the same bits, or if both are zeros
  rcases hparts.2 with hbits | hzero
  · exact congrArg Double.mk hbits
  · exact absurd hzero.1 hx

/-- A value that equals another is the same, unless it is zero or a document. -/
theorem Value.eq_of_beq {v w : Value} (h : (v == w) = true)
    (hzero : ∀ x, v = .float x → x.magnitude ≠ 0) (hjson : ∀ d, v ≠ .json d) : v = w := by
  cases v with
  | null => cases w <;> first | rfl | cases h
  | bool b =>
    cases w with
    | bool b' => exact congrArg Value.bool (beq_iff_eq.mp h)
    | _ => cases h
  | int n =>
    cases w with
    | int n' => exact congrArg Value.int (beq_iff_eq.mp h)
    | _ => cases h
  | float x =>
    cases w with
    | float y => exact congrArg Value.float (Double.eq_of_beq h (hzero x rfl))
    | _ => cases h
  | text s =>
    cases w with
    | text s' => exact congrArg Value.text (beq_iff_eq.mp h)
    | _ => cases h
  | bytes data =>
    cases w with
    | bytes data' => exact congrArg Value.bytes (beq_iff_eq.mp h)
    | _ => cases h
  | json d => exact absurd rfl (hjson d)

namespace Criteria

variable {c all kept : Criteria} {key k : String} {v w : Value} {values more : List Value}

/-- A value is listed under a key. -/
def Lists (c : Criteria) (key : String) (v : Value) : Prop :=
  ∃ values, (key, values) ∈ c ∧ v ∈ values

/-- A value is listed where a key occurs first. -/
def Begins (c : Criteria) (key : String) (v : Value) : Prop :=
  ∃ values, c.find? (·.1 == key) = some (key, values) ∧ v ∈ values

/-- The keys of criteria. -/
def keys (c : Criteria) : List String := c.map Prod.fst

/-- Criteria whose keys are the fields that were meant. -/
def byField (c : Criteria) : Criteria := c.map fun e => ((Lookup.read e.1).field, e.2)

/-- A value or one that is equal to it. -/
def Covers (w v : Value) : Prop := v = w ∨ (v == w) = true

theorem addMissing_cons (values : List Value) (u : Value) (rest : List Value) :
    addMissing values (u :: rest) =
      addMissing (if values.contains u then values else values ++ [u]) rest := rfl

theorem mem_of_mem_addMissing (h : v ∈ addMissing values more) : v ∈ values ∨ v ∈ more := by
  induction more generalizing values with
  | nil => exact .inl h
  | cons u rest ih =>
    rw [addMissing_cons] at h
    rw [List.mem_cons]
    rcases ih h with h | h
    · split at h
      · exact .inl h
      · exact (List.mem_append.mp h).imp_right fun hu => .inl (List.mem_singleton.mp hu)
    · exact .inr (.inr h)

theorem mem_addMissing_of_mem (h : v ∈ values) : v ∈ addMissing values more := by
  induction more generalizing values with
  | nil => exact h
  | cons u rest ih =>
    rw [addMissing_cons]
    refine ih ?_
    split
    · exact h
    · exact List.mem_append_left _ h

/-- A value that is not added is equal to one that is there. -/
theorem exists_mem_addMissing (h : v ∈ more) : ∃ w ∈ addMissing values more, Covers w v := by
  induction more generalizing values with
  | nil => cases h
  | cons u rest ih =>
    rw [addMissing_cons]
    rcases List.mem_cons.mp h with rfl | h
    -- the value is left out only if an equal one is there
    · split
      next hv =>
        obtain ⟨w, hw, hequal⟩ := List.contains_iff_exists_mem_beq.mp hv
        exact ⟨w, mem_addMissing_of_mem hw, .inr hequal⟩
      next => exact ⟨v, mem_addMissing_of_mem (by simp), .inl rfl⟩
    · exact ih h

/-- A merge adds one key at most. -/
theorem keys_merge (key : String) (values : List Value) (c : Criteria) :
    (c.merge key values).keys = if key ∈ c.keys then c.keys else c.keys ++ [key] := by
  induction c with
  | nil => rfl
  | cons e rest ih =>
    obtain ⟨k, vs⟩ := e
    unfold merge
    by_cases hk : k = key
    · simp [hk, keys]
    · have hne : ¬key = k := fun h => hk h.symm
      rw [if_neg hk]
      simp only [keys, List.map_cons, List.mem_cons, hne, false_or] at ih ⊢
      rw [ih]
      split <;> simp [*]

/-- What a merge lists was listed, or has been merged. -/
theorem lists_of_lists_merge (h : (c.merge key values).Lists k v) :
    c.Lists k v ∨ (k = key ∧ v ∈ values) := by
  obtain ⟨vs, hmem, hv⟩ := h
  induction c with
  | nil =>
    obtain ⟨rfl, rfl⟩ := Prod.mk.inj (List.mem_singleton.mp hmem)
    exact .inr ⟨rfl, hv⟩
  | cons e rest ih =>
    obtain ⟨k', vs'⟩ := e
    unfold merge at hmem
    split at hmem
    next hk =>
      rcases List.mem_cons.mp hmem with heq | hmem
      · obtain ⟨rfl, rfl⟩ := Prod.mk.inj heq
        rcases mem_of_mem_addMissing hv with hv | hv
        · exact .inl ⟨vs', List.mem_cons_self, hv⟩
        · exact .inr ⟨hk, hv⟩
      · exact .inl ⟨vs, List.mem_cons_of_mem _ hmem, hv⟩
    next hk =>
      rcases List.mem_cons.mp hmem with heq | hmem
      · obtain ⟨rfl, rfl⟩ := Prod.mk.inj heq
        exact .inl ⟨vs, List.mem_cons_self, hv⟩
      · exact (ih hmem).imp_left fun ⟨vs, hvs, hv⟩ => ⟨vs, List.mem_cons_of_mem _ hvs, hv⟩

/-- What was listed is still listed after a merge. -/
theorem lists_merge_of_lists (h : c.Lists k v) : (c.merge key values).Lists k v := by
  obtain ⟨vs, hmem, hv⟩ := h
  induction c with
  | nil => cases hmem
  | cons e rest ih =>
    obtain ⟨k', vs'⟩ := e
    unfold merge
    split
    next hk =>
      rcases List.mem_cons.mp hmem with heq | hmem
      · obtain ⟨rfl, rfl⟩ := Prod.mk.inj heq
        exact ⟨_, List.mem_cons_self, mem_addMissing_of_mem hv⟩
      · exact ⟨vs, List.mem_cons_of_mem _ hmem, hv⟩
    next hk =>
      rcases List.mem_cons.mp hmem with heq | hmem
      · obtain ⟨rfl, rfl⟩ := Prod.mk.inj heq
        exact ⟨vs, List.mem_cons_self, hv⟩
      · obtain ⟨vs, hvs, hv⟩ := ih hmem
        exact ⟨vs, List.mem_cons_of_mem _ hvs, hv⟩

/-- What is merged is listed afterwards, or a value that is equal to it. -/
theorem exists_lists_merge (h : v ∈ values) :
    ∃ w, (c.merge key values).Lists key w ∧ Covers w v := by
  induction c with
  | nil => exact ⟨v, ⟨values, List.mem_singleton_self _, h⟩, .inl rfl⟩
  | cons e rest ih =>
    obtain ⟨k, vs⟩ := e
    unfold merge
    split
    next hk =>
      obtain ⟨w, hw, hcovers⟩ : ∃ w ∈ addMissing vs values, Covers w v := exists_mem_addMissing h
      exact ⟨w, ⟨_, hk ▸ List.mem_cons_self, hw⟩, hcovers⟩
    next hk =>
      obtain ⟨w, ⟨vs', hvs', hw⟩, hcovers⟩ := ih
      exact ⟨w, ⟨vs', List.mem_cons_of_mem _ hvs', hw⟩, hcovers⟩

/-- A merge leaves an entry where it is, with all its values. -/
theorem find?_merge_of_some {p : String → Bool} (key : String) (more : List Value)
    (h : c.find? (p ·.1) = some (k, values)) :
    ∃ vs, (c.merge key more).find? (p ·.1) = some (k, vs) ∧ values ⊆ vs := by
  induction c with
  | nil => cases h
  | cons e rest ih =>
    obtain ⟨k', vs'⟩ := e
    unfold merge
    rw [List.find?_cons] at h
    cases hp : p k' with
    | true =>
      simp only [hp, Option.some.injEq] at h
      cases h
      split
      · exact ⟨_, by rw [List.find?_cons, hp], fun _ => mem_addMissing_of_mem⟩
      · exact ⟨_, by rw [List.find?_cons, hp], fun _ hv => hv⟩
    | false =>
      simp only [hp] at h
      split
      · exact ⟨values, by rw [List.find?_cons, hp, h], fun _ hv => hv⟩
      · simp only [List.find?_cons, hp]
        exact ih h

/-- The first values that are merged for a key are all kept. -/
theorem find?_merge_of_none {p : String → Bool} (h : c.find? (p ·.1) = none) (hp : p key = true) :
    (c.merge key values).find? (p ·.1) = some (key, values) := by
  induction c with
  | nil =>
    unfold merge
    rw [List.find?_cons, hp]
  | cons e rest ih =>
    obtain ⟨k, vs⟩ := e
    have hneg : ¬p k = true := List.find?_eq_none.mp h (k, vs) List.mem_cons_self
    have hne : k ≠ key := fun hk => hneg (hk ▸ hp)
    have hrest : rest.find? (p ·.1) = none := by
      rw [List.find?_eq_none] at h ⊢
      intro e he
      exact h e (List.mem_cons_of_mem _ he)
    unfold merge
    rw [if_neg hne, List.find?_cons, Bool.eq_false_iff.mpr hneg]
    exact ih hrest

/-- Criteria are what merging makes of others, one after another. -/
structure Merged (all kept : Criteria) : Prop where
  /-- Every key is there once. -/
  distinct : kept.keys.Nodup
  /-- No key is lost. -/
  keys : ∀ k, k ∈ kept.keys ↔ k ∈ all.keys
  /-- No value is made up. -/
  sub : ∀ k v, kept.Lists k v → all.Lists k v
  /-- A value that is lost is equal to one that is kept. -/
  cover : ∀ k v, all.Lists k v → ∃ w, kept.Lists k w ∧ Covers w v
  /-- Keys stay in order, and no value that a key came with is lost. -/
  first : ∀ (p : String → Bool) (k : String) (values : List Value),
    all.find? (p ·.1) = some (k, values) →
      ∃ vs, kept.find? (p ·.1) = some (k, vs) ∧ values ⊆ vs

/-- There is nothing to merge. -/
theorem Merged.nil : Merged [] [] :=
  ⟨.nil, fun _ => .rfl, fun _ _ h => h, fun _ v h => ⟨v, h, .inl rfl⟩, fun _ _ _ h => nomatch h⟩

/-- One more merge loses none of the values that a key came with. -/
theorem Merged.find?_merge (h : Merged all kept) (key : String) (values : List Value)
    {p : String → Bool} {vs : List Value}
    (hfirst : (all ++ [(key, values)]).find? (p ·.1) = some (k, vs)) :
    ∃ vs', (kept.merge key values).find? (p ·.1) = some (k, vs') ∧ vs ⊆ vs' := by
  rw [List.find?_append] at hfirst
  cases hall : all.find? (p ·.1) with
  | some e =>
    rw [hall] at hfirst
    cases hfirst
    obtain ⟨vs', hkept, hsub⟩ := h.first p k vs hall
    obtain ⟨vs'', hmerge, hsub'⟩ := find?_merge_of_some key values hkept
    exact ⟨vs'', hmerge, fun v hv => hsub' (hsub hv)⟩
  | none =>
    rw [hall] at hfirst
    rw [Option.none_or] at hfirst
    obtain ⟨rfl, rfl⟩ := Prod.mk.inj (List.mem_singleton.mp (List.mem_of_find?_eq_some hfirst))
    -- the new key is the first one, so no entry before it is changed
    have hp : p k = true := by simpa using hfirst
    refine ⟨vs, find?_merge_of_none ?_ hp, fun _ hv => hv⟩
    rw [List.find?_eq_none] at hall ⊢
    intro e he hp
    obtain ⟨e', he', hkey⟩ := List.mem_map.mp ((h.keys e.1).mp (List.mem_map_of_mem he))
    exact hall e' he' (hkey ▸ hp)

/-- One more merge. -/
theorem Merged.merge (h : Merged all kept) (key : String) (values : List Value) :
    Merged (all ++ [(key, values)]) (kept.merge key values) := by
  constructor
  case distinct =>
    rw [keys_merge]
    split
    · exact h.distinct
    next hnew =>
      refine List.nodup_append.mpr ⟨h.distinct, by simp, fun a ha b hb heq => ?_⟩
      rw [List.mem_singleton.mp hb] at heq
      exact hnew (heq ▸ ha)
  case keys =>
    intro k
    have hall : k ∈ (all ++ [(key, values)]).keys ↔ k ∈ all.keys ∨ k = key := by
      simp [Criteria.keys]
    rw [hall, keys_merge, ← h.keys k]
    split
    next hkey =>
      refine ⟨.inl, fun hk => hk.elim id ?_⟩
      rintro rfl
      exact hkey
    next => simp
  case sub =>
    intro k v hv
    rcases lists_of_lists_merge hv with hv | ⟨rfl, hvalues⟩
    · obtain ⟨vs, hvs, hv⟩ := h.sub k v hv
      exact ⟨vs, List.mem_append_left _ hvs, hv⟩
    · exact ⟨values, List.mem_append_right _ (List.mem_singleton_self _), hvalues⟩
  case cover =>
    rintro k v ⟨vs, hvs, hv⟩
    rcases List.mem_append.mp hvs with hvs | hvs
    · obtain ⟨w, hw, hcovers⟩ := h.cover k v ⟨vs, hvs, hv⟩
      exact ⟨w, lists_merge_of_lists hw, hcovers⟩
    · obtain ⟨rfl, rfl⟩ := Prod.mk.inj (List.mem_singleton.mp hvs)
      exact exists_lists_merge hv
  case first =>
    intro p k vs hfirst
    exact h.find?_merge key values hfirst

theorem mem_keys_byField : k ∈ c.byField.keys ↔ ∃ key ∈ c.keys, (Lookup.read key).field = k := by
  simp [keys, byField]

theorem lists_byField :
    c.byField.Lists k v ↔ ∃ key, (Lookup.read key).field = k ∧ c.Lists key v := by
  constructor
  · rintro ⟨values, hmem, hv⟩
    obtain ⟨e, he, heq⟩ := List.mem_map.mp hmem
    obtain ⟨rfl, rfl⟩ := Prod.mk.inj heq
    exact ⟨e.1, rfl, e.2, he, hv⟩
  · rintro ⟨key, rfl, values, hmem, hv⟩
    exact ⟨values, List.mem_map_of_mem hmem, hv⟩

/-- The values of a field that are equal are stored as one text, or the first criterion on the field
has them all. -/
def StoredAlike (l : Layout) (c : Criteria) : Prop :=
  ∀ f ∈ l.fields, ∀ v w, c.byField.Lists f.name v → c.byField.Lists f.name w → (v == w) = true →
    f.kind.encode v = f.kind.encode w ∨ (c.byField.Begins f.name v ∧ c.byField.Begins f.name w)

theorem Begins.lists (h : c.Begins k v) : c.Lists k v := by
  obtain ⟨values, hfind, hv⟩ := h
  exact ⟨values, List.mem_of_find?_eq_some hfind, hv⟩

/-- Without zeros and documents, values that are equal are the same. -/
theorem storedAlike_of_plain (l : Layout) (hzero : ∀ k x, c.byField.Lists k (.float x) →
    x.magnitude ≠ 0) (hjson : ∀ k d, ¬c.byField.Lists k (.json d)) : c.StoredAlike l := by
  intro f _ v w hv _ hequal
  have hsame : v = w := by
    refine Value.eq_of_beq hequal ?_ ?_
    · rintro x rfl
      exact hzero _ x hv
    · rintro d rfl
      exact hjson _ d hv
  exact .inl (by rw [hsame])

/-- If every field is named once, nothing is merged. -/
theorem storedAlike_of_nodup (l : Layout) (h : c.byField.keys.Nodup) : c.StoredAlike l := by
  -- the one criterion on a field is the first one
  have hbegins : ∀ k v, c.byField.Lists k v → c.byField.Begins k v := by
    rintro k v ⟨values, hmem, hv⟩
    exact ⟨values, (find?_eq_some_iff_of_nodup h).mpr ⟨hmem, rfl⟩, hv⟩
  intro f _ v w hv hw _
  exact .inr ⟨hbegins _ v hv, hbegins _ w hw⟩

namespace Merged

variable {grouped : Criteria} {l : Layout} {f : Field}

/-- Each entry has all values of its key. -/
theorem mem_iff_lists (h : Merged all kept) {e : String × List Value} (he : e ∈ kept) :
    v ∈ e.2 ↔ kept.Lists e.1 v := by
  constructor
  · intro hv
    exact ⟨e.2, he, hv⟩
  · rintro ⟨values, hmem, hv⟩
    have hsame : (e.1, values) = e := List.inj_on_of_nodup_map h.distinct hmem he rfl
    rwa [← hsame]

/-- What a key came with is kept. -/
theorem begins (h : Merged all kept) (hv : all.Begins k v) : kept.Begins k v := by
  obtain ⟨values, hfind, hv⟩ := hv
  obtain ⟨vs, hkept, hsub⟩ := h.first (· == k) k values hfind
  exact ⟨vs, hkept, hsub hv⟩

/-- What a field came with is kept. -/
theorem begins_byField (h : Merged all kept) (hv : all.byField.Begins k v) :
    kept.byField.Begins k v := by
  obtain ⟨values, hfind, hv⟩ := hv
  unfold byField at hfind
  rw [List.find?_map] at hfind
  obtain ⟨e, he, heq⟩ := Option.map_eq_some_iff.mp hfind
  obtain ⟨hkey, hvalues⟩ := Prod.mk.inj heq
  obtain ⟨vs, hkept, hsub⟩ := h.first (fun key => (Lookup.read key).field == k) e.1 e.2 he
  refine ⟨vs, ?_, hsub (hvalues ▸ hv)⟩
  unfold byField
  rw [List.find?_map]
  refine Option.map_eq_some_iff.mpr ⟨(e.1, vs), hkept, ?_⟩
  rw [hkey]

/-- Merging by key and then by field loses no field. -/
theorem mem_keys_grouped (h : Merged all kept) (h' : Merged kept.byField grouped) :
    k ∈ grouped.keys ↔ k ∈ all.byField.keys := by
  simp only [h'.keys, mem_keys_byField, h.keys]

/-- Merging by key and then by field loses no text of a field, if equal values are stored alike. -/
theorem exists_text_iff (h : Merged all kept) (h' : Merged kept.byField grouped)
    (halike : all.StoredAlike l) (hf : f ∈ l.fields) {raw : String} :
    (∃ v, grouped.Lists f.name v ∧ f.kind.encode v = some raw) ↔
      ∃ v, all.byField.Lists f.name v ∧ f.kind.encode v = some raw := by
  -- what either merge keeps has been asked for
  have hkept : ∀ v, kept.byField.Lists f.name v → all.byField.Lists f.name v := by
    intro v hv
    obtain ⟨key, hkey, hv⟩ := lists_byField.mp hv
    exact lists_byField.mpr ⟨key, hkey, h.sub key v hv⟩
  have hgrouped : ∀ v, grouped.Lists f.name v → all.byField.Lists f.name v :=
    fun v hv => hkept v (h'.sub _ v hv)
  have hbegins : ∀ v, all.byField.Begins f.name v → grouped.Lists f.name v :=
    fun v hv => (h'.begins (h.begins_byField hv)).lists
  -- a value is itself kept if the one that covers it is stored as another text
  have hcovers : ∀ w v, all.byField.Lists f.name w → all.byField.Lists f.name v → Covers w v →
      f.kind.encode w = f.kind.encode v ∨ grouped.Lists f.name v := by
    rintro w v hw hv (rfl | hequal)
    · exact .inl rfl
    · exact (halike f hf v w hv hw hequal).imp Eq.symm fun hfirst => hbegins v hfirst.1
  constructor
  · rintro ⟨v, hv, hraw⟩
    exact ⟨v, hgrouped v hv, hraw⟩
  · rintro ⟨v, hv, hraw⟩
    obtain ⟨key, hkey, hlisted⟩ := lists_byField.mp hv
    obtain ⟨w, hw, hwv⟩ := h.cover key v hlisted
    have hw := lists_byField.mpr ⟨key, hkey, hw⟩
    obtain ⟨u, hu, huw⟩ := h'.cover _ w hw
    rcases hcovers w v (hkept w hw) hv hwv with hsame | hthere
    · rcases hcovers u w (hgrouped u hu) (hkept w hw) huw with hsame' | hthere
      · exact ⟨u, hu, by rw [hsame', hsame, hraw]⟩
      · exact ⟨w, hthere, by rw [hsame, hraw]⟩
    · exact ⟨v, hthere, hraw⟩

end Merged

variable {ε : Type} {t : QueryTerms ε}

theorem criterionField_ok {field : String} (h : t.criterionField key = .ok field) :
    field = (Lookup.read key).field ∧ ∃ f, t.layout.queryableField field = .ok f := by
  unfold QueryTerms.criterionField at h
  dsimp only at h
  split at h
  · cases h
  · obtain ⟨f, hf, rfl⟩ := map_ok_iff.mp h
    exact ⟨rfl, f, hf⟩

/-- Criteria that are grouped are merged by field, and every field can be asked for. -/
theorem group_ok {grouped grouped' : Criteria} (hmerged : Merged all grouped)
    (h : t.group grouped c = .ok grouped') :
    Merged (all ++ c.byField) grouped' ∧
      ∀ k ∈ c.byField.keys, ∃ f, t.layout.queryableField k = .ok f := by
  induction c generalizing all grouped with
  | nil =>
    cases h
    exact ⟨by simpa [byField] using hmerged, by simp [byField, keys]⟩
  | cons e rest ih =>
    obtain ⟨field, hfield, h⟩ := bind_ok_iff.mp h
    obtain ⟨rfl, hf⟩ := criterionField_ok hfield
    obtain ⟨hrest, hfields⟩ := ih (hmerged.merge _ e.2) h
    refine ⟨by simpa [byField] using hrest, fun k hk => ?_⟩
    rcases List.mem_cons.mp hk with rfl | hk
    · exact hf
    · exact hfields k hk

end Criteria

end KeyedRecords

import KeyedRecords.Proofs.Model.Keys
import KeyedRecords.Proofs.Model.Layout
import KeyedRecords.Session.Store
import Mathlib.Data.List.Nodup

/-!
# What a catalog guarantees

The layouts of a catalog that models have been registered with are well formed, and no two of them
share a key (`Catalog.Registered.eq_of_keys_eq`).
-/

namespace KeyedRecords

namespace Catalog

/-- A catalog that models have been registered with. -/
inductive Registered : Catalog → Prop
  | empty (config : Config) : Registered ⟨config, []⟩
  | register {c c' : Catalog} {s : Schema} {l : Layout} (h : Registered c)
    (hs : c.register s = .ok (l, c')) : Registered c'

variable {c c' : Catalog} {s : Schema} {l l' : Layout}

/-- A registration changes nothing, or adds the layout of a model with a new name. -/
theorem register_ok (h : c.register s = .ok (l, c')) :
    c' = c ∨ (s.layout c.config.space = .ok l ∧ (∀ l' ∈ c.layouts, l'.name ≠ l.name) ∧
      c' = { c with layouts := c.layouts ++ [l] }) := by
  unfold register at h
  split at h
  next =>
    cases h
    exact .inl rfl
  next =>
    split at h
    next => cases h
    next l₁ hl =>
      split at h
      next => cases h
      next hnew =>
        cases h
        refine .inr ⟨hl, fun l' hl' hname => hnew ?_, rfl⟩
        have hs : l.name = s.name := congrArg ModelTag.name (Schema.layout_ok hl).tag
        exact List.find?_isSome.mpr ⟨l', hl', by simp [hname, hs]⟩

namespace Registered

/-- A model can be registered if it is declared well and none has its name. -/
theorem append (h : Registered c) (hs : s.layout c.config.space = .ok l)
    (hnew : ∀ l' ∈ c.layouts, l'.name ≠ l.name) :
    Registered { c with layouts := c.layouts ++ [l] } := by
  have htag : l.tag = s.toModelTag := (Schema.layout_ok hs).tag
  have hname : c.byName? s.name = none := by
    refine List.find?_eq_none.mpr fun l' hl' heq => hnew l' hl' ?_
    rw [eq_of_beq heq, Layout.name, htag]
  have hfind : c.find? s.toModelTag = none := by
    refine List.find?_eq_none.mpr fun l' hl' heq => hnew l' hl' ?_
    rw [Layout.name, eq_of_beq heq, Layout.name, htag]
  refine .register h (s := s) (l := l) ?_
  simp [Catalog.register, hname, hfind, hs]

/-- So can one model by itself. -/
theorem singleton (hc : c.layouts = [l]) (h : s.layout c.config.space = .ok l) : Registered c := by
  obtain ⟨config, layouts⟩ := c
  obtain rfl : layouts = [l] := hc
  exact (Registered.empty config).append h (List.forall_mem_nil _)

/-- Every layout of the catalog is that of a declaration. -/
theorem exists_schema (h : Registered c) (hl : l ∈ c.layouts) :
    ∃ s : Schema, s.layout c.config.space = .ok l := by
  induction h with
  | empty => cases hl
  | @register c c' s l₁ _ hs ih =>
    obtain rfl | ⟨hlayout, -, rfl⟩ := register_ok hs
    · exact ih hl
    · rcases List.mem_append.mp hl with hl | hl
      · exact ih hl
      · obtain rfl := List.mem_singleton.mp hl
        exact ⟨s, hlayout⟩

theorem wellFormed (h : Registered c) (hl : l ∈ c.layouts) : l.WellFormed := by
  obtain ⟨s, hs⟩ := h.exists_schema hl
  exact Schema.layout_wellFormed hs

/-- The keys of a layout are those of its name. -/
theorem keys_eq (h : Registered c) (hl : l ∈ c.layouts) :
    l.keys = .ofModel c.config.space l.name := by
  obtain ⟨s, hs⟩ := h.exists_schema hl
  rw [(Schema.layout_ok hs).keys, Layout.name, (Schema.layout_ok hs).tag]

/-- No model has a colon in its name. -/
theorem colon_not_mem (h : Registered c) (hl : l ∈ c.layouts) : ':' ∉ l.name.toList := by
  obtain ⟨s, hs⟩ := h.exists_schema hl
  rw [Layout.name, (Schema.layout_ok hs).tag]
  exact colon_not_mem_of_isKeyName (Schema.layout_ok hs).name

/-- No two models have one name. -/
theorem nodup_names (h : Registered c) : (c.layouts.map (·.name)).Nodup := by
  induction h with
  | empty => exact .nil
  | @register c c' s l₁ _ hs ih =>
    obtain rfl | ⟨-, hnew, rfl⟩ := register_ok hs
    · exact ih
    · rw [List.map_append, List.nodup_append']
      refine ⟨ih, List.nodup_singleton _, fun name hname hname' => ?_⟩
      obtain ⟨l', hl', rfl⟩ := List.mem_map.mp hname
      exact hnew l' hl' (List.mem_singleton.mp hname')

/-- No two models share keys. -/
theorem eq_of_keys_eq (h : Registered c) (hl : l ∈ c.layouts) (hl' : l' ∈ c.layouts)
    (hkeys : l.keys = l'.keys) : l = l' := by
  rw [h.keys_eq hl, h.keys_eq hl', ModelKeys.ofModel, ModelKeys.ofModel,
    ModelKeys.mk.injEq] at hkeys
  have hname : l.name = l'.name := by
    have hlists := congrArg String.toList hkeys
    rw [String.toList_append, String.toList_append, List.append_cancel_left_eq] at hlists
    exact String.toList_inj.mp hlists
  exact List.inj_on_of_nodup_map h.nodup_names hl hl' hname

/-- No key belongs to two models. -/
theorem eq_of_owns (h : Registered c) (hl : l ∈ c.layouts) (hl' : l' ∈ c.layouts) {key : String}
    (hkey : l.keys.Owns key) (hkey' : l'.keys.Owns key) : l = l' := by
  rw [h.keys_eq hl] at hkey
  rw [h.keys_eq hl'] at hkey'
  have hname := ModelKeys.eq_of_owns (h.colon_not_mem hl) (h.colon_not_mem hl') hkey hkey'
  exact List.inj_on_of_nodup_map h.nodup_names hl hl' hname

end Registered

end Catalog

/-- The catalog of a store is made by registering its models. -/
theorem Store.registered_of_build {config : Config} {sessionConfig : SessionConfig}
    {schemas : List Schema} {store : Store}
    (h : Store.build config sessionConfig schemas = .ok store) : store.catalog.Registered := by
  have hall : ∀ (schemas : List Schema) {c c' : Catalog}, c.Registered →
      Store.registerAll c schemas = .ok c' → c'.Registered := by
    intro schemas
    induction schemas with
    | nil =>
      intro c c' hc h
      cases h
      exact hc
    | cons s rest ih =>
      intro c c' hc h
      obtain ⟨⟨l, c₁⟩, hs, h⟩ := bind_ok_iff.mp h
      exact ih (hc.register hs) h
  unfold Store.build Catalog.empty at h
  simp only [bind_ok_iff, pure_ok_iff] at h
  obtain ⟨-, ⟨-, -, rfl⟩, c, hc, rfl⟩ := h
  exact hall schemas (.empty config) hc

end KeyedRecords

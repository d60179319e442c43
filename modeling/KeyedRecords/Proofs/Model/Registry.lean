import KeyedRecords.Model.Registry
import KeyedRecords.Proofs.Model.Layout
import KeyedRecords.Session.Store

/-!
# The indexes of a registry stay in step

A registration that succeeds answers the layout that is listed for the type, or puts a new one into
all three indexes; one that fails changes nothing (`Registry.register_cases`). So all indexes show
the same list behind any number of registrations (`Registry.InStep.run`), and that is the list of
the types that were registered successfully, each in the place of its first success. The catalog of
a store keeps the order alone and shows as much (`Registry.catalog_of_build`).
-/

namespace KeyedRecords.Registry

variable {τ : Type} [DecidableEq τ] [Hashable τ] {r r' : Registry τ} {type : τ} {s : Schema}
  {l : Layout} {listed : List (τ × Layout)}

/-- All three indexes show one list of types with their layouts. -/
structure InStep (r : Registry τ) (listed : List (τ × Layout)) : Prop where
  order : r.order = listed.map Prod.snd
  byType : ∀ type l, r.byType[type]? = some l ↔ (type, l) ∈ listed
  byName : ∀ name l, r.byName[name]? = some l ↔ l ∈ r.order ∧ l.name = name
  /-- No type is listed twice. -/
  types : (listed.map Prod.fst).Nodup
  /-- No two models have one name. -/
  names : (r.order.map Layout.name).Nodup

theorem inStep_start (config : Config) : (start config : Registry τ).InStep [] where
  order := rfl
  byType := by simp [start]
  byName := by simp [start]
  types := .nil
  names := .nil

namespace InStep

/-- A type that is not found is not listed. -/
theorem byType_eq_none_iff (h : r.InStep listed) :
    r.byType[type]? = none ↔ ∀ l, (type, l) ∉ listed := by
  rw [Option.eq_none_iff_forall_ne_some]
  simp only [ne_eq, h.byType]

/-- A name that is not found is no model's. -/
theorem byName_eq_none_iff (h : r.InStep listed) {name : String} :
    r.byName[name]? = none ↔ name ∉ r.order.map Layout.name := by
  rw [Option.eq_none_iff_forall_ne_some]
  simp only [ne_eq, h.byName, List.mem_map]
  simp

/-- The indexes stay in step if a layout is put into all of them whose type and name are new. -/
theorem insert (h : r.InStep listed) (htype : r.byType[type]? = none)
    (hname : r.byName[l.name]? = none) : (r.insert type l).InStep (listed ++ [(type, l)]) where
  order := by
    show r.order ++ [l] = _
    rw [h.order, List.map_append, List.map_singleton]
  byType := by
    intro type' l'
    show (r.byType.insert type l)[type']? = some l' ↔ _
    rw [Std.HashMap.getElem?_insert, List.mem_append, List.mem_singleton, Prod.mk.injEq]
    split
    next heq =>
      obtain rfl := eq_of_beq heq
      simp [h.byType_eq_none_iff.mp htype l', eq_comm]
    next hne =>
      have hne : type' ≠ type := fun heq => hne (beq_iff_eq.mpr heq.symm)
      simp [h.byType, hne]
  byName := by
    intro name l'
    show (r.byName.insert l.name l)[name]? = some l' ↔ l' ∈ r.order ++ [l] ∧ l'.name = name
    rw [Std.HashMap.getElem?_insert, List.mem_append, List.mem_singleton]
    have hnew := h.byName_eq_none_iff.mp hname
    split
    next heq =>
      obtain rfl := eq_of_beq heq
      constructor
      · rintro ⟨⟩
        exact ⟨.inr rfl, rfl⟩
      · rintro ⟨hmem | rfl, hsame⟩
        · exact absurd (hsame ▸ List.mem_map_of_mem hmem) hnew
        · rfl
    next hne =>
      rw [h.byName]
      constructor
      · rintro ⟨hmem, hsame⟩
        exact ⟨.inl hmem, hsame⟩
      · rintro ⟨hmem | rfl, hsame⟩
        · exact ⟨hmem, hsame⟩
        · exact absurd (beq_iff_eq.mpr hsame) hne
  types := by
    rw [List.map_append, List.map_singleton, List.nodup_append']
    refine ⟨h.types, List.nodup_singleton _, ?_⟩
    intro type' hmem hmem'
    obtain rfl := List.mem_singleton.mp hmem'
    obtain ⟨⟨_, l'⟩, hlisted, rfl⟩ := List.mem_map.mp hmem
    exact h.byType_eq_none_iff.mp htype l' hlisted
  names := by
    show ((r.order ++ [l]).map Layout.name).Nodup
    rw [List.map_append, List.map_singleton, List.nodup_append']
    refine ⟨h.names, List.nodup_singleton _, ?_⟩
    intro name hmem hmem'
    obtain rfl := List.mem_singleton.mp hmem'
    exact h.byName_eq_none_iff.mp hname hmem

end InStep

/-- The registry is read before anything is done. -/
theorem runFrom_get_bind {α : Type} (r : Registry τ)
    (next : Registry τ → ExceptT Error (StateM (Registry τ)) α) :
    runFrom r (get >>= next) = runFrom r (next r) := rfl

/-- A layout is taken up if its type and its name are new. -/
theorem runFrom_enter (r : Registry τ) (type : τ) (l : Layout) :
    runFrom r (enter type l) =
      match r.byType[type]? with
      | some existing => (.ok existing, r)
      | none =>
        if r.byName.contains l.name then
          (.error (Catalog.invalid l.name "another model is registered under this name"), r)
        else (.ok l, r.insert type l) := by
  unfold enter
  rw [runFrom_get_bind]
  cases r.byType[type]? with
  | some existing => rfl
  | none =>
    dsimp only
    split
    · rfl
    · rfl

/-- The layout of a declaration is taken up if there is one, and if its type and its name are
new. -/
theorem runFrom_register (r : Registry τ) (type : τ) (s : Schema) :
    runFrom r (register type s) =
      match r.byType[type]? with
      | some l => (.ok l, r)
      | none =>
        match s.layout r.config.space with
        | .error fault => (.error (Catalog.invalid s.name fault.message), r)
        | .ok l =>
          if r.byName.contains s.name then
            (.error (Catalog.invalid s.name "another model is registered under this name"), r)
          else (.ok l, r.insert type l) := by
  unfold register
  rw [runFrom_get_bind]
  cases htype : r.byType[type]? with
  | some l => rfl
  | none =>
    dsimp only
    rw [runFrom_get_bind]
    cases hlayout : s.layout r.config.space with
    | error fault => rfl
    | ok l =>
      have hname : l.name = s.name := Schema.name_of_layout_ok hlayout
      dsimp only
      rw [runFrom_enter, htype, hname]

/-- What a registration does: nothing for a type that is listed, nothing if it fails, and otherwise
it puts the layout of the declaration into all indexes. -/
theorem register_cases (r : Registry τ) (type : τ) (s : Schema) :
    (∃ l, r.byType[type]? = some l ∧ runFrom r (register type s) = (.ok l, r)) ∨
      (r.byType[type]? = none ∧
        ((∀ l, s.layout r.config.space ≠ .ok l) ∨ r.byName[s.name]? ≠ none) ∧
        ∃ e, runFrom r (register type s) = (.error e, r)) ∨
      (r.byType[type]? = none ∧ ∃ l, s.layout r.config.space = .ok l ∧
        r.byName[l.name]? = none ∧ runFrom r (register type s) = (.ok l, r.insert type l)) := by
  rw [runFrom_register]
  cases r.byType[type]? with
  | some l => exact .inl ⟨l, rfl, rfl⟩
  | none =>
    refine .inr ?_
    dsimp only
    cases hlayout : s.layout r.config.space with
    | error fault => exact .inl ⟨rfl, .inl (by simp), _, rfl⟩
    | ok l =>
      have hname : l.name = s.name := Schema.name_of_layout_ok hlayout
      dsimp only
      rw [Std.HashMap.contains_eq_isSome_getElem?]
      cases hfound : r.byName[s.name]? with
      | some other => exact .inl ⟨rfl, .inr (by simp), _, rfl⟩
      | none => exact .inr ⟨rfl, l, rfl, hname ▸ hfound, rfl⟩

/-- What is answered by those of several registrations that succeed, with the types that they
register, and the registry behind all of them. -/
def run (r : Registry τ) : List (τ × Schema) → List (τ × Layout) × Registry τ
  | [] => ([], r)
  | (type, s) :: rest =>
    match runFrom r (register type s) with
    | (.ok l, r') => ((type, l) :: (run r' rest).1, (run r' rest).2)
    | (.error _, r') => run r' rest

/-- What is not in a list and not one more element. -/
theorem removeAll_concat {α : Type} [BEq α] [LawfulBEq α] (as bs : List α) (b : α) :
    as.removeAll (bs ++ [b]) = (as.removeAll bs).filter (fun a => !a == b) := by
  rw [List.removeAll, List.removeAll, List.filter_filter]
  congr 1
  funext a
  rw [Bool.eq_iff_iff]
  simp [and_comm]

/-- The patterns of a layout are known by what they match, so no program can tell layouts apart. -/
noncomputable instance : DecidableEq Layout := Classical.decEq _

/-- Behind any registrations the indexes show what they have shown before, and besides what has been
answered, each type in the place where it was answered first. -/
theorem InStep.run (h : r.InStep listed) (calls : List (τ × Schema)) :
    (r.run calls).2.InStep (listed ++ ((r.run calls).1.removeAll listed).eraseDups) := by
  induction calls generalizing r listed with
  | nil =>
    show r.InStep (listed ++ (List.removeAll [] listed).eraseDups)
    simpa using h
  | cons call rest ih =>
    obtain ⟨type, s⟩ := call
    rcases register_cases r type s with ⟨l, hfound, hrun⟩ | ⟨-, -, e, hrun⟩ |
      ⟨htype, l, hlayout, hname, hrun⟩
    · -- the type is listed with this layout
      have hmem : (type, l) ∈ listed := (h.byType type l).mp hfound
      simp only [Registry.run, hrun]
      rw [List.cons_removeAll, if_neg (by simpa using hmem)]
      exact ih h
    · simp only [Registry.run, hrun]
      exact ih h
    · -- the type is listed from here on
      have hnew : (type, l) ∉ listed := h.byType_eq_none_iff.mp htype l
      have hrest := ih (h.insert htype hname)
      simp only [Registry.run, hrun]
      rw [List.cons_removeAll, if_pos (by simpa using hnew), List.eraseDups_cons,
        ← removeAll_concat, ← List.singleton_append, ← List.append_assoc]
      exact hrest

/-- No registration changes the configuration. -/
theorem config_run (r : Registry τ) (calls : List (τ × Schema)) :
    (r.run calls).2.config = r.config := by
  induction calls generalizing r with
  | nil => rfl
  | cons call rest ih =>
    obtain ⟨type, s⟩ := call
    rcases register_cases r type s with ⟨l, -, hrun⟩ | ⟨-, -, e, hrun⟩ | ⟨-, l, -, -, hrun⟩
    · simp only [Registry.run, hrun]
      exact ih r
    · simp only [Registry.run, hrun]
      exact ih r
    · simp only [Registry.run, hrun]
      exact ih (r.insert type l)

/-- What is answered has been listed before, or is the layout of a declaration that the type was
registered with. -/
theorem InStep.mem_run (h : r.InStep listed) {calls : List (τ × Schema)} {x : τ × Layout}
    (hx : x ∈ (r.run calls).1) :
    x ∈ listed ∨ ∃ s, (x.1, s) ∈ calls ∧ s.layout r.config.space = .ok x.2 := by
  induction calls generalizing r listed with
  | nil => cases hx
  | cons call rest ih =>
    obtain ⟨type, s⟩ := call
    have hlater : (∃ s', (x.1, s') ∈ rest ∧ s'.layout r.config.space = .ok x.2) →
        ∃ s', (x.1, s') ∈ (type, s) :: rest ∧ s'.layout r.config.space = .ok x.2 := by
      rintro ⟨s', hmem, hs'⟩
      exact ⟨s', List.mem_cons_of_mem _ hmem, hs'⟩
    rcases register_cases r type s with ⟨l, hfound, hrun⟩ | ⟨-, -, e, hrun⟩ |
      ⟨htype, l, hlayout, hname, hrun⟩
    · simp only [Registry.run, hrun] at hx
      rcases List.mem_cons.mp hx with rfl | hx
      · exact .inl ((h.byType type l).mp hfound)
      · exact (ih h hx).imp_right hlater
    · simp only [Registry.run, hrun] at hx
      exact (ih h hx).imp_right hlater
    · simp only [Registry.run, hrun] at hx
      rcases List.mem_cons.mp hx with rfl | hx
      · exact .inr ⟨s, List.mem_cons_self, hlayout⟩
      · rcases ih (h.insert htype hname) hx with hmem | hrest
        · rcases List.mem_append.mp hmem with hmem | hmem
          · exact .inl hmem
          · obtain rfl := List.mem_singleton.mp hmem
            exact .inr ⟨s, List.mem_cons_self, hlayout⟩
        · exact .inr (hlater hrest)

/-- What a registry shows behind registrations of which some were answered with a layout. -/
structure Shows (r : Registry τ) (answered : List (τ × Layout)) : Prop where
  /-- The models are those registered successfully, each one once, in the order of first success. -/
  models : r.models = answered.eraseDups.map Prod.snd
  /-- No type has two layouts. -/
  types : (answered.eraseDups.map Prod.fst).Nodup
  /-- No two models have one name. -/
  names : (r.models.map Layout.name).Nodup
  /-- The layout of a type is the one that was answered for it. -/
  layout : ∀ type name l, r.layout type name = .ok l ↔ (type, l) ∈ answered
  /-- No other type has a layout. -/
  missing : ∀ type name, (∀ l, (type, l) ∉ answered) →
    r.layout type name = .error (notRegistered name)
  /-- The layout found under a name is that of the model of this name. -/
  byName : ∀ name l, r.byName? name = some l ↔ l ∈ r.models ∧ l.name = name
  /-- A type that is registered again is answered as before. -/
  again : ∀ type l s, (type, l) ∈ answered → runFrom r (register type s) = (.ok l, r)
  /-- Another type is answered with its layout, just if it has one and its name is new. -/
  new : ∀ type s, (∀ l, (type, l) ∉ answered) → ∀ l,
    (∃ r', runFrom r (register type s) = (.ok l, r')) ↔
      s.layout r.config.space = .ok l ∧ s.name ∉ r.models.map Layout.name
  /-- A registration that fails changes nothing. -/
  refused : ∀ type s e r', runFrom r (register type s) = (.error e, r') → r' = r

/-- A registry whose indexes are in step shows what was answered. -/
theorem InStep.shows {answered : List (τ × Layout)} (h : r.InStep answered.eraseDups) :
    r.Shows answered := by
  have hbyType : ∀ type l, r.byType[type]? = some l ↔ (type, l) ∈ answered := by
    intro type l
    rw [h.byType, List.mem_eraseDups]
  have hnone : ∀ type, (∀ l, (type, l) ∉ answered) → r.byType[type]? = none := by
    intro type hmissing
    rw [Option.eq_none_iff_forall_ne_some]
    exact fun l hl => hmissing l ((hbyType type l).mp hl)
  constructor
  case models => exact h.order
  case types => exact h.types
  case names => exact h.names
  case layout =>
    intro type name l
    rw [← hbyType, Registry.layout]
    cases r.byType[type]? with
    | none => simp
    | some l' => simp
  case missing =>
    intro type name hmissing
    rw [Registry.layout, hnone type hmissing]
  case byName => exact h.byName
  case again =>
    intro type l s hmem
    rw [runFrom_register, (hbyType type l).mpr hmem]
  case new =>
    intro type s hmissing l
    have hname : r.byName[s.name]? = none ↔ s.name ∉ r.order.map Layout.name :=
      h.byName_eq_none_iff
    rcases register_cases r type s with ⟨l', hfound, -⟩ | ⟨-, hbad, e, hrun⟩ |
      ⟨-, l', hlayout, hnew, hrun⟩
    · rw [hnone type hmissing] at hfound
      cases hfound
    · rw [hrun]
      constructor
      · rintro ⟨r', ⟨⟩⟩
      · rintro ⟨hlayout, hnew⟩
        exact absurd (hname.mpr hnew) (hbad.resolve_left fun hno => hno l hlayout)
    · rw [hrun, hlayout]
      rw [Schema.name_of_layout_ok hlayout] at hnew
      constructor
      · rintro ⟨r', ⟨⟩⟩
        exact ⟨rfl, hname.mp hnew⟩
      · rintro ⟨⟨⟩, -⟩
        exact ⟨_, rfl⟩
  case refused =>
    intro type s e r' hrun'
    rcases register_cases r type s with ⟨l, -, hrun⟩ | ⟨-, -, e', hrun⟩ | ⟨-, l, -, -, hrun⟩
    · cases hrun.symm.trans hrun'
    · cases hrun.symm.trans hrun'
      rfl
    · cases hrun.symm.trans hrun'

/-- Behind any registrations a registry lists the models that were registered successfully, each one
once and in the order of first success, with the layout of a declaration that its type was
registered with; types and names are found in it just if they are listed. -/
theorem shows_run (config : Config) (calls : List (τ × Schema)) :
    ((start config).run calls).2.Shows ((start config).run calls).1 ∧
      ((start config).run calls).2.config = config ∧
      ∀ x ∈ ((start config).run calls).1,
        ∃ s, (x.1, s) ∈ calls ∧ s.layout config.space = .ok x.2 := by
  have hstart : (start config : Registry τ).InStep [] := inStep_start config
  refine ⟨?_, config_run _ calls, fun x hx => ?_⟩
  · have hrun := hstart.run calls
    rw [List.nil_append] at hrun
    apply InStep.shows
    simpa [List.removeAll] using hrun
  · rcases hstart.mem_run hx with hmem | hdeclared
    · cases hmem
    · exact hdeclared

section Catalog

variable {r : Registry ModelTag} {listed : List (ModelTag × Layout)}

/-- The catalog of models that are told apart by their tags: the order shows all that is listed. -/
def toCatalog (r : Registry ModelTag) : Catalog := ⟨r.config, r.order⟩

/-- The types that are listed are the tags of their layouts. -/
def Tagged (listed : List (ModelTag × Layout)) : Prop := ∀ x ∈ listed, x.2.tag = x.1

/-- A layout is found in the catalog under its tag. -/
theorem find?_toCatalog (h : r.InStep listed) (htagged : Tagged listed) (tag : ModelTag) :
    r.toCatalog.find? tag = r.byType[tag]? := by
  have htags : r.order.map Layout.tag = listed.map Prod.fst := by
    rw [h.order, List.map_map]
    exact List.map_congr_left htagged
  refine Option.ext fun l => ?_
  have hfind : r.toCatalog.find? tag = some l ↔ l ∈ r.order ∧ l.tag = tag :=
    find?_eq_some_iff_of_nodup (htags ▸ h.types)
  rw [hfind, h.byType, h.order, List.mem_map]
  constructor
  · rintro ⟨⟨x, hx, rfl⟩, rfl⟩
    rwa [htagged x hx]
  · intro hmem
    exact ⟨⟨_, hmem, rfl⟩, htagged _ hmem⟩

/-- So it is under its name. -/
theorem byName?_toCatalog (h : r.InStep listed) (name : String) :
    r.toCatalog.byName? name = r.byName? name := by
  refine Option.ext fun l => ?_
  have hfind : r.toCatalog.byName? name = some l ↔ l ∈ r.order ∧ l.name = name :=
    find?_eq_some_iff_of_nodup h.names
  rw [hfind, byName?, h.byName]

/-- The catalog registers a declaration as the registry does under the tag of the declaration. -/
theorem register_toCatalog (h : r.InStep listed) (htagged : Tagged listed) (s : Schema) :
    r.toCatalog.register s =
      match runFrom r (register s.toModelTag s) with
      | (.ok l, r') => .ok (l, r'.toCatalog)
      | (.error e, _) => .error e := by
  rw [Catalog.register, find?_toCatalog h htagged, byName?_toCatalog h, runFrom_register]
  cases r.byType[s.toModelTag]? with
  | some l => rfl
  | none =>
    dsimp only [toCatalog]
    cases s.layout r.config.space with
    | error fault => rfl
    | ok l =>
      dsimp only
      rw [Std.HashMap.contains_eq_isSome_getElem?, byName?]
      split
      · rfl
      · rfl

/-- Declarations that can all be registered lead the catalog where they lead the registry. -/
theorem toCatalog_run (h : r.InStep listed) (htagged : Tagged listed) {schemas : List Schema}
    {c : Catalog} (hall : Store.registerAll r.toCatalog schemas = .ok c) :
    c = (r.run (schemas.map fun s => (s.toModelTag, s))).2.toCatalog := by
  induction schemas generalizing r listed with
  | nil =>
    cases hall
    rfl
  | cons s rest ih =>
    obtain ⟨⟨l, c'⟩, hs, hrest⟩ := bind_ok_iff.mp hall
    rw [register_toCatalog h htagged] at hs
    rw [List.map_cons]
    rcases register_cases r s.toModelTag s with ⟨l', -, hrun⟩ | ⟨-, -, e, hrun⟩ |
      ⟨htype, l', hlayout, hname, hrun⟩
    · rw [hrun] at hs
      cases hs
      simp only [Registry.run, hrun]
      exact ih h htagged hrest
    · rw [hrun] at hs
      cases hs
    · rw [hrun] at hs
      cases hs
      simp only [Registry.run, hrun]
      refine ih (h.insert htype hname) (fun x hx => ?_) hrest
      rcases List.mem_append.mp hx with hx | hx
      · exact htagged x hx
      · obtain rfl := List.mem_singleton.mp hx
        exact (Schema.layout_ok hlayout).tag

/-- The catalog of a store is that of a registry with all of its models. -/
theorem catalog_of_build {config : Config} {sessionConfig : SessionConfig} {schemas : List Schema}
    {store : Store} (h : Store.build config sessionConfig schemas = .ok store) :
    store.catalog = ((start config).run (schemas.map fun s => (s.toModelTag, s))).2.toCatalog := by
  unfold Store.build Catalog.empty at h
  simp only [bind_ok_iff, pure_ok_iff] at h
  obtain ⟨-, ⟨-, -, rfl⟩, c, hc, rfl⟩ := h
  exact toCatalog_run (inStep_start config) (List.forall_mem_nil _) hc

end Catalog

end KeyedRecords.Registry

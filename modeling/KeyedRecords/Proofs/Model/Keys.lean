import KeyedRecords.Model.Keys

/-!
# Sections of the keys of a model

The keys of a model fall into sections by what stands behind their base. Keys of two sections are
never equal (`ModelKeys.InSection.ne`), and within a section a key is equal to another only if it is
made of the same parts.
-/

namespace KeyedRecords

/-- What a key of a model is for. -/
inductive KeySection where
  /-- The collection of all ids. -/
  | ids
  /-- The counter that ids are assigned from. -/
  | counter
  /-- Records and containers of instances. -/
  | object
  /-- The ids by the value of a field. -/
  | index
  /-- The owners of the values of a unique field. -/
  | unique
  /-- Results of queries. -/
  | temporary
deriving DecidableEq

/-- What stands behind the base in the keys of a section, up to five characters. -/
def KeySection.mark : KeySection → String
  | .ids => ":ids"
  | .counter => ":id"
  | .object => ":obj:"
  | .index => ":idx:"
  | .unique => ":uni:"
  | .temporary => ":tmp:"

/-- No two sections have one mark. -/
theorem KeySection.mark_inj {s t : KeySection} (h : s.mark = t.mark) : s = t := by
  -- the marks are written out, so all pairs of sections can be looked at
  revert h
  cases s <;> cases t <;> decide

namespace ModelKeys

variable {k : ModelKeys} {a b : String}

/-- The section that a key belongs to. -/
inductive InSection (k : ModelKeys) (key : String) : KeySection → Prop
  | ids (h : key = k.ids) : InSection k key .ids
  | counter (h : key = k.counter) : InSection k key .counter
  | object (id : String) (h : key = k.object id) : InSection k key .object
  | index (field value : String) (h : key = k.index field value) : InSection k key .index
  | unique (field : String) (h : key = k.unique field) : InSection k key .unique
  | temporary (n : Nat) (h : key = k.temporary n) : InSection k key .temporary

/-- The first five characters behind the base tell the section. -/
theorem InSection.mark_eq {s : KeySection} (h : k.InSection a s) :
    (a.toList.drop k.base.toList.length).take 5 = s.mark.toList := by
  cases h <;> subst a <;>
    simp [ModelKeys.ids, ModelKeys.counter, ModelKeys.object, ModelKeys.index, ModelKeys.unique,
      ModelKeys.temporary, temporaryStart, KeySection.mark]

/-- A key belongs to one section only. -/
theorem InSection.eq {s t : KeySection} (hs : k.InSection a s) (ht : k.InSection a t) : s = t := by
  have hmark : s.mark = t.mark := String.toList_inj.mp (hs.mark_eq.symm.trans ht.mark_eq)
  exact KeySection.mark_inj hmark

theorem InSection.not_of_ne {s t : KeySection} (hs : k.InSection a s) (h : s ≠ t) :
    ¬k.InSection a t :=
  fun ht => h (hs.eq ht)

/-- Keys of two sections differ. -/
theorem InSection.ne {s t : KeySection} (hs : k.InSection a s) (ht : k.InSection b t)
    (h : s ≠ t) : a ≠ b := by
  rintro rfl
  exact h (hs.eq ht)

/-- Containers are kept in the section of the records. -/
theorem container_eq_object (k : ModelKeys) (id name : String) :
    k.container id name = k.object (id ++ ":" ++ name) := by
  simp only [container, object, String.append_assoc]

@[simp]
theorem object_inj : k.object a = k.object b ↔ a = b := by
  simp only [object, String.append_right_inj]

@[simp]
theorem unique_inj : k.unique a = k.unique b ↔ a = b := by
  simp only [unique, String.append_right_inj]

/-- Two texts in front of a colon are the same if what they begin is, and neither has a colon. -/
theorem append_colon_inj {a b v w : List Char} (ha : ':' ∉ a) (hb : ':' ∉ b)
    (h : a ++ ':' :: v = b ++ ':' :: w) : a = b ∧ v = w := by
  -- the text in front ends at the first colon
  have hfront : ∀ {c : List Char} (rest : List Char), ':' ∉ c →
      (c ++ ':' :: rest).takeWhile (· != ':') = c := by
    intro c rest hc
    have hpos : ∀ x ∈ c, (x != ':') = true := by
      intro x hx
      simp only [bne_iff_ne, ne_eq]
      rintro rfl
      exact hc hx
    rw [List.takeWhile_append_of_pos hpos]
    simp
  have hab : a = b := by rw [← hfront v ha, h, hfront w hb]
  rw [hab, List.append_cancel_left_eq, List.cons.injEq] at h
  exact ⟨hab, h.2⟩

/-- Two ids with names behind them are the same if the texts are, and neither name has a colon. -/
theorem append_name_inj {m n : String} (hm : ':' ∉ m.toList) (hn : ':' ∉ n.toList)
    (h : a ++ ":" ++ m = b ++ ":" ++ n) : a = b ∧ m = n := by
  have hlist : a.toList ++ ':' :: m.toList = b.toList ++ ':' :: n.toList := by
    simpa using congrArg String.toList h
  -- the names end the texts, so they are told apart from behind
  have hback : m.toList.reverse ++ ':' :: a.toList.reverse =
      n.toList.reverse ++ ':' :: b.toList.reverse := by
    simpa using congrArg List.reverse hlist
  obtain ⟨hname, hid⟩ := append_colon_inj (by simpa using hm) (by simpa using hn) hback
  exact ⟨String.toList_inj.mp (List.reverse_inj.mp hid),
    String.toList_inj.mp (List.reverse_inj.mp hname)⟩

/-- The ids of two values of fields are kept under two keys, if no field has a colon in its name. -/
theorem index_inj {v w : String} (ha : ':' ∉ a.toList) (hb : ':' ∉ b.toList) :
    k.index a v = k.index b w ↔ a = b ∧ v = w := by
  constructor
  · intro h
    have hlist : a.toList ++ ':' :: v.toList = b.toList ++ ':' :: w.toList := by
      have := congrArg String.toList h
      simpa [index] using this
    obtain ⟨hab, hvw⟩ := append_colon_inj ha hb hlist
    exact ⟨String.toList_inj.mp hab, String.toList_inj.mp hvw⟩
  · rintro ⟨rfl, rfl⟩
    rfl

/-- A key is one of the keys of a model. -/
def Owns (k : ModelKeys) (key : String) : Prop := ∃ s, k.InSection key s

theorem owns_object (k : ModelKeys) (id : String) : k.Owns (k.object id) := ⟨_, .object id rfl⟩

/-- All keys of a model begin with its base and a colon. -/
theorem Owns.exists_eq (h : k.Owns a) : ∃ rest, a.toList = k.base.toList ++ ':' :: rest := by
  obtain ⟨s, hs⟩ := h
  cases hs <;> subst a <;>
    simp [ids, counter, object, index, unique, temporary, temporaryStart]

/-- No key belongs to two models of one namespace, if no name has a colon. -/
theorem eq_of_owns {space key : String} (ha : ':' ∉ a.toList) (hb : ':' ∉ b.toList)
    (hkey : (ofModel space a).Owns key) (hkey' : (ofModel space b).Owns key) : a = b := by
  obtain ⟨rest, hrest⟩ := hkey.exists_eq
  obtain ⟨rest', hrest'⟩ := hkey'.exists_eq
  rw [hrest] at hrest'
  simp only [ofModel, String.toList_append, List.append_assoc, List.append_cancel_left_eq]
    at hrest'
  exact String.toList_inj.mp (append_colon_inj ha hb hrest').1

end ModelKeys

end KeyedRecords

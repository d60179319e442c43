import KeyedRecords.Proofs.Model.Keys
import KeyedRecords.Proofs.Pattern.Avoidance
import KeyedRecords.Proofs.Result
import KeyedRecords.Proofs.Store.Members
import KeyedRecords.Proofs.Store.Reading
import KeyedRecords.Proofs.Text.Split

/-!
# Sorting by scores

A sort by weights that are the scores of a sorted set leaves the members as the set has them
(`Fits.execute_sort`), since both go by the same total order. The pattern that leads a sort to the
records of a model is cut at its arrow, and the id takes the place of its star, if no earlier part
of it has either (`lookUp_sortPattern`). Cut inside the namespace, it leads to no key of the model
(`not_owns_patternKey`), so that in any case it leads to no result of a query
(`not_inSection_patternKey`).
-/

namespace KeyedRecords

/-- Scored members are in a total order. -/
theorem scoredLE_total (a b : String × Double) : (scoredLE a b || scoredLE b a) = true := by
  simp only [scoredLE, Bool.or_eq_true, Bool.and_eq_true, decide_eq_true_eq, beq_iff_eq]
  rcases Int.lt_trichotomy a.2.totalKey b.2.totalKey with hlt | heq | hgt
  · exact .inl (.inl hlt)
  · exact (String.le_total a.1 b.1).imp (fun hle => .inr ⟨heq, hle⟩) fun hle => .inr ⟨heq.symm, hle⟩
  · exact .inr (.inl hgt)

theorem scoredLE_trans (a b c : String × Double) (hab : scoredLE a b = true)
    (hbc : scoredLE b c = true) : scoredLE a c = true := by
  simp only [scoredLE, Bool.or_eq_true, Bool.and_eq_true, decide_eq_true_eq, beq_iff_eq] at *
  rcases hab with hab | ⟨hab, hname⟩
  · left
    omega
  · rcases hbc with hbc | ⟨hbc, hname'⟩
    · left
      omega
    · exact .inr ⟨by omega, String.le_trans hname hname'⟩

/-- The members of a sorted set are in the order of their scores. -/
theorem pairwise_byScore (z : Table Double) :
    (byScore z).Pairwise fun a b => scoredLE a b = true :=
  List.pairwise_mergeSort scoredLE_trans scoredLE_total _

/-- Where the scores follow the names, the order of the scores is that of the names. -/
theorem byScore_of_pairwise {z : Table Double}
    (h : z.toList.Pairwise fun a b => scoredLE a b = true) : byScore z = z.toList :=
  List.mergeSort_of_pairwise h

/-- The members of a sorted set are listed with their scores. -/
theorem getElem?_of_mem_byScore {z : Table Double} {e : String × Double} (h : e ∈ byScore z) :
    z[e.1]? = some e.2 :=
  Std.ExtTreeMap.mem_toList_iff_getElem?_eq_some.mp ((List.mergeSort_perm _ _).mem_iff.mp h)

namespace Keyspace

variable {ks : Keyspace} {key : String} {pattern? : Option String}

/-- A sort by the scores of a sorted set leaves its members as they are. -/
theorem sortMembers_byScore {z : Table Double}
    (h : ∀ m x, z[m]? = some x → numericWeight (ks.weight pattern? m) = .ok x) :
    ks.sortMembers pattern? false ((byScore z).map Prod.fst) = .ok ((byScore z).map Prod.fst) := by
  have hscore : ∀ e ∈ byScore z, z[e.1]? = some e.2 := fun e he => getElem?_of_mem_byScore he
  have hkeyed : ((byScore z).map Prod.fst).mapM (fun m => do
      return (← numericWeight (ks.weight pattern? m), m)) =
        (.ok ((byScore z).map fun e => (e.2, e.1)) :
          Except CommandFault (List (Double × String))) := by
    rw [mapM_ok (g := fun m => ((z[m]?).getD .zero, m)), List.map_map]
    · refine congrArg Except.ok (List.map_congr_left fun e he => ?_)
      simp [hscore e he]
    · rintro m hm
      obtain ⟨e, he, rfl⟩ := List.mem_map.mp hm
      rw [h e.1 e.2 (hscore e he), hscore e he]
      rfl
  have hsorted : ((byScore z).map fun e => (e.2, e.1)).Pairwise fun a b =>
      numberLE a b = true :=
    List.pairwise_map.mpr (pairwise_byScore z)
  rw [sortMembers, if_neg Bool.false_ne_true, hkeyed]
  refine congrArg Except.ok ?_
  rw [List.mergeSort_of_pairwise hsorted, List.map_map]
  rfl

/-- All members of a sorted set are read in the order of their scores. -/
theorem Fits.execute_zrange_pairwise (hfits : ks.Fits key .sortedSet) :
    ∃ found, ks.execute (.zrange key 0 (-1) false) = (.list found, ks) ∧ ks.Listed key found ∧
      found.Pairwise fun a b => ∃ x y, ks.score? key a = some x ∧ ks.score? key b = some y ∧
        scoredLE (a, x) (b, y) = true := by
  obtain ⟨z, hz, hscore⟩ := hfits.sortedSet?
  obtain ⟨found, hrun, hlisted⟩ := hfits.execute_zrange false
  have hfound : found = (byScore (z.getD ∅)).map Prod.fst := by
    rw [execute_zrange_all hz false] at hrun
    exact (Reply.list.inj (Prod.mk.inj hrun).1).symm
  refine ⟨found, hrun, hlisted, ?_⟩
  rw [hfound, List.pairwise_map]
  refine (pairwise_byScore _).imp_of_mem fun {a b} ha hb hle => ⟨a.2, b.2, ?_, ?_, hle⟩
  · exact (hscore a.1).trans (getElem?_of_mem_byScore ha)
  · exact (hscore b.1).trans (getElem?_of_mem_byScore hb)

/-- A sort of a sorted set by its scores answers what reading it from either end does, and neither
changes anything. -/
theorem Fits.execute_sort (hfits : ks.Fits key .sortedSet)
    (h : ∀ m x, ks.score? key m = some x → numericWeight (ks.weight pattern? m) = .ok x)
    (descending : Bool) :
    ∃ found, ks.execute (.zrange key 0 (-1) descending) = (.list found, ks) ∧
      ks.execute (.sort key pattern? descending false none) = (.list found, ks) := by
  obtain ⟨z, hz, hscore⟩ := hfits.sortedSet?
  have hitems := sortMembers_byScore fun m x hx => h m x ((hscore m).trans hx)
  have hsorted : ks.sorted key pattern? descending false =
      .ok (if descending then ((byScore (z.getD ∅)).map Prod.fst).reverse
        else (byScore (z.getD ∅)).map Prod.fst) :=
    bind_ok_iff.mpr ⟨_, members_of_sortedSet? hz, bind_ok_iff.mpr ⟨_, hitems, rfl⟩⟩
  refine ⟨_, execute_zrange_all hz descending, execute_ok ?_⟩
  unfold Step.ofCommand
  rw [run_bind_ok (by rw [run_read, hsorted])]
  rfl

section Patterns

variable {space model : String} (hstar : '*' ∉ space.toList) (hname : isKeyName model = true)

/-- If the namespace has an arrow, then a pattern for records is cut there. -/
theorem exists_cut?_sortPattern (harrow : ['-', '>'] <:+: space.toList) (model field : String) :
    ∃ before after, Text.cut? "->" ((ModelKeys.ofModel space model).sortPattern field) =
      some (before, after) ∧ before.toList <+: space.toList := by
  obtain ⟨before, after, hcut, hinitial⟩ := Text.exists_cutList?_append (List.cons_ne_nil _ _)
    harrow (model ++ ":obj:*->" ++ field).toList
  refine ⟨String.ofList before, String.ofList after, ?_, ?_⟩
  · have htext : ((ModelKeys.ofModel space model).sortPattern field).toList =
        space.toList ++ (model ++ ":obj:*->" ++ field).toList := by
      simp [ModelKeys.sortPattern, ModelKeys.ofModel]
    have hsep : "->".toList = ['-', '>'] := rfl
    rw [Text.cut?, htext, hsep, hcut, Option.map_some]
  · rw [String.toList_ofList]
    exact (List.prefix_append before _).trans hinitial

include hstar in
/-- Such a pattern leads to one key for all ids, a part of the namespace. -/
theorem exists_patternKey_eq (harrow : ['-', '>'] <:+: space.toList) (model field : String) :
    ∃ key, key.toList <+: space.toList ∧
      ∀ id, patternKey ((ModelKeys.ofModel space model).sortPattern field) id = key := by
  obtain ⟨before, after, hcut, hinitial⟩ := exists_cut?_sortPattern harrow model field
  refine ⟨before, hinitial, fun id => ?_⟩
  rw [patternKey, hcut, Option.map_some, Option.getD_some]
  exact Text.replaceFirst_of_not_mem (fun hmem => hstar (hinitial.mem hmem)) id

include hstar in
/-- That is no key of the model, since these are longer than the namespace. -/
theorem not_owns_patternKey (harrow : ['-', '>'] <:+: space.toList) (model field id : String) :
    ¬(ModelKeys.ofModel space model).Owns
      (patternKey ((ModelKeys.ofModel space model).sortPattern field) id) := by
  obtain ⟨key, hinitial, hkey⟩ := exists_patternKey_eq hstar harrow model field
  rw [hkey]
  intro howns
  obtain ⟨rest, hrest⟩ := howns.exists_eq
  have hlength := congrArg List.length hrest
  have hle := hinitial.length_le
  simp only [ModelKeys.ofModel, String.toList_append, List.length_append,
    List.length_cons] at hlength
  omega

include hname

/-- The arrow of a pattern for records is the first one, unless the namespace has another. -/
theorem cut?_sortPattern (harrow : ¬['-', '>'] <:+: space.toList) (field : String) :
    Text.cut? "->" ((ModelKeys.ofModel space model).sortPattern field) =
      some (space ++ model ++ ":obj:*", field) := by
  have hgreater : '>' ∉ model.toList := not_mem_of_isKeyName hname (by decide) (by decide)
  have hnot : ¬['-', '>'] <:+: (space ++ model ++ ":obj:*").toList ++ ['-'] := by
    simp only [String.toList_append, List.append_assoc]
    intro hoccurs
    have hlacks : '>' ∉ model.toList ++ (":obj:*".toList ++ ['-']) := by simpa using hgreater
    have hoccurs : ['-'] ++ ['>'] <:+: space.toList ++ _ := hoccurs
    exact harrow (Text.occurs_of_occurs_append _ hlacks hoccurs)
  have hcut : Text.cutList? ['-', '>'] ((ModelKeys.ofModel space model).sortPattern field).toList =
      some ((space ++ model ++ ":obj:*").toList, field.toList) := by
    simpa [ModelKeys.sortPattern, ModelKeys.ofModel] using
      Text.cutList?_append (List.cons_ne_nil _ _) hnot field.toList
  have hsep : "->".toList = ['-', '>'] := rfl
  rw [Text.cut?, hsep, hcut, Option.map_some]
  simp only [String.ofList_toList]

include hstar

/-- An id takes the place of the star of a pattern for records. -/
theorem replaceFirst_star (id : String) :
    Text.replaceFirst '*' id (space ++ model ++ ":obj:*") =
      (ModelKeys.ofModel space model).object id := by
  have hnostar : '*' ∉ model.toList := not_mem_of_isKeyName hname (by decide) (by decide)
  have hreplace : Text.cutList? ['*'] (space ++ model ++ ":obj:*").toList =
      some ((space ++ model ++ ":obj:").toList, []) := by
    have hnot : ¬['*'] <:+: (space ++ model ++ ":obj:").toList ++ [] := by
      rw [List.singleton_infix_iff]
      simp [hstar, hnostar]
    simpa using Text.cutList?_append (List.cons_ne_nil _ _) hnot []
  rw [Text.replaceFirst, hreplace]
  refine String.toList_inj.mp ?_
  simp [ModelKeys.object, ModelKeys.ofModel]

/-- If the namespace has no arrow, then a pattern for records leads to the record of each id. -/
theorem patternKey_sortPattern (harrow : ¬['-', '>'] <:+: space.toList) (field id : String) :
    patternKey ((ModelKeys.ofModel space model).sortPattern field) id =
      (ModelKeys.ofModel space model).object id := by
  rw [patternKey, cut?_sortPattern hname harrow, Option.map_some, Option.getD_some,
    replaceFirst_star hstar hname]

/-- The pattern that leads a sort to a field of records leads to no result of a query, not even if
it is cut in the middle of the namespace. -/
theorem not_inSection_patternKey (field id : String) :
    ¬(ModelKeys.ofModel space model).InSection
      (patternKey ((ModelKeys.ofModel space model).sortPattern field) id) .temporary := by
  by_cases harrow : ['-', '>'] <:+: space.toList
  · exact fun hsection => not_owns_patternKey hstar harrow model field id ⟨_, hsection⟩
  · rw [patternKey_sortPattern hstar hname harrow]
    exact ModelKeys.InSection.not_of_ne (.object id rfl) (by simp)

end Patterns

/-- A pattern with an arrow leads to a field of a hash. -/
theorem lookUp_of_cut? {pattern keyPattern field : String}
    (h : Text.cut? "->" pattern = some (keyPattern, field)) (member : String) :
    ks.lookUp pattern member = ks.field? (patternKey pattern member) field := by
  rw [lookUp, patternKey, h, Option.map_some, Option.getD_some]
  dsimp only
  rw [field?]
  cases ks.data? (Text.replaceFirst '*' member keyPattern) with
  | none => rfl
  | some d => cases d <;> rfl

/-- The pattern that leads a sort to a field of records leads to that field. -/
theorem lookUp_sortPattern {space model : String} (harrow : ¬['-', '>'] <:+: space.toList)
    (hstar : '*' ∉ space.toList) (hname : isKeyName model = true) (field id : String) :
    ks.lookUp ((ModelKeys.ofModel space model).sortPattern field) id =
      ks.field? ((ModelKeys.ofModel space model).object id) field := by
  rw [lookUp_of_cut? (cut?_sortPattern hname harrow field),
    patternKey_sortPattern hstar hname harrow]

end Keyspace

end KeyedRecords

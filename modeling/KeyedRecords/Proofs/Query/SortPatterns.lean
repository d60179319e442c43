import KeyedRecords.Proofs.Query.StorageOrder

/-!
# Where sort patterns lead

A pattern for the records of a model leads every id to the field of its record exactly if the
namespace has no arrow (`Keyspace.lookUp_sortPattern_iff`). The check of a configuration refuses the
star, which is the other character that patterns give a meaning, but not the arrow: with one, the
pattern is cut inside the namespace, and leads all ids to one field of a key that is not of the model
(`Keyspace.exists_lookUp_sortPattern_eq`).
-/

namespace KeyedRecords

namespace Keyspace

variable {ks : Keyspace} {space model : String}

/-- If the namespace has an arrow, then a pattern for records leads all ids to one field of one key,
a part of the namespace. -/
theorem exists_lookUp_sortPattern_eq (hstar : '*' ∉ space.toList)
    (harrow : ['-', '>'] <:+: space.toList) (model field : String) :
    ∃ key name, key.toList <+: space.toList ∧ ∀ (ks : Keyspace) (id : String),
      ks.lookUp ((ModelKeys.ofModel space model).sortPattern field) id = ks.field? key name := by
  obtain ⟨key, hinitial, hkey⟩ := exists_patternKey_eq hstar harrow model field
  obtain ⟨_, name, hcut, -⟩ := exists_cut?_sortPattern harrow model field
  exact ⟨key, name, hinitial, fun ks id => by rw [lookUp_of_cut? hcut, hkey]⟩

/-- A pattern for records leads ids to the field of their records, whatever is stored, exactly if
the namespace has no arrow. -/
theorem lookUp_sortPattern_iff {config : Config} (hconfig : config.validate = .ok ())
    (hname : isKeyName model = true) (field id : String) :
    (∀ ks : Keyspace, ks.lookUp ((ModelKeys.ofModel config.space model).sortPattern field) id =
        ks.field? ((ModelKeys.ofModel config.space model).object id) field) ↔
      ¬['-', '>'] <:+: config.space.toList := by
  have hstar := Config.star_not_mem hconfig
  constructor
  · intro h harrow
    obtain ⟨_, name, hcut, -⟩ := exists_cut?_sortPattern harrow model field
    have hother := not_owns_patternKey hstar harrow model field id
    generalize hkeys : ModelKeys.ofModel config.space model = keys at h hcut hother
    -- a store with nothing but this record, which the pattern does not lead to
    let record : Data := .hash ((∅ : Table String).insert field "")
    specialize h (empty.update (keys.object id) record)
    rw [lookUp_of_cut? hcut, field?_update, field?_update, if_pos rfl, if_neg] at h
    · simp [record, Data.field?, field?, data?, empty] at h
    · exact fun hkey => hother (hkey ▸ keys.owns_object id)
  · intro harrow ks
    exact lookUp_sortPattern harrow hstar hname field id

/-- In the standard namespace, heroes are sorted by the names in their records. -/
theorem lookUp_sortPattern_iff_heroes :
    Config.standard.validate = .ok () ∧ isKeyName "hero" = true ∧
      ∀ ks : Keyspace, ks.lookUp "kvm.hero:obj:*->name" "1" = ks.field? "kvm.hero:obj:1" "name" := by
  have hconfig : Config.standard.validate = .ok () := rfl
  have hname : isKeyName "hero" = true := by decide +kernel
  have hlacks : ¬['-', '>'] <:+: Config.standard.space.toList := by decide
  exact ⟨hconfig, hname, (lookUp_sortPattern_iff hconfig hname "name" "1").mpr hlacks⟩

/-- In a namespace with an arrow, which a configuration may have, they are not: no name is found. -/
theorem lookUp_misses_record :
    ∃ (config : Config) (ks : Keyspace), config.validate = .ok () ∧ isKeyName "hero" = true ∧
      isKeyName "name" = true ∧
      ks.field? ((ModelKeys.ofModel config.space "hero").object "1") "name" = some "Ada" ∧
      ks.lookUp ((ModelKeys.ofModel config.space "hero").sortPattern "name") "1" = none := by
  let ada : Data := .hash ((∅ : Table String).insert "name" "Ada")
  refine ⟨⟨"a->b.", 30000⟩, empty.update "a->b.hero:obj:1" ada, rfl, ?_⟩
  decide +kernel

end Keyspace

end KeyedRecords

import KeyedRecords.Model.Shaped
import KeyedRecords.Proofs.Model.Layout
import KeyedRecords.Proofs.Model.Record
import KeyedRecords.Proofs.Number.Integer

/-!
# Values and their records

What the store keeps of a value is its record, and what a session asks a value for are its id and
its version. In a coherent model the two agree (`Model.Coherent`): an id or a version that is set
changes nothing else in the record, and the version is the one in the record. Models of records are
coherent (`ShapedModel.coherent`) and take every version that its field can hold
(`ShapedModel.takesVersion`), and their values come back from their records as long as these are in
shape (`ShapedModel.readsBack`).
-/

namespace KeyedRecords

namespace Model

variable {α : Type}

/-- The value that is read back from the record of a value. -/
def reread (m : Model α) (v : α) : Except Error α :=
  m.ofRecord ((m.primaryKey v).getD "") (m.toRecord v)

/-- What an application promises of a value of its model: `Model.toRecord` gives all fields of it,
the identity included, so `Model.ofRecord` can build a value of them, and this one has the same
id. -/
def ReadsBack (m : Model α) (v : α) : Prop :=
  ∃ v', m.reread v = .ok v' ∧ m.primaryKey v' = m.primaryKey v

instance (m : Model α) (v : α) : Decidable (m.ReadsBack v) :=
  match h : m.reread v with
  | .ok v' => decidable_of_iff (m.primaryKey v' = m.primaryKey v) (by simp [ReadsBack, h])
  | .error e => isFalse (by simp [ReadsBack, h])

/-- What is set in a value is set in its record, and nothing else is. -/
structure Coherent (m : Model α) (l : Layout) : Prop where
  /-- An id that is set leaves all other fields as they are. -/
  identity : ∀ {id v v'}, m.withPrimaryKey id v = .ok v' →
    ∀ name, name ≠ l.identity.name → (m.toRecord v').get? name = (m.toRecord v).get? name
  /-- A version that is set leaves all other fields as they are. -/
  others : ∀ n v name, l.versionField ≠ some name →
    (m.toRecord (m.withVersion n v)).get? name = (m.toRecord v).get? name
  /-- The version of a value is the one that is stored of it. -/
  version : ∀ {v n}, m.version v = some n → ∀ f ∈ l.fields, l.versionField = some f.name →
    (m.toRecord v).text? f = some (Number.intText n)

/-- A version that is set is the one that a value has from then on. -/
def TakesVersion (m : Model α) (n : Int) : Prop := ∀ v, m.version (m.withVersion n v) = some n

end Model

namespace ShapedModel

variable {m : ShapedModel} {space : String} {l : Layout} {r : Record}

/-- Models of records are coherent. -/
theorem coherent (h : m.schema.layout space = .ok l) : m.model.Coherent l := by
  have hwell := Schema.layout_wellFormed h
  have hversion := Schema.layout_version h
  have hfields : l.fields = m.fields.map (·.field) := (Schema.layout_ok h).fields
  have hidentity : ∀ f, m.identity? = some f → f.field = l.identity := by
    intro f hf
    have hkey : f.field.primaryKey = true :=
      List.find?_some (p := fun f : ShapedField => f.field.primaryKey) hf
    refine hwell.onlyKey f.field ?_ hkey
    rw [hfields]
    exact List.mem_map_of_mem (List.mem_of_find?_eq_some hf)
  have hmarked : ∀ f, m.version? = some f →
      f.field ∈ l.fields ∧ l.versionField = some f.field.name ∧ f.field.kind = .int := by
    intro f hf
    have hmem : f.field ∈ l.fields := by
      rw [hfields]
      exact List.mem_map_of_mem (List.mem_of_find?_eq_some hf)
    have hmark : f.field.version = true :=
      List.find?_some (p := fun f : ShapedField => f.field.version) hf
    obtain ⟨hname, hkind, -⟩ := hversion.marked f.field hmem hmark
    exact ⟨hmem, hname, hkind⟩
  constructor
  case identity =>
    intro id v v' hset name hname
    simp only [model, withPrimaryKey] at hset
    split at hset
    next =>
      cases hset
      rfl
    next f hf =>
      obtain ⟨raw, -, hset⟩ := bind_ok_iff.mp hset
      obtain ⟨value, -, hset⟩ := bind_ok_iff.mp hset
      cases hset
      rw [hidentity f hf]
      exact (Record.get?_set ..).trans (if_neg hname)
  case others =>
    intro n v name hname
    simp only [model, withVersion, id]
    split
    next f k hf hk =>
      split
      next value _ =>
        have hne : name ≠ f.field.name := fun heq => hname (heq ▸ (hmarked f hf).2.1)
        rw [Record.get?_set, if_neg hne]
      next => rfl
    next => rfl
  case version =>
    intro v n hn g hg hgversion
    simp only [model, version, Option.bind_eq_bind, Option.bind_eq_some_iff] at hn
    obtain ⟨f, hf, value, hvalue, hn⟩ := hn
    obtain ⟨hmem, hname, hkind⟩ := hmarked f hf
    -- no other field has the name of the one that counts versions
    have hgf : g = f.field :=
      List.inj_on_of_nodup_map hwell.distinct hg hmem
        (Option.some.inj (hgversion.symm.trans hname))
    split at hn
    next k =>
      cases hn
      simp only [model, id, Record.text?, hgf, hvalue, Option.bind_some]
      rfl
    next => cases hn

/-- Records take versions that the field for them can hold. -/
theorem takesVersion {f : ShapedField} {n : Int} {k : Int64} (hf : m.version? = some f)
    (hn : Number.toInt64? n = some k) (hread : f.shape.read (.int k) = .ok (.int k)) :
    m.model.TakesVersion n := by
  intro r
  simp only [model, version, withVersion, hf, hn, hread, Option.bind_eq_bind, Option.bind_some,
    Record.get?_set, if_true, Number.toInt_of_toInt64? hn]

/-- A record in which every field is in its shape is read back as it is. -/
theorem reread_eq (h : readFields r m.fields = .ok r.entries) : m.model.reread r = .ok r := by
  have hread : m.ofRecord ((m.primaryKey r).getD "") r = .ok r := by
    refine bind_ok_iff.mpr ⟨r.entries, h, ?_⟩
    cases hid : m.primaryKey r with
    | none => rfl
    | some id => simp [hid, pure_ok_iff]
  exact hread

theorem readsBack (h : readFields r m.fields = .ok r.entries) : m.model.ReadsBack r :=
  ⟨r, reread_eq h, rfl⟩

end ShapedModel

end KeyedRecords

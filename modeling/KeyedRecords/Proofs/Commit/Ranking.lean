import KeyedRecords.Proofs.Commit.Footprint
import KeyedRecords.Proofs.Commit.Neighbours
import KeyedRecords.Proofs.Commit.Records
import KeyedRecords.Proofs.Commit.Versions
import KeyedRecords.Proofs.Model.Weights
import KeyedRecords.Proofs.Store.Listing
import KeyedRecords.Proofs.Store.Sorting

/-!
# The ranks of ids

The ids of an ordered model stand in their collection by scores that clients compute of their
records, and a record may be stored with another number than it was sent with: the store counts
versions and assigns ids itself. The score of an id is therefore what the stored field of the
default order weighs (`Ranked`) only while accepted writes bring the numbers that the store is going
to put there (`Visit.BringsRank`), and no delete takes the record of a neighbour along
(`Visit.SparesRanks`). This is so in both directions (`ids_ranked_iff`).
-/

namespace KeyedRecords

namespace CommitScript

open Keyspace

variable {l : Layout} {ks ks₁ ks' : Keyspace} {f : Field} {id : String}

/-- The number that the store itself puts into a field of a record: the next version, or the id that
it assigns. -/
def supplied? (b : Batch) (field : String) (w : InstanceWrite) (ack : WriteAck) : Option Int :=
  if b.versionField = some field then ack.version
  else if b.identity = field ∧ w.id = none then Number.readInt? ack.id
  else none

/-- The write of a record brings the score that the stored field is going to weigh. -/
def BringsRank (l : Layout) (f : Field) (r : Record) (w : InstanceWrite) (ack : WriteAck) : Prop :=
  match supplied? (.ofLayout l) f.name w ack with
  | some n => w.score = some (.ofInt n)
  | none => ∀ v, r.get? f.name = some v → f.kind.Reads v

/-- A number that the store supplies is stored in the field, and else the text of the record is. -/
theorem Written.field?_supplied {space : String} {s : Schema} (hl : s.layout space = .ok l)
    (hf : f ∈ l.fields) {identity : IdentityKey} {r : Record} {expected : Option Int} {c : Checked}
    (hc : WriteChecked ks (.ofLayout l) (.ofRecord l identity r expected) c)
    (hid : Assigned (.ofLayout l) (.ofRecord l identity r expected) ks id ks₁)
    (h : Written (.ofLayout l) (.ofRecord l identity r expected) c id ks₁ ks') :
    (∃ n, supplied? (.ofLayout l) f.name (.ofRecord l identity r expected) ⟨id, c.version⟩ =
          some n ∧
        n.natAbs < 2 ^ 64 ∧ ks'.field? (l.keys.object id) f.name = some (Number.intText n)) ∨
      (supplied? (.ofLayout l) f.name (.ofRecord l identity r expected) ⟨id, c.version⟩ = none ∧
        ks'.field? (l.keys.object id) f.name = r.text? f) := by
  have hwf := Schema.layout_wellFormed hl
  have hfields := h.fields f.name
  unfold supplied?
  by_cases hversion : l.versionField = some f.name
  · obtain ⟨n, hn, hfits⟩ := checkVersion_fits (b := .ofLayout l) hversion hc.version
    rw [Number.fitsInt64, Bool.and_eq_true, decide_eq_true_iff, decide_eq_true_iff] at hfits
    refine .inl ⟨n, by simp [Batch.ofLayout, hversion, hn], by omega, hfields.trans ?_⟩
    simp [storedFields, Batch.ofLayout, hversion, hn]
  rw [if_neg (show ¬(Batch.ofLayout l).versionField = some f.name from hversion)]
  by_cases hkey : l.identity.name = f.name
  · obtain rfl : l.identity = f := List.inj_on_of_nodup_map hwf.distinct hwf.identity.1 hf hkey
    -- the id is stored beside the texts of the record
    have hstored : ks'.field? (l.keys.object id) l.identity.name = some id := hfields.trans
      (lookup_storedFields_identity hwf (Schema.layout_version hl) identity r expected _ id)
    cases hid with
    | named hid =>
      refine .inr ⟨if_neg fun hand => ?_, hstored.trans hid.symm⟩
      rw [hid] at hand
      cases hand.2
    | counted hid hcounter hfits =>
      rw [Number.fitsInt64, Bool.and_eq_true, decide_eq_true_iff, decide_eq_true_iff] at hfits
      exact .inl ⟨_, by rw [if_pos ⟨rfl, hid⟩, Number.readInt?_intText], by omega, hstored⟩
  · have hplain : f.primaryKey = false := by
      rw [Bool.eq_false_iff]
      exact fun hprimary => hkey (congrArg Field.name (hwf.onlyKey f hf hprimary).symm)
    refine .inr ⟨if_neg fun hand => hkey hand.1, hfields.trans ?_⟩
    exact lookup_storedFields_text hwf hf hplain hversion identity r expected c.version id

/-- The score of a record is that of its field of the default order. -/
theorem score_ofRecord {order : SortOrder} (horder : l.defaultOrdering = some order)
    (hf : l.field? order.field = some f) (identity : IdentityKey) (r : Record)
    (expected : Option Int) :
    (InstanceWrite.ofRecord l identity r expected).score =
      some (((r.get? f.name).bind f.kind.score).getD .zero) := by
  have hname : f.name = order.field := (Layout.of_field? hf).2
  simp [InstanceWrite.ofRecord, Record.score, horder, hf, hname]

/-- The field of the default order, as it is stored, weighs what the record has scored just if the
write brings its rank. -/
theorem Written.weight_iff {space : String} {s : Schema} (hl : s.layout space = .ok l)
    {order : SortOrder} (horder : l.defaultOrdering = some order)
    (hf : l.field? order.field = some f) {identity : IdentityKey} {r : Record}
    {expected : Option Int} {w : InstanceWrite} (hw : w = .ofRecord l identity r expected)
    {c : Checked} (hc : WriteChecked ks (.ofLayout l) w c)
    (hid : Assigned (.ofLayout l) w ks id ks₁)
    (h : Written (.ofLayout l) w c id ks₁ ks') :
    numericWeight (ks'.field? (l.keys.object id) f.name) = .ok (w.score.getD .zero) ↔
      BringsRank l f r w ⟨id, c.version⟩ := by
  subst hw
  have hscore := score_ofRecord horder hf identity r expected
  unfold BringsRank
  obtain ⟨n, hn, hbound, hstored⟩ | ⟨hnone, hstored⟩ :=
    h.field?_supplied hl (Layout.of_field? hf).1 hc hid
  · rw [hn, hstored, numericWeight_intText hbound, hscore, Except.ok.injEq, Option.getD_some]
    exact eq_comm.trans (Option.some.injEq ..).symm.to_iff
  · rw [hnone, hstored, hscore, Option.getD_some]
    exact r.numericWeight_text?_iff f

/-- Every id stands in the collection of all ids by the number that the stored field weighs. -/
def Ranked (l : Layout) (field : String) (ks : Keyspace) : Prop :=
  ∀ id x, ks.score? l.keys.ids id = some x →
    numericWeight (ks.field? (l.keys.object id) field) = .ok x

/-- The collection of all ids lists them in the order of the stored field. -/
def InRankOrder (l : Layout) (field : String) (ks : Keyspace) : Prop :=
  ∃ found, ks.execute (.zrange l.keys.ids 0 (-1) false) = (.list found, ks) ∧
    ks.Listed l.keys.ids found ∧
    found.Pairwise fun a b => ∃ x y,
      numericWeight (ks.field? (l.keys.object a) field) = .ok x ∧
        numericWeight (ks.field? (l.keys.object b) field) = .ok y ∧ scoredLE (a, x) (b, y) = true

/-- Of two different items of a list, one comes before the other. -/
theorem rel_or_rel {α : Type} {R : α → α → Prop} {items : List α} (h : items.Pairwise R) {a b : α}
    (ha : a ∈ items) (hb : b ∈ items) (hab : a ≠ b) : R a b ∨ R b a :=
  have : Std.Symm fun a b => R a b ∨ R b a := ⟨fun _ _ => Or.symm⟩
  (h.imp .inl : items.Pairwise fun a b => R a b ∨ R b a).forall ha hb hab

/-- If the ids are listed in the order of the stored field, any two of them are so by their scores
just as they are by what the field weighs. -/
theorem InRankOrder.agrees {field : String} (h : InRankOrder l field ks)
    (hfits : ks.Fits l.keys.ids .sortedSet) {a b : String} (hab : a ≠ b) {x y p q : Double}
    (hx : ks.score? l.keys.ids a = some x) (hy : ks.score? l.keys.ids b = some y)
    (hp : numericWeight (ks.field? (l.keys.object a) field) = .ok p)
    (hq : numericWeight (ks.field? (l.keys.object b) field) = .ok q) :
    scoredLE (a, x) (b, y) = true ∧ scoredLE (a, p) (b, q) = true ∨
      scoredLE (b, y) (a, x) = true ∧ scoredLE (b, q) (a, p) = true := by
  obtain ⟨found, hrun, hlisted, hweights⟩ := h
  obtain ⟨found', hrun', -, hscores⟩ := hfits.execute_zrange_pairwise
  obtain rfl : found = found' := Reply.list.inj (Prod.mk.inj (hrun.symm.trans hrun')).1
  have hmem : ∀ m z, ks.score? l.keys.ids m = some z → m ∈ found := fun m z hz =>
    (hlisted.mem_iff m).mpr (Option.isSome_of_eq_some hz)
  -- one of the two is listed before the other
  rcases rel_or_rel (hscores.and hweights) (hmem a x hx) (hmem b y hy) hab with
    ⟨⟨x', y', hx', hy', hle⟩, p', q', hp', hq', hle'⟩ |
    ⟨⟨y', x', hy', hx', hle⟩, q', p', hq', hp', hle'⟩
  all_goals
    obtain rfl := Option.some.inj (hx.symm.trans hx')
    obtain rfl := Option.some.inj (hy.symm.trans hy')
    obtain rfl := Except.ok.inj (hp.symm.trans hp')
    obtain rfl := Except.ok.inj (hq.symm.trans hq')
  · exact .inl ⟨hle, hle'⟩
  · exact .inr ⟨hle, hle'⟩

namespace Ranked

variable {field : String}

/-- Ids that stand by what the stored field weighs are listed in its order. -/
theorem inRankOrder (h : Ranked l field ks) (hfits : ks.Fits l.keys.ids .sortedSet) :
    InRankOrder l field ks := by
  obtain ⟨found, hrun, hlisted, hpairwise⟩ := hfits.execute_zrange_pairwise
  refine ⟨found, hrun, hlisted, hpairwise.imp ?_⟩
  rintro a b ⟨x, y, hx, hy, hle⟩
  exact ⟨x, y, h a x hx, h b y hy, hle⟩

/-- No id stands anywhere in a key space without keys. -/
theorem empty (l : Layout) (field : String) (now : Nat) : Ranked l field ⟨∅, now⟩ := by
  intro id x hx
  simp [score?, data?] at hx

/-- Assigning an id changes no rank. -/
theorem assigned {w : InstanceWrite} (h : Ranked l field ks)
    (hid : Assigned (.ofLayout l) w ks id ks₁) : Ranked l field ks₁ := by
  have hsame : ∀ {k s}, l.keys.InSection k s → s ≠ .counter → ks₁.data? k = ks.data? k := by
    intro k s hk hs
    cases hid with
    | named => rfl
    | counted => exact (ChangedAt.update ks rfl).data? (hk.ne (.counter rfl) hs)
  intro i x hx
  rw [field?, hsame (.object i rfl) (by decide)]
  refine h i x ?_
  rwa [score?, hsame (.ids rfl) (by decide)] at hx

/-- While the ids stand by what the stored field weighs, they go on to do so behind a write just if
the id that is written does. -/
theorem written_iff (h : Ranked l field ks) (hordered : l.isOrdered = true) {w : InstanceWrite}
    {c : Checked} (hwritten : Written (.ofLayout l) w c id ks ks') :
    Ranked l field ks' ↔
      numericWeight (ks'.field? (l.keys.object id) field) = .ok (w.score.getD .zero) := by
  have hplaced : placed (.ofLayout l) (w.score.getD .zero) = w.score.getD .zero := if_pos hordered
  have hids : ∀ i, ks'.score? l.keys.ids i =
      if i = id then some (w.score.getD .zero) else ks.score? l.keys.ids i := by
    rw [← hplaced]
    exact hwritten.ids
  constructor
  · intro hafter
    refine hafter id _ ?_
    rw [hids, if_pos rfl]
  · intro hweight i x hx
    rw [hids] at hx
    split at hx
    next hi =>
      cases hx
      rwa [hi]
    next hi =>
      rw [field?, show ks'.data? (l.keys.object i) = _ from hwritten.objects i hi]
      exact h i x hx

/-- While the ids stand by what the stored field weighs, they go on to do so behind a delete just if
no id but zeros lies where a container is swept away. -/
theorem swept_iff {a : String} (h : Ranked l field ks)
    (hids : ∀ i, ks'.score? l.keys.ids i = if i = a then none else ks.score? l.keys.ids i)
    (hswept : Swept (.ofLayout l) a ks ks') :
    Ranked l field ks' ↔ ((ks.data? (l.keys.object a)).isSome → ∀ name ∈ l.structures, ∀ x,
      ks.score? l.keys.ids (a ++ ":" ++ name) = some x → x = .zero) := by
  constructor
  · intro hafter hthere name hname x hx
    have hgone := hswept (a ++ ":" ++ name)
    rw [if_pos ⟨hthere, .inr ⟨name, hname, rfl⟩⟩] at hgone
    have hweight := hafter (a ++ ":" ++ name) x (by rw [hids, if_neg (container_id_ne a name), hx])
    rw [show ks'.field? (l.keys.object (a ++ ":" ++ name)) field = none from
      field?_eq_none hgone field] at hweight
    exact (Except.ok.inj hweight).symm
  · intro hzero i x hx
    rw [hids] at hx
    split at hx
    next => cases hx
    next hi =>
      have hrecord := hswept i
      split at hrecord
      next hgone =>
        obtain ⟨hthere, rfl | ⟨name, hname, rfl⟩⟩ := hgone
        · exact absurd rfl hi
        · rw [show ks'.field? (l.keys.object (a ++ ":" ++ name)) field = none from
            field?_eq_none hrecord field, hzero hthere name hname x hx]
          rfl
      next =>
        rw [field?, show ks'.data? (l.keys.object i) = _ from hrecord]
        exact h i x hx

end Ranked

/-- An accepted write of a record brings the score that the stored field weighs. -/
def Visit.BringsRank (l : Layout) (f : Field) (u : Visit) : Prop :=
  match u.turn, u.result with
  | .write w, .ok (.written ack) => ∃ identity r expected,
    w = .ofRecord l identity r expected ∧ CommitScript.BringsRank l f r w ack
  | _, _ => True

/-- An accepted delete of a record takes no other record along, which lies where a container of the
one is kept, unless its id stands by zero. -/
def Visit.SparesRanks (l : Layout) (u : Visit) : Prop :=
  match u.turn with
  | .delete id => u.accepted → (u.before.data? (l.keys.object id)).isSome →
    ∀ name ∈ l.structures, ∀ x,
      u.before.score? l.keys.ids (id ++ ":" ++ name) = some x → x = .zero
  | .write _ => True

/-- Over any run of an ordered model, from a key space without keys, the collection of all ids is a
sorted set. -/
theorem fits_ids_of_history (hordered : l.isOrdered = true) {now : Nat} {ss : List Submission}
    {u : Visit} (hu : u ∈ history (.ofLayout l) ⟨∅, now⟩ ss) :
    u.after.Fits l.keys.ids .sortedSet := by
  have hexpects : (Batch.ofLayout l).Expects l.keys.ids .sortedSet := by
    rw [← show memberKind (.ofLayout l) = .sortedSet from if_pos hordered]
    exact expects_ids (.ofLayout l)
  have hempty : (⟨∅, now⟩ : Keyspace).Fits l.keys.ids .sortedSet := .of_none (by simp [data?])
  obtain ⟨ts, hts⟩ := history_eq_visits (.ofLayout l) ⟨∅, now⟩ ss
  rw [hts] at hu
  have hstep : ∀ u ∈ visits (.ofLayout l) ⟨∅, now⟩ ts,
      u.before.Fits l.keys.ids .sortedSet → u.after.Fits l.keys.ids .sortedSet := by
    intro u hu hfits
    rw [eq_visit_of_mem hu]
    exact keepsKinds_visit _ _ _ _ _ hexpects hfits
  exact hstep u hu (holds_before (P := fun ks => ks.Fits l.keys.ids .sortedSet) hempty hstep u hu)

section Runs

variable {space : String} {s : Schema} (hl : s.layout space = .ok l) {order : SortOrder}
  (horder : l.defaultOrdering = some order) (hf : l.field? order.field = some f)
include hl horder hf

/-- An accepted write enters the id by a number that the stored field weighs just if the write
brings its rank. -/
theorem visit_weight_iff {w : InstanceWrite}
    (hrecord : ∃ identity r expected, w = .ofRecord l identity r expected) {ack : WriteAck}
    (hresult : (visit (.ofLayout l) ks (.write w)).result = .ok (.written ack)) :
    (visit (.ofLayout l) ks (.write w)).after.score? l.keys.ids ack.id =
        some (w.score.getD .zero) ∧
      (numericWeight ((visit (.ofLayout l) ks (.write w)).after.field? (l.keys.object ack.id)
          f.name) = .ok (w.score.getD .zero) ↔
        (visit (.ofLayout l) ks (.write w)).BringsRank l f) := by
  have hordered : l.isOrdered = true := by simp [Layout.isOrdered, horder]
  obtain ⟨e, hvisit⟩ | ⟨c, id, ks₁, ks', hc, hid, hwritten, hvisit⟩ :=
    visit_write (.ofLayout l) ks w
  · rw [hvisit] at hresult
    cases hresult
  · rw [hvisit] at hresult ⊢
    cases hresult
    have hids := hwritten.ids id
    rw [if_pos rfl, placed, if_pos (show (Batch.ofLayout l).ordered = true from hordered)] at hids
    refine ⟨hids, fun hweight => ?_, ?_⟩
    · obtain ⟨identity, r, expected, hw⟩ := hrecord
      exact ⟨identity, r, expected, hw,
        (hwritten.weight_iff hl horder hf hw hc hid).mp hweight⟩
    · rintro ⟨identity, r, expected, hw, hbrings⟩
      exact (hwritten.weight_iff hl horder hf hw hc hid).mpr hbrings

/-- While the ids stand by what the stored field weighs, they go on to do so behind an instance just
if the instance, written, brings its rank, or, deleted, spares those of others. -/
theorem Ranked.visit_iff (h : Ranked l f.name ks) {t : Turn}
    (hrecord : ∀ w, t = .write w → ∃ identity r expected, w = .ofRecord l identity r expected) :
    Ranked l f.name (visit (.ofLayout l) ks t).after ↔
      (visit (.ofLayout l) ks t).BringsRank l f ∧ (visit (.ofLayout l) ks t).SparesRanks l := by
  have hordered : l.isOrdered = true := by simp [Layout.isOrdered, horder]
  cases t with
  | delete id =>
    obtain ⟨e, hvisit⟩ | ⟨record, ks', -, hdeleted, -, hvisit⟩ := visit_delete (.ofLayout l) ks id
    · rw [hvisit]
      exact iff_of_true h ⟨trivial, fun haccepted => nomatch haccepted⟩
    · have haccepted : (visit (.ofLayout l) ks (.delete id)).accepted := by
        rw [hvisit]
        rfl
      have hswept := (of_visit_delete haccepted).2
      rw [hvisit] at hswept ⊢
      rw [h.swept_iff hdeleted.ids hswept]
      exact ⟨fun hspares => ⟨trivial, fun _ => hspares⟩, fun hspares => hspares.2 rfl⟩
  | write w =>
    obtain ⟨e, hvisit⟩ | ⟨c, id, ks₁, ks', -, hid, hwritten, hvisit⟩ :=
      visit_write (.ofLayout l) ks w
    · rw [hvisit]
      exact iff_of_true h ⟨trivial, trivial⟩
    · have hweight := visit_weight_iff hl horder hf (hrecord w rfl) (congrArg Visit.result hvisit)
      rw [hvisit] at hweight ⊢
      rw [(h.assigned hid).written_iff hordered hwritten, hweight.2]
      exact ⟨fun hbrings => ⟨hbrings, trivial⟩, And.left⟩

/-- A write of a record with a number in a field that the store does not supply brings its rank. -/
theorem bringsRank_of_isNumber (hversion : l.versionField ≠ some f.name) (ks : Keyspace)
    {identity : IdentityKey} {r : Record} {expected : Option Int}
    (hidentity : l.identity.name = f.name →
      (InstanceWrite.ofRecord l identity r expected).id.isSome)
    (hvalue : ∀ v, r.get? f.name = some v → v.IsNumber) :
    (visit (.ofLayout l) ks (.write (.ofRecord l identity r expected))).BringsRank l f := by
  obtain ⟨e, hvisit⟩ | ⟨c, id, ks₁, ks', -, -, -, hvisit⟩ :=
    visit_write (.ofLayout l) ks (.ofRecord l identity r expected)
  · rw [hvisit]
    trivial
  · rw [hvisit]
    refine ⟨identity, r, expected, rfl, ?_⟩
    have hnone : supplied? (.ofLayout l) f.name (.ofRecord l identity r expected)
        ⟨id, c.version⟩ = none := by
      rw [supplied?, if_neg (show ¬(Batch.ofLayout l).versionField = some f.name from hversion)]
      refine if_neg fun ⟨hname, hid⟩ => ?_
      have hsome := hidentity hname
      rw [hid] at hsome
      cases hsome
    rw [CommitScript.BringsRank, hnone]
    exact fun v hv =>
      FieldKind.reads_of_isNumber (Schema.layout_ordering hl horder hf) (hvalue v hv)

/-- On every ordered model, over any run of commits of records, an accepted write enters its id by a
score, and the stored field of the default order weighs that score just if the write brings the
number that the store puts there itself, a version or an assigned id, or else a value whose text is
read as its score, as every number is. Where the ids stand by what the stored field weighs, they go
on to do so behind every instance just if all accepted writes bring their ranks and all accepted
deletes spare those of others; and then the collection of all ids is in the order of the stored
field. -/
theorem ids_ranked_iff {ss : List Submission} (hrecords : ∀ s ∈ ss, ∀ w ∈ s.writes,
      ∃ identity r expected, w = .ofRecord l identity r expected) :
    (∀ ks, ∀ u ∈ history (.ofLayout l) ks ss, ∀ ack, u.result = .ok (.written ack) →
      ∃ x, u.after.score? l.keys.ids ack.id = some x ∧
        (numericWeight (u.after.field? (l.keys.object ack.id) order.field) = .ok x ↔
          u.BringsRank l f)) ∧
    (l.versionField ≠ some f.name → ∀ ks identity r expected,
      (l.identity.name = f.name → (InstanceWrite.ofRecord l identity r expected).id.isSome) →
      (∀ v, r.get? f.name = some v → v.IsNumber) →
      (visit (.ofLayout l) ks (.write (.ofRecord l identity r expected))).BringsRank l f) ∧
    (∀ ks, Ranked l order.field ks →
      ((∀ u ∈ history (.ofLayout l) ks ss, Ranked l order.field u.after) ↔
        ∀ u ∈ history (.ofLayout l) ks ss, u.BringsRank l f ∧ u.SparesRanks l)) ∧
    (∀ now, ∀ u ∈ history (.ofLayout l) ⟨∅, now⟩ ss, Ranked l order.field u.after →
      InRankOrder l order.field u.after) := by
  have hname : f.name = order.field := (Layout.of_field? hf).2
  have hordered : l.isOrdered = true := by simp [Layout.isOrdered, horder]
  rw [← hname]
  refine ⟨fun ks u hu ack hresult => ?_, fun hversion ks identity r expected =>
    bringsRank_of_isNumber hl horder hf hversion ks, fun ks hranked => ?_,
    fun now u hu hranked => ?_⟩
  · have hvisit := eq_visit_of_mem_history hu
    obtain ⟨w, hturn⟩ := exists_write_of_result (hvisit ▸ hresult)
    obtain ⟨s, hs, hmem⟩ := mem_writes_of_history hu hturn
    rw [hturn] at hvisit
    rw [hvisit] at hresult ⊢
    exact ⟨_, visit_weight_iff hl horder hf (hrecords s hs w hmem) hresult⟩
  · exact forall_history_iff (fun ks t hrecord h => h.visit_iff hl horder hf hrecord) hranked
      hrecords
  · exact hranked.inRankOrder (fits_ids_of_history hordered hu)

end Runs

/-- Entries of a log, in the order of their numbers, which are assigned by the store. -/
def entry : ShapedModel where
  tag := ⟨"entry", some "id", []⟩
  fields := [Sample.assignedId .int64, .plain "text" .text]
  ownFailures := Sample.noRules

/-- The layout of the entries. -/
def entries : Layout :=
  { tag := entry.tag, keys := .ofModel "kvm." "entry"
    identity := (Sample.assignedId .int64).field, fields := entry.schema.fields
    defaultOrdering := some ⟨"id", false⟩, versionField := none }

/-- The entries are laid out as their declaration says. -/
theorem layout_entry : entry.schema.layout "kvm." = .ok entries := by rfl

/-- The write of an entry that has got its number. -/
def entryWrite (n : Int64) : InstanceWrite :=
  .ofRecord entries "entry" ⟨[("id", .int n), ("text", .text "noted")]⟩ none

/-- The write of an entry that has no number yet. -/
def newEntry : InstanceWrite :=
  .ofRecord entries "entry" ⟨[("id", .null), ("text", .text "noted")]⟩ none

/-- Entries that have got their numbers are listed in the order of these. -/
theorem ids_ranked_iff_entries :
    entry.schema.layout "kvm." = .ok entries ∧ entries.defaultOrdering = some ⟨"id", false⟩ ∧
      ∃ u v, history (.ofLayout entries) ⟨∅, 0⟩ [⟨[entryWrite 2, entryWrite 1], []⟩] = [u, v] ∧
        u.accepted ∧ v.accepted ∧ Ranked entries "id" u.after ∧ Ranked entries "id" v.after ∧
        InRankOrder entries "id" v.after := by
  let ss : List Submission := [⟨[entryWrite 2, entryWrite 1], []⟩]
  have hf : entries.field? "id" = some (Sample.assignedId .int64).field := rfl
  have hwrites : ∀ s ∈ ss, ∀ w ∈ s.writes, ∃ n, w = entryWrite n := by
    intro s hs w hw
    obtain rfl := List.mem_singleton.mp hs
    rcases List.mem_pair.mp hw with rfl | rfl
    · exact ⟨2, rfl⟩
    · exact ⟨1, rfl⟩
  have hrecords : ∀ s ∈ ss, ∀ w ∈ s.writes,
      ∃ identity r expected, w = .ofRecord entries identity r expected := by
    intro s hs w hw
    obtain ⟨n, rfl⟩ := hwrites s hs w hw
    exact ⟨_, _, _, rfl⟩
  obtain ⟨-, hnumbers, hiff, hlisted⟩ := ids_ranked_iff layout_entry rfl hf hrecords
  have hundeleted : ∀ u ∈ history (.ofLayout entries) ⟨∅, 0⟩ ss, u.turn.id? = none := by
    decide +kernel
  have hbrings : ∀ u ∈ history (.ofLayout entries) ⟨∅, 0⟩ ss,
      u.BringsRank entries (Sample.assignedId .int64).field ∧ u.SparesRanks entries := by
    intro u hu
    have hturn : ∃ n, u.turn = .write (entryWrite n) := by
      cases hturn : u.turn with
      | delete id => simpa [hturn, Turn.id?] using hundeleted u hu
      | write w =>
        obtain ⟨s, hs, hmem⟩ := mem_writes_of_history hu hturn
        exact (hwrites s hs w hmem).imp fun n hn => congrArg Turn.write hn
    obtain ⟨n, hturn⟩ := hturn
    rw [eq_visit_of_mem_history hu, hturn]
    refine ⟨hnumbers (by decide) _ _ _ _ (fun _ => rfl) fun v hv => ?_, trivial⟩
    cases hv
    trivial
  have hranked := (hiff ⟨∅, 0⟩ (.empty entries "id" 0)).mpr hbrings
  have haccepted : ∀ u ∈ history (.ofLayout entries) ⟨∅, 0⟩ ss, u.accepted := by decide +kernel
  obtain ⟨u, v, huv⟩ : ∃ u v, history (.ofLayout entries) ⟨∅, 0⟩ ss = [u, v] := ⟨_, _, rfl⟩
  have hu : u ∈ history (.ofLayout entries) ⟨∅, 0⟩ ss := by simp [huv]
  have hv : v ∈ history (.ofLayout entries) ⟨∅, 0⟩ ss := by simp [huv]
  exact ⟨layout_entry, rfl, u, v, huv, haccepted u hu, haccepted v hv, hranked u hu, hranked v hv,
    hlisted 0 v hv (hranked v hv)⟩

/-- Where an entry stands, and what its stored number weighs. -/
theorem entry_stands (ks : Keyspace) (id : String) {n m : Int} (hm : m.natAbs < 2 ^ 64)
    (hscore : (ks.score? entries.keys.ids id).map Double.bits = some (Double.ofInt n).bits)
    (hstored : ks.field? (entries.keys.object id) "id" = some (Number.intText m)) :
    ks.score? entries.keys.ids id = some (.ofInt n) ∧
      numericWeight (ks.field? (entries.keys.object id) "id") = .ok (.ofInt m) := by
  obtain ⟨x, hx, hbits⟩ := Option.map_eq_some_iff.mp hscore
  exact ⟨hx.trans (congrArg some (congrArg Double.mk hbits)), hstored ▸ numericWeight_intText hm⟩

/-- An entry that has no number yet stands at zero, although it is stored with the number that it
gets; so it stands before one that was written again when its number was known. -/
theorem ids_unranked :
    entry.schema.layout "kvm." = .ok entries ∧ entries.defaultOrdering = some ⟨"id", false⟩ ∧
      ∃ u v w, history (.ofLayout entries) ⟨∅, 0⟩ [⟨[newEntry, entryWrite 1, newEntry], []⟩] =
          [u, v, w] ∧ u.accepted ∧ v.accepted ∧ w.accepted ∧
        ¬Ranked entries "id" u.after ∧ ¬InRankOrder entries "id" w.after := by
  let u := visit (.ofLayout entries) ⟨∅, 0⟩ (.write newEntry)
  let v := visit (.ofLayout entries) u.after (.write (entryWrite 1))
  let w := visit (.ofLayout entries) v.after (.write newEntry)
  have huvw : history (.ofLayout entries) ⟨∅, 0⟩ [⟨[newEntry, entryWrite 1, newEntry], []⟩] =
    [u, v, w] := rfl
  refine ⟨layout_entry, rfl, u, v, w, huvw, by decide +kernel, by decide +kernel,
    by decide +kernel, fun hranked => ?_, fun hlisted => ?_⟩
  · obtain ⟨hscore, hweight⟩ := entry_stands u.after "1" (n := 0) (m := 1) (by decide)
      (by decide +kernel) (by decide +kernel)
    have heq := Except.ok.inj (hweight.symm.trans (hranked "1" _ hscore))
    exact absurd (congrArg Double.bits heq) (by decide +kernel)
  · obtain ⟨hscore₁, hweight₁⟩ := entry_stands w.after "1" (n := 1) (m := 1) (by decide)
      (by decide +kernel) (by decide +kernel)
    obtain ⟨hscore₂, hweight₂⟩ := entry_stands w.after "2" (n := 0) (m := 2) (by decide)
      (by decide +kernel) (by decide +kernel)
    have hw : w ∈ history (.ofLayout entries) ⟨∅, 0⟩
        [⟨[newEntry, entryWrite 1, newEntry], []⟩] := by simp [huvw]
    have hfits : w.after.Fits entries.keys.ids .sortedSet := fits_ids_of_history rfl hw
    have hagrees := hlisted.agrees hfits (a := "1") (b := "2") (by decide) hscore₁ hscore₂
      hweight₁ hweight₂
    exact absurd hagrees (by decide +kernel)

end CommitScript

end KeyedRecords

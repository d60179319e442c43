import KeyedRecords.Proofs.Commit.History

/-!
# Assigned ids

The counter of a model assigns one number after another, whatever ids writes have named meanwhile.
As long as no accepted write names an id before the counter has reached it (`Ahead`), the counter
assigns that id while it has no record, and the records that there are stay as they are
(`assigned_fresh`). An id that has been named ahead of the counter is assigned all the same, and
its record is lost (`assigned_over_named`).
-/

namespace KeyedRecords

namespace CommitScript

open Keyspace

variable {ks ks' : Keyspace} {b : Batch} {id : String}

/-- An id is the text of a number that the counter has yet to reach. -/
def Ahead (keys : ModelKeys) (ks : Keyspace) (id : String) : Prop :=
  ∃ n ∈ Number.readInt? id, id = Number.intText n ∧ ∃ c ∈ ks.counter? keys.counter, c < n

instance (keys : ModelKeys) (ks : Keyspace) (id : String) : Decidable (Ahead keys ks id) :=
  inferInstanceAs (Decidable (∃ n ∈ Number.readInt? id, _))

/-- The text of the next number is ahead of the counter. -/
theorem ahead_next {keys : ModelKeys} {n : Int} (h : ks.counter? keys.counter = some n) :
    Ahead keys ks (Number.intText (n + 1)) :=
  ⟨n + 1, Number.readInt?_intText _, rfl, n, h, Int.lt_succ n⟩

/-- While the counter stands where it stood, the same ids are ahead of it. -/
theorem ahead_congr {keys : ModelKeys} (h : ks'.data? keys.counter = ks.data? keys.counter) :
    Ahead keys ks' id ↔ Ahead keys ks id := by
  unfold Ahead
  rw [counter?_congr h]

/-- An id that is ahead of the counter has no record. -/
def Vacant (keys : ModelKeys) (id : String) (ks : Keyspace) : Prop :=
  (ks.data? (keys.object id)).isSome → ¬Ahead keys ks id

/-- When the counter takes the next number, an id stays vacant that was so. -/
theorem Vacant.counted {keys : ModelKeys} {n : Int} (h : Vacant keys id ks)
    (hcounter : ks.counter? keys.counter = some n) (hfits : Number.fitsInt64 (n + 1) = true) :
    Vacant keys id (ks.update keys.counter (.string (Number.intText (n + 1)))) := by
  intro hthere ⟨m, hm, hid, c, hc, hlt⟩
  have hne : keys.object id ≠ keys.counter :=
    ModelKeys.InSection.ne (.object id rfl) (.counter rfl) (by simp)
  rw [data?_update, if_neg hne] at hthere
  -- what is ahead of the next number is ahead of this one
  obtain rfl : n + 1 = c := Option.some.inj ((counter?_update hfits _).symm.trans hc)
  exact h hthere ⟨m, hm, hid, n, hcounter, by omega⟩

/-- Reaching an instance leaves an id vacant, unless it is a write that names the id ahead of the
counter. -/
theorem Vacant.visit (h : Vacant b.keys id ks) {t : Turn}
    (hnamed : (visit b ks t).accepted → (visit b ks t).named? = some id → ¬Ahead b.keys ks id) :
    Vacant b.keys id (visit b ks t).after := by
  cases t with
  | delete i =>
    obtain ⟨e, hvisit⟩ | ⟨record, ks', -, hdeleted, hobjects, hvisit⟩ := visit_delete b ks i
    · rwa [hvisit]
    · rw [hvisit]
      intro hthere
      rw [ahead_congr hdeleted.counter]
      -- a record that is there behind a delete was there before it
      rcases hobjects id with hgone | hsame
      · rw [data?, hgone] at hthere
        cases hthere
      · exact h (by rwa [data?, hsame] at hthere)
  | write w =>
    obtain ⟨e, hvisit⟩ | ⟨c, i, ks₁, ks', hc, hid, hwritten, hvisit⟩ := visit_write b ks w
    · rwa [hvisit]
    · rw [hvisit] at hnamed ⊢
      intro hthere
      rw [ahead_congr hwritten.counter]
      cases hid with
      | named hid =>
        by_cases heq : id = i
        · subst heq
          exact hnamed rfl hid
        · exact h (by rwa [hwritten.objects id heq] at hthere)
      | @counted n hid hcounter hfits =>
        by_cases heq : id = Number.intText (n + 1)
        -- the counter has just reached the number
        · rintro ⟨m, -, hm, c, hc, hlt⟩
          obtain rfl : n + 1 = c := Option.some.inj ((counter?_update hfits _).symm.trans hc)
          obtain rfl : n + 1 = m := Number.intText_inj.mp (heq.symm.trans hm)
          omega
        · exact h.counted hcounter hfits (by rwa [hwritten.objects id heq] at hthere)

/-- A record and all that belongs to it is as it was: its fields, its places in the collections of
the model, and the values that it owns. -/
structure Untouched (keys : ModelKeys) (i : String) (ks ks' : Keyspace) : Prop where
  /-- The record is the same, and so is its version. -/
  record : ks'.data? (keys.object i) = ks.data? (keys.object i)
  /-- It has its place in the collection of all ids. -/
  ids : ks'.score? keys.ids i = ks.score? keys.ids i
  /-- It is entered in the indexes where it was. -/
  member : ∀ k, keys.InSection k .index → ks'.score? k i = ks.score? k i
  /-- It owns the values that it owned. -/
  owner : ∀ k, keys.InSection k .unique → ∀ v, ks.field? k v = some i → ks'.field? k v = some i

/-- A write that is assigned its id touches no record but the one under that id. -/
theorem Untouched.of_written {w : InstanceWrite} {c : Checked} {n : Int} {i : String}
    (hid : w.id = none) (hc : WriteChecked ks b w c)
    (hwritten : Written b w c id
      (ks.update b.keys.counter (.string (Number.intText n))) ks') (hi : i ≠ id) :
    Untouched b.keys i ks ks' := by
  have hdata : ∀ {k s}, b.keys.InSection k s → s ≠ .counter →
      (ks.update b.keys.counter (.string (Number.intText n))).data? k = ks.data? k :=
    fun hk hs => by rw [data?_update, if_neg (hk.ne (.counter rfl) hs)]
  have hscore : ∀ {k s}, b.keys.InSection k s → s ≠ .counter → ∀ m,
      (ks.update b.keys.counter (.string (Number.intText n))).score? k m = ks.score? k m :=
    fun hk hs m => by rw [score?, score?, hdata hk hs]
  constructor
  case record => rw [hwritten.objects i hi, hdata (.object i rfl) (by simp)]
  case ids => rw [hwritten.ids, if_neg hi, hscore (.ids rfl) (by simp)]
  case member =>
    intro k hk
    rw [hwritten.sameMember k i hk fun hand => hi hand.1, hscore hk (by simp)]
  case owner =>
    intro k hk v howner
    -- what somebody owns is no new value of an instance without an id
    have hnew : ¬UniqueEntry b (newValues w) b.indices k v := by
      rintro ⟨spec, hspec, hu, hv, rfl⟩
      have hsame := hc.unique spec hspec hu v hv i howner
      rw [hid] at hsame
      cases hsame
    -- and it has no stored values to drop
    have hold : ¬UniqueEntry b (droppedValues w c.record) b.indices k v := by
      rintro ⟨spec, -, -, hv, -⟩
      have hold := (droppedValues_eq_some_iff.mp hv).1
      rw [hc.unnamed hid] at hold
      cases hold
    rw [hwritten.sameOwner k v hk hnew hold, field?, hdata hk (by simp)]
    exact howner

/-- The counter assigns an id that is ahead of it, and no other record is touched. -/
theorem untouched_of_assigned {t : Turn} (h : (visit b ks t).assigned? = some id) :
    Ahead b.keys ks id ∧ ∀ i, i ≠ id → Untouched b.keys i ks (visit b ks t).after := by
  cases t with
  | delete i => cases h
  | write w =>
    obtain ⟨e, hvisit⟩ | ⟨c, i, ks₁, ks', hc, hid, hwritten, hvisit⟩ := visit_write b ks w
    · rw [hvisit] at h
      cases h
    · rw [hvisit] at h ⊢
      cases hid with
      | named hid => simp [Visit.assigned?, hid] at h
      | @counted n hid hcounter hfits =>
        obtain rfl : Number.intText (n + 1) = id := by simpa [Visit.assigned?, hid] using h
        exact ⟨ahead_next hcounter, fun i hi => .of_written hid hc hwritten hi⟩

/-- As long as no accepted write names an id ahead of the counter, that id has no record when the
counter assigns it, and no record that there is loses anything to the write. -/
theorem assigned_fresh (l : Layout) (now : Nat) (ss : List Submission) (id : String)
    (hnamed : ∀ u ∈ history (.ofLayout l) ⟨∅, now⟩ ss, u.accepted → u.named? = some id →
      ¬Ahead l.keys u.before id) :
    ∀ u ∈ history (.ofLayout l) ⟨∅, now⟩ ss, u.assigned? = some id →
      u.before.data? (l.keys.object id) = none ∧
        ∀ i, (u.before.data? (l.keys.object i)).isSome → Untouched l.keys i u.before u.after := by
  obtain ⟨ts, hts⟩ := history_eq_visits (.ofLayout l) ⟨∅, now⟩ ss
  rw [hts] at hnamed ⊢
  have hstart : Vacant l.keys id ⟨∅, now⟩ := by simp [Vacant, data?]
  have hvacant := holds_before hstart fun u hu h => by
    have hu' := eq_visit_of_mem hu
    rw [hu']
    refine Vacant.visit (b := .ofLayout l) h fun haccepted hid => ?_
    rw [← hu'] at haccepted hid
    exact hnamed u hu haccepted hid
  intro u hu hassigned
  have hu' := eq_visit_of_mem hu
  rw [hu'] at hassigned
  obtain ⟨hahead, huntouched⟩ := untouched_of_assigned hassigned
  have hnone : u.before.data? (l.keys.object id) = none := by
    rw [← Option.not_isSome_iff_eq_none]
    exact fun hthere => hvacant u hu hthere hahead
  refine ⟨hnone, fun i hi => ?_⟩
  rw [hu']
  refine huntouched i ?_
  rintro rfl
  rw [hnone] at hi
  cases hi

/-- A hero is written, changed and deleted, with another one far behind the counter, and then the
next one is written. -/
theorem assigned_fresh_hero :
    Sample.hero.schema.layout "kvm." = .ok heroes ∧ ∃ ss id,
      (∀ u ∈ history (.ofLayout heroes) ⟨∅, 0⟩ ss, u.accepted → u.named? = some id →
        ¬Ahead heroes.keys u.before id) ∧
      (∃ u ∈ history (.ofLayout heroes) ⟨∅, 0⟩ ss, u.assigned? = some id) ∧
      ∀ u ∈ history (.ofLayout heroes) ⟨∅, 0⟩ ss, u.assigned? = some id →
        u.before.data? (heroes.keys.object id) = none ∧
          ∀ i, (u.before.data? (heroes.keys.object i)).isSome →
            Untouched heroes.keys i u.before u.after := by
  let hero (fields : List (String × Value)) (version : Int) : InstanceWrite :=
    .ofRecord heroes "new:1" ⟨fields ++ [("name", .text "Ada"), ("team", .text "red")]⟩
      (some version)
  let ss : List Submission := [⟨[hero [] 0], []⟩,
    ⟨[hero [("id", .int 1)] 1, hero [("id", .int (-4))] 0], []⟩, ⟨[hero [] 0], [.ids ["1"]]⟩]
  have hnamed : ∀ u ∈ history (.ofLayout heroes) ⟨∅, 0⟩ ss, u.accepted → u.named? = some "2" →
      ¬Ahead heroes.keys u.before "2" := by decide +kernel
  have hassigned : ∃ u ∈ history (.ofLayout heroes) ⟨∅, 0⟩ ss, u.assigned? = some "2" := by
    decide +kernel
  exact ⟨layout_hero, ss, "2", hnamed, hassigned, assigned_fresh heroes 0 ss "2" hnamed⟩

/-- A hero is written under the number one, and then another one without an id. The counter assigns
the number one to it although it has a record, which is lost with its version, and stays entered
under the team of the first hero. -/
theorem assigned_over_named :
    Sample.hero.schema.layout "kvm." = .ok heroes ∧ heroes.autoId = true ∧ ∃ ss,
      ∃ u ∈ history (.ofLayout heroes) ⟨∅, 0⟩ ss, u.assigned? = some "1" ∧
        u.before.field? (heroes.keys.object "1") "name" = some "Ada" ∧
        u.after.field? (heroes.keys.object "1") "name" = some "Brin" ∧
        u.before.field? (heroes.keys.object "1") "version" = some "2" ∧
        u.after.field? (heroes.keys.object "1") "version" = some "1" ∧
        (u.after.score? (heroes.keys.index "team" "red") "1").isSome ∧
        u.after.field? (heroes.keys.object "1") "team" = some "blue" := by
  let ada (version : Int) : InstanceWrite :=
    .ofRecord heroes "hero:1" ⟨[("id", .int 1), ("name", .text "Ada"), ("team", .text "red")]⟩
      (some version)
  let brin : InstanceWrite :=
    .ofRecord heroes "new:1" ⟨[("name", .text "Brin"), ("team", .text "blue")]⟩ (some 0)
  exact ⟨layout_hero, rfl, [⟨[ada 0], []⟩, ⟨[ada 1], []⟩, ⟨[brin], []⟩], by decide +kernel⟩

end CommitScript

end KeyedRecords

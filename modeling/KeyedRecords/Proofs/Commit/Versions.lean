import KeyedRecords.Proofs.Commit.History

/-!
# Versions

A model with a version field loses no update: over any history, the accepted writes of a record
that does not expire expect the versions that it has been through, each of them once and in order
(`overwritten_versions`). One visit either takes the record from the version expected to the next,
or leaves its version as it is (`Stands.visit`). The version expected says nothing about a record
that has expired meanwhile, and nothing follows the greatest version (`overwritten_again_heroes`).
-/

namespace KeyedRecords

namespace CommitScript

open Keyspace

variable {ks ks' : Keyspace} {b : Batch} {w : InstanceWrite} {field : String}

/-- The version of the record of a key: zero without a record, or without the field. -/
def version? (ks : Keyspace) (key field : String) : Option Int :=
  match ks.field? key field with
  | none => some 0
  | some raw => Number.readInt? raw

/-- The version that an accepted write of an id has expected. -/
def Visit.overwritten? (id : String) (u : Visit) : Option Int :=
  match u.turn with
  | .write w => if u.accepted ∧ w.id = some id then some (w.expectedVersion.getD 0) else none
  | .delete _ => none

/-- What a key holds decides which version its record has. -/
theorem version?_congr {key : String} (h : ks'.data? key = ks.data? key) :
    version? ks' key field = version? ks key field := by
  rw [version?, version?, field?, field?, h]

/-- A key without a record stands at version zero. -/
theorem version?_of_none {key : String} (h : ks.data? key = none) :
    version? ks key field = some 0 := by
  rw [version?, field?, h]
  rfl

/-- A stored version is missing, which stands for zero, or it is an integer of 64 bits. A write that
passes the check expects it, and stores the next. -/
theorem checkVersion_cases {record : Option (Table String)} {version : Option Int}
    (hfield : b.versionField = some field) (h : checkVersion b w record = .ok version) :
    ∃ n : Int64, (oldValue? record field = none ∧ n = 0 ∨
        ∃ raw, oldValue? record field = some raw ∧ Number.readInt64? raw = some n) ∧
      n.toInt = w.expectedVersion.getD 0 ∧ version = some (n + 1).toInt := by
  -- whatever the stored version is, it is compared with the one expected
  have hcompare : ∀ (n : Int64) (e : BackendError),
      (if n.toInt = w.expectedVersion.getD 0 then pure (some (n + 1).toInt) else throw e :
        Except BackendError (Option Int)) = .ok version →
      n.toInt = w.expectedVersion.getD 0 ∧ version = some (n + 1).toInt := by
    intro n e hn
    split at hn
    next heq => exact ⟨heq, (pure_ok_iff.mp hn).symm⟩
    next => exact absurd hn (by simp [throw_ok_iff])
  unfold checkVersion at h
  simp only [hfield] at h
  cases hold : oldValue? record field with
  | none =>
    simp only [hold, pure_bind] at h
    exact ⟨0, .inl ⟨rfl, rfl⟩, hcompare 0 _ h⟩
  | some raw =>
    simp only [hold] at h
    cases hread : Number.readInt64? raw with
    | none => simp [hread, bind_ok_iff, throw_ok_iff] at h
    | some n =>
      simp only [hread, pure_bind] at h
      exact ⟨n, .inr ⟨raw, rfl, hread⟩, hcompare n _ h⟩

/-- A write that passes the check of its version expects the one that is stored, and stores the
next. -/
theorem checkVersion_ok {record : Option (Table String)} {version : Option Int} {key : String}
    (hfield : b.versionField = some field) (hrecord : HoldsRecord ks key record)
    (h : checkVersion b w record = .ok version) :
    ∃ n : Int64, version? ks key field = some n.toInt ∧ n.toInt = w.expectedVersion.getD 0 ∧
      version = some (n + 1).toInt := by
  obtain ⟨n, hstored, hexpected, hversion⟩ := checkVersion_cases hfield h
  refine ⟨n, ?_, hexpected, hversion⟩
  rw [version?, ← hrecord.2]
  obtain ⟨hold, rfl⟩ | ⟨raw, hold, hread⟩ := hstored
  · simp [hold]
  · simpa [hold] using Number.readInt?_of_readInt64? hread

/-- The version that a checked write stores is an integer of 64 bits. -/
theorem checkVersion_fits {record : Option (Table String)} {version : Option Int}
    (hfield : b.versionField = some field) (h : checkVersion b w record = .ok version) :
    ∃ n, version = some n ∧ Number.fitsInt64 n = true := by
  obtain ⟨n, -, -, hversion⟩ := checkVersion_cases hfield h
  exact ⟨(n + 1).toInt, hversion, Number.fitsInt64_toInt _⟩

/-- A version that is stored is read back. -/
theorem version?_of_written {c : Checked} {id : String} {next : Int}
    (hfield : b.versionField = some field) (hversion : c.version = some next)
    (h : Written b w c id ks ks') : version? ks' (b.keys.object id) field = some next := by
  rw [version?, h.fields, hversion, lookup_storedFields_version hfield]
  exact Number.readInt?_intText next

/-- Versions that follow one another, and then those that follow them. -/
theorem map_range_add (n : Int) (k m : Nat) :
    (List.range k).map (fun i : Nat => n + i) ++ (List.range m).map (fun i : Nat => n + k + i) =
      (List.range (k + m)).map fun i : Nat => n + i := by
  rw [List.range_add, List.map_append, List.map_map]
  congr 1
  exact List.map_congr_left fun i _ => by simp; omega

/-- A record stands at a version, and never expires. -/
structure Stands (keys : ModelKeys) (field id : String) (n : Int) (ks : Keyspace) : Prop where
  version : version? ks (keys.object id) field = some n
  lasts : ks.Lasts (keys.object id)

namespace Stands

variable {keys : ModelKeys} {id : String} {n : Int}

/-- It stands there as long as its entry is the same. -/
theorem of_entries (h : Stands keys field id n ks)
    (hsame : ks'.entries[keys.object id]? = ks.entries[keys.object id]?) :
    Stands keys field id n ks' where
  version := by
    rw [version?_congr, h.version]
    rw [data?, data?, hsame]
  lasts := h.lasts.of_entries hsame

/-- Time does not change it. -/
theorem sweep (h : Stands keys field id n ks) (now : Nat) :
    Stands keys field id n (ks.sweep now) :=
  h.of_entries (h.lasts.getElem?_sweep now)

/-- Where there was no record, and none is, it stands where it stood. -/
theorem missing (h : Stands keys field id n ks) (hmissing : ks.data? (keys.object id) = none)
    (hgone : ks'.entries[keys.object id]? = none) : Stands keys field id n ks' where
  version := by
    rw [version?_of_none, ← h.version, version?_of_none hmissing]
    rw [data?, hgone, Option.map_none]
  lasts := .of_none hgone

/-- A write of it expects the version where it stands, and takes it to the next. -/
theorem written {c : Checked} (h : Stands b.keys field id n ks)
    (hfield : b.versionField = some field) (hc : WriteChecked ks b w c) (hid : w.id = some id)
    (hwritten : Written b w c id ks ks')
    (hbelow : w.expectedVersion.getD 0 ≠ Int64.maxValue.toInt) :
    w.expectedVersion.getD 0 = n ∧ Stands b.keys field id (n + 1) ks' := by
  obtain ⟨m, hstored, hexpected, hnext⟩ := checkVersion_ok hfield (hc.named id hid).2 hc.version
  obtain rfl : n = m.toInt := Option.some.inj (h.version.symm.trans hstored)
  -- the greatest version alone has no next one
  have hlt : m < Int64.maxValue := by
    rw [← hexpected, ne_eq, Int64.toInt_inj] at hbelow
    exact Int64.lt_of_le_of_ne (Int64.le_maxValue m) hbelow
  rw [Number.toInt_add_one hlt] at hnext
  exact ⟨hexpected.symm, version?_of_written hfield hnext hwritten, hwritten.lasts⟩

/-- Reaching an instance takes a record from the version expected to the next if the instance is an
accepted write of it, and leaves its version as it is otherwise. -/
theorem visit (h : Stands b.keys field id n ks) (hfield : b.versionField = some field) {t : Turn}
    (hkept : ¬(visit b ks t).Removes (b.keys.object id))
    (hnamed : (visit b ks t).assigned? ≠ some id)
    (hbelow : (visit b ks t).overwritten? id ≠ some Int64.maxValue.toInt) :
    ((visit b ks t).overwritten? id = none ∧ Stands b.keys field id n (visit b ks t).after) ∨
      ((visit b ks t).overwritten? id = some n ∧
        Stands b.keys field id (n + 1) (visit b ks t).after) := by
  cases t with
  | delete i =>
    obtain ⟨e, hvisit⟩ | ⟨record, ks', -, -, hobjects, hvisit⟩ := visit_delete b ks i
    · rw [hvisit]
      exact .inl ⟨rfl, h⟩
    · rw [hvisit] at hkept ⊢
      refine .inl ⟨rfl, ?_⟩
      rcases hobjects id with hgone | hsame
      · refine h.missing ?_ hgone
        -- a record that is gone behind the delete was not there before it
        rw [← Option.not_isSome_iff_eq_none]
        exact fun hthere => hkept ⟨rfl, rfl, hthere, by simp [data?, hgone]⟩
      · exact h.of_entries hsame
  | write w =>
    obtain ⟨e, hvisit⟩ | ⟨c, i, ks₁, ks', hc, hid, hwritten, hvisit⟩ := visit_write b ks w
    · rw [hvisit]
      exact .inl ⟨by simp [Visit.overwritten?, Visit.accepted, Except.isOk, Except.toBool], h⟩
    · rw [hvisit] at hnamed hbelow ⊢
      by_cases hname : w.id = some id
      · cases hid with
        | counted hid => simp [hid] at hname
        | named hid =>
          obtain rfl : i = id := Option.some.inj (hid.symm.trans hname)
          have hover : (Visit.mk (.write w) ks (.ok (.written ⟨i, c.version⟩)) ks').overwritten? i =
              some (w.expectedVersion.getD 0) := by
            simp [Visit.overwritten?, Visit.accepted, Except.isOk, Except.toBool, hid]
          obtain ⟨hexpected, hnext⟩ := h.written hfield hc hid hwritten fun hmax =>
            hbelow (hover.trans (congrArg some hmax))
          exact .inr ⟨hover.trans (congrArg some hexpected), hnext⟩
      · have hother : id ≠ i := by
          rintro rfl
          cases hid with
          | named hid => exact hname hid
          | counted hid => simp [Visit.assigned?, hid] at hnamed
        refine .inl ⟨by simp [Visit.overwritten?, hname], h.of_entries ?_⟩
        exact (hwritten.others id hother).trans (hid.others id)

/-- Over a list of visits, the accepted writes of a record expect one version after another. -/
theorem visits (h : Stands b.keys field id n ks) (hfield : b.versionField = some field)
    {ts : List Turn} (hkept : ∀ u ∈ visits b ks ts, ¬u.Removes (b.keys.object id))
    (hnamed : ∀ u ∈ visits b ks ts, u.assigned? ≠ some id)
    (hbelow : ∀ u ∈ visits b ks ts, u.overwritten? id ≠ some Int64.maxValue.toInt) :
    ∃ k : Nat, (visits b ks ts).filterMap (Visit.overwritten? id) =
        (List.range k).map (fun i : Nat => n + i) ∧
      Stands b.keys field id (n + k) (behind ks (visits b ks ts)) := by
  induction ts generalizing ks n with
  | nil => exact ⟨0, rfl, by simpa [CommitScript.visits, behind] using h⟩
  | cons t rest ih =>
    obtain ⟨hkept₁, hkept⟩ := List.forall_mem_cons.mp hkept
    obtain ⟨hnamed₁, hnamed⟩ := List.forall_mem_cons.mp hnamed
    obtain ⟨hbelow₁, hbelow⟩ := List.forall_mem_cons.mp hbelow
    obtain ⟨hnone, hsame⟩ | ⟨hsome, hnext⟩ := h.visit hfield hkept₁ hnamed₁ hbelow₁
    · obtain ⟨k, hlist, hend⟩ := ih hsame hkept hnamed hbelow
      exact ⟨k, by rw [CommitScript.visits, List.filterMap_cons_none hnone, hlist], hend⟩
    · obtain ⟨k, hlist, hend⟩ := ih hnext hkept hnamed hbelow
      refine ⟨1 + k, ?_, ?_⟩
      · rw [CommitScript.visits, List.filterMap_cons_some hsome, hlist, ← map_range_add n 1 k]
        simp
      · rw [Int.natCast_add, ← Int.add_assoc]
        exact hend

/-- So they do over submissions that are committed as they arrive. -/
theorem arrivals {l : Layout} (h : Stands l.keys field id n ks)
    (hfield : l.versionField = some field) {as : List Arrival}
    (hkept : ∀ u ∈ historyAt (.ofLayout l) ks as, ¬u.Removes (l.keys.object id))
    (hnamed : ∀ u ∈ historyAt (.ofLayout l) ks as, u.assigned? ≠ some id)
    (hbelow : ∀ u ∈ historyAt (.ofLayout l) ks as,
      u.overwritten? id ≠ some Int64.maxValue.toInt) :
    ∃ k : Nat, (historyAt (.ofLayout l) ks as).filterMap (Visit.overwritten? id) =
        (List.range k).map (fun i : Nat => n + i) ∧
      Stands l.keys field id (n + k) (commitAt l ks as) := by
  induction as generalizing ks n with
  | nil => exact ⟨0, rfl, by simpa [commitAt] using h⟩
  | cons a rest ih =>
    obtain ⟨hkept₁, hkept⟩ := List.forall_mem_append.mp hkept
    obtain ⟨hnamed₁, hnamed⟩ := List.forall_mem_append.mp hnamed
    obtain ⟨hbelow₁, hbelow⟩ := List.forall_mem_append.mp hbelow
    obtain ⟨k, hlist, hmiddle⟩ :=
      (h.sweep a.now).visits (b := .ofLayout l) hfield hkept₁ hnamed₁ hbelow₁
    obtain ⟨m, hmore, hend⟩ := ih hmiddle hkept hnamed hbelow
    refine ⟨k + m, ?_, ?_⟩
    · rw [historyAt, List.filterMap_append, hlist, hmore, map_range_add]
    · rw [commitAt, execute_command_snd, Int.natCast_add, ← Int.add_assoc]
      exact hend

end Stands

/-- Commits of a model with versions arrive at any times. If a record does not expire, is not
deleted and is not assigned its id, the accepted writes of it expect the versions that it has been
through, each of them once and in order, and a refused write leaves everything as it was. None of
them may expect the greatest version, which has no next one. -/
theorem overwritten_versions {l : Layout} (hfield : l.versionField = some field) (ks : Keyspace)
    (as : List Arrival) (id : String) (v : Int)
    (hv : version? ks (l.keys.object id) field = some v) (hlasts : ks.Lasts (l.keys.object id))
    (hkept : ∀ u ∈ historyAt (.ofLayout l) ks as, ¬u.Removes (l.keys.object id))
    (hnamed : ∀ u ∈ historyAt (.ofLayout l) ks as, u.assigned? ≠ some id)
    (hbelow : ∀ u ∈ historyAt (.ofLayout l) ks as,
      u.overwritten? id ≠ some Int64.maxValue.toInt) :
    ∃ k : Nat,
      (historyAt (.ofLayout l) ks as).filterMap (Visit.overwritten? id) =
          (List.range k).map (fun i : Nat => v + i) ∧
        version? (commitAt l ks as) (l.keys.object id) field = some (v + k) ∧
        (∀ u ∈ historyAt (.ofLayout l) ks as, u.named? = some id → u.accepted = false →
          u.after = u.before) ∧
        ((historyAt (.ofLayout l) ks as).filterMap (Visit.overwritten? id)).Nodup := by
  have hstands : Stands l.keys field id v ks := ⟨hv, hlasts⟩
  obtain ⟨k, hlist, hend⟩ := hstands.arrivals hfield hkept hnamed hbelow
  refine ⟨k, hlist, hend.version, fun u hu _ hrefused => ?_, ?_⟩
  · rw [eq_visit_of_mem_historyAt hu] at hrefused ⊢
    exact visit_refused hrefused
  · rw [hlist]
    refine List.nodup_range.map fun i j hij => ?_
    have heq : v + (i : Int) = v + j := hij
    omega

/-- The write of the hero with the id 7. -/
def adaWrite (expected : Int) : InstanceWrite :=
  .ofRecord heroes "hero:7" ⟨[("id", .int 7), ("name", .text "Ada"), ("team", .text "red")]⟩
    (some expected)

/-- A hero is written, and a minute later twice with the same version expected, while another is
deleted. -/
theorem overwritten_versions_hero :
    Sample.hero.schema.layout "kvm." = .ok heroes ∧ heroes.versionField = some "version" ∧
      ∃ as id, version? ⟨∅, 0⟩ (heroes.keys.object id) "version" = some 0 ∧
      Keyspace.Lasts ⟨∅, 0⟩ (heroes.keys.object id) ∧
      (∀ u ∈ historyAt (.ofLayout heroes) ⟨∅, 0⟩ as, ¬u.Removes (heroes.keys.object id)) ∧
      (∀ u ∈ historyAt (.ofLayout heroes) ⟨∅, 0⟩ as, u.assigned? ≠ some id) ∧
      (∀ u ∈ historyAt (.ofLayout heroes) ⟨∅, 0⟩ as,
        u.overwritten? id ≠ some Int64.maxValue.toInt) ∧
      (historyAt (.ofLayout heroes) ⟨∅, 0⟩ as).filterMap (Visit.overwritten? id) = [0, 1] ∧
      ∃ k : Nat,
        (historyAt (.ofLayout heroes) ⟨∅, 0⟩ as).filterMap (Visit.overwritten? id) =
            (List.range k).map (fun i : Nat => 0 + (i : Int)) ∧
          version? (commitAt heroes ⟨∅, 0⟩ as) (heroes.keys.object id) "version" =
            some (0 + k) ∧
          (∀ u ∈ historyAt (.ofLayout heroes) ⟨∅, 0⟩ as, u.named? = some id →
            u.accepted = false → u.after = u.before) ∧
          ((historyAt (.ofLayout heroes) ⟨∅, 0⟩ as).filterMap (Visit.overwritten? id)).Nodup := by
  let as : List Arrival :=
    [⟨0, [adaWrite 0], []⟩, ⟨60000, [adaWrite 1, adaWrite 1], [.ids ["8"]]⟩]
  have hv : version? ⟨∅, 0⟩ (heroes.keys.object "7") "version" = some 0 := by decide +kernel
  have hlasts : Keyspace.Lasts ⟨∅, 0⟩ (heroes.keys.object "7") := .of_none rfl
  have hkept : ∀ u ∈ historyAt (.ofLayout heroes) ⟨∅, 0⟩ as,
      ¬u.Removes (heroes.keys.object "7") := by decide +kernel
  have hnamed : ∀ u ∈ historyAt (.ofLayout heroes) ⟨∅, 0⟩ as, u.assigned? ≠ some "7" := by
    decide +kernel
  have hbelow : ∀ u ∈ historyAt (.ofLayout heroes) ⟨∅, 0⟩ as,
      u.overwritten? "7" ≠ some Int64.maxValue.toInt := by decide +kernel
  have hlist : (historyAt (.ofLayout heroes) ⟨∅, 0⟩ as).filterMap (Visit.overwritten? "7") =
      [0, 1] := by decide +kernel
  exact ⟨layout_hero, rfl, as, "7", hv, hlasts, hkept, hnamed, hbelow, hlist,
    overwritten_versions rfl ⟨∅, 0⟩ as "7" 0 hv hlasts hkept hnamed hbelow⟩

/-- A hero who expires between two commits is written anew under the version that the second of them
expects, and stands where it stood. And behind the greatest version a write that expects it starts
over with the least. -/
theorem overwritten_again_heroes :
    Sample.hero.schema.layout "kvm." = .ok heroes ∧ heroes.versionField = some "version" ∧
      (let key := heroes.keys.object "7"
       let ks := (executeAll ⟨∅, 0⟩ [Submission.command heroes ⟨[adaWrite 0], []⟩,
         .expire key 60]).2
       let as : List Arrival := [⟨60000, [adaWrite 0], []⟩]
       version? ks key "version" = some 1 ∧
        (∀ u ∈ historyAt (.ofLayout heroes) ks as, ¬u.Removes key) ∧
        (∀ u ∈ historyAt (.ofLayout heroes) ks as, u.assigned? ≠ some "7") ∧
        (historyAt (.ofLayout heroes) ks as).filterMap (Visit.overwritten? "7") = [0] ∧
        version? (commitAt heroes ks as) key "version" = some 1) ∧
      (let key := heroes.keys.object "7"
       let greatest := Int64.maxValue.toInt
       let ks := (executeAll ⟨∅, 0⟩ [.hset key [("version", Number.intText greatest)]]).2
       let as : List Arrival := [⟨0, [adaWrite greatest], []⟩]
       version? ks key "version" = some greatest ∧
        (∀ u ∈ historyAt (.ofLayout heroes) ks as, ¬u.Removes key) ∧
        (∀ u ∈ historyAt (.ofLayout heroes) ks as, u.assigned? ≠ some "7") ∧
        (historyAt (.ofLayout heroes) ks as).filterMap (Visit.overwritten? "7") = [greatest] ∧
        version? (commitAt heroes ks as) key "version" = some Int64.minValue.toInt) := by
  refine ⟨layout_hero, rfl, ?_, ?_⟩
  · decide +kernel
  · decide +kernel

end CommitScript

end KeyedRecords

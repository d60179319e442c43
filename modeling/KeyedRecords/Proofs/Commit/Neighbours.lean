import KeyedRecords.Proofs.Commit.Freshness

/-!
# What a delete leaves to the neighbours of an instance

A delete takes an id out of all collections, and nothing of another id with it. It deletes the keys
of a record and of its containers, and these may be keys of another instance: ids stand unescaped in
front of the name of a container, so a container of one instance may lie where another one has its
record (`Collides`). Another instance is spared by a delete exactly if the two do not collide
(`delete_spares_iff`).
-/

namespace KeyedRecords

namespace CommitScript

open Keyspace

variable {l : Layout} {ks ks' : Keyspace} {b : Batch} {a i : String}

/-- An instance lies where a container of another one is kept, and both are there. -/
def Collides (l : Layout) (ks : Keyspace) (a i : String) : Prop :=
  (ks.data? (l.keys.object a)).isSome ∧ ∃ name ∈ l.structures,
    a = i ++ ":" ++ name ∨ i = a ++ ":" ++ name ∧ (ks.data? (l.keys.object i)).isSome

/-- Ids without colons do not collide, and none do if there are no containers. -/
theorem not_collides_of_plain
    (h : l.structures = [] ∨ ':' ∉ a.toList ∧ ':' ∉ i.toList) : ¬Collides l ks a i := by
  rintro ⟨-, name, hname, heq⟩
  rcases h with hnone | ⟨ha, hi⟩
  · rw [hnone] at hname
    cases hname
  · rcases heq with rfl | ⟨rfl, -⟩
    · exact ha (by simp)
    · exact hi (by simp)

/-- The place of an id in the collections of a model, and the values that it owns. -/
structure SameEntries (keys : ModelKeys) (i : String) (ks ks' : Keyspace) : Prop where
  /-- It has its place in the collection of all ids, or still has none. -/
  ids : ks'.score? keys.ids i = ks.score? keys.ids i
  /-- It is entered in the indexes where it was, and nowhere else. -/
  member : ∀ field value, ks'.score? (keys.index field value) i =
    ks.score? (keys.index field value) i
  /-- It owns the values that it owned, and no others. -/
  owner : ∀ field value, ks'.field? (keys.unique field) value = some i ↔
    ks.field? (keys.unique field) value = some i

/-- All that belongs to an id is as it was. -/
structure Spared (l : Layout) (i : String) (ks ks' : Keyspace) : Prop
    extends SameEntries l.keys i ks ks' where
  /-- The record is the same, or there is still none. -/
  record : ks'.data? (l.keys.object i) = ks.data? (l.keys.object i)
  /-- So are the containers. -/
  containers : ∀ name ∈ l.structures,
    ks'.data? (l.keys.container i name) = ks.data? (l.keys.container i name)

/-- A delete leaves the entries of another id as they were. -/
theorem Deleted.sameEntries {record : Option (Table String)} (h : Deleted b a record ks ks')
    (hi : i ≠ a) : SameEntries b.keys i ks ks' := by
  constructor
  case ids => rw [h.ids, if_neg hi]
  case member =>
    exact fun field value => h.sameMember _ i (.index field value rfl) fun hand => hi hand.1
  case owner =>
    intro field value
    by_cases hentry : UniqueEntry b (oldValues record) b.indices (b.keys.unique field) value
    · -- only the id that is deleted gives its values up
      rw [h.disowned _ value hentry, CommitScript.disowned]
      split
      next howner =>
        simp only [howner, reduceCtorEq, Option.some.injEq, false_iff]
        exact hi.symm
      next => rfl
    · rw [h.sameOwner _ value (.unique field rfl) hentry]

/-- The keys that are deleted with an instance are those of its record and of its containers. -/
theorem object_mem_doomedKeys :
    b.keys.object i ∈ doomedKeys b a ↔ i = a ∨ ∃ name ∈ b.structures, i = a ++ ":" ++ name := by
  simp only [doomedKeys, List.mem_cons, List.mem_map, ModelKeys.container_eq_object,
    ModelKeys.object_inj, eq_comm]

/-- The place of a container is that of another id. -/
theorem container_id_ne (id name : String) : id ++ ":" ++ name ≠ id := by
  intro heq
  have hlength := congrArg String.length heq
  rw [String.length_append, String.length_append, show ":".length = 1 from rfl] at hlength
  omega

/-- What lies where records do is deleted with an instance, or stays. -/
def Swept (b : Batch) (a : String) (ks ks' : Keyspace) : Prop :=
  ∀ i, ks'.data? (b.keys.object i) =
    if (ks.data? (b.keys.object a)).isSome ∧ (i = a ∨ ∃ name ∈ b.structures, i = a ++ ":" ++ name)
    then none else ks.data? (b.keys.object i)

/-- An accepted delete leaves the entries of other ids, and sweeps the keys of the instance. -/
theorem of_visit_delete (haccepted : (visit b ks (.delete a)).accepted) :
    (∀ i, i ≠ a → SameEntries b.keys i ks (visit b ks (.delete a)).after) ∧
      Swept b a ks (visit b ks (.delete a)).after := by
  unfold visit at haccepted ⊢
  obtain ⟨e, -, hrun⟩ | ⟨record, ks', -, hchecked, hdeleted, hdelete, hrun⟩ := run_tryDelete ks b a
  · simp [Turn.attempt, run_map_error hrun, Visit.accepted, Except.isOk, Except.toBool] at haccepted
  · rw [Turn.attempt, run_map_ok hrun]
    have hfound : record.isSome = (ks.data? (b.keys.object a)).isSome := by
      cases record with
      | none =>
        rw [hchecked.stored.1.mp rfl]
        rfl
      | some fields =>
        refine (Option.isSome_iff_ne_none.mpr fun hnone => ?_).symm
        cases hchecked.stored.1.mpr hnone
    refine ⟨fun i hi => hdeleted.sameEntries hi, fun i => ?_⟩
    rw [object_deleteOne hchecked hdelete i, hfound]
    simp only [object_mem_doomedKeys]

/-- The record of another id is taken away only where a container is kept. -/
theorem Swept.record_iff (h : Swept b a ks ks') (hi : i ≠ a) :
    ks'.data? (b.keys.object i) = ks.data? (b.keys.object i) ↔
      ¬((ks.data? (b.keys.object a)).isSome ∧ ∃ name ∈ b.structures,
        i = a ++ ":" ++ name ∧ (ks.data? (b.keys.object i)).isSome) := by
  rw [h i]
  split
  next hswept =>
    obtain ⟨hthere, rfl | ⟨name, hname, heq⟩⟩ := hswept
    · exact absurd rfl hi
    · constructor
      · rintro hsame ⟨-, n, -, -, hi⟩
        rw [← hsame] at hi
        cases hi
      · intro hnot
        rw [eq_comm, ← Option.not_isSome_iff_eq_none]
        exact fun hsome => hnot ⟨hthere, name, hname, heq, hsome⟩
  next hkept =>
    refine iff_of_true rfl ?_
    rintro ⟨hthere, name, hname, heq, -⟩
    exact hkept ⟨hthere, .inr ⟨name, hname, heq⟩⟩

/-- A container of another id is taken away only where the record is kept. -/
theorem Swept.containers_iff (h : Swept b a ks ks') (hi : i ≠ a)
    (hplain : ∀ name ∈ b.structures, ':' ∉ name.toList) :
    (∀ name ∈ b.structures,
      ks'.data? (b.keys.container i name) = ks.data? (b.keys.container i name)) ↔
      ¬((ks.data? (b.keys.object a)).isSome ∧ ∃ name ∈ b.structures, a = i ++ ":" ++ name) := by
  simp only [ModelKeys.container_eq_object]
  constructor
  · rintro hsame ⟨hthere, name, hname, rfl⟩
    have hgone := h (i ++ ":" ++ name)
    rw [if_pos ⟨hthere, .inl rfl⟩, hsame name hname] at hgone
    rw [hgone] at hthere
    cases hthere
  · intro hnot name hname
    rw [h, if_neg]
    rintro ⟨hthere, heq | ⟨n, hn, heq⟩⟩
    · exact hnot ⟨hthere, name, hname, heq.symm⟩
    -- the name of a container has no colon, so it ends the key of one id only
    · exact hi (ModelKeys.append_name_inj (hplain name hname) (hplain n hn) heq).1

/-- An accepted delete takes nothing of another id, unless the two collide: the entries of the other
id stay in any case, and its record and its containers stay exactly if nothing of the one lies where
something of the other is kept. -/
theorem delete_spares_iff {space : String} {s : Schema} (hl : s.layout space = .ok l)
    {ss : List Submission} {u : Visit} (hu : u ∈ history (.ofLayout l) ks ss)
    (hturn : u.turn = .delete a) (haccepted : u.accepted) (hi : i ≠ a) :
    SameEntries l.keys i u.before u.after ∧
      (Spared l i u.before u.after ↔ ¬Collides l u.before a i) := by
  have hvisit := eq_visit_of_mem_history hu
  rw [hturn] at hvisit
  rw [hvisit] at haccepted
  obtain ⟨hentries, hswept⟩ := of_visit_delete haccepted
  rw [← hvisit] at hentries hswept
  have hrecord := hswept.record_iff hi
  have hcontainers := hswept.containers_iff hi (Schema.layout_structures hl)
  refine ⟨hentries i hi, fun hspared => ?_, fun hnot => ?_⟩
  · rintro ⟨hthere, name, hname, heq | ⟨heq, hsome⟩⟩
    · exact hcontainers.mp hspared.containers ⟨hthere, name, hname, heq⟩
    · exact hrecord.mp hspared.record ⟨hthere, name, hname, heq, hsome⟩
  · exact ⟨hentries i hi,
      hrecord.mpr fun ⟨hthere, name, hname, heq⟩ => hnot ⟨hthere, name, hname, .inr heq⟩,
      hcontainers.mpr fun ⟨hthere, name, hname, heq⟩ => hnot ⟨hthere, name, hname, .inl heq⟩⟩

/-- Albums, known by texts, with a container for the tracks of each. -/
def album : ShapedModel where
  tag := ⟨"album", none, ["tracks"]⟩
  fields := [Sample.chosenId "slug" .text, Sample.indexed "genre" .text]
  ownFailures := Sample.noRules

/-- The layout of the albums. -/
def albums : Layout :=
  { tag := album.tag, keys := .ofModel "kvm." "album"
    identity := (Sample.chosenId "slug" .text).field, fields := album.schema.fields
    defaultOrdering := none, versionField := none }

/-- The albums are laid out as their declaration says. -/
theorem layout_album : album.schema.layout "kvm." = .ok albums := by rfl

/-- The write of an album. -/
def albumWrite (slug : String) : InstanceWrite :=
  .ofRecord albums "new:1" ⟨[("slug", .text slug), ("genre", .text "folk")]⟩ none

/-- Three albums are written, one of them under the key of the tracks of another, which is then
deleted. -/
def albumRun : List Submission :=
  [⟨["a", "a:tracks", "b"].map albumWrite, []⟩, ⟨[], [.ids ["a"]]⟩]

/-- Of two other albums, the one that lies apart is spared. -/
theorem delete_spares_iff_albums :
    album.schema.layout "kvm." = .ok albums ∧
      ∃ u ∈ history (.ofLayout albums) ⟨∅, 0⟩ albumRun, u.turn = .delete "a" ∧ u.accepted ∧
        (("b" ≠ "a" ∧ SameEntries albums.keys "b" u.before u.after ∧
          (Spared albums "b" u.before u.after ↔ ¬Collides albums u.before "a" "b")) ∧
          ¬Collides albums u.before "a" "b") ∧
        ("a:tracks" ≠ "a" ∧ SameEntries albums.keys "a:tracks" u.before u.after ∧
          (Spared albums "a:tracks" u.before u.after ↔
            ¬Collides albums u.before "a" "a:tracks")) := by
  have hrun : ∃ u ∈ history (.ofLayout albums) ⟨∅, 0⟩ albumRun,
      u.turn.id? = some "a" ∧ u.accepted := by decide +kernel
  obtain ⟨u, hu, hid, haccepted⟩ := hrun
  have hturn : u.turn = .delete "a" := by
    cases hturn : u.turn <;> simp_all [Turn.id?]
  have hb : "b" ≠ "a" := by decide
  have htracks : "a:tracks" ≠ "a" := by decide
  refine ⟨layout_album, u, hu, hturn, haccepted,
    ⟨⟨hb, delete_spares_iff layout_album hu hturn haccepted hb⟩, ?_⟩,
    htracks, delete_spares_iff layout_album hu hturn haccepted htracks⟩
  exact not_collides_of_plain (.inr ⟨by decide, by decide⟩)

/-- An album whose id is that of another with the name of the container behind it loses its record
when the other is deleted, and stays in the collection of all ids and under its genre. -/
theorem delete_takes_neighbour :
    album.schema.layout "kvm." = .ok albums ∧
      ∃ u ∈ history (.ofLayout albums) ⟨∅, 0⟩ albumRun, u.turn.id? = some "a" ∧ u.accepted ∧
        u.before.field? (albums.keys.object "a:tracks") "slug" = some "a:tracks" ∧
        (u.after.data? (albums.keys.object "a:tracks")).isNone ∧
        (u.after.score? albums.keys.ids "a:tracks").isSome ∧
        (u.after.score? (albums.keys.index "genre" "folk") "a:tracks").isSome :=
  ⟨layout_album, by decide +kernel⟩

end CommitScript

end KeyedRecords

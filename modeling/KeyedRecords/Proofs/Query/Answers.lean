import KeyedRecords.Proofs.Commit.Consistency
import KeyedRecords.Proofs.Query.Construction
import KeyedRecords.Proofs.Query.Reading

/-!
# What queries answer

The ids of a query are those of the records that its request describes, on every store whose
collections agree with its records, as commits of the model leave them. The condition on values that
are equal is needed: merging drops one of the two zeros, but their stored texts differ.
-/

namespace KeyedRecords

open Keyspace

variable {l : Layout} {ks : Keyspace}

/-- In whatever commits of a model lead to, the collections agree with the records. -/
theorem CommitScript.agrees_of_reachable {space : String} {s : Schema}
    (hl : s.layout space = .ok l) (hversion : ∀ f ∈ l.indexedFields, l.versionField ≠ some f.name)
    (hindex : ∀ f ∈ l.fields, f.unique = true → f.index = true)
    (h : CommitScript.Reachable l ks) : l.Agrees ks := by
  have hinvariant := CommitScript.Invariant.of_reachable (Schema.layout_wellFormed hl) hversion h
  have hconsistent := hinvariant.consistent
  have hkinds := hinvariant.agree.kinds
  -- first the kinds of the keys, and then what lies under them
  refine ⟨⟨?_, fun f _ v => ?_, fun f _ _ => ?_⟩, ?_, ?_, ?_⟩
  · exact hkinds _ _ (CommitScript.expects_ids _)
  · exact hkinds _ _ (CommitScript.expects_index _ f.name v)
  · exact hkinds _ _ (CommitScript.expects_unique _ f.name)
  · exact hconsistent.ids
  · exact hconsistent.plain
  · intro f hf hkey hunique
    refine hconsistent.unique f (List.mem_filter.mpr ⟨hf, ?_⟩) hunique
    simp [hkey, hindex f hf hunique]

namespace Request

variable {ε : Type} {consult : Consult ε} {lifetime : Nat} {client : Client} {tree : Tree}

/-- The ids of a query are read without fault: each once, and those that the request describes. -/
theorem ids_iff_describes {space : String} {s : Schema} (hl : s.layout space = .ok l)
    (r : Request ε) (hconstruct : (r.query l lifetime).construct consult = .ok tree)
    (halike : r.StoredAlike l) (hclient : client.Works)
    (hagrees : l.Agrees client.server.sweep.space)
    (hfresh : ∀ plan, tree.lower none lifetime client.supply.name = .ok plan →
      client.server.sweep.space.Fresh plan.temporaries) :
    ∃ found after,
      runFrom (.ofQuery (r.query l lifetime), client) (LiveQuery.ids consult) =
        (.ok found, after) ∧
      found.Nodup ∧
      ∀ id, id ∈ found ↔ r.Describes l client.server.sweep.space consult id := by
  obtain ⟨hlowerable, hdenotes⟩ :=
    tree_of_construct (Schema.layout_wellFormed hl) r hconstruct halike
  obtain ⟨plan, hplan⟩ := Tree.exists_lower hlowerable lifetime client.supply.name
  obtain ⟨base, steps, hfollows, -⟩ := exists_follows l lifetime r
  have horigin := hlowerable.origin
  obtain ⟨found, after, hrun, hnodup, hmem⟩ :=
    LiveQuery.exists_ids hclient hconstruct hfollows.ordering (by rw [hfollows.lifetime, hplan])
      (by rw [horigin]; exact hagrees.toReadable) (hfresh plan hplan)
  refine ⟨found, after, hrun, hnodup, fun id => ?_⟩
  rw [hmem, horigin, hdenotes _ hagrees]

section Zeros

/-- The layout of documents about stars. -/
def starLayout : Layout :=
  { tag := Sample.starDoc.tag, keys := .ofModel "kvm." "star_doc"
    identity := (Sample.chosenId "slug" .text).field, fields := Sample.starDoc.schema.fields
    defaultOrdering := some ⟨"rank", true⟩, versionField := some "rev" }

/-- The zero that is stored with its sign. -/
def negativeZero : Double := .ofParts true 0

/-- The write of a document whose weight is the negative zero. -/
def starWrite : InstanceWrite :=
  .ofRecord starLayout "new:000000000001"
    ⟨[("slug", .text "b"), ("rank", .float .zero), ("serial", .int 2),
      ("weight", .float negativeZero)]⟩ (some 0)

/-- The key space behind the commit of the document. -/
def starSpace : Keyspace :=
  (execute ⟨∅, 0⟩ (.eval (.commit (CommitScript.batchOf starLayout [starWrite] [])))).2

/-- A client of a store that holds the document. -/
def starClient : Client := .ofServer ⟨starSpace, .manual 0, ⟨0, 0, 0⟩⟩

/-- No engine finds anything. -/
def noMatches : Consult Unit := fun _ _ _ => .ok []

theorem layout_starDoc : Sample.starDoc.schema.layout "kvm." = .ok starLayout := by rfl

theorem starClient_space : starClient.server.sweep.space = starSpace := by
  have hnow : starSpace.now = 0 := by decide +kernel
  have hsweep : starSpace.sweep starSpace.now = starSpace := sweep_eq_self (by decide +kernel)
  rwa [hnow] at hsweep

theorem agrees_starSpace : starLayout.Agrees starSpace := by
  refine CommitScript.agrees_of_reachable layout_starDoc (by decide) (by decide)
    (.commit (.start 0) fun ids _ v hv w hw => ?_)
  obtain rfl := List.mem_singleton.mp (CommitScript.mem_writes_of_visits hv hw)
  have hauto : starLayout.autoId = false := rfl
  exact ⟨⟨_, _, _, rfl⟩, .inl rfl, by simp [hauto]⟩

/-- The document matches where the negative zero is among the weights. -/
theorem matches_starSpace {c : Criteria} (h : c.byField.Lists "weight" (.float negativeZero)) :
    starLayout.Matches starSpace c "weight" "b" :=
  ⟨(Sample.indexed "weight" (.optional .float64)).field, rfl, "-0",
    by decide +kernel, _, h, by decide +kernel⟩

/-- Two queries ask for the two zeros, and the document is found by their union. -/
theorem ids_iff_describes_zeros :
    ∃ (r : Request Unit) (tree : Tree) (found : List String) (after : LiveQuery Unit × Client),
      (r.query starLayout 60).construct noMatches = .ok tree ∧ r.StoredAlike starLayout ∧
      runFrom (.ofQuery (r.query starLayout 60), starClient) (LiveQuery.ids noMatches) =
        (.ok found, after) ∧ "b" ∈ found := by
  let r : Request Unit :=
    .combined .union (.all [.filterIn "weight" [.float .zero]])
      [.all [.filterIn "weight__in" [.float negativeZero]]] [.excludeIn "slug" [.text "c"]]
  obtain ⟨tree, plan, hconstruct, hplan, htemporaries⟩ : ∃ tree plan,
      (r.query starLayout 60).construct noMatches = .ok tree ∧
      tree.lower none 60 1 = .ok plan ∧
      plan.temporaries = [1, 2, 3].map starLayout.keys.temporary := ⟨_, _, rfl, rfl, rfl⟩
  have halike : r.StoredAlike starLayout := by
    refine ⟨⟨⟨?_, ?_⟩, ⟨?_, ?_⟩, trivial⟩, ?_, ?_⟩ <;>
      exact Criteria.storedAlike_of_nodup _ (by decide +kernel)
  have hfresh : ∀ plan, tree.lower none 60 starClient.supply.name = .ok plan →
      starClient.server.sweep.space.Fresh plan.temporaries := by
    intro plan' hplan'
    cases hplan.symm.trans hplan'
    rw [starClient_space, htemporaries]
    exact ⟨by decide +kernel, by decide +kernel⟩
  have hworks : starClient.Works := ⟨rfl, rfl⟩
  obtain ⟨found, after, hrun, -, hmem⟩ := ids_iff_describes layout_starDoc r hconstruct halike
    hworks (starClient_space ▸ agrees_starSpace) hfresh
  refine ⟨r, tree, found, after, hconstruct, halike, hrun, (hmem "b").mpr ?_⟩
  rw [starClient_space]
  refine ⟨.inr (.inl ⟨by decide +kernel, ?_, ?_, ?_⟩), ?_, ?_, ?_⟩
  -- the second query asks for the negative zero
  · intro field hfield
    have hkeys : (Criteria.byField [("weight__in", [Value.float negativeZero])]).keys =
        ["weight"] := by decide +kernel
    obtain rfl : field = "weight" := List.mem_singleton.mp (hkeys ▸ hfield)
    refine matches_starSpace (Criteria.lists_byField.mpr ⟨"weight__in", by decide +kernel, ?_⟩)
    exact ⟨_, List.mem_singleton_self _, List.mem_singleton_self _⟩
  · rintro text ⟨⟩
  · intro field hfield
    cases hfield
  · intro field hfield
    cases hfield
  · rintro text ⟨⟩
  -- the document has another slug than the one that is excluded
  · rintro field hfield ⟨f, hf, raw, hraw, v, ⟨values, hmem, hv⟩, htext⟩
    have hkeys : (Criteria.byField [("slug", [Value.text "c"])]).keys = ["slug"] := by
      decide +kernel
    obtain rfl : field = "slug" := List.mem_singleton.mp (hkeys ▸ hfield)
    obtain ⟨-, rfl⟩ := Prod.mk.inj (List.mem_singleton.mp hmem)
    obtain rfl := List.mem_singleton.mp hv
    cases hf
    cases hraw
    exact absurd (Option.some.inj htext) (by decide)

/-- One query asks for the two zeros one after the other. It describes the document but does not
find it: the second zero is dropped, since it equals the first. -/
theorem ids_miss_described :
    ∃ (r : Request Unit) (tree : Tree) (after : LiveQuery Unit × Client),
      (r.query starLayout 60).construct noMatches = .ok tree ∧ starClient.Works ∧
      starLayout.Agrees starClient.server.sweep.space ∧
      (∀ plan, tree.lower none 60 starClient.supply.name = .ok plan →
        starClient.server.sweep.space.Fresh plan.temporaries) ∧
      runFrom (.ofQuery (r.query starLayout 60), starClient) (LiveQuery.ids noMatches) =
        (.ok [], after) ∧
      r.Describes starLayout starClient.server.sweep.space noMatches "b" := by
  let r : Request Unit :=
    .all [.filterIn "weight" [.float .zero], .filterIn "weight" [.float negativeZero]]
  obtain ⟨tree, plan, hconstruct, hplan, htemporaries⟩ : ∃ tree plan,
      (r.query starLayout 60).construct noMatches = .ok tree ∧
      tree.lower none 60 1 = .ok plan ∧ plan.temporaries = [] := ⟨_, _, rfl, rfl, rfl⟩
  obtain ⟨after, hrun⟩ : ∃ after,
      runFrom (.ofQuery (r.query starLayout 60), starClient) (LiveQuery.ids noMatches) =
        (.ok [], after) := by
    -- the answer can be computed, the state behind it need not be
    have hfound : (runFrom (.ofQuery (r.query starLayout 60), starClient)
        (LiveQuery.ids noMatches)).1.toOption = some [] := by decide +kernel
    generalize runFrom (.ofQuery (r.query starLayout 60), starClient) (LiveQuery.ids noMatches) =
      answer at hfound
    obtain ⟨result, after⟩ := answer
    cases result with
    | error e => cases hfound
    | ok found => exact ⟨after, by rw [Option.some.inj hfound]⟩
  refine ⟨r, tree, after, hconstruct, ⟨rfl, rfl⟩, starClient_space ▸ agrees_starSpace, ?_, hrun, ?_⟩
  · intro plan' hplan'
    cases hplan.symm.trans hplan'
    rw [htemporaries]
    exact ⟨.nil, by simp⟩
  · rw [starClient_space]
    refine ⟨by decide +kernel, ?_, ?_, ?_⟩
    · intro field hfield
      have hkeys : (Criteria.byField [("weight", [Value.float .zero]),
          ("weight", [.float negativeZero])]).keys = ["weight", "weight"] := by decide +kernel
      have hweight : field ∈ ["weight", "weight"] := by
        rw [← hkeys]
        exact hfield
      obtain rfl : field = "weight" := by simpa using hweight
      refine matches_starSpace (Criteria.lists_byField.mpr ⟨"weight", by decide +kernel, ?_⟩)
      exact ⟨_, List.mem_cons_of_mem _ (List.mem_singleton_self _), List.mem_singleton_self _⟩
    · rintro text ⟨⟩
    · intro field hfield
      cases hfield

end Zeros

end Request

end KeyedRecords

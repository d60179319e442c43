import KeyedRecords.Proofs.Session.Phases
import KeyedRecords.Proofs.Session.Registration

/-!
# The parts of models in a commit

Each model has its own part in a commit (`Session.Part`): its commands are run somewhere in the
pipeline, and what is run in front of them and behind them is about other models, none of whose keys
is one of its own (`Session.Commits.exists_part`).
-/

namespace KeyedRecords

namespace Session

open Keyspace Operation

variable {α σ : Type} {w w₁ w' : Work α σ} {report : CommitReport Error}

/-- Two of the trackers of a session have no key in common. -/
theorem Registers.apart {c : Catalog} {ts us : List (Tracker α)} {t u : Tracker α}
    (h : Registers c (ts ++ t :: us)) (hc : c.Registered) (hu : u ∈ ts ++ us) {key : String}
    (hkey : u.layout.keys.Owns key) : ¬t.layout.keys.Owns key := by
  intro hkey'
  have hmem : u ∈ ts ++ t :: us := List.perm_middle.mem_iff.mpr (List.mem_cons_of_mem t hu)
  have hlayout : u.layout = t.layout :=
    hc.eq_of_owns (h.of u hmem).1 (h.of t (by simp)).1 hkey hkey'
  have hdistinct := h.distinct
  rw [List.map_append, List.map_cons, List.nodup_middle, List.nodup_cons, ← List.map_append]
    at hdistinct
  exact hdistinct.1 (List.mem_map.mpr ⟨u, hu, by rw [hlayout]⟩)

/-- The commands of all shares. -/
def sentBy (shares : List (Share α)) : List Command :=
  (shares.map (·.answer.prepared)).flatMap commandsFor

@[simp]
theorem sentBy_nil : sentBy ([] : List (Share α)) = [] := rfl

@[simp]
theorem sentBy_cons (s : Share α) (rest : List (Share α)) :
    sentBy (s :: rest) = commandsFor s.answer.prepared ++ sentBy rest := rfl

@[simp]
theorem sentBy_append (shares others : List (Share α)) :
    sentBy (shares ++ others) = sentBy shares ++ sentBy others := by
  rw [sentBy, List.map_append, List.flatMap_append, sentBy, sentBy]

/-- The commands of shares leave the keys of other models alone. -/
theorem beside_sentBy {shares : List (Share α)} {K : String → Prop} (h : ∀ s ∈ shares,
      Prepares s.before s.answer.prepared ∧
        (∀ q ∈ s.before.deleteQueries, q.origin.layout.keys = s.before.layout.keys) ∧
        ∀ key, s.before.layout.keys.Owns key → K key)
    (ks : Keyspace) : Beside K ks (ks.executeAll (sentBy shares)).2 := by
  induction shares generalizing ks with
  | nil => exact .refl ks
  | cons s rest ih =>
    obtain ⟨⟨⟨session, validate, lifetime, n, hprepare⟩, hqueries, hkeys⟩, hrest⟩ :=
      List.forall_mem_cons.mp h
    rw [sentBy_cons, executeAll_append]
    exact ((Tracker.beside_commandsFor hprepare hqueries ks).mono hkeys).trans (ih hrest _)

/-- Names are taken upwards. -/
theorem Contribute.le {s : Session α σ} {n m : Nat} {ts : List (Tracker α)} {ps : List Prepared}
    (h : Contribute s n ts ps m) : n ≤ m := by
  induction h with
  | nil => exact Nat.le_refl _
  | cons _ _ ih => exact Nat.le_trans (Nat.le_add_right _ _) ih

/-- The names that one of several trackers takes are among the names that all of them take. -/
theorem Contribute.exists_number {s : Session α σ} {front back : List (Share α)} {x : Share α}
    {n m : Nat} (h : Contribute s n ((front ++ x :: back).map (·.before))
      ((front ++ x :: back).map (·.answer.prepared)) m) :
    ∃ k, n ≤ k ∧ x.before.prepare s.id s.config.validate s.catalog.config.lifetimeSeconds k =
      .ok x.answer.prepared ∧ k + x.answer.prepared.names ≤ m := by
  induction front generalizing n with
  | nil =>
    cases h with
    | cons first rest => exact ⟨n, Nat.le_refl n, first, rest.le⟩
  | cons y front ih =>
    cases h with
    | cons first rest =>
      obtain ⟨k, hk, hprepare, hm⟩ := ih rest
      exact ⟨k, Nat.le_trans (Nat.le_add_right _ _) hk, hprepare, hm⟩

/-- The answer to one of several contributions is what the store says where those in front of it
have led. -/
theorem answer_of_answersFrom {front back : List (Share α)} {x : Share α} {ks : Keyspace}
    (h : (front ++ x :: back).map (·.answer) =
      answersFrom ks ((front ++ x :: back).map (·.answer.prepared))) :
    x.answer = answerOf x.answer.prepared
      ((ks.executeAll (sentBy front)).2.executeAll (commandsFor x.answer.prepared)).1 := by
  induction front generalizing ks with
  | nil => exact (List.cons.inj h).1
  | cons y front ih =>
    rw [sentBy_cons, executeAll_append]
    exact ih (List.cons.inj h).2

/-- The part that a model has in a commit: its tracker contributes with names from the `k`-th on,
and its commands are run from the key space `ks`. All that is sent leads from `first` to `last`, and
all names that are taken are from the `n`-th to before the `m`-th. -/
structure Part (c : Session α σ) (n m : Nat) (first last : Keyspace) (s : Share α) (k : Nat)
    (ks : Keyspace) : Prop where
  prepared : s.before.prepare c.id c.config.validate c.catalog.config.lifetimeSeconds k =
    .ok s.answer.prepared
  /-- Nobody in front has taken its names. -/
  low : n ≤ k
  /-- Nobody behind takes them. -/
  high : k + s.answer.prepared.names ≤ m
  /-- What is run in front does not touch its keys. -/
  earlier : Beside (fun key => ¬s.before.layout.keys.Owns key) first ks
  answered : s.answer = answerOf s.answer.prepared
    (ks.executeAll (commandsFor s.answer.prepared)).1
  /-- What is run behind does not touch its keys. -/
  later : Beside (fun key => ¬s.before.layout.keys.Owns key)
    (ks.executeAll (commandsFor s.answer.prepared)).2 last
  taken : s.Taken

namespace Commits

variable {shares : List (Share α)}

/-- The shares of a commit are those of different registered models. -/
theorem registers_of_registers (hw : Registers w.session.catalog w.session.trackers)
    (h : Commits w w₁ shares report w') :
    Registers w.session.catalog (shares.map (·.before)) := by
  have hregisters := (keeps_editing invariant_registers).ok hw h.edited
  have hcatalog := (keeps_editing_catalog w.session.catalog).ok rfl h.edited
  rwa [Holds, hcatalog, h.before] at hregisters

theorem registers (hw : Reachable w) (h : Commits w w₁ shares report w') :
    Registers w.session.catalog (shares.map (·.before)) :=
  h.registers_of_registers (registered_of_reachable hw)

/-- Each model has its part in a commit. -/
theorem exists_part (hw : Registers w.session.catalog w.session.trackers)
    (hlink : w.client.fault = .none) (hcatalog : w.session.catalog.Registered)
    (h : Commits w w₁ shares report w') {s : Share α} (hs : s ∈ shares) :
    let first := w.client.server.sweep.space
    ∃ k ks, Part w₁.session w₁.client.supply.name w'.client.supply.name first
      (first.executeAll (sentBy shares)).2 s k ks := by
  intro first
  have hregisters := h.registers_of_registers hw
  obtain ⟨hcontribute, hanswers, -⟩ := h.contribute hlink
  obtain ⟨-, hprepares, -⟩ := h.answers_eq hlink
  have htaken := h.taken hlink s hs
  obtain ⟨front, back, rfl⟩ := List.append_of_mem hs
  obtain ⟨k, hlow, hprepare, hhigh⟩ := hcontribute.exists_number
  have hothers : ∀ u ∈ front ++ back, Prepares u.before u.answer.prepared ∧
      (∀ q ∈ u.before.deleteQueries, q.origin.layout.keys = u.before.layout.keys) ∧
      ∀ key, u.before.layout.keys.Owns key → ¬s.before.layout.keys.Owns key := by
    intro u hu
    have hmem : u ∈ front ++ s :: back :=
      List.perm_middle.mem_iff.mpr (List.mem_cons_of_mem s hu)
    refine ⟨hprepares u hmem, (hregisters.of _ (List.mem_map_of_mem hmem)).2.2.queries,
      fun key hkey => ?_⟩
    rw [List.map_append, List.map_cons] at hregisters
    refine hregisters.apart hcatalog ?_ hkey
    rw [← List.map_append]
    exact List.mem_map_of_mem hu
  refine ⟨k, (first.executeAll (sentBy front)).2, hprepare, hlow, hhigh,
    beside_sentBy (fun u hu => hothers u (List.mem_append_left _ hu)) first,
    answer_of_answersFrom hanswers, ?_, htaken⟩
  rw [sentBy_append, sentBy_cons, executeAll_append, executeAll_append]
  exact beside_sentBy (fun u hu => hothers u (List.mem_append_right _ hu)) _

end Commits

end Session

end KeyedRecords

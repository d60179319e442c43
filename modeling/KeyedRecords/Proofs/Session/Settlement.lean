import KeyedRecords.Proofs.Session.Slots
import Mathlib.Data.List.Nodup

/-!
# Lines of a report and what they do

A tracker takes over the results of a commit line by line (`Tracker.Takes`): a failure changes
nothing, a written instance leaves its key for its id, and what was deleted is forgotten. A key that
no success is about keeps its slot (`TakesAll.slot_eq`), and one that a success is about is held at
most as loaded from then on (`TakesAll.clean_of_settles`).
-/

namespace KeyedRecords

namespace InstanceOutcome

variable {ε : Type}

/-- What a line is about. -/
def subject (o : InstanceOutcome ε) : String × CommitAction × IdentityKey :=
  (o.model, o.action, o.key)

/-- A line is a success that is about a key: the key that the instance had, or the id that it was
written under. -/
structure Settles (o : InstanceOutcome ε) (key : IdentityKey) : Prop where
  success : o.error = none
  about : o.key = key ∨ o.action = .write ∧ o.id = some key

instance (o : InstanceOutcome ε) (key : IdentityKey) : Decidable (o.Settles key) :=
  decidable_of_iff (o.error.isNone ∧ (o.key = key ∨ o.action = .write ∧ o.id = some key))
    ⟨fun h => ⟨Option.isNone_iff_eq_none.mp h.1, h.2⟩,
      fun h => ⟨Option.isNone_iff_eq_none.mpr h.success, h.about⟩⟩

/-- A failure settles no key. -/
theorem not_settles_of_isSome {o : InstanceOutcome ε} (h : o.error.isSome) (key : IdentityKey) :
    ¬o.Settles key := by
  intro hsettles
  rw [hsettles.success] at h
  cases h

end InstanceOutcome

namespace Tracker

variable {α : Type} {t t' t₁ : Tracker α} {replies : List WriteReply}
  {o : InstanceOutcome Error} {lines more : List (InstanceOutcome Error)} {key : IdentityKey}

/-- What a tracker knows besides its partitions. -/
def terms (t : Tracker α) : Model α × Layout × List String × List Tree :=
  (t.model, t.layout, t.deleteIds, t.deleteQueries)

/-- A success about a write settles the key that the instance had and its id. -/
theorem settles_writeOutcome_iff {k : IdentityKey} {id : String} :
    (t.writeOutcome k (some id) none).Settles key ↔ key = id ∨ key = k := by
  constructor
  · intro h
    rcases h.about with heq | ⟨-, heq⟩
    · exact .inr heq.symm
    · exact .inl (Option.some.inj heq).symm
  · rintro (rfl | rfl)
    · exact ⟨rfl, .inr ⟨rfl, rfl⟩⟩
    · exact ⟨rfl, .inl rfl⟩

/-- A success about a delete settles its key. -/
theorem settles_deleteOutcome_iff {k : IdentityKey} {id : Option String} :
    (t.deleteOutcome k id none).Settles key ↔ key = k := by
  constructor
  · intro h
    rcases h.about with heq | ⟨haction, -⟩
    · exact heq.symm
    · cases haction
  · rintro rfl
    exact ⟨rfl, .inl rfl⟩

theorem terms_eq_iff : t'.terms = t.terms ↔ t'.model = t.model ∧ t'.layout = t.layout ∧
    t'.deleteIds = t.deleteIds ∧ t'.deleteQueries = t.deleteQueries := by
  simp only [terms, Prod.mk.injEq]

/-- Nothing is pending under a key. -/
def Clean (t : Tracker α) (key : IdentityKey) : Prop :=
  ∀ p i, t.slot key = some (p, i) → p = .loaded

/-- A tracker takes over one line of a report, when `replies` are what the store says of the
writes. -/
inductive Takes (replies : List WriteReply) (t : Tracker α) :
    InstanceOutcome Error → Tracker α → Prop
  /-- What failed stays where it is. -/
  | failed {o : InstanceOutcome Error} (h : o.error.isSome) : Takes replies t o t
  /-- What was written is loaded under its id. -/
  | written {key : IdentityKey} {ack : WriteAck} {p : Partition} {i i' : Instance α}
    (hreply : ⟨key, .ok ack⟩ ∈ replies) (hslot : t.slot key = some (p, i))
    (hack : acknowledge t.model ack i = .ok i') :
    Takes replies t (t.writeOutcome key (some ack.id) none)
      (((t.without key).without ack.id).put .loaded ack.id i')
  /-- What was deleted is forgotten. -/
  | deleted (key : IdentityKey) (id : Option String) :
    Takes replies t (t.deleteOutcome key id none) (t.without key)

/-- A tracker takes over lines one by one. -/
inductive TakesAll (replies : List WriteReply) :
    Tracker α → List (InstanceOutcome Error) → Tracker α → Prop
  | nil {t : Tracker α} : TakesAll replies t [] t
  | cons {t t₁ t' : Tracker α} {o : InstanceOutcome Error}
    {lines : List (InstanceOutcome Error)} (first : Takes replies t o t₁)
    (rest : TakesAll replies t₁ lines t') : TakesAll replies t (o :: lines) t'

namespace Takes

/-- A tracker stays sound. -/
theorem sound (h : Takes replies t o t') (ht : t.Sound) : t'.Sound := by
  cases h with
  | failed => exact ht
  | @written k ack _ _ _ _ _ hack =>
    have hlacks := (ht.without k).lacks_without ack.id
    exact ((ht.without k).without ack.id).put (fun q _ => hlacks q) (suits_of_acknowledge hack)
  | deleted key => exact ht.without key

/-- A line changes nothing but partitions. -/
theorem terms_eq (h : Takes replies t o t') : t'.terms = t.terms := by
  cases h <;> simp [terms]

/-- The model stays what it is. -/
theorem layout_eq (h : Takes replies t o t') : t'.layout = t.layout :=
  (terms_eq_iff.mp h.terms_eq).2.1

/-- What the slots are behind an instance that was written. -/
theorem slot_written (ht : t.Sound) (key id : IdentityKey) (i : Instance α) (k : IdentityKey) :
    (((t.without key).without id).put .loaded id i).slot k =
      if k = id then some (.loaded, i) else if k = key then none else t.slot k := by
  have hlacks := (ht.without key).lacks_without id
  rw [slot_put (fun q _ => hlacks q), (ht.without key).slot_without, ht.slot_without]
  split <;> rfl

/-- A key that the line is not about keeps its slot. -/
theorem slot_eq (h : Takes replies t o t') (ht : t.Sound) (hkey : ¬o.Settles key) :
    t'.slot key = t.slot key := by
  cases h with
  | failed => rfl
  | @written k ack p i i' _ _ hack =>
    obtain ⟨hid, hk⟩ := not_or.mp (mt settles_writeOutcome_iff.mpr hkey)
    rw [slot_written ht, if_neg hid, if_neg hk]
  | deleted k id => rw [ht.slot_without, if_neg (mt settles_deleteOutcome_iff.mpr hkey)]

/-- A key that the line settles is held as loaded, if at all. -/
theorem clean_of_settles (h : Takes replies t o t') (ht : t.Sound) (hkey : o.Settles key) :
    t'.Clean key := by
  intro p i hslot
  cases h with
  | failed herror => exact (o.not_settles_of_isSome herror key hkey).elim
  | @written k ack q j i' _ _ hack =>
    have habout := settles_writeOutcome_iff.mp hkey
    rw [slot_written ht] at hslot
    split at hslot
    · exact (Prod.mk.inj (Option.some.inj hslot)).1.symm
    · rw [if_pos (habout.resolve_left ‹_›)] at hslot
      cases hslot
  | deleted k id =>
    rw [ht.slot_without, if_pos (settles_deleteOutcome_iff.mp hkey)] at hslot
    cases hslot

/-- A key that a line writes nothing under is empty behind it if the line settles the key. -/
theorem slot_of_unwritten (h : Takes replies t o t') (ht : t.Sound)
    (hkey : o.action = .write → o.error = none → o.id ≠ some key) :
    t'.slot key = if o.Settles key then none else t.slot key := by
  split
  next hsettles =>
    cases h with
    | failed herror => exact (o.not_settles_of_isSome herror key hsettles).elim
    | @written k ack p i i' _ _ hack =>
      have hne : key ≠ ack.id := fun heq => hkey rfl rfl (congrArg some heq.symm)
      have habout := (settles_writeOutcome_iff.mp hsettles).resolve_left hne
      rw [slot_written ht, if_neg hne, if_pos habout]
    | deleted k id => rw [ht.slot_without, if_pos (settles_deleteOutcome_iff.mp hsettles)]
  next hsettles => exact h.slot_eq ht hsettles

/-- A success about a write is that of an instance that was held, and is held under its id from then
on. -/
theorem exists_written (h : Takes replies t o t') (ht : t.Sound) (haction : o.action = .write)
    (hsuccess : o.error = none) :
    ∃ ack p i i', ⟨o.key, .ok ack⟩ ∈ replies ∧ o.id = some ack.id ∧ t.slot o.key = some (p, i) ∧
      acknowledge t.model ack i = .ok i' ∧ t'.slot ack.id = some (.loaded, i') := by
  cases h with
  | failed herror =>
    rw [hsuccess] at herror
    cases herror
  | @written k ack p i i' hreply hslot hack =>
    refine ⟨ack, p, i, i', hreply, rfl, hslot, hack, ?_⟩
    rw [slot_written ht, if_pos rfl]
  | deleted => cases haction

/-- Nothing becomes pending. -/
theorem clean (h : Takes replies t o t') (ht : t.Sound) (hclean : t.Clean key) :
    t'.Clean key := by
  by_cases hkey : o.Settles key
  · exact h.clean_of_settles ht hkey
  · intro p i hslot
    rw [h.slot_eq ht hkey] at hslot
    exact hclean p i hslot

end Takes

namespace TakesAll

/-- Failures change nothing. -/
theorem of_failed (h : ∀ o ∈ lines, o.error.isSome) : TakesAll replies t lines t := by
  induction lines with
  | nil => exact .nil
  | cons o rest ih =>
    obtain ⟨ho, hrest⟩ := List.forall_mem_cons.mp h
    exact .cons (.failed ho) (ih hrest)

theorem append (h : TakesAll replies t lines t₁) (hmore : TakesAll replies t₁ more t') :
    TakesAll replies t (lines ++ more) t' := by
  induction h with
  | nil => exact hmore
  | cons first _ ih => exact .cons first (ih hmore)

/-- Lines are taken over up to any point among them, and from there on. -/
theorem exists_of_append (h : TakesAll replies t (lines ++ more) t') :
    ∃ t₁, TakesAll replies t lines t₁ ∧ TakesAll replies t₁ more t' := by
  induction lines generalizing t with
  | nil => exact ⟨t, .nil, h⟩
  | cons o rest ih =>
    cases h with
    | cons first hrest =>
      obtain ⟨t₁, hlines, hmore⟩ := ih hrest
      exact ⟨t₁, .cons first hlines, hmore⟩

/-- A tracker stays sound. -/
theorem sound (h : TakesAll replies t lines t') (ht : t.Sound) : t'.Sound := by
  induction h with
  | nil => exact ht
  | cons first _ ih => exact ih (first.sound ht)

/-- Lines change nothing but partitions. -/
theorem terms_eq (h : TakesAll replies t lines t') : t'.terms = t.terms := by
  induction h with
  | nil => rfl
  | cons first _ ih => exact ih.trans first.terms_eq

/-- The model stays what it is. -/
theorem layout_eq (h : TakesAll replies t lines t') : t'.layout = t.layout :=
  (terms_eq_iff.mp h.terms_eq).2.1

/-- A key that no success is about keeps its slot. -/
theorem slot_eq (h : TakesAll replies t lines t') (ht : t.Sound)
    (hkey : ∀ o ∈ lines, ¬o.Settles key) : t'.slot key = t.slot key := by
  induction h with
  | nil => rfl
  | cons first _ ih =>
    obtain ⟨ho, hrest⟩ := List.forall_mem_cons.mp hkey
    exact (ih (first.sound ht) hrest).trans (first.slot_eq ht ho)

/-- A key that lines write nothing under is empty behind them if one of them settles the key. -/
theorem slot_of_unwritten (h : TakesAll replies t lines t') (ht : t.Sound)
    (hkey : ∀ o ∈ lines, o.action = .write → o.error = none → o.id ≠ some key) :
    t'.slot key = if ∃ o ∈ lines, o.Settles key then none else t.slot key := by
  induction h with
  | nil => simp
  | cons first _ ih =>
    obtain ⟨ho, hrest⟩ := List.forall_mem_cons.mp hkey
    rw [ih (first.sound ht) hrest, first.slot_of_unwritten ht ho]
    simp only [List.exists_mem_cons_iff, ite_or]
    split_ifs <;> rfl

/-- A success about a write among lines is that of an instance that was held when its turn came, and
is held under its id from then on. -/
theorem exists_written (h : TakesAll replies t (lines ++ o :: more) t') (ht : t.Sound)
    (haction : o.action = .write) (hsuccess : o.error = none) :
    ∃ ack p i i' t₁ t₂, ⟨o.key, .ok ack⟩ ∈ replies ∧ o.id = some ack.id ∧
      TakesAll replies t lines t₁ ∧ t₁.slot o.key = some (p, i) ∧
      acknowledge t.model ack i = .ok i' ∧ t₂.slot ack.id = some (.loaded, i') ∧ t₂.Sound ∧
      TakesAll replies t₂ more t' := by
  obtain ⟨t₁, hlines, hmore⟩ := h.exists_of_append
  have ht₁ := hlines.sound ht
  have hmodel := (terms_eq_iff.mp hlines.terms_eq).1
  cases hmore with
  | @cons _ t₂ _ _ _ first rest =>
    obtain ⟨ack, p, i, i', hreply, hid, hslot, hack, hslot'⟩ :=
      first.exists_written ht₁ haction hsuccess
    rw [hmodel] at hack
    exact ⟨ack, p, i, i', t₁, t₂, hreply, hid, hlines, hslot, hack, hslot', first.sound ht₁, rest⟩

/-- Nothing becomes pending. -/
theorem clean (h : TakesAll replies t lines t') (ht : t.Sound) (hclean : t.Clean key) :
    t'.Clean key := by
  induction h with
  | nil => exact hclean
  | cons first _ ih => exact ih (first.sound ht) (first.clean ht hclean)

/-- Nothing is pending under a key that a success is about. -/
theorem clean_of_settles (h : TakesAll replies t lines t') (ht : t.Sound) (ho : o ∈ lines)
    (hkey : o.Settles key) : t'.Clean key := by
  induction h with
  | nil => cases ho
  | cons first rest ih =>
    rcases List.mem_cons.mp ho with rfl | ho
    · exact rest.clean (first.sound ht) (first.clean_of_settles ht hkey)
    · exact ih (first.sound ht) ho

/-- What is pending behind lines was so before, and no success is about it. -/
theorem slot_of_pending (h : TakesAll replies t lines t') (ht : t.Sound) {p : Partition}
    {i : Instance α} (hp : p ≠ .loaded) (hslot : t'.slot key = some (p, i)) :
    t.slot key = some (p, i) ∧ ∀ o ∈ lines, ¬o.Settles key := by
  have hnone : ∀ o ∈ lines, ¬o.Settles key := fun o ho hkey =>
    hp (h.clean_of_settles ht ho hkey p i hslot)
  exact ⟨(h.slot_eq ht hnone).symm.trans hslot, hnone⟩

/-- What is pending stays so exactly if no success is about its key. -/
theorem slot_eq_some_iff (h : TakesAll replies t lines t') (ht : t.Sound) {p : Partition}
    {i : Instance α} (hp : p ≠ .loaded) (hslot : t.slot key = some (p, i)) :
    t'.slot key = some (p, i) ↔ ∀ o ∈ lines, ¬o.Settles key :=
  ⟨fun h' => (h.slot_of_pending ht hp h').2, fun hkey => (h.slot_eq ht hkey).trans hslot⟩

end TakesAll

end Tracker

end KeyedRecords

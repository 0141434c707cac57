import Mathlib.Data.Finset.Card

/-!
# Resources made on demand from a bounded supply

A state has some resources and has used up some of a supply of `capacity` units. An
operation that needs a set of resources makes those that are missing, one unit each, and
fails when the supply runs out. `Provides` describes an operation that succeeds and `Fails`
one that does not; both compose along a sequence of operations, and which of the two happens
is decided by the number of missing resources before the first one.
-/

namespace OnDemand

variable {σ κ : Type*} (has : σ → κ → Prop) [∀ s, DecidablePred (has s)]
  (used : σ → ℕ)

/-- Number of resources of `A` that are not there yet. -/
def missing (s : σ) (A : Finset κ) : ℕ := (A.filter fun x => ¬ has s x).card

/-- From `s` to `s'` exactly the missing resources of `A` were made. -/
structure Provides (s s' : σ) (A : Finset κ) : Prop where
  has_iff : ∀ x, has s' x ↔ has s x ∨ x ∈ A
  used_eq : used s' = used s + missing has s A

/-- From `s` to `s'` some of `A` was made, and the supply is too small for all of it. -/
structure Fails (capacity : ℕ) (s s' : σ) (A : Finset κ) : Prop where
  partly : ∃ B ⊆ A, Provides has used s s' B
  short : capacity < used s + missing has s A

variable {has used} {s s₁ s₂ : σ} {A B : Finset κ} {capacity : ℕ}

theorem missing_mono (h : A ⊆ B) : missing has s A ≤ missing has s B :=
  Finset.card_le_card (Finset.filter_subset_filter _ h)

theorem Provides.refl (s : σ) : Provides has used s s ∅ :=
  ⟨fun x => by simp, by simp [missing]⟩

/-- Nothing is made that is there. -/
theorem provides_of_has {x : κ} (h : has s x) : Provides has used s s {x} where
  has_iff y := by
    rw [Finset.mem_singleton]
    constructor
    · exact .inl
    · rintro (hy | rfl)
      · exact hy
      · exact h
  used_eq := by
    rw [missing, Finset.filter_singleton, if_neg (not_not.mpr h), Finset.card_empty, Nat.add_zero]

/-- One unit is used for what is not there. -/
theorem provides_of_make {x : κ} (h : ¬ has s x) (hhas : ∀ y, has s₁ y ↔ has s y ∨ y = x)
    (hused : used s₁ = used s + 1) : Provides has used s s₁ {x} where
  has_iff y := by rw [hhas, Finset.mem_singleton]
  used_eq := by rw [hused, missing, Finset.filter_singleton, if_pos h, Finset.card_singleton]

/-- The first missing resource finds the supply used up. -/
theorem fails_of_full {x : κ} (h : ¬ has s x) (hx : x ∈ A) (hfull : capacity ≤ used s) :
    Fails has used capacity s s A where
  partly := ⟨∅, Finset.empty_subset _, .refl s⟩
  short := by
    have hpos : 0 < missing has s A :=
      Finset.card_pos.mpr ⟨x, Finset.mem_filter.mpr ⟨hx, h⟩⟩
    omega

theorem Fails.mono (h : Fails has used capacity s s₁ A) (hAB : A ⊆ B) :
    Fails has used capacity s s₁ B where
  partly := by
    obtain ⟨C, hC, hprovides⟩ := h.partly
    exact ⟨C, hC.trans hAB, hprovides⟩
  short := h.short.trans_le (Nat.add_le_add_left (missing_mono hAB) _)

/-! ### One after the other -/

variable [DecidableEq κ]

/-- What is needed first is not missing later. -/
theorem missing_union (h : ∀ x, has s₁ x ↔ has s x ∨ x ∈ A) :
    missing has s (A ∪ B) = missing has s A + missing has s₁ B := by
  have hsplit : (A ∪ B).filter (fun x => ¬ has s x) =
      (A.filter fun x => ¬ has s x) ∪ B.filter fun x => ¬ has s₁ x := by
    ext x
    simp only [Finset.mem_filter, Finset.mem_union, h]
    tauto
  have hdisjoint : Disjoint (A.filter fun x => ¬ has s x) (B.filter fun x => ¬ has s₁ x) := by
    rw [Finset.disjoint_left]
    intro x hA hB
    exact (Finset.mem_filter.mp hB).2 ((h x).mpr (.inr (Finset.mem_filter.mp hA).1))
  rw [missing, hsplit, Finset.card_union_of_disjoint hdisjoint, missing, missing]

theorem Provides.trans (h₁ : Provides has used s s₁ A) (h₂ : Provides has used s₁ s₂ B) :
    Provides has used s s₂ (A ∪ B) where
  has_iff x := by
    rw [h₂.has_iff, h₁.has_iff, Finset.mem_union, or_assoc]
  used_eq := by
    rw [h₂.used_eq, h₁.used_eq, missing_union h₁.has_iff, Nat.add_assoc]

theorem Provides.fails (h₁ : Provides has used s s₁ A) (h₂ : Fails has used capacity s₁ s₂ B) :
    Fails has used capacity s s₂ (A ∪ B) where
  partly := by
    obtain ⟨C, hC, hprovides⟩ := h₂.partly
    exact ⟨A ∪ C, Finset.union_subset_union_right hC, h₁.trans hprovides⟩
  short := by
    have hshort := h₂.short
    rw [missing_union h₁.has_iff]
    have hused := h₁.used_eq
    omega

end OnDemand

import Mathlib.Data.Set.Card
import Mathlib.Order.Interval.Finset.Nat

/-! # Sources of fresh frames

A frame source hands out numbered frames of storage. What a client may rely on
is the set of frames the source still has: an allocation removes its result
from that set, so the result is none of the frames handed out before.
-/

universe u

/-- A supply of frames numbered between `1` and `bound - 1`. -/
class FrameSource (σ : Type u) (bound : outParam Nat) where
  /-- The frames that can still be handed out. -/
  free : σ → Set Nat
  alloc : σ → Option (Nat × σ)
  dealloc : σ → Nat → σ
  free_range : ∀ {s k}, k ∈ free s → 0 < k ∧ k < bound
  alloc_mem : ∀ {s k next}, alloc s = some (k, next) → k ∈ free s
  free_alloc : ∀ {s k next}, alloc s = some (k, next) → free next = free s \ {k}
  free_of_alloc_none : ∀ {s}, alloc s = none → free s = ∅
  free_subset_dealloc : ∀ s k, free s ⊆ free (dealloc s k)
  free_dealloc_subset : ∀ s {k}, k < bound → free (dealloc s k) ⊆ insert k (free s)

namespace FrameSource

variable {σ : Type u} {bound other : Nat} [FrameSource σ bound] {s next : σ} {k : Nat} {n : ℕ∞}

section
variable (halloc : alloc s = some (k, next))
include halloc

lemma alloc_pos : 0 < k := (free_range (alloc_mem halloc)).1

lemma alloc_lt : k < bound := (free_range (alloc_mem halloc)).2

lemma not_mem_free_alloc : k ∉ free next := by
  rw [free_alloc halloc]
  simp

lemma free_alloc_subset : free next ⊆ free s := by
  rw [free_alloc halloc]
  exact Set.sdiff_subset

end

lemma not_mem_free_dealloc (hk : k < bound) (hne : other ≠ k) (hother : other ∉ free s) :
    other ∉ free (dealloc s k) := by
  intro hmem
  rcases free_dealloc_subset s hk hmem with rfl | hmem
  exacts [hne rfl, hother hmem]

lemma not_mem_free_foldl {α : Type*} {step : σ → α → σ} {items : List α}
    (hstep : ∀ s, other ∉ free s → ∀ item ∈ items, other ∉ free (step s item))
    (hother : other ∉ free s) : other ∉ free (items.foldl step s) :=
  List.foldlRecOn items step hother hstep

lemma exists_alloc (hfree : (free s).Nonempty) : ∃ k next, alloc s = some (k, next) := by
  cases halloc : alloc s with
  | none =>
    rw [free_of_alloc_none halloc] at hfree
    exact absurd hfree Set.not_nonempty_empty
  | some result => exact ⟨result.1, result.2, rfl⟩

section
variable (halloc : alloc s = some (k, next))
include halloc

lemma encard_free_alloc : (free next).encard + 1 = (free s).encard := by
  rw [free_alloc halloc]
  exact Set.encard_sdiff_singleton_add_one (alloc_mem halloc)

lemma le_encard_free_alloc_iff : n ≤ (free next).encard ↔ n + 1 ≤ (free s).encard := by
  rw [← encard_free_alloc halloc]
  exact (ENat.add_le_add_iff_right (by simp)).symm

lemma le_encard_free_alloc (hfree : n + 1 ≤ (free s).encard) : n ≤ (free next).encard :=
  (le_encard_free_alloc_iff halloc).mpr hfree

end

lemma nonempty_of_le_encard (hfree : n + 1 ≤ (free s).encard) : (free s).Nonempty := by
  rw [← Set.encard_pos]
  exact lt_of_lt_of_le (by simp) hfree

end FrameSource

/-- A supply that also hands out runs of consecutive frames. -/
class ContiguousSource (σ : Type u) (bound : outParam Nat) extends FrameSource σ bound where
  allocRun : σ → Nat → Option (Nat × σ)
  allocRun_mem : ∀ {s n k next}, allocRun s n = some (k, next) → ∀ i < n, k + i ∈ free s
  free_allocRun : ∀ {s n k next}, allocRun s n = some (k, next) →
    free next = free s \ Set.Ico k (k + n)
  allocRun_none : ∀ {s n}, allocRun s n = none → 0 < n → ∀ k, ∃ i < n, k + i ∉ free s

namespace ContiguousSource

variable {σ : Type u} {bound : Nat} [ContiguousSource σ bound] {s next : σ} {n k : Nat}

lemma free_allocRun_subset (hrun : allocRun s n = some (k, next)) :
    FrameSource.free next ⊆ FrameSource.free s := by
  rw [free_allocRun hrun]
  exact Set.sdiff_subset

lemma exists_allocRun {first : Nat} (hpos : 0 < n)
    (hfree : ∀ i < n, first + i ∈ FrameSource.free s) :
    ∃ k next, allocRun s n = some (k, next) := by
  cases hrun : allocRun s n with
  | none =>
    obtain ⟨i, hi, hheld⟩ := allocRun_none hrun hpos first
    exact absurd (hfree i hi) hheld
  | some result => exact ⟨result.1, result.2, rfl⟩

lemma le_encard_free_allocRun {m : ℕ∞} (hrun : allocRun s n = some (k, next))
    (hfree : m + n ≤ (FrameSource.free s).encard) : m ≤ (FrameSource.free next).encard := by
  have hcard : (Set.Ico k (k + n)).encard = n := by
    rw [← Finset.coe_Ico, Set.encard_coe_eq_coe_finsetCard, Nat.card_Ico, Nat.add_sub_cancel_left]
  have hle := Set.encard_le_encard_sdiff_add_encard (FrameSource.free s) (Set.Ico k (k + n))
  rw [hcard, ← free_allocRun hrun] at hle
  exact (ENat.add_le_add_iff_right (ENat.natCast_ne_top n)).mp (hfree.trans hle)

end ContiguousSource

import KarteOs.Foundation.FrameSource
import KarteOs.Mm.Pmm

/-! # The kernel's frame allocator as a frame source

Physical addresses have at most 52 bits and frame 0 lies below the kernel
image, so every frame the bitmap allocator manages has a non-zero number that
fits in a page table entry.
-/

namespace KarteOs.Mm

open FrameSource FrameAllocator Nat

namespace FrameAllocator

/-- The managed frames lie above address 0 and within the physical address space. -/
def InRange (a : FrameAllocator) : Prop :=
  0 < a.start ∧ a.start + a.totalFrames * pageSize ≤ 2 ^ 52

variable {a next : FrameAllocator} {frame count k : Nat}

lemma InRange.alloc (ha : a.InRange) (halloc : a.alloc = some (frame, next)) : next.InRange := by
  obtain ⟨_, _, _, _, hstart, htotal, _⟩ := alloc_some halloc
  rw [InRange, hstart, htotal]
  exact ha

lemma InRange.dealloc (ha : a.InRange) (frame : Nat) : (a.dealloc frame).InRange := by
  rw [InRange, start_dealloc, totalFrames_dealloc]
  exact ha

def freeFrames (a : FrameAllocator) : Set Nat :=
  fun k => ∃ i < a.totalFrames, a.isFree i = true ∧ k * pageSize = a.start + i * pageSize

lemma alloc_div_mul (halloc : a.alloc = some (frame, next)) :
    frame / pageSize * pageSize = frame := by
  obtain ⟨i, rfl, _⟩ := alloc_some halloc
  refine Nat.div_mul_cancel (Nat.dvd_add (dvd_of_mod_eq_zero a.aligned) ?_)
  exact Nat.dvd_mul_left _ _

lemma mem_freeFrames_alloc (halloc : a.alloc = some (frame, next)) :
    frame / pageSize ∈ a.freeFrames := by
  have hframe := alloc_div_mul halloc
  obtain ⟨i, heq, hlt, hfree, _⟩ := alloc_some halloc
  exact ⟨i, hlt, hfree, hframe.trans heq⟩

lemma freeFrames_diff {taken : Nat → Prop} [DecidablePred taken] {gone : Set Nat}
    (hstart : next.start = a.start) (htotal : next.totalFrames = a.totalFrames)
    (hmark : ∀ j, next.isFree j = (a.isFree j && decide (¬taken j)))
    (hgone : ∀ j k, k * pageSize = a.start + j * pageSize → (k ∈ gone ↔ taken j)) :
    next.freeFrames = a.freeFrames \ gone := by
  ext k
  constructor
  · rintro ⟨j, hj, hfree, hk⟩
    rw [hmark, Bool.and_eq_true, decide_eq_true_eq] at hfree
    rw [hstart] at hk
    rw [htotal] at hj
    exact ⟨⟨j, hj, hfree.1, hk⟩, (hgone j k hk).not.mpr hfree.2⟩
  · rintro ⟨⟨j, hj, hfree, hk⟩, hnot⟩
    refine ⟨j, by rw [htotal]; exact hj, ?_, by rw [hstart]; exact hk⟩
    rw [hmark, hfree, Bool.true_and, decide_eq_true_eq]
    exact (hgone j k hk).not.mp hnot

lemma freeFrames_alloc (halloc : a.alloc = some (frame, next)) :
    next.freeFrames = a.freeFrames \ {frame / pageSize} := by
  have hframe := alloc_div_mul halloc
  obtain ⟨i, heq, _, _, hstart, htotal, hmark⟩ := alloc_some halloc
  refine freeFrames_diff hstart htotal hmark fun j k hk => ?_
  rw [Set.mem_singleton_iff]
  simp only [pageSize] at *
  omega

lemma InRange.allocContiguous (ha : a.InRange)
    (halloc : a.allocContiguous count = some (frame, next)) : next.InRange := by
  obtain ⟨_, _, _, _, hstart, htotal, _⟩ := allocContiguous_some halloc
  rw [InRange, hstart, htotal]
  exact ha

lemma freeFrames_allocContiguous
    (halloc : a.allocContiguous count = some (frame, next)) :
    (∀ i < count, frame / pageSize + i ∈ a.freeFrames) ∧
      next.freeFrames = a.freeFrames \ Set.Ico (frame / pageSize) (frame / pageSize + count) := by
  obtain ⟨base, rfl, hbase, hfree, hstart, htotal, hmark⟩ := allocContiguous_some halloc
  have hframe : (a.start + base * pageSize) / pageSize * pageSize = a.start + base * pageSize :=
    Nat.div_mul_cancel (Nat.dvd_add (dvd_of_mod_eq_zero a.aligned) (Nat.dvd_mul_left ..))
  generalize (a.start + base * pageSize) / pageSize = first at hframe ⊢
  constructor
  · intro i hi
    exact ⟨base + i, by omega, hfree i hi, by rw [Nat.add_mul, hframe]; simp only [pageSize]; omega⟩
  · refine freeFrames_diff hstart htotal hmark fun j k hk => ?_
    rw [Set.mem_Ico]
    simp only [pageSize] at hframe hk
    omega

lemma isFree_dealloc_of_lt (hlt : a.indexOf frame < a.totalFrames) (j : Nat) :
    (a.dealloc frame).isFree j = (a.isFree j || decide (j = a.indexOf frame)) := by
  unfold dealloc
  rw [if_pos hlt]
  exact Bitmap.isClear_clear (hlt.trans_le a.covered) j

lemma freeFrames_subset_dealloc (a : FrameAllocator) (frame : Nat) :
    a.freeFrames ⊆ (a.dealloc frame).freeFrames := by
  rintro k ⟨i, hi, hfree, hk⟩
  refine ⟨i, by rwa [totalFrames_dealloc], ?_, by rwa [start_dealloc]⟩
  by_cases hlt : a.indexOf frame < a.totalFrames
  · rw [isFree_dealloc_of_lt hlt, hfree, Bool.true_or]
  · rw [dealloc, if_neg hlt]
    exact hfree

lemma InRange.eq_of_indexOf (ha : a.InRange) (hk : k < 2 ^ 40)
    (hlt : a.indexOf (k * pageSize) < a.totalFrames) :
    k * pageSize = a.start + a.indexOf (k * pageSize) * pageSize := by
  obtain ⟨hpos, hlimit⟩ := ha
  have haligned := a.aligned
  have hk' : k * pageSize < 2 ^ 52 := by
    simp only [pageSize]
    omega
  rcases Nat.lt_or_ge (k * pageSize) a.start with hbelow | habove
  · -- below the region the subtraction wraps far past its end
    exfalso
    rw [indexOf, wrappingAdd, mod_eq_of_lt (by simp only [usizeRange]; omega)] at hlt
    simp only [usizeRange, pageSize] at hlt hlimit hk' hbelow
    omega
  · have hindex : a.indexOf (k * pageSize) = (k * pageSize - a.start) / pageSize := by
      have hsum : k * pageSize + (usizeRange - a.start) = k * pageSize - a.start + usizeRange := by
        simp only [usizeRange]
        omega
      rw [indexOf, wrappingAdd, hsum, add_mod_right, mod_eq_of_lt (by
        simp only [usizeRange]; omega)]
    rw [hindex]
    simp only [pageSize] at haligned habove ⊢
    omega

lemma InRange.freeFrames_dealloc_subset (ha : a.InRange) (hk : k < 2 ^ 40) :
    (a.dealloc (k * pageSize)).freeFrames ⊆ insert k a.freeFrames := by
  rintro m ⟨i, hi, hfree, hm⟩
  rw [totalFrames_dealloc] at hi
  rw [start_dealloc] at hm
  by_cases hlt : a.indexOf (k * pageSize) < a.totalFrames
  · rw [isFree_dealloc_of_lt hlt, Bool.or_eq_true, decide_eq_true_eq] at hfree
    rcases hfree with hfree | rfl
    · exact .inr ⟨i, hi, hfree, hm⟩
    · left
      exact eq_of_mul_eq_mul_right (by decide) (hm.trans (ha.eq_of_indexOf hk hlt).symm)
  · rw [FrameAllocator.dealloc, if_neg hlt] at hfree
    exact .inr ⟨i, hi, hfree, hm⟩

end FrameAllocator

def KernelFrames := { a : FrameAllocator // a.InRange }

namespace KernelFrames

def allocFrame (a : KernelFrames) : Option (Nat × KernelFrames) :=
  match halloc : a.1.alloc with
  | none => none
  | some result => some (result.1 / pageSize, ⟨result.2, a.2.alloc halloc⟩)

lemma allocFrame_some {a next : KernelFrames} {k : Nat} (halloc : a.allocFrame = some (k, next)) :
    ∃ frame, a.1.alloc = some (frame, next.1) ∧ k = frame / pageSize := by
  unfold allocFrame at halloc
  split at halloc
  · cases halloc
  next result heq =>
    cases halloc
    exact ⟨result.1, heq, rfl⟩

variable {a : KernelFrames} {region : MemoryRegion}

lemma freeFrames_range {k : Nat} (hk : k ∈ a.1.freeFrames) : 0 < k ∧ k < 2 ^ 40 := by
  obtain ⟨i, hi, _, hk⟩ := hk
  obtain ⟨hpos, hlimit⟩ := a.2
  simp only [pageSize] at hk hlimit
  omega

lemma freeFrames_of_allocFrame_none (halloc : a.allocFrame = none) : a.1.freeFrames = ∅ := by
  rw [Set.eq_empty_iff_forall_notMem]
  rintro k ⟨i, hi, hfree, _⟩
  unfold allocFrame at halloc
  split at halloc
  next heq => cases hfree.symm.trans (alloc_none heq hi)
  · cases halloc

instance : FrameSource KernelFrames (2 ^ 40) where
  free a := a.1.freeFrames
  alloc := allocFrame
  dealloc a k := ⟨a.1.dealloc (k * pageSize), a.2.dealloc _⟩
  free_range := freeFrames_range
  alloc_mem := by
    intro a k next halloc
    obtain ⟨frame, hframe, rfl⟩ := allocFrame_some halloc
    exact mem_freeFrames_alloc hframe
  free_alloc := by
    intro a k next halloc
    obtain ⟨frame, hframe, rfl⟩ := allocFrame_some halloc
    exact freeFrames_alloc hframe
  free_of_alloc_none := freeFrames_of_allocFrame_none
  free_subset_dealloc a k := a.1.freeFrames_subset_dealloc _
  free_dealloc_subset a k hk := a.2.freeFrames_dealloc_subset hk

def allocContiguousFrames (a : KernelFrames) (count : Nat) : Option (Nat × KernelFrames) :=
  match halloc : a.1.allocContiguous count with
  | none => none
  | some result => some (result.1 / pageSize, ⟨result.2, a.2.allocContiguous halloc⟩)

lemma allocContiguousFrames_some {next : KernelFrames} {count k : Nat}
    (halloc : a.allocContiguousFrames count = some (k, next)) :
    ∃ frame, a.1.allocContiguous count = some (frame, next.1) ∧ k = frame / pageSize := by
  unfold allocContiguousFrames at halloc
  split at halloc
  · cases halloc
  next result heq =>
    cases halloc
    exact ⟨result.1, heq, rfl⟩

lemma allocContiguousFrames_none {n : Nat} (halloc : a.allocContiguousFrames n = none)
    (hpos : 0 < n) (k : Nat) : ∃ i < n, k + i ∉ a.1.freeFrames := by
  by_contra hall
  have hfree : ∀ i < n, k + i ∈ a.1.freeFrames := by
    intro i hi
    by_contra hnot
    exact hall ⟨i, hi, hnot⟩
  unfold allocContiguousFrames at halloc
  split at halloc
  next heq =>
    -- the run of free frames is a run of clear bits
    obtain ⟨base, hlt, -, hbase⟩ := hfree 0 hpos
    have hrun : ∀ i < n, base + i < a.1.totalFrames ∧ a.1.isFree (base + i) := by
      intro i hi
      obtain ⟨j, hj, hclear, hk⟩ := hfree i hi
      obtain rfl : j = base + i := by
        simp only [pageSize] at hk hbase
        omega
      exact ⟨hj, hclear⟩
    have hend := (hrun (n - 1) (by omega)).1
    obtain ⟨i, hi, hheld⟩ := allocContiguous_none hpos heq
      (show base + n ≤ a.1.totalFrames by omega)
    rw [(hrun i hi).2] at hheld
    cases hheld
  · cases halloc

instance : ContiguousSource KernelFrames (2 ^ 40) where
  allocRun := allocContiguousFrames
  allocRun_mem := by
    intro a n k next halloc
    obtain ⟨frame, hframe, rfl⟩ := allocContiguousFrames_some halloc
    exact (freeFrames_allocContiguous hframe).1
  free_allocRun := by
    intro a n k next halloc
    obtain ⟨frame, hframe, rfl⟩ := allocContiguousFrames_some halloc
    exact (freeFrames_allocContiguous hframe).2
  allocRun_none := allocContiguousFrames_none

/-- The frames of a region that lies in the physical address space, as
`pmm::init` finds them. -/
def fresh (region : MemoryRegion) (hrange : (new region).InRange) : KernelFrames :=
  ⟨.new region, hrange⟩

lemma free_fresh (hrange : (new region).InRange) :
    FrameSource.free (fresh region hrange) = Set.Ico (region.managedStart / pageSize)
        (region.managedStart / pageSize + region.managedFrames) := by
  have hstart : region.managedStart / pageSize * pageSize = region.managedStart :=
    Nat.div_mul_cancel (Nat.dvd_of_mod_eq_zero (alignUp_mod _))
  ext k
  constructor
  · rintro ⟨i, hi, -, hk⟩
    change i < region.managedFrames at hi
    change k * pageSize = region.managedStart + i * pageSize at hk
    rw [← hstart, ← Nat.add_mul] at hk
    obtain rfl := Nat.eq_of_mul_eq_mul_right (by decide) hk
    exact ⟨Nat.le_add_right .., Nat.add_lt_add_left hi _⟩
  · rintro ⟨hle, hlt⟩
    refine ⟨k - region.managedStart / pageSize, Nat.sub_lt_left_of_lt_add hle hlt,
      Bitmap.isClear_replicate_zero .., ?_⟩
    change k * pageSize = region.managedStart + (k - region.managedStart / pageSize) * pageSize
    rw [← hstart, Nat.mul_div_cancel _ (by decide), ← Nat.add_mul, Nat.add_sub_cancel' hle]

lemma encard_free_fresh (hrange : (new region).InRange) :
    (FrameSource.free (fresh region hrange)).encard = region.managedFrames := by
  rw [free_fresh, ← Finset.coe_Ico, Set.encard_coe_eq_coe_finsetCard, card_Ico,
    Nat.add_sub_cancel_left]

def sixtyFour : KernelFrames where
  val :=
    { start := 0x301000
      bitmap := #[0#64]
      totalFrames := 64
      nextFree := 0
      aligned := by decide
      covered := by decide
      hint := by decide
      limit := by decide }
  property := by
    unfold InRange
    decide

lemma free_sixtyFour : FrameSource.free sixtyFour = Set.Ico 0x301 0x341 := by
  ext k
  constructor
  · rintro ⟨i, hi, -, hk⟩
    simp only [sixtyFour, pageSize] at hi hk
    exact ⟨by omega, by omega⟩
  · rintro ⟨hle, hlt⟩
    have hclear : ∀ i < 64, sixtyFour.val.isFree i := by decide
    refine ⟨k - 0x301, by simp only [sixtyFour]; omega, hclear _ (by omega), ?_⟩
    simp only [sixtyFour, pageSize]
    omega

lemma encard_free_sixtyFour : (FrameSource.free sixtyFour).encard = 64 := by
  rw [free_sixtyFour, ← Finset.coe_Ico, Set.encard_coe_eq_coe_finsetCard, card_Ico]
  rfl

lemma exists_alloc_sixtyFour : ∃ root frames, alloc sixtyFour = some (root, frames) ∧
    (62 : ℕ∞) + 1 ≤ (free frames).encard := by
  have hcard : (63 : ℕ∞) + 1 ≤ (free sixtyFour).encard := by
    rw [encard_free_sixtyFour]
    decide
  obtain ⟨root, frames, halloc⟩ := exists_alloc (nonempty_of_le_encard hcard)
  exact ⟨root, frames, halloc, le_encard_free_alloc halloc hcard⟩

def single : KernelFrames where
  val :=
    { start := 0x301000
      bitmap := #[0#64]
      totalFrames := 1
      nextFree := 0
      aligned := by decide
      covered := by decide
      hint := by decide
      limit := by decide }
  property := by
    unfold InRange
    decide

end KernelFrames

end KarteOs.Mm

import Mathlib.Order.Interval.Set.Disjoint
import KarteOs.Process.Lifecycle
import KarteOs.Process.LoadTotal
import Mathlib.Order.CompletePartialOrder

/-! # Where `mmap` places mappings

When the caller leaves the address to the kernel, the reservation takes the first
fit at or above the bump pointer. The loader may have set the bump pointer below
the mmap area, and nothing but VMAs is in the way of the search: not the heap of
an image that ends above the heap area, and not the user stack.
-/

namespace KarteOs.Process

universe u

open Mm Syscall Transition Registry Option

variable {σ : Type u}

/-- `linux_mmap` chooses the address: there is none, a fixed one rounds down to
0, or the hint cannot be used. -/
def KernelPicks (root : Nat) (k : Kernel σ) (addr len flags : Nat) : Prop :=
  addr = 0 ∨
    if flags.testBit 4 then alignDown addr = 0
    else mmapHint k.registry root addr (wrappingAlignUp len) = 0

def mappedRange (target len : Nat) : Set Nat :=
  Set.Ico target (target + wrappingAlignUp len)

structure ClearOfFixedAreas (k : Kernel σ) (len target : Nat) : Prop where
  above : userMmapBase ≤ target
  heap : Disjoint (mappedRange target len) (Set.Ico userHeapBase (max k.brk userHeapLimit))
  userStack : Disjoint (mappedRange target len) (Set.Ico userStackBase userStackTop)

/-- A place for a mapping that nothing else has a claim to, and that `munmap`
accepts at any later time. -/
structure WellPlaced [FrameSource σ (2 ^ 40)] (arch : Arch) (root : Nat) (k : Kernel σ)
    (len target : Nat) : Prop extends ClearOfFixedAreas k len target where
  below : target + wrappingAlignUp len ≤ userMmapLimit
  regions : ∀ state, k.registry.stateOf root = some state → ∀ vma ∈ state.vmas,
    vma.active = true → Disjoint (mappedRange target len) (Set.Ico vma.start vma.stop)
  returned : ∀ later : Kernel σ, (linuxMunmap arch root later target len).2 = 0

def HasEntry (state : VmState) (len : Nat) : Prop :=
  wrappingAlignUp len = 0 ∨ ∃ vma ∈ state.vmas, vma.active = false

/-- If there is a VMA entry for it, the lowest range at or above the bump pointer
that fits between the VMAs is clear of the fixed areas. -/
def ClearFit (root : Nat) (k : Kernel σ) (len : Nat) : Prop :=
  len ≠ 0 → ∀ state, k.registry.stateOf root = some state →
    HasEntry state len → ∀ target, state.FirstFit (wrappingAlignUp len) target →
      ClearOfFixedAreas k len target

/-! ## The choice of the kernel -/

section
variable {root addr len flags target : Nat} {k : Kernel σ} {registry : Registry} {state : VmState}

lemma vmaIsElf_zero (registry : Registry) (root : Nat) : registry.vmaIsElf root 0 = false := by
  rw [vmaIsElf]
  cases registry.stateOf root with
  | none => rfl
  | some state => simp [VmState.isElf]

lemma KernelPicks.mmapTarget_eq (hpicks : KernelPicks root k addr len flags) :
    mmapTarget k.registry root addr (wrappingAlignUp len) (flags.testBit 4) =
      k.registry.reserveMmapAddr root (wrappingAlignUp len) := by
  rw [mmapTarget]
  by_cases hzero : addr = 0
  · simp [hzero]
  · have hchoice := hpicks.resolve_left hzero
    cases hfixed : flags.testBit 4 with
    | true =>
      simp only [hfixed, if_true] at hchoice
      simp [hzero, hchoice, vmaIsElf_zero]
    | false =>
      simp only [hfixed, Bool.false_eq_true, if_false] at hchoice
      simp [hzero, hchoice]

lemma reserve_firstFit (hstate : state.Aligned) (len : Nat) :
    ∃ next found, state.reserveMmapAddr (wrappingAlignUp len) = some (next, found) ∧
      next.vmas = state.vmas ∧ (∀ a, found = some a → a % pageSize = 0) ∧
      ∀ a, found = some a ↔ state.FirstFit (wrappingAlignUp len) a := by
  obtain ⟨⟨next, found⟩, hrun⟩ := VmState.reserveMmapAddr_total hstate (wrappingAlignUp len)
  have hspec := VmState.reserveLoop_spec hrun
  refine ⟨next, found, hrun, hspec.vmas,
    (hspec.aligned hstate (wrappingAlignUp_mod _)).2, fun a => ?_⟩
  rw [VmState.reserveMmapAddr, wrappingAlignUp_eq_self (wrappingAlignUp_mod len)
    (wrappingAlignUp_lt len)] at hrun
  exact VmState.reserveLoop_firstFit hstate hrun a

lemma FirstFit.unique {other : Nat} (hfirst : state.FirstFit len target)
    (hother : state.FirstFit len other) : target = other :=
  le_antisymm (hfirst.least _ hother.above hother.fits) (hother.least _ hfirst.above hfirst.fits)

section
variable (hfirst : state.FirstFit (wrappingAlignUp len) target)
include hfirst

lemma FirstFit.asIsize : asIsize target = target := by
  have hle := hfirst.fits.1
  rw [Syscall.asIsize, if_pos]
  simp only [userMmapLimit] at hle
  omega

lemma FirstFit.wrappingAdd :
    wrappingAdd target (wrappingAlignUp len) = target + wrappingAlignUp len := by
  have hle := hfirst.fits.1
  refine Nat.mod_eq_of_lt ?_
  simp only [userMmapLimit, usizeRange] at hle ⊢
  omega

end

lemma FirstFit.target_mod (hstate : state.Aligned)
    (hfirst : state.FirstFit (wrappingAlignUp len) target) : target % pageSize = 0 := by
  obtain ⟨_, found, -, -, hmod, hfound⟩ := reserve_firstFit hstate len
  exact hmod target ((hfound target).mpr hfirst)

lemma wrappingAlignUp_add (htarget : target % pageSize = 0)
    (hle : target + wrappingAlignUp len ≤ userMmapLimit) :
    wrappingAlignUp (target + len) = target + wrappingAlignUp len := by
  simp only [wrappingAlignUp, wrappingAdd, alignDown, pageSize, usizeRange, userMmapLimit]
    at htarget hle ⊢
  omega

variable [FrameSource σ (2 ^ 40)] {arch : Arch}

lemma FirstFit.wellPlaced (hlen : len ≠ 0) (hstate : k.registry.stateOf root = some state)
    (haligned : state.Aligned) (hfirst : state.FirstFit (wrappingAlignUp len) target)
    (hclear : ClearOfFixedAreas k len target) : WellPlaced arch root k len target where
  toClearOfFixedAreas := hclear
  below := hfirst.fits.1
  regions := by
    intro state' hstate' vma hvma hactive
    cases hstate.symm.trans hstate'
    rw [mappedRange, Set.Ico_disjoint_Ico]
    by_contra hmeets
    have hoverlaps : state.overlaps target (target + wrappingAlignUp len) :=
      VmState.overlaps_iff.mpr ⟨vma, hvma, VmaRegion.overlaps_iff.mpr ⟨hactive, by omega, by omega⟩⟩
    rw [hfirst.fits.2] at hoverlaps
    cases hoverlaps
  returned := by
    intro later
    have habove := hclear.above
    have hle := hfirst.fits.1
    have hbase := lt_alignDown_add target
    have haccepted : ¬munmapRefused target len := by
      rw [munmapRefused, wrappingAlignUp_add (FirstFit.target_mod haligned hfirst) hle]
      simp only [userMmapBase, userHeapBase, pageSize] at *
      omega
    rw [linuxMunmap, if_neg haccepted]

end

section
variable [FrameSource σ (2 ^ 40)] {arch : Arch} {root addr len prot flags : Nat} {k : Kernel σ}

omit [FrameSource σ (2 ^ 40)] in
lemma linuxMmap_picked (haligned : k.registry.Aligned root) (hlen : len ≠ 0)
    (hpicks : KernelPicks root k addr len flags) :
    ∃ k' result, linuxMmap arch root k addr len prot flags = some (k', result) ∧
      (result < 0 ∧ (∀ state, k.registry.stateOf root = some state → HasEntry state len →
          ∀ target, ¬ state.FirstFit (wrappingAlignUp len) target) ∨
        ∃ state target, k.registry.stateOf root = some state ∧ HasEntry state len ∧
          state.FirstFit (wrappingAlignUp len) target ∧ result = target) := by
  rw [linuxMmap, if_neg hlen]
  simp only [hpicks.mmapTarget_eq]
  cases hstate : k.registry.stateOf root with
  | none =>
    rw [reserveMmapAddr, hstate]
    refine ⟨_, _, rfl, .inl ⟨by decide, ?_⟩⟩
    intro state hnone
    cases hnone
  | some state =>
    obtain ⟨next, found, hrun, hvmas, -, hfound⟩ := reserve_firstFit (haligned state hstate) len
    have hreserve : k.registry.reserveMmapAddr root (wrappingAlignUp len) =
        some (k.registry.withState root fun _ => next, found) := by
      rw [reserveMmapAddr, hstate]
      simp [hrun]
    rw [hreserve]
    cases found with
    | none =>
      refine ⟨_, _, rfl, .inl ⟨by decide, ?_⟩⟩
      intro state' hstate' _ target hfirst
      cases hstate'
      cases (hfound target).mpr hfirst
    | some target =>
      have hfirst := (hfound target).mp rfl
      have hadded : ((k.registry.withState root fun _ => next).vmaAdd root target
          (wrappingAdd target (wrappingAlignUp len)) prot (flags.testBit 4)).2 ↔
          HasEntry state len := by
        have hfree : next.overlaps target (target + wrappingAlignUp len) = false := by
          rw [VmState.overlaps, hvmas]
          exact hfirst.fits.2
        rw [vmaAdd, stateOf_withState_self, hstate, FirstFit.wrappingAdd hfirst]
        simp only [map_some, any_some]
        rw [VmState.add_placed_iff hfree, hvmas, HasEntry]
        simp
      refine ⟨_, _, congrArg some Prod.mk.eta.symm, ?_⟩
      by_cases hentry : HasEntry state len
      · refine .inr ⟨state, target, rfl, hentry, hfirst, ?_⟩
        simp only [hadded.mpr hentry, Bool.true_eq_false, if_false]
        split
        exacts [FirstFit.asIsize hfirst, FirstFit.asIsize hfirst]
      · refine .inl ⟨?_, ?_⟩
        · simp only [Bool.eq_false_iff.mpr (hadded.not.mpr hentry), if_true]
          decide
        · intro state' hstate' hentry'
          cases hstate'
          exact absurd hentry' hentry

lemma linuxMmap_wellPlaced_iff (haligned : k.registry.Aligned root)
    (hpicks : KernelPicks root k addr len flags) :
    ∃ k' result, linuxMmap arch root k addr len prot flags = some (k', result) ∧
      ((0 ≤ result → WellPlaced arch root k len result.toNat) ↔ ClearFit root k len) := by
  by_cases hlen : len = 0
  · refine ⟨k, errInval, if_pos hlen, iff_of_true (fun h => absurd h (by decide)) ?_⟩
    exact fun hne => absurd hlen hne
  · obtain ⟨k', result, hrun, ⟨hneg, hnone⟩ | ⟨state, target, hstate, hentry, hfirst, rfl⟩⟩ :=
      linuxMmap_picked haligned hlen hpicks
    · refine ⟨k', result, hrun, iff_of_true (fun h => absurd hneg (by omega)) ?_⟩
      intro _ state hstate hentry target hfirst
      exact absurd hfirst (hnone state hstate hentry target)
    · refine ⟨k', target, hrun, ?_⟩
      rw [Int.toNat_natCast]
      constructor
      · intro hplaced _ state' hstate' _ target' hfirst'
        cases hstate.symm.trans hstate'
        obtain rfl := FirstFit.unique hfirst hfirst'
        exact (hplaced (Int.natCast_nonneg target)).toClearOfFixedAreas
      · intro hclear _
        exact FirstFit.wellPlaced hlen hstate (haligned state hstate) hfirst
          (hclear hlen state hstate hentry target hfirst)

end

/-- In every state that a process reaches, the kernel places a mapping well
exactly if the first fit is clear of the fixed areas. -/
theorem run_wellPlaced_iff [ContiguousSource σ (2 ^ 40)] {arch : Arch} {kernelRoot : Nat}
    {image : Image} {k₀ k₁ k : Kernel σ} {process : Process} {events : List (MemoryEvent arch)}
    (hload : Loads arch kernelRoot image k₀ k₁ process)
    (hrun : Run (MemoryEvent.Step arch process.pageTableRoot) k₁ events k)
    (addr len prot flags : Nat) (hpicks : KernelPicks process.pageTableRoot k addr len flags) :
    ∃ k' result, linuxMmap arch process.pageTableRoot k addr len prot flags = some (k', result) ∧
      ((0 ≤ result → WellPlaced arch process.pageTableRoot k len result.toNat) ↔
        ClearFit process.pageTableRoot k len) :=
  linuxMmap_wellPlaced_iff (MemoryEvent.run_aligned hload.aligned hrun) hpicks

/-! ## Programs of one page -/

def onePageState (vaddr : Nat) : VmState :=
  (VmState.cleared.add vaddr (vaddr + pageSize) 5 false).1.ensureMmapAbove (vaddr + pageSize)

variable {vaddr : Nat}

section
variable (haligned : vaddr % pageSize = 0)
include haligned

variable (hlow : vaddr < ramEnd)
include hlow

lemma registerSegments_onePage (registry : Registry) (root : Nat) :
    registerSegments registry root (onePage vaddr) =
      (((registry.initRoot root).getD registry).registerElfVma root vaddr (vaddr + pageSize)
        5).ensureMmapAbove root (vaddr + pageSize) := by
  have hmax : (onePage vaddr).maxVaddr = vaddr + pageSize := by
    change max 0 (wrappingAdd vaddr pageSize) = _
    rw [Nat.zero_max]
    refine Nat.mod_eq_of_lt ?_
    simp only [ramEnd, pageSize, usizeRange] at *
    omega
  have hprot : (textPage vaddr).prot = 5 := by
    simp [Segment.prot, textPage, Nat.testBit, protExec, protRead]
  rw [registerSegments, hmax, if_pos (by simp [pageSize]), onePage, List.foldl_cons, List.foldl_nil,
    textPage_pageStart haligned, textPage_pageEnd haligned (hlow.trans (by decide)), hprot]

lemma stateOf_onePage {k : Kernel KernelFrames} {process : Process}
    (hrun : fromElfStreaming .riscv64 0 (onePage vaddr) bootKernel = some (k, .ok process)) :
    k.registry.stateOf process.pageTableRoot = some (onePageState vaddr) := by
  obtain ⟨_, _, _, _, hparts⟩ := fromElfStreaming_ok hrun
  have hinit : ((boot.initRoot process.pageTableRoot).getD .boot).stateOf
      process.pageTableRoot = some .cleared := by
    rw [initRoot_boot (Machine.zeroed_root hparts.table), getD_some, stateOf_ofSlots]
  rw [hparts.registry, registerSegments_onePage haligned hlow, ensureMmapAbove,
    stateOf_withState_self, registerElfVma, vmaAdd,
    stateOf_withState_self, bootKernel, hinit]
  rfl

lemma loads_onePage : ∃ k process, Loads .riscv64 0 (onePage vaddr) bootKernel k process ∧
    k.registry.stateOf process.pageTableRoot = some (onePageState vaddr) ∧
    k.brk = initialBrk (onePage vaddr) := by
  obtain ⟨k, process, hrun⟩ := fromElfStreaming_onePage haligned hlow
  obtain ⟨_, _, _, _, hparts⟩ := fromElfStreaming_ok hrun
  exact ⟨k, process, .streaming hrun, stateOf_onePage haligned hlow hrun, hparts.brk⟩

end

lemma firstFit_onePage (hcandidate : (onePageState vaddr).mmapCandidate = vaddr + pageSize)
    (hfits : (onePageState vaddr).Fits pageSize (vaddr + pageSize)) :
    (onePageState vaddr).FirstFit (wrappingAlignUp pageSize) (vaddr + pageSize) :=
  ⟨hcandidate.le, hfits, fun _ habove _ => hcandidate ▸ habove⟩

/-- Above the mmap area the first fit is a good place: the program ends at
`0x30001000`, and so does its heap. -/
theorem run_wellPlaced_iff_highProgram :
    ∃ (k k' : Kernel KernelFrames) (process : Process) (result : Int),
      Loads .riscv64 0 (onePage 0x30000000) bootKernel k process ∧
      linuxMmap .riscv64 process.pageTableRoot k 0 pageSize 3 0x22 = some (k', result) ∧
      (0 ≤ result → WellPlaced .riscv64 process.pageTableRoot k pageSize result.toNat) := by
  obtain ⟨k, process, hload, hstate, hbrk⟩ :=
    loads_onePage (by decide : 0x30000000 % pageSize = 0) (by decide)
  obtain ⟨k', result, hrun, hiff⟩ :=
    run_wellPlaced_iff hload (.nil k) 0 pageSize 3 0x22 (.inl rfl)
  refine ⟨k, k', process, result, hload, hrun, hiff.mpr ?_⟩
  intro _ state hstate' _ target hfirst
  cases hstate.symm.trans hstate'
  obtain rfl := FirstFit.unique hfirst
    (firstFit_onePage (by decide +kernel) ⟨by decide, by decide +kernel⟩)
  have hlength : wrappingAlignUp pageSize = pageSize := by decide
  refine ⟨by decide, ?_, ?_⟩
  · rw [mappedRange, hlength, hbrk, Set.Ico_disjoint_Ico]
    decide
  · rw [mappedRange, hlength, Set.Ico_disjoint_Ico]
    decide

/-- A program at `0x400000` gets a mapping right behind itself, below the mmap
area, and `munmap` refuses to give it back. -/
theorem mmap_behind_program : ∃ (k k' : Kernel KernelFrames) (process : Process),
    Loads .riscv64 0 (onePage 0x400000) bootKernel k process ∧
    linuxMmap .riscv64 process.pageTableRoot k 0 pageSize 3 0x22 = some (k', 0x401000) ∧
    0x401000 < userMmapBase ∧
    (linuxMunmap .riscv64 process.pageTableRoot k' 0x401000 pageSize).2 = errInval := by
  obtain ⟨k, process, hload, hstate, -⟩ :=
    loads_onePage (by decide : 0x400000 % pageSize = 0) (by decide)
  have hfirst : (onePageState 0x400000).FirstFit (wrappingAlignUp pageSize) 0x401000 :=
    firstFit_onePage (by decide +kernel) ⟨by decide, by decide +kernel⟩
  obtain ⟨k', result, hrun, hcases⟩ :
      ∃ k' result, linuxMmap .riscv64 process.pageTableRoot k 0 pageSize 3 0x22 =
        some (k', result) ∧ _ :=
    linuxMmap_picked hload.aligned (by decide) (.inl rfl)
  obtain ⟨-, hnone⟩ | ⟨state, target, hstate', -, hfirst', rfl⟩ := hcases
  · exact absurd hfirst (hnone _ hstate (.inr (by decide +kernel)) _)
  · cases hstate.symm.trans hstate'
    obtain rfl := FirstFit.unique hfirst' hfirst
    refine ⟨k, k', process, hload, hrun, by decide, ?_⟩
    rw [linuxMunmap, if_pos (by decide)]

end KarteOs.Process

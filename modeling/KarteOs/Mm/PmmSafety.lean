import KarteOs.Foundation.Run
import KarteOs.Mm.Pmm

/-! # Safety and completeness of the frame allocator

The allocator is run against a ledger of the frames its clients hold. The
invariant ties the two: a frame is in the ledger exactly when its bit is set.
-/

namespace KarteOs.Mm

open Transition FrameAllocator

inductive FrameOp where
  | alloc
  | allocContiguous (count : Nat)
  | dealloc (frame : Nat)

/-- The allocator beside the set of frame addresses handed out and not returned. -/
structure Ledger where
  allocator : FrameAllocator
  held : Set Nat

namespace Ledger

def runFrames (frame count : Nat) : Set Nat := {f | ∃ k < count, f = frame + k * pageSize}

/-- Clients call in any order, but return only frames they hold. -/
inductive Step : Ledger → FrameOp → Ledger → Prop
  | alloc {l : Ledger} {frame : Nat} {next : FrameAllocator} :
      l.allocator.alloc = some (frame, next) → Step l .alloc ⟨next, insert frame l.held⟩
  | allocFull {l : Ledger} : l.allocator.alloc = none → Step l .alloc l
  | contiguous {l : Ledger} {count frame : Nat} {next : FrameAllocator} :
      l.allocator.allocContiguous count = some (frame, next) →
      Step l (.allocContiguous count) ⟨next, l.held ∪ runFrames frame count⟩
  | contiguousFull {l : Ledger} {count : Nat} :
      l.allocator.allocContiguous count = none → Step l (.allocContiguous count) l
  | dealloc {l : Ledger} {frame : Nat} : frame ∈ l.held →
      Step l (.dealloc frame) ⟨l.allocator.dealloc frame, l.held \ {frame}⟩

def init (region : MemoryRegion) : Ledger := ⟨.new region, ∅⟩

/-- The allocator manages `region`, and its marks are the ledger. -/
structure Consistent (region : MemoryRegion) (l : Ledger) : Prop where
  start_eq : l.allocator.start = region.managedStart
  total_eq : l.allocator.totalFrames = region.managedFrames
  held_iff : ∀ frame, frame ∈ l.held ↔
    ∃ i, l.allocator.Marked i ∧ frame = l.allocator.start + i * pageSize

lemma init_consistent (region : MemoryRegion) : (init region).Consistent region := by
  refine ⟨rfl, rfl, ?_⟩
  intro frame
  constructor
  · exact fun h => h.elim
  · rintro ⟨i, ⟨_, hheld⟩, _⟩
    have hfree : (new region).isFree i := Bitmap.isClear_replicate_zero _ _
    cases hfree.symm.trans hheld

variable {i : Nat}

lemma frame_inj {start j : Nat} (h : start + i * pageSize = start + j * pageSize) : i = j :=
  Nat.eq_of_mul_eq_mul_right (by decide) (Nat.add_left_cancel h)

variable {region : MemoryRegion} {l : Ledger}

section
variable (hl : l.Consistent region)
include hl

lemma Consistent.not_mem_of_free
    (hfree : l.allocator.isFree i) : l.allocator.start + i * pageSize ∉ l.held := by
  intro hmem
  obtain ⟨j, ⟨_, hheld⟩, heq⟩ := (hl.held_iff _).mp hmem
  rw [← frame_inj heq, hfree] at hheld
  cases hheld

lemma Consistent.mem_of_marked (hi : l.allocator.Marked i) :
    l.allocator.start + i * pageSize ∈ l.held :=
  (hl.held_iff _).mpr ⟨i, hi, rfl⟩

lemma Consistent.record {next : FrameAllocator} {new : Set Nat}
    (taken : Nat → Prop) [DecidablePred taken] (hstart : next.start = l.allocator.start)
    (htotal : next.totalFrames = l.allocator.totalFrames)
    (htaken : ∀ i, taken i → i < l.allocator.totalFrames)
    (hmark : ∀ j, next.isFree j = (l.allocator.isFree j && decide (¬taken j)))
    (hnew : ∀ frame, frame ∈ new ↔ ∃ i, taken i ∧ frame = l.allocator.start + i * pageSize) :
    Consistent region ⟨next, l.held ∪ new⟩ := by
  refine ⟨hstart.trans hl.start_eq, htotal.trans hl.total_eq, ?_⟩
  intro frame
  simp only [Set.mem_union, hl.held_iff, hnew, Marked, hmark, hstart, htotal]
  constructor
  · rintro (⟨i, ⟨hlt, hheld⟩, heq⟩ | ⟨i, hi, heq⟩)
    · exact ⟨i, ⟨hlt, by simp [hheld]⟩, heq⟩
    · exact ⟨i, ⟨htaken i hi, by simp [hi]⟩, heq⟩
  · rintro ⟨i, ⟨hlt, hheld⟩, heq⟩
    by_cases hi : taken i
    · exact .inr ⟨i, hi, heq⟩
    · exact .inl ⟨i, ⟨hlt, by simpa [hi] using hheld⟩, heq⟩

end

lemma Consistent.step {next : Ledger} {op : FrameOp} (hl : l.Consistent region)
    (hstep : Step l op next) : next.Consistent region := by
  cases hstep with
  | alloc halloc =>
    obtain ⟨i, rfl, hlt, _, hstart, htotal, hmark⟩ := alloc_some halloc
    rw [Set.insert_eq, Set.union_comm]
    refine hl.record (· = i) hstart htotal (fun j hj => hj ▸ hlt) hmark ?_
    intro frame
    simp
  | allocFull => exact hl
  | @contiguous count _ _ halloc =>
    obtain ⟨base, rfl, hend, _, hstart, htotal, hmark⟩ := allocContiguous_some halloc
    refine hl.record (fun j => base ≤ j ∧ j < base + count) hstart htotal
      (fun j hj => by omega) hmark ?_
    intro frame
    constructor
    · rintro ⟨k, hk, rfl⟩
      exact ⟨base + k, by omega, by rw [Nat.add_assoc, ← Nat.add_mul]⟩
    · rintro ⟨i, ⟨hlow, hhigh⟩, rfl⟩
      refine ⟨i - base, by omega, ?_⟩
      rw [Nat.add_assoc, ← Nat.add_mul, Nat.add_sub_cancel' hlow]
  | contiguousFull => exact hl
  | dealloc hmem =>
    obtain ⟨i, ⟨hlt, _⟩, rfl⟩ := (hl.held_iff _).mp hmem
    refine ⟨by simpa using hl.start_eq, by simpa using hl.total_eq, ?_⟩
    intro frame
    simp only [Set.mem_sdiff, hl.held_iff, Set.mem_singleton_iff, Marked,
      start_dealloc, totalFrames_dealloc,
      isFree_dealloc hlt, Bool.or_eq_false_iff, decide_eq_false_iff_not]
    constructor
    · rintro ⟨⟨j, ⟨hj, hheld⟩, rfl⟩, hne⟩
      exact ⟨j, ⟨hj, hheld, fun heq => hne (heq ▸ rfl)⟩, rfl⟩
    · rintro ⟨j, ⟨hj, hheld, hne⟩, rfl⟩
      exact ⟨⟨j, ⟨hj, hheld⟩, rfl⟩, fun heq => hne (frame_inj heq)⟩

lemma run_consistent {ops : List FrameOp} (hrun : Run Step (init region) ops l) :
    l.Consistent region :=
  hrun.invariant (fun _ _ _ hgood hstep => hgood.step hstep) (init_consistent region)

def Managed (region : MemoryRegion) (frame : Nat) : Prop :=
  frame % pageSize = 0 ∧ region.managedStart ≤ frame ∧
    frame < region.managedStart + region.managedFrames * pageSize

lemma Consistent.managed (hl : l.Consistent region) (hi : i < l.allocator.totalFrames) :
    Managed region (l.allocator.start + i * pageSize) := by
  have hlt : i * pageSize < l.allocator.totalFrames * pageSize :=
    Nat.mul_lt_mul_of_pos_right hi (by decide)
  rw [Managed, ← hl.start_eq, ← hl.total_eq, Nat.add_mul_mod_self_right]
  exact ⟨l.allocator.aligned, by omega, by omega⟩

/-- In every run, an allocation returns only managed frames nobody holds, and
fails only when nothing suitable is left. -/
theorem run_safe_and_complete (region : MemoryRegion) (ops : List FrameOp) (l : Ledger)
    (hrun : Run Step (init region) ops l) :
    (∀ frame next, l.allocator.alloc = some (frame, next) → Managed region frame ∧ frame ∉ l.held) ∧
    (∀ count frame next, l.allocator.allocContiguous count = some (frame, next) →
      ∀ f ∈ runFrames frame count, Managed region f ∧ f ∉ l.held) ∧
    (l.allocator.alloc = none → ∀ f, Managed region f → f ∈ l.held) ∧
    (∀ count, 1 ≤ count → l.allocator.allocContiguous count = none →
      ¬ ∃ frame, ∀ f ∈ runFrames frame count, Managed region f ∧ f ∉ l.held) := by
  have hl := run_consistent hrun
  -- every managed address is the address of a frame index
  have hindex : ∀ f, Managed region f →
      ∃ i < l.allocator.totalFrames, f = l.allocator.start + i * pageSize := by
    rintro f ⟨hmod, hlow, hhigh⟩
    have haligned := l.allocator.aligned
    rw [← hl.start_eq] at hlow
    rw [← hl.start_eq, ← hl.total_eq] at hhigh
    simp only [pageSize] at *
    exact ⟨(f - l.allocator.start) / 4096, by omega, by omega⟩
  refine ⟨?_, ?_, ?_, ?_⟩
  · intro frame next halloc
    obtain ⟨i, rfl, hlt, hfree, _⟩ := alloc_some halloc
    exact ⟨hl.managed hlt, hl.not_mem_of_free hfree⟩
  · rintro count frame next halloc f ⟨k, hk, rfl⟩
    obtain ⟨base, rfl, hend, hfree, _⟩ := allocContiguous_some halloc
    rw [Nat.add_assoc, ← Nat.add_mul]
    exact ⟨hl.managed (by omega), hl.not_mem_of_free (hfree k hk)⟩
  · intro halloc f hf
    obtain ⟨i, hlt, rfl⟩ := hindex f hf
    exact hl.mem_of_marked ⟨hlt, alloc_none halloc hlt⟩
  · rintro count hcount halloc ⟨frame, hrunFree⟩
    obtain ⟨base, hbase, rfl⟩ := hindex frame (hrunFree frame ⟨0, hcount, by simp⟩).1
    obtain ⟨last, hlast, heq⟩ := hindex (l.allocator.start + base * pageSize +
      (count - 1) * pageSize) (hrunFree _ ⟨count - 1, by omega, rfl⟩).1
    rw [Nat.add_assoc, ← Nat.add_mul] at heq
    have hend : base + count ≤ l.allocator.totalFrames := by
      have := frame_inj heq
      omega
    obtain ⟨k, hk, hheld⟩ := allocContiguous_none hcount halloc hend
    refine (hrunFree _ ⟨k, hk, rfl⟩).2 ?_
    rw [Nat.add_assoc, ← Nat.add_mul]
    exact hl.mem_of_marked ⟨by omega, hheld⟩

def smallRegion : MemoryRegion where
  kernelEnd := 0x300000
  memoryEnd := 0x304000
  representable := by decide
  fits := by decide

/-- Allocate, return the frame, allocate again: the frame comes back managed
and is no longer held by anyone else. -/
theorem run_safe_and_complete_smallRegion :
    ∃ l : Ledger, Run Step (init smallRegion) [.alloc, .dealloc 0x301000] l ∧
      ∃ next, l.allocator.alloc = some (0x301000, next) ∧
        Managed smallRegion 0x301000 ∧ 0x301000 ∉ l.held := by
  have hrun := Run.cons (Step.alloc (l := init smallRegion) rfl)
    (.cons (.dealloc (Set.mem_insert 0x301000 _)) (.nil _))
  exact ⟨_, hrun, _, rfl, (run_safe_and_complete smallRegion _ _ hrun).1 _ _ rfl⟩

end Ledger

end KarteOs.Mm

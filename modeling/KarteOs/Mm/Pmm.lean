import KarteOs.Foundation.Bitmap
import KarteOs.Mm.Addr

/-! # Physical memory manager

The bitmap frame allocator. One bit stands for one 4 KiB frame of the managed
region; `alloc` searches from a moving `next_free` hint and wraps around,
`alloc_contiguous` scans the whole bitmap for a run of clear bits.
-/

namespace KarteOs.Mm

open Bitmap List Option

/-- Physical memory as the linker and the boot loader describe it: everything
from `_ekernel` to the end of RAM. The region has room for the bitmap. -/
structure MemoryRegion where
  kernelEnd : Nat
  memoryEnd : Nat
  representable : memoryEnd < usizeRange
  fits : alignUp (alignUp kernelEnd +
    ((memoryEnd - alignUp kernelEnd) / pageSize + 63) / 64 * 8) ≤ memoryEnd

namespace MemoryRegion

variable (region : MemoryRegion)

def start : Nat := alignUp region.kernelEnd

/-- Number of 64-bit words of the bitmap. It is sized for the whole region,
although the frames under the bitmap itself are not managed. -/
def bitmapWords : Nat :=
  ((region.memoryEnd - region.start) / pageSize + 63) / 64

def managedStart : Nat :=
  alignUp (region.start + region.bitmapWords * 8)

def managedFrames : Nat :=
  (region.memoryEnd - region.managedStart) / pageSize

lemma managedFrames_le : region.managedFrames ≤ 64 * region.bitmapWords := by
  have hstart : region.start ≤ region.managedStart := (Nat.le_add_right ..).trans (le_alignUp _)
  have hdiv : region.managedFrames ≤ (region.memoryEnd - region.start) / pageSize :=
    Nat.div_le_div_right (by omega)
  simp only [bitmapWords]
  omega

lemma managed_end_le : region.managedStart + region.managedFrames * pageSize ≤ usizeRange := by
  have hfits : region.managedStart ≤ region.memoryEnd := region.fits
  have hmul := Nat.div_mul_le_self (region.memoryEnd - region.managedStart) pageSize
  have hlimit := region.representable
  simp only [managedFrames]
  omega

end MemoryRegion

/-- `FrameAllocator`. The proof fields are what `new` establishes and every
operation keeps: frames are page aligned, each has a bit, the hint is in range
and no frame address overflows. -/
structure FrameAllocator where
  start : Nat
  bitmap : Array (BitVec 64)
  totalFrames : Nat
  nextFree : Nat
  aligned : start % pageSize = 0
  covered : totalFrames ≤ 64 * bitmap.size
  hint : nextFree ≤ totalFrames
  limit : start + totalFrames * pageSize ≤ usizeRange

namespace FrameAllocator

def new (region : MemoryRegion) : FrameAllocator where
  start := region.managedStart
  bitmap := Array.replicate region.bitmapWords 0#64
  totalFrames := region.managedFrames
  nextFree := 0
  aligned := alignUp_mod _
  covered := by simpa using region.managedFrames_le
  hint := Nat.zero_le _
  limit := region.managed_end_le

def isFree (a : FrameAllocator) (i : Nat) : Bool := isClear a.bitmap i

def take (a : FrameAllocator) (indices : List Nat) (next : Nat)
    (hnext : next ≤ a.totalFrames) : FrameAllocator where
  start := a.start
  bitmap := setAll a.bitmap indices
  totalFrames := a.totalFrames
  nextFree := next
  aligned := a.aligned
  covered := by simpa using a.covered
  hint := hnext
  limit := a.limit

/-- The search loops of `alloc`: first the frames from the hint on, then the
frames below it. -/
def search (a : FrameAllocator) : Option Nat :=
  ((List.range' a.nextFree (a.totalFrames - a.nextFree)).find? a.isFree).or
    ((List.range a.nextFree).find? a.isFree)

variable {a : FrameAllocator} {i count runStart runLength remaining frame : Nat}

lemma search_some (hsearch : a.search = some i) : i < a.totalFrames ∧ a.isFree i := by
  have hhint := a.hint
  rcases or_eq_some_iff.mp hsearch with hfound | ⟨_, hfound⟩
  · have hmem := mem_of_find?_eq_some hfound
    rw [mem_range'_1] at hmem
    exact ⟨by omega, find?_some hfound⟩
  · have hmem := mem_of_find?_eq_some hfound
    rw [mem_range] at hmem
    exact ⟨by omega, find?_some hfound⟩

lemma search_none (hsearch : a.search = none) (hi : i < a.totalFrames) : a.isFree i = false := by
  obtain ⟨habove, hbelow⟩ := or_eq_none_iff.mp hsearch
  rw [find?_eq_none] at habove hbelow
  by_cases hle : a.nextFree ≤ i
  · exact Bool.eq_false_iff.mpr (habove i (mem_range'_1.mpr ⟨hle, by omega⟩))
  · exact Bool.eq_false_iff.mpr (hbelow i (mem_range.mpr (by omega)))

def alloc (a : FrameAllocator) : Option (Nat × FrameAllocator) :=
  match hsearch : a.search with
  | some i => some (a.start + i * pageSize, a.take [i] (i + 1) (search_some hsearch).1)
  | none => none

/-- The scan of `alloc_contiguous` over frames `i, i + 1, ..` with `remaining`
frames to go; `runStart` and `runLength` describe the free run ending before `i`. -/
def scanRun (a : FrameAllocator) (count : Nat) : Nat → Nat → Nat → Nat → Option Nat
  | 0, _, _, _ => none
  | remaining + 1, i, runStart, runLength =>
    if a.isFree i then
      let runStart := if runLength = 0 then i else runStart
      if runLength + 1 = count then some runStart
      else a.scanRun count remaining (i + 1) runStart (runLength + 1)
    else a.scanRun count remaining (i + 1) runStart 0

/-- What the scan knows before frame `i`: the `runLength` frames below `i` are
free, start at `runStart` and do not fill the request yet. -/
structure RunInvariant (a : FrameAllocator) (count i runStart runLength : Nat) : Prop where
  short : runLength < count
  le : runLength ≤ i
  start_eq : 0 < runLength → runStart + runLength = i
  free : ∀ j, i - runLength ≤ j → j < i → a.isFree j = true

lemma RunInvariant.start (hcount : 0 < count) : a.RunInvariant count 0 0 0 :=
  ⟨hcount, le_rfl, by omega, by omega⟩

lemma RunInvariant.extend (hinv : a.RunInvariant count i runStart runLength)
    (hfree : a.isFree i) (hshort : runLength + 1 < count) :
    a.RunInvariant count (i + 1) (if runLength = 0 then i else runStart) (runLength + 1) := by
  have hstart := hinv.start_eq
  have hle := hinv.le
  refine ⟨hshort, by omega, ?_, ?_⟩
  · intro _
    split <;> omega
  · intro j hlow hhigh
    rcases Nat.lt_or_ge j i with hlt | hge
    · exact hinv.free j (by omega) hlt
    · rw [show j = i by omega]
      exact hfree

lemma RunInvariant.reset (hinv : a.RunInvariant count i runStart runLength) :
    a.RunInvariant count (i + 1) runStart 0 :=
  ⟨by have := hinv.short; omega, by omega, by omega, by omega⟩

lemma scanRun_some {base : Nat} (hinv : a.RunInvariant count i runStart runLength)
    (hscan : a.scanRun count remaining i runStart runLength = some base) :
    base + count ≤ i + remaining ∧ ∀ k < count, a.isFree (base + k) := by
  induction remaining generalizing i runStart runLength with
  | zero => simp [scanRun] at hscan
  | succ remaining ih =>
    simp only [scanRun] at hscan
    have hshort := hinv.short
    have hstart := hinv.start_eq
    split at hscan
    next hfree =>
      split at hscan
      next hfull =>
        -- the run ending at `i` is the one returned
        have hbase : base + count = i + 1 := by
          have heq := some.inj hscan
          split at heq <;> omega
        refine ⟨by omega, ?_⟩
        intro k hk
        rcases Nat.lt_or_ge (base + k) i with hlt | hge
        · exact hinv.free _ (by omega) hlt
        · rw [show base + k = i by omega]
          exact hfree
      next hnotFull =>
        have htail := ih (hinv.extend hfree (by omega)) hscan
        exact ⟨by omega, htail.2⟩
    next hheld =>
      have htail := ih hinv.reset hscan
      exact ⟨by omega, htail.2⟩

lemma scanRun_none (hinv : a.RunInvariant count i runStart runLength)
    (hscan : a.scanRun count remaining i runStart runLength = none) {base : Nat}
    (hlow : i - runLength ≤ base) (hhigh : base + count ≤ i + remaining) :
    ∃ k < count, a.isFree (base + k) = false := by
  induction remaining generalizing i runStart runLength with
  | zero =>
    have hshort := hinv.short
    have hle := hinv.le
    omega
  | succ remaining ih =>
    simp only [scanRun] at hscan
    have hshort := hinv.short
    split at hscan
    next hfree =>
      split at hscan
      next hfull => cases hscan
      next hnotFull => exact ih (hinv.extend hfree (by omega)) hscan (by omega) (by omega)
    next hheld =>
      -- a run through frame `i` meets a held frame; any other starts after it
      rcases Nat.lt_or_ge i base with hafter | hthrough
      · exact ih hinv.reset hscan (by omega) (by omega)
      · refine ⟨i - base, by have := hinv.le; omega, ?_⟩
        rw [Nat.add_sub_cancel' hthrough]
        exact Bool.eq_false_iff.mpr hheld

lemma scanRun_lt {base : Nat} (hcount : ¬count = 0)
    (hscan : a.scanRun count a.totalFrames 0 0 0 = some base) : base + count ≤ a.totalFrames := by
  have hrun := (scanRun_some (.start (Nat.pos_of_ne_zero hcount)) hscan).1
  omega

section
variable (a : FrameAllocator)

def allocContiguous (count : Nat) : Option (Nat × FrameAllocator) :=
  if hcount : count = 0 then none
  else
    match hscan : a.scanRun count a.totalFrames 0 0 0 with
    | some base => some (a.start + base * pageSize,
        a.take (List.range' base count) (base + count) (scanRun_lt hcount hscan))
    | none => none

/-- Frame index of an address, with the wrapping subtraction of a release build. -/
def indexOf (frame : Nat) : Nat :=
  wrappingAdd frame (usizeRange - a.start) / pageSize

def dealloc (frame : Nat) : FrameAllocator :=
  if a.indexOf frame < a.totalFrames then
    { a with
      bitmap := clear a.bitmap (a.indexOf frame)
      nextFree := if a.indexOf frame < a.nextFree then a.indexOf frame else a.nextFree
      covered := by simpa using a.covered
      hint := by
        have := a.hint
        split <;> omega }
  else a

def Marked (i : Nat) : Prop := i < a.totalFrames ∧ a.isFree i = false

end

lemma isFree_take {indices : List Nat} {next : Nat} (hnext : next ≤ a.totalFrames)
    (hindices : ∀ i ∈ indices, i < a.totalFrames) (j : Nat) :
    (a.take indices next hnext).isFree j = (a.isFree j && decide (j ∉ indices)) :=
  isClear_setAll (fun i hi => (hindices i hi).trans_le a.covered) j

lemma alloc_some {a' : FrameAllocator} (halloc : a.alloc = some (frame, a')) :
    ∃ i, frame = a.start + i * pageSize ∧ i < a.totalFrames ∧ a.isFree i ∧
      a'.start = a.start ∧ a'.totalFrames = a.totalFrames ∧
      ∀ j, a'.isFree j = (a.isFree j && decide (j ≠ i)) := by
  unfold alloc at halloc
  split at halloc
  next i hsearch =>
    cases halloc
    obtain ⟨hlt, hfree⟩ := search_some hsearch
    refine ⟨i, rfl, hlt, hfree, rfl, rfl, ?_⟩
    intro j
    rw [isFree_take _ (by simpa using hlt)]
    simp
  · cases halloc

lemma alloc_none (halloc : a.alloc = none) (hi : i < a.totalFrames) : a.isFree i = false := by
  unfold alloc at halloc
  split at halloc
  · cases halloc
  next hsearch => exact search_none hsearch hi

lemma allocContiguous_some {a' : FrameAllocator}
    (halloc : a.allocContiguous count = some (frame, a')) :
    ∃ base, frame = a.start + base * pageSize ∧ base + count ≤ a.totalFrames ∧
      (∀ k < count, a.isFree (base + k)) ∧ a'.start = a.start ∧ a'.totalFrames = a.totalFrames ∧
      ∀ j, a'.isFree j = (a.isFree j && decide (¬(base ≤ j ∧ j < base + count))) := by
  unfold allocContiguous at halloc
  split at halloc
  · cases halloc
  next hcount =>
    split at halloc
    next base hscan =>
      cases halloc
      obtain ⟨hend, hfree⟩ := scanRun_some (.start (Nat.pos_of_ne_zero hcount)) hscan
      refine ⟨base, rfl, by omega, hfree, rfl, rfl, ?_⟩
      intro j
      rw [isFree_take _ (by
        intro i hi
        rw [mem_range'_1] at hi
        omega)]
      simp [mem_range'_1]
    · cases halloc

lemma allocContiguous_none (hcount : 0 < count) (halloc : a.allocContiguous count = none)
    {base : Nat} (hbase : base + count ≤ a.totalFrames) :
    ∃ k < count, a.isFree (base + k) = false := by
  unfold allocContiguous at halloc
  split at halloc
  next hzero => omega
  · split at halloc
    · cases halloc
    next hscan => exact scanRun_none (.start hcount) hscan (by omega) (by omega)

lemma indexOf_frame (hi : i < a.totalFrames) : a.indexOf (a.start + i * pageSize) = i := by
  have hlimit := a.limit
  have hlt : i * pageSize < a.totalFrames * pageSize := Nat.mul_lt_mul_of_pos_right hi (by decide)
  have hsum : a.start + i * pageSize + (usizeRange - a.start) = i * pageSize + usizeRange := by
    omega
  rw [indexOf, wrappingAdd, hsum, Nat.add_mod_right, Nat.mod_eq_of_lt (by omega),
    Nat.mul_div_cancel _ (by decide)]

lemma isFree_dealloc (hi : i < a.totalFrames) (j : Nat) :
    (a.dealloc (a.start + i * pageSize)).isFree j = (a.isFree j || decide (j = i)) := by
  unfold dealloc
  rw [if_pos (by rw [indexOf_frame hi]; exact hi)]
  change isClear (clear a.bitmap (a.indexOf _)) j = _
  rw [indexOf_frame hi]
  exact isClear_clear (hi.trans_le a.covered) j

@[simp] lemma start_dealloc (a : FrameAllocator) (frame : Nat) :
    (a.dealloc frame).start = a.start := by
  unfold dealloc
  split <;> rfl

@[simp] lemma totalFrames_dealloc (a : FrameAllocator) (frame : Nat) :
    (a.dealloc frame).totalFrames = a.totalFrames := by
  unfold dealloc
  split <;> rfl

end FrameAllocator

end KarteOs.Mm

import KarteOs.Mm.PmmSafety

/-! # DMA memory

Device memory is put together from single frames. The allocator hands them out
in the order of its search, so they form one region only where the frames after
the first one happen to be free.
-/

namespace KarteOs.Driver

open Mm FrameAllocator Transition Ledger List Option Bool Prod

/-- Memory as the drivers see it: who has which frame, and the bytes. -/
structure DmaState where
  frames : FrameAllocator
  bytes : Nat → UInt8

def allocFrames : Nat → FrameAllocator → List Nat × FrameAllocator
  | 0, a => ([], a)
  | n + 1, a =>
    match a.alloc with
    | none => ([], a)
    | some (frame, next) => (frame :: (allocFrames n next).1, (allocFrames n next).2)

def zeroed (bytes : Nat → UInt8) (base size : Nat) : Nat → UInt8 :=
  fun addr => if base ≤ addr ∧ addr < base + size then 0 else bytes addr

namespace DmaState

variable (s : DmaState)

def dmaAlloc (pages : Nat) : DmaState × Nat :=
  if 256 < pages then (s, 0)
  else
    let (frameList, frames) := allocFrames pages s.frames
    if frameList.length < pages then
      ({ s with frames := frameList.foldl dealloc frames }, 0)
    else
      match frameList with
      | [] => ({ s with frames }, 0)
      | base :: _ => (⟨frames, zeroed s.bytes base (pages * pageSize)⟩, base)

def dmaDealloc (paddr pages : Nat) : DmaState :=
  { s with
    frames := (List.range pages).foldl (fun a i => a.dealloc (paddr + i * pageSize)) s.frames }

def queueSize : Nat := 64

def alignTo (value align : Nat) : Nat :=
  (value + align - 1) / align * align

/-- The pages of the queue memory for a device with queues of at most `queueMax`. -/
def queuePages (queueMax : Nat) : Nat :=
  let size := min queueMax queueSize
  let total := alignTo (size * 16 + alignTo (4 + size * 2 + 2) 4 + alignTo (4 + size * 8 + 2) 4)
    pageSize + pageSize * 3
  (total + pageSize - 1) / pageSize

/-- The frames of the queue memory, zeroed, with the available ring at `availOff`.
Nothing is given back when memory runs out. -/
def takeQueue (pages availOff : Nat) : DmaState × Option Nat :=
  let (frameList, frames) := allocFrames pages s.frames
  if frameList.length < pages then ({ s with frames }, none)
  else
    match frameList with
    | [] => ({ s with frames }, none)
    | base :: _ =>
      (⟨frames, zeroed (zeroed s.bytes base (pages * pageSize)) (base + availOff + 2) 2⟩, some base)

/-- The part of `virtio_blk::init` between reading the queue size from the device
and telling it the address of the queue. -/
def initQueue (queueMax : Nat) : DmaState × Option Nat :=
  if queueMax = 0 then (s, none)
  else s.takeQueue (queuePages queueMax) (alignTo (min queueMax queueSize * 16) 4)

def FreeFrame (frame : Nat) : Prop :=
  ∃ i < s.frames.totalFrames, frame = s.frames.start + i * pageSize ∧ s.frames.isFree i = true

def HeldFrame (frame : Nat) : Prop :=
  ∃ i, s.frames.Marked i ∧ frame = s.frames.start + i * pageSize

/-- The pages from `base` on were free, are held now, and nothing else is written. -/
structure Owns (before after : DmaState) (base pages : Nat) : Prop where
  free : ∀ k < pages, before.FreeFrame (base + k * pageSize)
  held : ∀ k < pages, after.HeldFrame (base + k * pageSize)
  confined : ∀ addr, after.bytes addr ≠ before.bytes addr →
    ∃ k < pages, base + k * pageSize ≤ addr ∧ addr < base + (k + 1) * pageSize

def DmaSound (pages : Nat) : Prop :=
  ∀ next base, s.dmaAlloc pages = (next, base) → base ≠ 0 → Owns s next base pages ∧
      ∀ i < s.frames.totalFrames, (next.dmaDealloc base pages).frames.isFree i = s.frames.isFree i

def QueueSound (queueMax : Nat) : Prop :=
  ∀ next base, s.initQueue queueMax = (next, some base) → Owns s next base (queuePages queueMax)

end DmaState

variable (a : FrameAllocator)

def freeCount : Nat :=
  ((Finset.range a.totalFrames).filter fun i => a.isFree i = true).card

/-- Frame `i` is the first free one from the hint on, or the first of all when
there is none from the hint on. -/
def FirstFree (i : Nat) : Prop :=
  i < a.totalFrames ∧ a.isFree i = true ∧
    (a.nextFree ≤ i ∧ (∀ j, a.nextFree ≤ j → j < i → a.isFree j = false) ∨
      (∀ j, a.nextFree ≤ j → j < a.totalFrames → a.isFree j = false) ∧ ∀ j < i, a.isFree j = false)

/-- If there are `n` free frames at all, the first `n` from the first free one on
are free. -/
def Consecutive (n : Nat) : Prop :=
  n ≤ freeCount a → ∀ i, FirstFree a i → ∀ k < n, i + k < a.totalFrames ∧ a.isFree (i + k) = true

section
variable {a next : FrameAllocator} {frame i n : Nat}

lemma freeCount_alloc (halloc : a.alloc = some (frame, next)) :
    freeCount a = freeCount next + 1 := by
  obtain ⟨i, _, hlt, hfree, _, htotal, hmark⟩ := alloc_some halloc
  have hmem : i ∈ (Finset.range a.totalFrames).filter fun i => a.isFree i :=
    Finset.mem_filter.mpr ⟨Finset.mem_range.mpr hlt, hfree⟩
  have herase : ((Finset.range next.totalFrames).filter fun j => next.isFree j) =
      ((Finset.range a.totalFrames).filter fun j => a.isFree j).erase i := by
    ext j
    simp only [Finset.mem_filter, Finset.mem_erase, Finset.mem_range, htotal, hmark,
      and_eq_true, decide_eq_true_iff]
    tauto
  rw [freeCount, freeCount, herase, Finset.card_erase_add_one hmem]

lemma freeCount_of_alloc_none (halloc : a.alloc = none) : freeCount a = 0 := by
  refine Finset.card_eq_zero.mpr (Finset.filter_eq_empty_iff.mpr fun i hi => ?_)
  simp [alloc_none halloc (Finset.mem_range.mp hi)]

lemma length_allocFrames (n : Nat) (a : FrameAllocator) :
    (allocFrames n a).1.length = min n (freeCount a) := by
  induction n generalizing a with
  | zero => simp [allocFrames]
  | succ n ih =>
    unfold allocFrames
    split
    next halloc => simp [freeCount_of_alloc_none halloc]
    next frame next halloc => rw [length_cons, ih, freeCount_alloc halloc, Nat.add_min_add_right]

lemma search_eq_some_iff : a.search = some i ↔ FirstFree a i := by
  have hhint := a.hint
  simp only [search, or_eq_some_iff, find?_eq_none,
    find?_range'_eq_some, find?_range_eq_some, mem_range'_1, mem_range,
    FirstFree, not_eq_true']
  constructor
  · rintro (⟨hfree, hmem, hleast⟩ | ⟨hnone, hfree, hlt, hleast⟩)
    · exact ⟨by omega, hfree, .inl ⟨by omega, hleast⟩⟩
    · exact ⟨by omega, hfree, .inr ⟨fun j hlow hhigh =>
        eq_false_iff.mpr (hnone j ⟨hlow, by omega⟩), hleast⟩⟩
  · rintro ⟨hlt, hfree, ⟨hle, hleast⟩ | ⟨hnone, hleast⟩⟩
    · exact .inl ⟨hfree, by omega, hleast⟩
    · refine .inr ⟨fun j hj => eq_false_iff.mp (hnone j hj.1 (by omega)), hfree, ?_, hleast⟩
      by_contra hge
      exact Bool.noConfusion (hfree.symm.trans (hnone i (by omega) hlt))

lemma FirstFree.alloc (hfirst : FirstFree a i) :
    ∃ next, a.alloc = some (a.start + i * pageSize, next) ∧ next.nextFree = i + 1 := by
  unfold FrameAllocator.alloc
  split
  next found hfound =>
    obtain rfl : found = i := some.inj (hfound.symm.trans (search_eq_some_iff.mpr hfirst))
    exact ⟨_, rfl, rfl⟩
  next hnone =>
    rw [search_eq_some_iff.mpr hfirst] at hnone
    cases hnone

lemma firstFree_of_hint (hlt : a.nextFree < a.totalFrames) (hfree : a.isFree a.nextFree) :
    FirstFree a a.nextFree :=
  ⟨hlt, hfree, .inl ⟨le_rfl, by omega⟩⟩

lemma exists_firstFree (hroom : 0 < freeCount a) : ∃ i, FirstFree a i := by
  obtain ⟨i, hi⟩ := Finset.card_pos.mp hroom
  obtain ⟨hlt, hfree⟩ := Finset.mem_filter.mp hi
  cases hsearch : a.search with
  | some found => exact ⟨found, search_eq_some_iff.mp hsearch⟩
  | none =>
    have hheld := search_none hsearch (Finset.mem_range.mp hlt)
    cases hfree.symm.trans hheld

lemma FirstFree.unique {j : Nat} (hi : FirstFree a i) (hj : FirstFree a j) : i = j :=
  some.inj ((search_eq_some_iff.mpr hi).symm.trans (search_eq_some_iff.mpr hj))

lemma FirstFree.allocFrames_succ (hfirst : FirstFree a i) (n : Nat) :
    ∃ next, a.alloc = some (a.start + i * pageSize, next) ∧ next.nextFree = i + 1 ∧
      allocFrames (n + 1) a =
        ((a.start + i * pageSize) :: (allocFrames n next).1, (allocFrames n next).2) := by
  obtain ⟨next, halloc, hhint⟩ := hfirst.alloc
  exact ⟨next, halloc, hhint, by simp [allocFrames, halloc]⟩

lemma FirstFree.isFree_allocFrames (hfirst : FirstFree a i)
    (hfree : ∀ k < n, i + k < a.totalFrames ∧ a.isFree (i + k)) :
    (allocFrames n a).2.start = a.start ∧ (allocFrames n a).2.totalFrames = a.totalFrames ∧
      ∀ j, (allocFrames n a).2.isFree j = (a.isFree j && decide (¬(i ≤ j ∧ j < i + n))) := by
  induction n generalizing a i with
  | zero =>
    refine ⟨rfl, rfl, fun j => ?_⟩
    rw [decide_eq_true (by omega), Bool.and_true, allocFrames]
  | succ n ih =>
    obtain ⟨next, halloc, hhint, hframes⟩ := hfirst.allocFrames_succ n
    obtain ⟨found, hfound, _, _, hstart, htotal, hmark⟩ := alloc_some halloc
    obtain rfl := frame_inj hfound
    rw [hframes]
    cases n with
    | zero =>
      refine ⟨hstart, htotal, fun j => ?_⟩
      rw [allocFrames, hmark]
      congr 1
      exact decide_eq_decide.mpr (by omega)
    | succ n =>
      -- the hint now stands on the next frame of the region, which is still free
      have hrest : ∀ k < n + 1, i + 1 + k < next.totalFrames ∧ next.isFree (i + 1 + k) := by
        intro k hk
        obtain ⟨hlt, hnext⟩ := hfree (k + 1) (by omega)
        rw [htotal, hmark, show i + 1 + k = i + (k + 1) by omega, hnext]
        exact ⟨hlt, by simp⟩
      have hat := hrest 0 (by omega)
      rw [Nat.add_zero, ← hhint] at hat
      have hsecond := firstFree_of_hint hat.1 hat.2
      rw [hhint] at hsecond
      obtain ⟨hstart', htotal', hmark'⟩ := ih hsecond hrest
      refine ⟨hstart'.trans hstart, htotal'.trans htotal, fun j => ?_⟩
      rw [hmark', hmark, Bool.and_assoc, ← decide_and]
      congr 1
      exact decide_eq_decide.mpr (by omega)

lemma allocFrames_of_room (hpos : 0 < n) (hroom : n ≤ freeCount a) :
    ∃ i rest, FirstFree a i ∧ (allocFrames n a).1 = (a.start + i * pageSize) :: rest ∧
      ¬(allocFrames n a).1.length < n := by
  obtain ⟨i, hfirst⟩ := exists_firstFree (hpos.trans_le hroom)
  obtain ⟨m, rfl⟩ : ∃ m, n = m + 1 := ⟨n - 1, by omega⟩
  obtain ⟨next, _, _, hframes⟩ := hfirst.allocFrames_succ m
  refine ⟨i, (allocFrames m next).1, hfirst, by rw [hframes], ?_⟩
  rw [length_allocFrames]
  omega

lemma isFree_foldl_dealloc (hrun : i + n ≤ a.totalFrames) : ∃ after, (range n).foldl
      (fun a' k => a'.dealloc (a.start + i * pageSize + k * pageSize)) a = after ∧
    after.start = a.start ∧ after.totalFrames = a.totalFrames ∧
    ∀ j, after.isFree j = (a.isFree j || decide (i ≤ j ∧ j < i + n)) := by
  induction n with
  | zero =>
    refine ⟨a, rfl, rfl, rfl, fun j => ?_⟩
    rw [decide_eq_false (by omega), Bool.or_false]
  | succ n ih =>
    obtain ⟨before, hfold, hstart, htotal, hmark⟩ := ih (by omega)
    refine ⟨before.dealloc (before.start + (i + n) * pageSize), ?_, ?_, ?_, fun j => ?_⟩
    · rw [List.range_succ, foldl_append, hfold, hstart, Nat.add_mul, ← Nat.add_assoc]
      rfl
    · rw [start_dealloc, hstart]
    · rw [totalFrames_dealloc, htotal]
    · rw [isFree_dealloc (by omega), hmark, Bool.or_assoc, ← decide_or]
      congr 1
      exact decide_eq_decide.mpr (by omega)

end

namespace DmaState

lemma dmaAlloc_cases (s : DmaState) (pages : Nat) :
    s.dmaAlloc pages = (s, 0) ∧ (256 < pages ∨ pages = 0) ∨
    s.dmaAlloc pages = (⟨(allocFrames pages s.frames).1.foldl dealloc
      (allocFrames pages s.frames).2, s.bytes⟩, 0) ∧ freeCount s.frames < pages ∨
    ∃ i, FirstFree s.frames i ∧ pages ≤ freeCount s.frames ∧
      s.dmaAlloc pages = (⟨(allocFrames pages s.frames).2,
        zeroed s.bytes (s.frames.start + i * pageSize) (pages * pageSize)⟩,
        s.frames.start + i * pageSize) := by
  by_cases hmany : 256 < pages
  · exact .inl ⟨if_pos hmany, .inl hmany⟩
  · rcases Nat.eq_zero_or_pos pages with rfl | hpos
    · exact .inl ⟨rfl, .inr rfl⟩
    · rcases Nat.lt_or_ge (freeCount s.frames) pages with hshort | hroom
      · refine .inr (.inl ⟨?_, hshort⟩)
        have hlength : (allocFrames pages s.frames).1.length < pages := by
          rw [length_allocFrames]
          omega
        simp [dmaAlloc, if_neg hmany, if_pos hlength]
      · obtain ⟨i, rest, hfirst, hcons, hlength⟩ := allocFrames_of_room hpos hroom
        refine .inr (.inr ⟨i, hfirst, hroom, ?_⟩)
        rw [dmaAlloc, if_neg hmany]
        simp only [hcons] at hlength ⊢
        rw [if_neg hlength]

lemma takeQueue_cases (s : DmaState) {pages : Nat} (hpos : 0 < pages) (availOff : Nat) :
    s.takeQueue pages availOff = ({ s with frames := (allocFrames pages s.frames).2 }, none) ∧
      freeCount s.frames < pages ∨ ∃ i, FirstFree s.frames i ∧ pages ≤ freeCount s.frames ∧
      s.takeQueue pages availOff = (⟨(allocFrames pages s.frames).2,
        zeroed (zeroed s.bytes (s.frames.start + i * pageSize) (pages * pageSize))
          (s.frames.start + i * pageSize + availOff + 2) 2⟩,
        some (s.frames.start + i * pageSize)) := by
  rcases Nat.lt_or_ge (freeCount s.frames) pages with hshort | hroom
  · refine .inl ⟨?_, hshort⟩
    have hlength : (allocFrames pages s.frames).1.length < pages := by
      rw [length_allocFrames]
      omega
    simp [takeQueue, if_pos hlength]
  · obtain ⟨i, rest, hfirst, hcons, hlength⟩ := allocFrames_of_room hpos hroom
    refine .inr ⟨i, hfirst, hroom, ?_⟩
    rw [takeQueue]
    simp only [hcons] at hlength ⊢
    rw [if_neg hlength]

variable (queueMax : Nat)

lemma queuePages_pos : 0 < queuePages queueMax := by
  simp only [queuePages, pageSize]
  omega

/-- One use of memory: a call into the allocator or a driver, or a store. -/
inductive DmaOp where
  | alloc
  | allocContiguous (count : Nat)
  | dealloc (frame : Nat)
  | dmaAlloc (pages : Nat)
  | dmaDealloc (paddr pages : Nat)
  | initQueue (queueMax : Nat)
  | store (addr : Nat) (byte : UInt8)

def apply (s : DmaState) : DmaOp → DmaState
  | .alloc => { s with frames := (s.frames.alloc.map Prod.snd).getD s.frames }
  | .allocContiguous count =>
    { s with frames := ((s.frames.allocContiguous count).map Prod.snd).getD s.frames }
  | .dealloc frame => { s with frames := s.frames.dealloc frame }
  | .dmaAlloc pages => (s.dmaAlloc pages).1
  | .dmaDealloc paddr pages => s.dmaDealloc paddr pages
  | .initQueue queueMax => (s.initQueue queueMax).1
  | .store addr byte => { s with bytes := Function.update s.bytes addr byte }

def Step : DmaState → DmaOp → DmaState → Prop :=
  Guarded (fun _ _ => True) apply

def Manages (region : MemoryRegion) (a : FrameAllocator) : Prop :=
  a.start = region.managedStart ∧ a.totalFrames = region.managedFrames

section
variable {region : MemoryRegion} {a next : FrameAllocator} {frame : Nat}

section
variable (ha : Manages region a)
include ha

lemma Manages.alloc (halloc : a.alloc = some (frame, next)) : Manages region next := by
  obtain ⟨_, _, _, _, hstart, htotal, _⟩ := alloc_some halloc
  exact ⟨hstart.trans ha.1, htotal.trans ha.2⟩

lemma Manages.allocContiguous {count : Nat}
    (halloc : a.allocContiguous count = some (frame, next)) : Manages region next := by
  obtain ⟨_, _, _, _, hstart, htotal, _⟩ := allocContiguous_some halloc
  exact ⟨hstart.trans ha.1, htotal.trans ha.2⟩

lemma Manages.dealloc (frame : Nat) : Manages region (a.dealloc frame) :=
  ⟨(a.start_dealloc frame).trans ha.1, (a.totalFrames_dealloc frame).trans ha.2⟩

lemma Manages.allocFrames (n : Nat) : Manages region (allocFrames n a).2 := by
  induction n generalizing a with
  | zero => exact ha
  | succ n ih =>
    unfold Driver.allocFrames
    split
    · exact ha
    next halloc => exact ih (ha.alloc halloc)

end

lemma Manages.foldl_dealloc {α : Type} (frame : α → Nat) (items : List α) (ha : Manages region a) :
    Manages region (items.foldl (fun a item => a.dealloc (frame item)) a) := by
  induction items generalizing a with
  | nil => exact ha
  | cons item items ih => exact ih (ha.dealloc (frame item))

variable {s : DmaState}

section
variable (hs : Manages region s.frames)
include hs

lemma Manages.dmaAlloc (pages : Nat) : Manages region (s.dmaAlloc pages).1.frames := by
  obtain ⟨heq, _⟩ | ⟨heq, _⟩ | ⟨i, _, _, heq⟩ := s.dmaAlloc_cases pages
  · rw [heq]
    exact hs
  · rw [heq]
    exact (hs.allocFrames pages).foldl_dealloc id _
  · rw [heq]
    exact hs.allocFrames pages

lemma Manages.takeQueue {pages : Nat} (hpos : 0 < pages) (availOff : Nat) :
    Manages region (s.takeQueue pages availOff).1.frames := by
  obtain ⟨heq, _⟩ | ⟨i, _, _, heq⟩ := s.takeQueue_cases hpos availOff
  · rw [heq]
    exact hs.allocFrames pages
  · rw [heq]
    exact hs.allocFrames pages

lemma Manages.initQueue : Manages region (s.initQueue queueMax).1.frames := by
  rw [DmaState.initQueue]
  split
  · exact hs
  · exact hs.takeQueue (queuePages_pos queueMax) _

lemma Manages.apply (op : DmaOp) : Manages region (s.apply op).frames := by
  cases op with
  | alloc =>
    cases halloc : s.frames.alloc with
    | none => simpa [DmaState.apply, halloc] using hs
    | some found => simpa [DmaState.apply, halloc] using hs.alloc halloc
  | allocContiguous count =>
    cases halloc : s.frames.allocContiguous count with
    | none => simpa [DmaState.apply, halloc] using hs
    | some found => simpa [DmaState.apply, halloc] using hs.allocContiguous halloc
  | dealloc frame => exact hs.dealloc frame
  | dmaAlloc pages => exact hs.dmaAlloc pages
  | dmaDealloc paddr pages => exact hs.foldl_dealloc (fun i => paddr + i * pageSize) (range pages)
  | initQueue queueMax => exact hs.initQueue queueMax
  | store addr byte => exact hs

end

lemma Manages.start_pos {i : Nat} (ha : Manages region a) (hi : i < a.totalFrames) :
    0 < a.start := by
  rw [ha.2] at hi
  rw [ha.1]
  by_contra hzero
  have hend : region.bitmapWords = 0 ∧ region.start = 0 := by
    have := le_alignUp (region.start + region.bitmapWords * 8)
    simp only [MemoryRegion.managedStart] at hzero
    omega
  have := region.managedFrames_le
  omega

end

def boot (region : MemoryRegion) (bytes : Nat → UInt8) : DmaState := ⟨.new region, bytes⟩

variable {s : DmaState} {region : MemoryRegion}

lemma run_manages {bytes : Nat → UInt8} {ops : List DmaOp}
    (hrun : Run Step (boot region bytes) ops s) : Manages region s.frames := by
  have hstep : ∀ (s : DmaState) op next, Manages region s.frames → Step s op next →
      Manages region next.frames := by
    rintro s op next hs ⟨_, rfl⟩
    exact hs.apply op
  exact hrun.invariant hstep ⟨rfl, rfl⟩

section
variable {i pages base addr : Nat} {bytes : Nat → UInt8}

lemma freeFrame_iff {k : Nat} : s.FreeFrame (s.frames.start + i * pageSize + k * pageSize) ↔
    i + k < s.frames.totalFrames ∧ s.frames.isFree (i + k) := by
  rw [Nat.add_assoc, ← Nat.add_mul]
  constructor
  · rintro ⟨j, hlt, heq, hfree⟩
    obtain rfl := frame_inj heq
    exact ⟨hlt, hfree⟩
  · rintro ⟨hlt, hfree⟩
    exact ⟨i + k, hlt, rfl, hfree⟩

lemma zeroed_confined {size : Nat} (offset : Nat) (hsize : offset + size ≤ pages * pageSize)
    (hdiff : zeroed bytes (base + offset) size addr ≠ bytes addr) :
    ∃ k < pages, base + k * pageSize ≤ addr ∧ addr < base + (k + 1) * pageSize := by
  have hin : base + offset ≤ addr ∧ addr < base + offset + size := by
    by_contra hout
    exact hdiff (if_neg hout)
  simp only [pageSize] at hsize ⊢
  exact ⟨(addr - base) / 4096, by omega, by omega, by omega⟩

lemma zeroedRing_confined {availOff : Nat} (havail : availOff + 2 + 2 ≤ pages * pageSize)
    (hdiff : zeroed (zeroed bytes base (pages * pageSize)) (base + availOff + 2) 2 addr ≠
      bytes addr) : ∃ k < pages, base + k * pageSize ≤ addr ∧ addr < base + (k + 1) * pageSize := by
  by_cases hring : zeroed (zeroed bytes base (pages * pageSize)) (base + availOff + 2) 2 addr =
      zeroed bytes base (pages * pageSize) addr
  · rw [hring] at hdiff
    exact zeroed_confined 0 (Nat.zero_add _).le hdiff
  · rw [Nat.add_assoc] at hring
    exact zeroed_confined (availOff + 2) havail hring

lemma owns_iff (pages : Nat) (hfirst : FirstFree s.frames i)
    (hconfined : ∀ addr, bytes addr ≠ s.bytes addr →
      ∃ k < pages, s.frames.start + i * pageSize + k * pageSize ≤ addr ∧
        addr < s.frames.start + i * pageSize + (k + 1) * pageSize) :
    Owns s ⟨(allocFrames pages s.frames).2, bytes⟩ (s.frames.start + i * pageSize) pages ↔
      ∀ k < pages, i + k < s.frames.totalFrames ∧ s.frames.isFree (i + k) := by
  constructor
  · intro howns k hk
    exact freeFrame_iff.mp (howns.free k hk)
  · intro hfree
    obtain ⟨hstart, htotal, hmark⟩ := hfirst.isFree_allocFrames hfree
    refine ⟨fun k hk => freeFrame_iff.mpr (hfree k hk), fun k hk => ?_, hconfined⟩
    refine ⟨i + k, ⟨?_, ?_⟩, ?_⟩
    · rw [htotal]
      exact (hfree k hk).1
    · rw [hmark, decide_eq_false (by omega), Bool.and_false]
    · rw [hstart, Nat.add_assoc, ← Nat.add_mul]

lemma dmaDealloc_restores (hfirst : FirstFree s.frames i)
    (hfree : ∀ k < pages, i + k < s.frames.totalFrames ∧ s.frames.isFree (i + k)) (j : Nat) :
    (dmaDealloc ⟨(allocFrames pages s.frames).2, bytes⟩ (s.frames.start + i * pageSize)
      pages).frames.isFree j = s.frames.isFree j := by
  obtain ⟨hstart, htotal, hmark⟩ := hfirst.isFree_allocFrames hfree
  have hrun : i + pages ≤ (allocFrames pages s.frames).2.totalFrames := by
    rw [htotal]
    rcases Nat.eq_zero_or_pos pages with rfl | hpos
    · exact hfirst.1.le
    · have := (hfree (pages - 1) (by omega)).1
      omega
  obtain ⟨after, hafter, _, _, hfreed⟩ := isFree_foldl_dealloc hrun
  rw [hstart] at hafter
  rw [dmaDealloc, hafter, hfreed, hmark]
  by_cases hj : i ≤ j ∧ j < i + pages
  · have hwas := (hfree (j - i) (by omega)).2
    rw [Nat.add_sub_cancel' hj.1] at hwas
    simp [hj, hwas]
  · simp [hj]

end

lemma availOff_le :
    alignTo (min queueMax queueSize * 16) 4 + 2 + 2 ≤ queuePages queueMax * pageSize := by
  simp only [alignTo, queuePages, queueSize, pageSize]
  omega

lemma dmaSound_iff (hs : Manages region s.frames) {pages : Nat} (hpos : 1 ≤ pages)
    (hmax : pages ≤ 256) : s.DmaSound pages ↔ Consecutive s.frames pages := by
  rcases s.dmaAlloc_cases pages with ⟨_, hbad⟩ | ⟨heq, hshort⟩ | ⟨i, hfirst, hroom, heq⟩
  · omega
  · -- out of memory: no region is returned, and none is asked for
    constructor
    · intro _ hroom
      omega
    · intro _ next base hcall hbase
      rw [heq] at hcall
      exact absurd (Prod.mk.inj hcall).2.symm hbase
  · have howns := owns_iff pages hfirst fun addr hdiff =>
      zeroed_confined 0 (Nat.zero_add _).le hdiff
    constructor
    · intro hsound _ j hj
      have hpos := hs.start_pos hfirst.1
      obtain rfl := hfirst.unique hj
      exact howns.mp (hsound _ _ heq (by omega)).1
    · intro hconsecutive next base hcall _
      cases heq.symm.trans hcall
      have hfree := hconsecutive hroom i hfirst
      exact ⟨howns.mpr hfree, fun j _ => dmaDealloc_restores hfirst hfree j⟩

lemma takeQueue_owns_iff {pages availOff : Nat} (hpos : 0 < pages)
    (havail : availOff + 2 + 2 ≤ pages * pageSize) :
    (∀ next base, s.takeQueue pages availOff = (next, some base) → Owns s next base pages) ↔
      Consecutive s.frames pages := by
  obtain ⟨heq, hshort⟩ | ⟨i, hfirst, hroom, heq⟩ := s.takeQueue_cases hpos availOff
  · constructor
    · intro _ hroom
      omega
    · intro _ next base hcall
      rw [heq] at hcall
      cases (Prod.mk.inj hcall).2
  · have howns := owns_iff pages hfirst fun addr hdiff => zeroedRing_confined havail hdiff
    constructor
    · intro hsound _ j hj
      obtain rfl := hfirst.unique hj
      exact howns.mp (hsound _ _ heq)
    · intro hconsecutive next base hcall
      obtain ⟨rfl, hbase⟩ := Prod.mk.inj (heq.symm.trans hcall)
      cases hbase
      exact howns.mpr (hconsecutive hroom i hfirst)

lemma queueSound_iff (s : DmaState) (queueMax : Nat) : s.QueueSound queueMax ↔
    (0 < queueMax → Consecutive s.frames (queuePages queueMax)) := by
  rw [QueueSound, initQueue]
  split
  next hzero =>
    constructor
    · intro _ hpos
      omega
    · intro _ next base hcall
      cases (Prod.mk.inj hcall).2
  next hzero =>
    rw [takeQueue_owns_iff (queuePages_pos queueMax) (availOff_le queueMax)]
    exact ⟨fun hfree _ => hfree, fun hfree => hfree (Nat.pos_of_ne_zero hzero)⟩

/-- In every reachable state device memory is owned by the driver that asked for it
exactly if the frames after the first free one are free. -/
theorem run_regionsOwned_iff (region : MemoryRegion) (bytes : Nat → UInt8) (ops : List DmaOp)
    (s : DmaState) (hrun : Transition.Run Step (boot region bytes) ops s) :
    (∀ pages, 1 ≤ pages → pages ≤ 256 → (s.DmaSound pages ↔ Consecutive s.frames pages)) ∧
    ∀ queueMax, s.QueueSound queueMax ↔
      (0 < queueMax → Consecutive s.frames (queuePages queueMax)) :=
  ⟨fun _ hpos hmax => dmaSound_iff (run_manages hrun) hpos hmax, s.queueSound_iff⟩

/-- With one frame in use the other two form a region. -/
theorem run_regionsOwned_iff_afterAlloc :
    ∃ s, Transition.Run Step (boot Ledger.smallRegion fun _ => 1) [.alloc] s ∧
      s.DmaSound 2 ∧ (s.dmaAlloc 2).2 = 0x302000 := by
  have hrun : Run Step (boot smallRegion fun _ => 1) [.alloc] _ :=
    .of_allowed ⟨trivial, trivial⟩
  refine ⟨_, hrun, ?_, by decide⟩
  refine ((run_regionsOwned_iff _ _ _ _ hrun).1 2 (by decide) (by decide)).mpr ?_
  intro _ i hfirst
  obtain rfl := hfirst.unique (firstFree_of_hint (by decide) (by decide))
  decide

def fragmented : DmaState :=
  [DmaOp.alloc, .alloc, .dealloc 0x301000].foldl apply (boot smallRegion fun _ => 1)

/-- A region of two pages is made of the two free frames, and what is zeroed is the
one in use between them. -/
theorem dmaAlloc_zeroes_held : Transition.Run Step (boot Ledger.smallRegion fun _ => 1)
      [.alloc, .alloc, .dealloc 0x301000] fragmented ∧
    fragmented.HeldFrame 0x302000 ∧ (fragmented.dmaAlloc 2).2 = 0x301000 ∧
    fragmented.bytes 0x302000 = 1 ∧ (fragmented.dmaAlloc 2).1.bytes 0x302000 = 0 ∧
    ¬ fragmented.DmaSound 2 := by
  refine ⟨.of_allowed ⟨trivial, trivial, trivial, trivial⟩,
    ⟨1, ⟨by decide, by decide⟩, by decide⟩, by decide,
    rfl, by decide, ?_⟩
  intro hsound
  have hbase : (fragmented.dmaAlloc 2).2 = fragmented.frames.start + 0 * pageSize := by
    decide
  have howns := (hsound (fragmented.dmaAlloc 2).1 (fragmented.dmaAlloc 2).2 rfl
    (by decide)).1
  have hfree := howns.free 1 (by decide)
  rw [hbase, freeFrame_iff] at hfree
  exact absurd hfree (by decide)

end DmaState

end KarteOs.Driver

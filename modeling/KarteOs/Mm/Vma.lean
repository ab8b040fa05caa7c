import KarteOs.Foundation.FirstMatch
import KarteOs.Mm.Addr

/-! # Address-space scoped VMA management

Each page table root owns a `VmState`: a table of regions with their
protection, the mmap bump pointer and the end of the ELF image. The states
live in one registry of slots; a slot is found by a linear scan for its root.
-/

/-! The constants of `process/mod.rs` that the memory system calls, the fault
handlers and the loader agree on. -/

namespace KarteOs.Process

def userHeapBase : Nat := 0x10000000
def userHeapLimit : Nat := 0x20000000
def userMmapBase : Nat := 0x20000000
def userMmapLimit : Nat := 0x7FFFFFFFF000
def userStackTop : Nat := 0x80000000
def userStackBase : Nat := 0x7F000000

end KarteOs.Process

namespace KarteOs.Mm

open FirstMatch

def maxVmas : Nat := 1024

def maxAddressSpaces : Nat := 512

/-- `VmaRegion`: the half-open range `[start, stop)` with `PROT_*` bits. -/
structure VmaRegion where
  start : Nat
  stop : Nat
  prot : Nat
  active : Bool
deriving DecidableEq

namespace VmaRegion

def empty : VmaRegion := ⟨0, 0, 0, false⟩

def covers (vma : VmaRegion) (addr : Nat) : Bool :=
  vma.active && decide (vma.start ≤ addr) && decide (addr < vma.stop)

def overlaps (vma : VmaRegion) (start stop : Nat) : Bool :=
  vma.active && decide (vma.start < stop) && decide (start < vma.stop)

end VmaRegion

structure VmState where
  vmas : List VmaRegion
  nextMmapAddr : Nat
  maxElfVaddr : Nat
deriving DecidableEq

namespace VmState

def cleared : VmState := ⟨List.replicate maxVmas .empty, 0, 0⟩

variable (state : VmState)

def query (addr : Nat) : Option Nat :=
  (state.vmas.find? (·.covers addr)).map (·.prot)

/-- One step of the `vma_check` scan. The accumulator is the best protection
so far and the size of its region; accessible regions beat `PROT_NONE` ones,
then smaller regions beat larger ones. -/
def checkStep (addr : Nat) (best : Option Nat × Nat) (vma : VmaRegion) : Option Nat × Nat :=
  if vma.covers addr then
    let size := vma.stop - vma.start
    let curAccessible := vma.prot != 0
    let bestAccessible := best.1.any (· != 0)
    if curAccessible && !bestAccessible ||
        curAccessible == bestAccessible && decide (size < best.2) then
      (if vma.prot = 0 then none else some vma.prot, size)
    else best
  else best

def check (addr : Nat) : Option Nat :=
  (state.vmas.foldl (checkStep addr) (none, usizeRange - 1)).1

def overlaps (state : VmState) (start stop : Nat) : Bool :=
  state.vmas.any (·.overlaps start stop)

def isElf (addr : Nat) : Bool :=
  decide (state.maxElfVaddr ≠ 0) && decide (0x400000 ≤ addr) &&
    decide (addr < state.maxElfVaddr) && state.vmas.any (·.covers addr)

end VmState

/-- `insert_vma`: take the first inactive entry. The flag is `false` when the
table is full, and then the table is unchanged. -/
def insertVma (vmas : List VmaRegion) (start stop prot : Nat) : List VmaRegion × Bool :=
  if stop ≤ start then (vmas, true)
  else
    match updateFirst (!·.active) (fun _ => ⟨start, stop, prot, true⟩) vmas with
    | some next => (next, true)
    | none => (vmas, false)

/-- Entries `i, i + 1, ..` of `split_overlapping_vmas`, `remaining` of them.
A region that contains `[start, stop)` strictly is cut in two and the upper
part goes to the first inactive entry; failure to place it aborts the loop. -/
def splitLoop (start stop : Nat) : Nat → Nat → List VmaRegion → List VmaRegion × Bool
  | 0, _, vmas => (vmas, true)
  | remaining + 1, i, vmas =>
    let vma := vmas.getD i .empty
    if !vma.overlaps start stop then splitLoop start stop remaining (i + 1) vmas
    else if vma.start < start ∧ stop < vma.stop then
      let (vmas, placed) :=
        insertVma (vmas.set i { vma with stop := start }) stop vma.stop vma.prot
      if placed then splitLoop start stop remaining (i + 1) vmas else (vmas, false)
    else if vma.start < start then
      splitLoop start stop remaining (i + 1) (vmas.set i { vma with stop := start })
    else if stop < vma.stop then
      splitLoop start stop remaining (i + 1) (vmas.set i { vma with start := stop })
    else
      splitLoop start stop remaining (i + 1) (vmas.set i { vma with active := false })

def splitOverlappingVmas (vmas : List VmaRegion) (start stop : Nat) : List VmaRegion × Bool :=
  splitLoop start stop vmas.length 0 vmas

namespace VmState

variable (state : VmState)

def add (start stop prot : Nat) (mapFixed : Bool) : VmState × Bool :=
  let (vmas, split) :=
    if mapFixed then splitOverlappingVmas state.vmas start stop else (state.vmas, true)
  if split then
    let (vmas, placed) := insertVma vmas start stop prot
    ({ state with vmas }, placed)
  else ({ state with vmas }, false)

def removeRange (start stop : Nat) : VmState :=
  { state with vmas := (splitOverlappingVmas state.vmas start stop).1 }

/-- `vma_update_prot`: every region meeting the range takes the new protection
as a whole. -/
def updateProt (start stop newProt : Nat) : VmState :=
  { state with vmas := state.vmas.map fun vma =>
      if vma.overlaps start stop then { vma with prot := newProt } else vma }

def ensureMmapAbove (minAddr : Nat) : VmState :=
  let aligned := wrappingAlignUp minAddr
  { state with
    nextMmapAddr := if state.nextMmapAddr < aligned then aligned else state.nextMmapAddr
    maxElfVaddr := if state.maxElfVaddr < aligned then aligned else state.maxElfVaddr }

/-- Where the bump allocator starts looking: `next_mmap_addr`, or
`USER_MMAP_BASE` while it is still zero. -/
def mmapCandidate : Nat :=
  if 0 < state.nextMmapAddr then state.nextMmapAddr else Process.userMmapBase

/-- The loop of `reserve_mmap_addr`, at most `fuel` rounds. The outer `none`
means that the loop is still running after `fuel` rounds. -/
def reserveLoop (alignedLen : Nat) : Nat → VmState → Option (VmState × Option Nat)
  | 0, _ => none
  | fuel + 1, state =>
    let candidate := state.mmapCandidate
    let endAddr := (checkedAdd candidate alignedLen).getD 0
    if Process.userMmapLimit < endAddr ∨ endAddr = 0 then some (state, none)
    else if state.overlaps candidate endAddr then
      let conflictEnd :=
        ((state.vmas.filter (·.overlaps candidate endAddr)).map (·.stop)).max?.getD
          (wrappingAdd candidate alignedLen)
      reserveLoop alignedLen fuel { state with nextMmapAddr := wrappingAlignUp conflictEnd }
    else some ({ state with nextMmapAddr := endAddr }, some candidate)

/-- `reserve_mmap_addr`. Every unsuccessful round passes the end of a region,
so the loop runs at most once more than there are regions. -/
def reserveMmapAddr (state : VmState) (len : Nat) : Option (VmState × Option Nat) :=
  reserveLoop (wrappingAlignUp len) (state.vmas.length + 1) state

end VmState

structure VmStateSlot where
  root : Nat
  active : Bool
  state : VmState

namespace VmStateSlot

def default : VmStateSlot := ⟨0, false, .cleared⟩

def holds (root : Nat) (slot : VmStateSlot) : Bool := slot.active && slot.root == root

end VmStateSlot

abbrev Registry := List VmStateSlot

namespace Registry

def boot : Registry := List.replicate maxAddressSpaces .default

variable (reg : Registry)

/-- `init_root`. `none` is `Err(())`, which leaves the registry as it was. -/
def initRoot (root : Nat) : Option Registry :=
  if root = 0 then none
  else
    (updateFirst (VmStateSlot.holds root) (fun slot => { slot with state := .cleared }) reg).or
      (updateFirst (!·.active) (fun _ => ⟨root, true, .cleared⟩) reg)

def releaseRoot (root : Nat) : Registry :=
  if root = 0 then reg
  else (updateFirst (VmStateSlot.holds root) (fun _ => .default) reg).getD reg

/-- `clone_root_state`. The scan remembers the last slot of the source and the
first free slot; the destination root is not looked up. -/
def cloneRootState (srcRoot dstRoot : Nat) : Option Registry :=
  if srcRoot = 0 ∨ dstRoot = 0 then none
  else
    match reg.reverse.find? (VmStateSlot.holds srcRoot) with
    | none => none
    | some src => updateFirst (!·.active) (fun _ => ⟨dstRoot, true, src.state⟩) reg

variable (root : Nat)

def stateOf : Option VmState :=
  (reg.find? (VmStateSlot.holds root)).map (·.state)

def withState (f : VmState → VmState) : Registry :=
  (updateFirst (VmStateSlot.holds root) (fun slot => { slot with state := f slot.state }) reg).getD
    reg

def vmaCheck (addr : Nat) : Option Nat :=
  (reg.stateOf root).bind (·.check addr)

def vmaQuery (addr : Nat) : Option Nat :=
  (reg.stateOf root).bind (·.query addr)

def vmaOverlaps (start stop : Nat) : Bool :=
  (reg.stateOf root).any (·.overlaps start stop)

def vmaIsElf (addr : Nat) : Bool :=
  (reg.stateOf root).any (·.isElf addr)

def vmaAdd (start stop prot : Nat) (mapFixed : Bool) : Registry × Bool :=
  (reg.withState root fun state => (state.add start stop prot mapFixed).1,
    (reg.stateOf root).any fun state => (state.add start stop prot mapFixed).2)

def vmaRemoveRange (start stop : Nat) : Registry :=
  reg.withState root (·.removeRange start stop)

def vmaUpdateProt (start stop newProt : Nat) : Registry :=
  reg.withState root (·.updateProt start stop newProt)

def ensureMmapAbove (root minAddr : Nat) : Registry :=
  reg.withState root (·.ensureMmapAbove minAddr)

def registerElfVma (start stop prot : Nat) : Registry :=
  (reg.vmaAdd root start stop prot false).1

def vmaClearRoot : Registry :=
  reg.withState root fun _ => .cleared

/-- `reserve_mmap_addr`: the registry afterwards and the address, if any. The
outer `none` is a call that does not return. -/
def reserveMmapAddr (root len : Nat) : Option (Registry × Option Nat) :=
  match reg.stateOf root with
  | none => some (reg, none)
  | some state =>
    (state.reserveMmapAddr len).map fun (next, addr) => (reg.withState root fun _ => next, addr)

end Registry

end KarteOs.Mm

import KarteOs.Foundation.FrameSource
import KarteOs.Foundation.RadixTree
import KarteOs.Mm.Pte

/-! # Virtual memory manager

The page table operations over physical memory. Memory is addressed by frame
number and 64-bit word; a table is named by its frame number, as in the
entries that refer to it. An operation that can run out of table frames
returns `none` where the kernel panics.
-/

namespace KarteOs.Mm

open FrameSource

universe u

variable {σ : Type u} [FrameSource σ (2 ^ 40)]

abbrev Memory := RadixTree.Store PTE

/-- Physical memory and the frame allocator that manages it. -/
structure Machine (σ : Type u) where
  mem : Memory
  frames : σ

def pteCount : Nat := 512

def vpn (vaddr level : Nat) : Nat := vaddr / 2 ^ (12 + 9 * level) % pteCount

def isCanonical (vaddr : Nat) : Bool :=
  decide (vaddr < 2 ^ 47) || decide (2 ^ 64 - 2 ^ 47 ≤ vaddr)

namespace Machine

variable (s : Machine σ)

def setEntry (table i : Nat) (entry : PTE) : Machine σ :=
  { s with mem := s.mem.set table i entry }

def setFrame (frame : Nat) (words : Nat → PTE) : Machine σ :=
  { s with mem := Function.update s.mem frame words }

def allocFrame : Option (Nat × Machine σ) :=
  (alloc s.frames).map fun (frame, frames) => (frame * pageSize, { s with frames })

def zeroed : Option (Nat × Machine σ) :=
  (alloc s.frames).map fun (frame, frames) =>
    (frame, setFrame { s with frames } frame fun _ => 0)

def ensureTable (arch : Arch) (s : Machine σ) (table i : Nat) : Option (Machine σ) :=
  if (s.mem table i).isValid arch then some s
  else s.zeroed.map fun (ppn, s) => s.setEntry table i (.newNonleaf arch ppn)

/-- Replace a huge page entry by a table of smaller pages over the same memory. -/
def splitHuge (s : Machine σ) (table i subPageSize : Nat) : Option (Nat × Machine σ) :=
  let entry := s.mem table i
  s.zeroed.map fun (newPpn, s) =>
    (newPpn, (s.setFrame newPpn (entry.splitEntry subPageSize)).setEntry table i
      (.newNonleaf .x86_64 newPpn))

end Machine

def patchNonleaf : (arch : Arch) → PTE → PTEFlags arch → PTE
  | .riscv64, entry, _ => entry
  | .x86_64, entry, leafFlags => entry.ensureNonleafUserBit leafFlags

/-- The loop of `map` over the levels above the leaf. The result is the table
to put the leaf in, or `none` for the early return on a corrupt entry. -/
def mapDescend (arch : Arch) (vaddr : Nat) (flags : PTEFlags arch) :
    Nat → Nat → Machine σ → Option (Machine σ × Option Nat)
  | 0, table, s => some (s, some table)
  | level + 1, table, s =>
    (s.ensureTable arch table (vpn vaddr (level + 1))).bind fun s =>
      let i := vpn vaddr (level + 1)
      let entry := s.mem table i
      if entry.isHuge arch then
        let subPageSize := if level + 1 = 3 then 2 ^ 21 else 2 ^ 12
        (s.splitHuge table i subPageSize).bind fun (newTable, s) =>
          -- `flush_tlb_addr` builds a `VirtAddr`
          if !isCanonical vaddr then none
          else if subPageSize = pageSize then some (s, some newTable)
          else mapDescend arch vaddr flags level newTable s
      else if arch = .x86_64 ∧ entry.ppn arch = 0 then some (s, none)
      else
        mapDescend arch vaddr flags level (entry.ppn arch)
          (s.setEntry table i (patchNonleaf arch entry flags))

def map (arch : Arch) (s : Machine σ) (root vaddr paddr : Nat) (flags : PTEFlags arch) :
    Option (Machine σ) :=
  (mapDescend arch vaddr flags (arch.ptLevels - 1) root s).map fun (s, table) =>
    match table with
    | none => s
    | some table => s.setEntry table (vpn vaddr 0) (.new arch (paddr / pageSize) flags)

def identityMap2mbPage (s : Machine σ) (root addr : Nat) (flags : PTEFlags .x86_64) :
    Option (Machine σ) :=
  (s.ensureTable .x86_64 root (vpn addr 3)).bind fun s =>
    let p3 := (s.mem root (vpn addr 3)).ppn .x86_64
    (s.ensureTable .x86_64 p3 (vpn addr 2)).map fun s =>
      let p2 := (s.mem p3 (vpn addr 2)).ppn .x86_64
      s.setEntry p2 (vpn addr 1) (.new .x86_64 (addr / pageSize) (flags ||| .ps))

def identityMap2mbLoop (root : Nat) (flags : PTEFlags .x86_64) :
    Nat → Nat → Machine σ → Option (Machine σ)
  | 0, _, s => some s
  | rounds + 1, addr, s =>
    (identityMap2mbPage s root addr flags).bind
      (identityMap2mbLoop root flags rounds (addr + 2 ^ 21))

def identityMap2mb (s : Machine σ) (root start stop : Nat) (flags : PTEFlags .x86_64) :
    Option (Machine σ) :=
  let startAligned := start / 2 ^ 21 * 2 ^ 21
  let stopAligned := wrappingAdd stop (2 ^ 21 - 1) / 2 ^ 21 * 2 ^ 21
  identityMap2mbLoop root flags ((stopAligned - startAligned) / 2 ^ 21) startAligned s

def walkToPt (arch : Arch) (mem : Memory) (vaddr : Nat) : Nat → Nat → Option Nat
  | 0, table => some table
  | level + 1, table =>
    let entry := mem table (vpn vaddr (level + 1))
    if !entry.isValid arch then none
    else if entry.isHuge arch then none
    else if entry.ppn arch = 0 then none
    else walkToPt arch mem vaddr level (entry.ppn arch)

def translateFrom (arch : Arch) (mem : Memory) (vaddr : Nat) : Nat → Nat → Option Nat
  | 0, table =>
    let entry := mem table (vpn vaddr 0)
    if !entry.isValid arch then none
    else some (entry.ppn arch * pageSize ||| vaddr % pageSize)
  | level + 1, table =>
    let entry := mem table (vpn vaddr (level + 1))
    if !entry.isValid arch then none
    else if entry.isHuge arch then
      some (entry.ppn arch * pageSize ||| vaddr % 2 ^ (12 + 9 * (level + 1)))
    else if entry.ppn arch = 0 then none
    else translateFrom arch mem vaddr level (entry.ppn arch)

variable (arch : Arch)

def translateUser (mem : Memory) (root vaddr : Nat) : Option Nat :=
  translateFrom arch mem vaddr (arch.ptLevels - 1) root

inductive WalkResult (arch : Arch) where
  | notMapped
  | mapped4K (frame : Nat) (flags : PTEFlags arch)
  | mappedHuge (frame level size : Nat) (flags : PTEFlags arch)
  | invalid
deriving DecidableEq

def walkFrom (arch : Arch) (mem : Memory) (vaddr : Nat) : Nat → Nat → WalkResult arch
  | 0, table =>
    let entry := mem table (vpn vaddr 0)
    if !entry.isValid arch then .notMapped
    else if entry.ppn arch = 0 then .invalid
    else .mapped4K (entry.ppn arch * pageSize ||| vaddr % pageSize) (entry.flags arch)
  | level + 1, table =>
    let entry := mem table (vpn vaddr (level + 1))
    if !entry.isValid arch then .notMapped
    else if entry.isHuge arch then
      let size := 2 ^ (12 + 9 * (level + 1))
      .mappedHuge (entry.ppn arch * pageSize ||| vaddr % size) (level + 1) size (entry.flags arch)
    else if entry.ppn arch = 0 then .invalid
    else walkFrom arch mem vaddr level (entry.ppn arch)

def walkMapping (mem : Memory) (root vaddr : Nat) : WalkResult arch :=
  walkFrom arch mem vaddr (arch.ptLevels - 1) root

/-! ## Unmapping and changing protection -/

def unmapUser (s : Machine σ) (root vaddr : Nat) : Machine σ × Option Nat :=
  match walkToPt arch s.mem vaddr (arch.ptLevels - 1) root with
  | none => (s, none)
  | some table =>
    let entry := s.mem table (vpn vaddr 0)
    if !entry.isValid arch then (s, none)
    else (s.setEntry table (vpn vaddr 0) 0, some (entry.ppn arch * pageSize ||| vaddr % pageSize))

def mprotectDescend (arch : Arch) (vaddr : Nat) (flags : PTEFlags arch) :
    Nat → Nat → Machine σ → Machine σ × Option Nat
  | 0, table, s => (s, some table)
  | level + 1, table, s =>
    let i := vpn vaddr (level + 1)
    let entry := s.mem table i
    if !entry.isValid arch then (s, none)
    else if entry.isHuge arch then (s, none)
    else
      let s := s.setEntry table i (patchNonleaf arch entry flags)
      if (patchNonleaf arch entry flags).ppn arch = 0 then (s, none)
      else mprotectDescend arch vaddr flags level ((patchNonleaf arch entry flags).ppn arch) s

def mprotectUser (s : Machine σ) (root vaddr : Nat) (flags : PTEFlags arch) : Machine σ × Bool :=
  match mprotectDescend arch vaddr flags (arch.ptLevels - 1) root s with
  | (s, none) => (s, false)
  | (s, some table) =>
    let entry := s.mem table (vpn vaddr 0)
    if !entry.isValid arch then (s, false)
    else (s.setEntry table (vpn vaddr 0) (.new arch (entry.ppn arch) flags), true)

/-! ## Releasing a page table -/

/-- `free_level`, from a table whose entries are `level` levels from the leaves.
Releasing frames does not touch memory. -/
def freeLevel (arch : Arch) (mem : Memory) : Nat → Nat → σ → σ
  | 0, _, frames => frames
  | level + 1, table, frames =>
    (List.range pteCount).foldl (fun frames i =>
      let entry := mem table i
      if !entry.isValid arch then frames
      else if 0 < level ∧ entry.isHuge arch = false then
        dealloc (freeLevel arch mem level (entry.ppn arch) frames) (entry.ppn arch)
      else if level = 0 ∧ (entry.flags arch).isUser = true then
        dealloc frames (entry.ppn arch)
      else frames) frames

def freeUserPageTable (s : Machine σ) (rootPpn : Nat) : Machine σ :=
  { s with frames :=
      dealloc (freeLevel arch s.mem arch.ptLevels rootPpn s.frames) rootPpn }

end KarteOs.Mm

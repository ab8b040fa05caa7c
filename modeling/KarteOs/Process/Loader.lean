import KarteOs.Process.KernelSpace
import KarteOs.Syscall.Memory

/-! # Loading a process

`from_elf` and `from_elf_streaming` build the address space of a process from
the loadable segments of an ELF image. What the segments' bytes are and what
is written on the initial stack is left out.
-/

namespace KarteOs.Process

universe u

open Mm Syscall

def userStackPages : Nat := 512

structure Segment where
  vaddr : Nat
  offset : Nat
  fileSize : Nat
  memSize : Nat
  flags : Nat

namespace Segment

variable (seg : Segment)

def pageStart : Nat := alignDown seg.vaddr

def pageEnd : Nat := wrappingAlignUp (seg.vaddr + seg.memSize)

def pages : List Nat := pageRange seg.pageStart seg.pageEnd

def prot : Nat :=
  (if seg.flags.testBit 0 then protExec else 0) |||
    (if seg.flags.testBit 1 then protWrite else 0) |||
    (if seg.flags.testBit 2 then protRead else 0)

end Segment

/-- A parsed image: its segments, the length of the file, and which parts of it
the reader of the streaming loader can deliver. -/
structure Image where
  segments : List Segment
  size : Nat
  readable : Nat → Nat → Bool

namespace Image

def maxVaddr (image : Image) : Nat :=
  image.segments.foldl (fun top seg => max top (wrappingAdd seg.vaddr seg.memSize)) 0

/-- Copying the bytes of one page from a file in memory; a segment that leaves
the file is a panic. -/
def copyWhole (image : Image) (seg : Segment) (_vaddr : Nat) : Option Bool :=
  let stop := wrappingAdd seg.offset seg.fileSize
  if seg.offset ≤ stop ∧ stop ≤ image.size then some true else none

def copyStreaming (image : Image) (seg : Segment) (vaddr : Nat) : Option Bool :=
  let copyStart := max vaddr seg.vaddr
  let copyEnd := min (vaddr + pageSize) (wrappingAdd seg.vaddr seg.fileSize)
  some (decide (copyEnd ≤ copyStart) ||
    image.readable (wrappingAdd seg.offset (copyStart - seg.vaddr)) (copyEnd - copyStart))

end Image

inductive LoadError where
  | kernelStack
  | segment
  | userStack
  | read
  | notInSegment
  | repair
  | reread
  | repairFailed
deriving DecidableEq

def LoadError.message : LoadError → String
  | kernelStack => "Out of memory for kernel stack"
  | segment => "Out of memory for ELF segment"
  | userStack => "Out of memory for user stack"
  | read => "ELF: failed to read segment data"
  | notInSegment => "ELF: page not in segment"
  | repair => "Out of memory for ELF invariant repair"
  | reread => "ELF: failed to reread invariant page"
  | repairFailed => "ELF: invariant repair failed"

set_option linter.dupNamespace false in
/-- What is kept of a process: its page table and the top of its kernel stack. -/
structure Process where
  pageTableRoot : Nat
  kernelStackTop : Nat

variable {σ : Type u}

/-- The machine after a part of loading and the error that ended it. The outer
`none` is a panic. -/
abbrev Outcome (σ : Type u) := Option (Machine σ × Option LoadError)

def Outcome.andThen (outcome : Outcome σ) (rest : Machine σ → Outcome σ) : Outcome σ :=
  outcome.bind fun (s, err) =>
    match err with
    | none => rest s
    | some err => some (s, some err)

def Outcome.each {α : Type} (step : α → Machine σ → Outcome σ) : List α → Machine σ → Outcome σ
  | [], s => some (s, none)
  | item :: rest, s => (step item s).andThen (Outcome.each step rest)

section
variable [FrameSource σ (2 ^ 40)]

def elfSegmentPteFlags : (arch : Arch) → Nat → PTEFlags arch
  | .riscv64, flags =>
    let f := PTEFlags.v ||| .u
    let f := if flags.testBit 2 then f ||| .r else f
    let f := if flags.testBit 1 then f ||| .w else f
    if flags.testBit 0 then f ||| .x else f
  | .x86_64, flags =>
    let f := PTEFlags.present ||| .user
    let f := if flags.testBit 1 then f ||| .writable else f
    if flags.testBit 0 then f else f ||| .nx

def mergePteFlags (existing new : PTEFlags .x86_64) : PTEFlags .x86_64 :=
  let merged := existing ||| new
  if !existing.contains .nx || !new.contains .nx then merged.difference .nx else merged

def debugPte (mem : Memory) (root vaddr : Nat) : Option PTE :=
  (walkToPt .x86_64 mem vaddr (Arch.x86_64.ptLevels - 1) root).map fun table =>
    mem table (vpn vaddr 0)

def mergePageFlags : (arch : Arch) → Memory → Nat → Nat → PTEFlags arch → PTEFlags arch
  | .riscv64, mem, root, vaddr, new =>
    match walkMapping .riscv64 mem root vaddr with
    | .mapped4K _ flags => flags ||| new
    | .mappedHuge _ _ _ flags => flags ||| new
    | _ => new
  | .x86_64, mem, root, vaddr, new =>
    match debugPte mem root vaddr with
    | some raw => mergePteFlags (raw.flags .x86_64) new
    | none => new

variable (arch : Arch)

def mapCleared (root vaddr : Nat) (flags : PTEFlags arch) (err : LoadError)
    (s : Machine σ) : Outcome σ :=
  match s.allocFrame with
  | none => some (s, some err)
  | some (frame, s) =>
    (map arch s root vaddr frame flags).map fun s =>
      (s.setFrame (frame / pageSize) fun _ => 0, none)

/-- A page of a segment: a page that an earlier segment brought in keeps its
frame and gets the flags of both; an identity mapping is replaced. -/
def backPage (root : Nat) (flags : PTEFlags arch) (vaddr : Nat) (s : Machine σ) : Outcome σ :=
  match translateUser arch s.mem root vaddr with
  | some frame =>
    if frame = vaddr then mapCleared arch root vaddr flags .segment s
    else
      (map arch s root vaddr frame (mergePageFlags arch s.mem root vaddr flags)).map (·, none)
  | none => mapCleared arch root vaddr flags .segment s

def loadSegment (root : Nat) (copy : Segment → Nat → Option Bool) (seg : Segment) :
    Machine σ → Outcome σ :=
  Outcome.each (fun vaddr s =>
    (backPage arch root (elfSegmentPteFlags arch seg.flags) vaddr s).andThen fun s =>
      (copy seg vaddr).map fun copied => (s, if copied then none else some .read)) seg.pages

def streamingElfPageFlags (image : Image) (page : Nat) : Option (PTEFlags .x86_64) :=
  image.segments.foldl (fun merged seg =>
    if page < seg.pageStart ∨ seg.pageEnd ≤ page then merged
    else
      let flags := elfSegmentPteFlags .x86_64 seg.flags
      some (merged.elim flags (mergePteFlags · flags))) none

/-- The page is mapped for user code to a frame other than its own address. -/
def verifiedPage (mem : Memory) (root page : Nat) : Bool :=
  ((translateUser .x86_64 mem root page).map alignDown).any (· ≠ page) &&
    (debugPte mem root page).any fun raw => (raw.flags .x86_64).isUser

/-- Whether `reload_streaming_elf_page` can read the parts of the segments that
lie in the page. -/
def rereadable (image : Image) (page : Nat) : Bool :=
  image.segments.all fun seg =>
    let copyStart := max page seg.vaddr
    let copyEnd := min (page + pageSize) (wrappingAdd seg.vaddr seg.fileSize)
    decide (wrappingAdd seg.vaddr seg.memSize ≤ page) || decide (page + pageSize ≤ seg.vaddr) ||
      decide (copyEnd ≤ copyStart) ||
      image.readable (wrappingAdd seg.offset (copyStart - seg.vaddr)) (copyEnd - copyStart)

def reloadStreamingElfPage (root : Nat) (image : Image) (page : Nat) (s : Machine σ) : Outcome σ :=
  match streamingElfPageFlags image page with
  | none => some (s, some .notInSegment)
  | some flags =>
    (mapCleared .x86_64 root page flags .repair s).andThen fun s =>
      some (s, if rereadable image page then none else some .reread)

def verifyStreamingElfPages (root : Nat) (image : Image) : Machine σ → Outcome σ :=
  Outcome.each (fun page s =>
    if verifiedPage s.mem root page then some (s, none)
    else
      (reloadStreamingElfPage root image page s).andThen fun s =>
        some (s, if verifiedPage s.mem root page then none else some .repairFailed))
    (image.segments.flatMap (·.pages))

def userStackVaddrs : List Nat :=
  (List.range userStackPages).map fun i => alignDown (userStackTop - i * pageSize)

def mapUserStack (arch : Arch) (root : Nat) : Machine σ → Outcome σ :=
  Outcome.each (fun vaddr s =>
    match s.allocFrame with
    | none => some (s, some .userStack)
    | some (frame, s) => (map arch s root vaddr frame (.urw arch)).map (·, none)) userStackVaddrs

/-- `let _guard = pmm::alloc_frame()`: the frame is taken if there is one, and
nothing remembers it. -/
def takeGuard (s : Machine σ) : Machine σ := (s.allocFrame.map (·.2)).getD s

end

def registerSegments (registry : Registry) (root : Nat) (image : Image) : Registry :=
  let registry := image.segments.foldl
    (fun registry seg => registry.registerElfVma root seg.pageStart seg.pageEnd seg.prot)
    ((registry.initRoot root).getD registry)
  if 0 < image.maxVaddr then registry.ensureMmapAbove root image.maxVaddr else registry

def initialBrk (image : Image) : Nat := max (wrappingAlignUp image.maxVaddr) userHeapBase

variable [ContiguousSource σ (2 ^ 40)]

/-- The end of a loader: the process with its registry and `brk`, or the error
with the machine that it left. -/
def Outcome.finish (outcome : Outcome σ) (k : Kernel σ) (loaded : Registry) (brk : Nat)
    (process : Process) : Option (Kernel σ × Except LoadError Process) :=
  outcome.map fun (machine, err) =>
    match err with
    | none => (⟨machine, loaded, brk⟩, .ok process)
    | some err => ({ k with machine }, .error err)

variable (arch : Arch) (kernelRoot : Nat)

def fromElf (image : Image) (k : Kernel σ) : Option (Kernel σ × Except LoadError Process) :=
  k.machine.zeroed.bind fun (root, s) =>
    (allocKernelStack arch kernelRoot (takeGuard s)).bind fun stack =>
      match stack with
      | none => some ({ k with machine := takeGuard s }, .error .kernelStack)
      | some (top, s) =>
        (copyKernelMappings kernelRoot root top arch s).bind fun s =>
          Outcome.finish
            ((Outcome.each (loadSegment arch root image.copyWhole) image.segments s).andThen
              (mapUserStack arch root))
            k ((k.registry.initRoot root).getD k.registry) (initialBrk image) ⟨root, top⟩

/-- The segments as `from_elf_streaming` loads them; x86_64 checks the result. -/
def streamSegments (root : Nat) (image : Image) (s : Machine σ) : Outcome σ :=
  (Outcome.each (loadSegment arch root image.copyStreaming) image.segments s).andThen fun s =>
    if arch = .x86_64 then verifyStreamingElfPages root image s else some (s, none)

/-- The stacks of a process that `from_elf_streaming` loads. Loading may have
replaced pages of the kernel stack, so x86_64 maps it again. -/
def streamStacks (root top : Nat) (s : Machine σ) : Outcome σ :=
  (mapUserStack arch root s).andThen fun s =>
    if arch = .x86_64 then (mapKernelStackPages arch root top s).map (·, none) else some (s, none)

def fromElfStreaming (image : Image) (k : Kernel σ) :
    Option (Kernel σ × Except LoadError Process) :=
  (allocKernelStack arch kernelRoot k.machine).bind fun stack =>
    match stack with
    | none => some (k, .error .kernelStack)
    | some (top, s) =>
      (takeGuard s).zeroed.bind fun (root, s) =>
        (copyKernelMappings kernelRoot root top arch (takeGuard s)).bind fun s =>
          (streamSegments arch root image s).bind fun (machine, err) =>
            match err with
            | some err => some ({ k with machine }, .error err)
            | none =>
              let registry := registerSegments k.registry root image
              (streamStacks arch root top machine).finish { k with registry } registry
                (initialBrk image) ⟨root, top⟩

def reclaimProcess (process : Process) (k : Kernel σ) : Kernel σ :=
  let machine := freeUserPageTable arch k.machine process.pageTableRoot
  { k with
    registry := k.registry.releaseRoot process.pageTableRoot
    machine :=
      { machine with frames := deallocKernelStack arch process.kernelStackTop machine.frames } }

end KarteOs.Process

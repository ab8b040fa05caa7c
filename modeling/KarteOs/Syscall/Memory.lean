import KarteOs.Mm.Vma
import KarteOs.Mm.Vmm

/-! # The memory system calls

`brk`, `mmap`, `mprotect`, `munmap` and `madvise` of the calling process. The
process is known to them through its page table root, which also names its
slot in the VMA registry. A call returns its result as a signed word; it has
no result where the kernel panics for want of a table frame.
-/

namespace KarteOs.Syscall

universe u

open Mm

variable {σ : Type u} [FrameSource σ (2 ^ 40)]

/-- What the memory calls of one process read and write: the machine, the VMA
registry and the process's `brk`. -/
structure Kernel (σ : Type u) where
  machine : Machine σ
  registry : Registry
  brk : Nat

def errInval : Int := -22

def errNomem : Int := -12

def errNoent : Int := -2

def errIo : Int := -5

def asIsize (word : Nat) : Int := if word < 2 ^ 63 then word else (word : Int) - 2 ^ 64

def protRead : Nat := 1

def protWrite : Nat := 2

def protExec : Nat := 4

def pageRange (start stop : Nat) : List Nat :=
  (List.range ((stop - start) / pageSize)).map fun i => start + i * pageSize

def protToPteFlags : (arch : Arch) → Nat → PTEFlags arch
  | .riscv64, prot =>
    let f := PTEFlags.v ||| .u
    let f := if prot &&& protRead ≠ 0 then f ||| .r else f
    let f := if prot &&& protWrite ≠ 0 then f ||| .w else f
    let f := if prot &&& protExec ≠ 0 then f ||| .x else f
    if prot = 0 then f ||| (.r ||| .w) else f
  | .x86_64, prot =>
    let f := PTEFlags.present ||| .user
    let f := if prot &&& protWrite ≠ 0 then f ||| .writable else f
    if prot &&& protExec ≠ 0 then f else f ||| .nx

/-! ## Loops over page ranges -/

section
variable (arch : Arch)

def unmapRange (root : Nat) (s : Machine σ) (start stop : Nat) : Machine σ :=
  (pageRange start stop).foldl (fun s vaddr => (unmapUser arch s root vaddr).1) s

/-- The loop of `linux_mprotect`: pages without a mapping are left to the page
fault handler. -/
def protectRange (root : Nat) (flags : PTEFlags arch) (s : Machine σ)
    (start stop : Nat) : Machine σ :=
  (pageRange start stop).foldl (fun s vaddr =>
    if (translateUser arch s.mem root vaddr).isSome then (mprotectUser arch s root vaddr flags).1
    else s) s

/-- The page needs a frame of its own. On x86_64 a page that translates to
itself is taken for a stale identity mapping. -/
def needsFrame (s : Machine σ) (root vaddr : Nat) : Bool :=
  match translateUser arch s.mem root vaddr with
  | none => true
  | some frame => decide (arch = .x86_64 ∧ frame = vaddr)

/-- Allocate a frame, clear it and map it. A full allocator is `none` inside;
the outer `none` is a panic in `map`. -/
def mapFresh (s : Machine σ) (root vaddr : Nat) (flags : PTEFlags arch) :
    Option (Option (Machine σ)) :=
  match s.allocFrame with
  | none => some none
  | some (frame, s) =>
    (map arch (s.setFrame (frame / pageSize) fun _ => 0) root vaddr frame flags).map some

/-- One page of the populating `madvise` calls; without a frame the page is skipped. -/
def populatePage (root : Nat) (flags : PTEFlags arch) (s : Machine σ)
    (vaddr : Nat) : Option (Machine σ) :=
  if needsFrame arch s root vaddr then
    (mapFresh arch s root vaddr flags).map fun next => next.getD s
  else some s

end

def mmapHint (registry : Registry) (root addr alignedLen : Nat) : Nat :=
  let alignedAddr := alignDown addr
  let hintEnd := (checkedAdd alignedAddr alignedLen).getD 0
  if Process.userMmapBase ≤ alignedAddr ∧ hintEnd ≠ 0 ∧ hintEnd ≤ Process.userMmapLimit ∧
      registry.vmaOverlaps root alignedAddr hintEnd = false then alignedAddr
  else 0

/-- The target address of `linux_mmap_inner` and the registry after choosing
it; the inner `none` is `ENOMEM`. A fixed address in page 0 rounds down to 0,
which means that the kernel chooses. -/
def mmapTarget (registry : Registry) (root addr alignedLen : Nat) (mapFixed : Bool) :
    Option (Registry × Option Nat) :=
  if addr ≠ 0 ∧ mapFixed = true ∧ registry.vmaIsElf root (alignDown addr) = true then
    some (registry, none)
  else
    let target :=
      if addr = 0 then 0
      else if mapFixed then alignDown addr
      else mmapHint registry root addr alignedLen
    if target ≠ 0 then some (registry, some target)
    else registry.reserveMmapAddr root alignedLen

variable (arch : Arch)

def linuxMmap (root : Nat) (k : Kernel σ) (addr len prot flags : Nat) : Option (Kernel σ × Int) :=
  if len = 0 then some (k, errInval)
  else
    let alignedLen := wrappingAlignUp len
    let mapFixed := flags.testBit 4
    (mmapTarget k.registry root addr alignedLen mapFixed).map fun (registry, target) =>
      match target with
      | none => ({ k with registry }, errNomem)
      | some target =>
        let stop := wrappingAdd target alignedLen
        let (registry, added) := registry.vmaAdd root target stop prot mapFixed
        if added = false then ({ k with registry }, errNomem)
        else if prot ≠ 0 ∧ mapFixed = true then
          ({ k with registry, machine := unmapRange arch root k.machine target stop },
            asIsize target)
        else ({ k with registry }, asIsize target)

def linuxMprotect (root : Nat) (k : Kernel σ) (addr len prot : Nat) : Kernel σ × Int :=
  if addr = 0 ∨ len = 0 then (k, errInval)
  else
    let start := alignDown addr
    let stop := wrappingAlignUp (addr + len)
    ({ k with
        registry := k.registry.vmaUpdateProt root start stop prot
        machine := protectRange arch root (protToPteFlags arch prot) k.machine start stop }, 0)

def munmapRefused (addr len : Nat) : Prop :=
  addr = 0 ∨ len = 0 ∨ alignDown addr < Process.userHeapBase ∨
    Process.userMmapLimit < wrappingAlignUp (addr + len)
deriving Decidable

def linuxMunmap (arch : Arch) (root : Nat) (k : Kernel σ) (addr len : Nat) : Kernel σ × Int :=
  if munmapRefused addr len then (k, errInval)
  else
    let start := alignDown addr
    let stop := wrappingAlignUp (addr + len)
    ({ k with
        registry := k.registry.vmaRemoveRange root start stop
        machine := unmapRange arch root k.machine start stop }, 0)

inductive Advice where
  | decommit
  | populate
  | ignored

def adviceOf (advice : Nat) : Advice :=
  if advice = 4 ∨ advice = 8 then .decommit
  else if advice = 22 ∨ advice = 23 ∨ advice = 3 then .populate
  else .ignored

/-- The flags that populated pages get: those of the region at the start of the
range, or read-write without one. -/
def populateFlags (arch : Arch) (registry : Registry) (root start : Nat) : PTEFlags arch :=
  protToPteFlags arch ((registry.vmaCheck root start).getD (protRead ||| protWrite))

def linuxMadvise (root : Nat) (k : Kernel σ) (addr len advice : Nat) : Option (Kernel σ × Int) :=
  if len = 0 then some (k, 0)
  else
    let start := alignDown addr
    let stop := wrappingAlignUp (addr + len)
    match adviceOf advice with
    | .decommit => some ({ k with machine := unmapRange arch root k.machine start stop }, 0)
    | .populate =>
      ((pageRange start stop).foldlM
        (populatePage arch root (populateFlags arch k.registry root start)) k.machine).map
        fun machine => ({ k with machine }, 0)
    | .ignored => some (k, 0)

/-- The mapping loop of `sys_brk`; the flag is `false` if it ran out of frames. -/
def brkLoop (arch : Arch) (root : Nat) : List Nat → Machine σ → Option (Machine σ × Bool)
  | [], s => some (s, true)
  | vaddr :: rest, s =>
    if (translateUser arch s.mem root vaddr).isNone then
      (mapFresh arch s root vaddr (.urw arch)).bind fun next =>
        match next with
        | none => some (s, false)
        | some s => brkLoop arch root rest s
    else brkLoop arch root rest s

def sysBrk (arch : Arch) (root : Nat) (k : Kernel σ) (addr : Nat) : Option (Kernel σ × Int) :=
  if addr = 0 then some (k, asIsize k.brk)
  else if addr < Process.userHeapBase ∨ Process.userHeapLimit < addr then some (k, errInval)
  else if addr ≤ k.brk then some (k, asIsize k.brk)
  else
    (brkLoop arch root (pageRange (wrappingAlignUp k.brk) (wrappingAlignUp addr)) k.machine).map
      fun (machine, complete) =>
        if complete = false ∧ arch = .riscv64 then ({ k with machine }, errNomem)
        else ({ k with machine, brk := addr }, asIsize addr)

end KarteOs.Syscall

import KarteOs.Syscall.RangeSpec

/-! # Copies between the kernel and user memory

`user_read`, `user_write` and their variants move bytes for a pointer that the
process supplies. What matters here is which physical bytes they touch, so a
copy is modelled by the list of its accesses, in order; the copied values are
left out. The calling process has a page table, so the fallbacks for a missing
one are left out too.
-/

namespace KarteOs.Syscall

universe u

open Mm RadixTree FrameSource

/-- A byte that the kernel moves: the user's address and where it is in memory. -/
structure ByteAccess where
  vaddr : Nat
  paddr : Nat
deriving DecidableEq

def userTranslate (arch : Arch) (mem : Memory) (root addr : Nat) : Option Nat :=
  match walkMapping arch mem root addr with
  | .mapped4K frame _ => some frame
  | .mappedHuge frame _ _ _ => some frame
  | _ => none

def signExtended : Arch → Nat → Bool
  | .riscv64, vaddr => decide (vaddr < 2 ^ 38 ∨ 2 ^ 64 - 2 ^ 38 ≤ vaddr)
  | .x86_64, vaddr => isCanonical vaddr

/-- A leaf through which supervisor mode can load. On riscv64 user leaves count,
since the trap handler sets `SUM`. -/
def loadable : {arch : Arch} → PTEFlags arch → Bool
  | .riscv64, flags => flags.contains .r
  | .x86_64, _ => true

/-- A leaf through which supervisor mode can store. On x86_64 read-only leaves
count, since `CR0.WP` is never set. -/
def storable : {arch : Arch} → PTEFlags arch → Bool
  | .riscv64, flags => flags.contains .w
  | .x86_64, _ => true

def mmuLeaf (arch : Arch) (allowed : PTEFlags arch → Bool) (mem : Memory) (root vaddr : Nat) :
    Option (Nat × PTEFlags arch) :=
  if signExtended arch vaddr then
    (pages arch mem root (pageNumber arch vaddr)).filter fun leaf => allowed leaf.2
  else none

/-- A load or store of one byte at a user address, under the process's table. -/
def mmuAccess (arch : Arch) (allowed : PTEFlags arch → Bool) (mem : Memory) (root vaddr : Nat) :
    Option ByteAccess :=
  (mmuLeaf arch allowed mem root vaddr).map fun leaf => ⟨vaddr, leafAddr vaddr leaf⟩

/-- `user_read_u8`. An address that does not translate reads as 0 on x86_64 and
is dereferenced on riscv64. -/
def userReadU8 (arch : Arch) (mem : Memory) (root addr : Nat) : Option ByteAccess :=
  match userTranslate arch mem root addr with
  | some paddr => some ⟨addr, paddr⟩
  | none =>
    match arch with
    | .riscv64 => mmuAccess .riscv64 loadable mem root addr
    | .x86_64 => none

def eachByte (access : Nat → Option ByteAccess) (addr len : Nat) : List ByteAccess :=
  (List.range len).filterMap fun i => access (wrappingAdd addr i)

def userRead : (arch : Arch) → Memory → Nat → Nat → Nat → List ByteAccess
  | .riscv64, mem, root, addr, size => eachByte (mmuAccess .riscv64 loadable mem root) addr size
  | .x86_64, mem, root, addr, size => eachByte (userReadU8 .x86_64 mem root) addr size

variable {σ : Type u} [FrameSource σ (2 ^ 40)]

/-- The flags that `ensure_user_write_pages` gives a page, if it is writable. -/
def writeFlags (registry : Registry) (root page : Nat) : Option (PTEFlags .x86_64) :=
  match registry.vmaQuery root page with
  | some prot => if prot &&& protWrite = 0 then none else some (protToPteFlags .x86_64 prot)
  | none =>
    if Process.userHeapBase ≤ page ∧ page < Process.userHeapLimit then some (.urw .x86_64)
    else if Process.userStackBase ≤ page ∧ page < Process.userStackTop then some (.urw .x86_64)
    else none

/-- Map one page for writing. A page that is mapped already keeps its frame,
unless it is taken for an identity mapping. -/
def ensureUserWritePage (root : Nat) (s : Machine σ) (page : Nat) (flags : PTEFlags .x86_64) :
    Option (Option (Machine σ)) :=
  match translateUser .x86_64 s.mem root page with
  | some frame =>
    if frame ≠ page then (map .x86_64 s root page frame flags).map some
    else mapFresh .x86_64 s root page flags
  | none => mapFresh .x86_64 s root page flags

def ensureUserWriteLoop (registry : Registry) (root : Nat) :
    List Nat → Machine σ → Option (Machine σ × Bool)
  | [], s => some (s, true)
  | page :: rest, s =>
    match writeFlags registry root page with
    | none => some (s, false)
    | some flags =>
      (ensureUserWritePage root s page flags).bind fun next =>
        match next with
        | none => some (s, false)
        | some s => ensureUserWriteLoop registry root rest s

/-- The pages that `ensure_user_write_pages` visits for a buffer whose last byte
is at `last`. For a buffer that ends in the last page of the address space the
end of the range wraps to 0 and there are none. -/
def writePages (addr last : Nat) : List Nat :=
  pageRange (alignDown addr) (wrappingAdd (alignDown last) pageSize)

def ensureUserWritePages (registry : Registry) (root : Nat) (s : Machine σ) (addr len : Nat) :
    Option (Machine σ × Bool) :=
  if len = 0 then some (s, true)
  else
    match checkedAdd addr (len - 1) with
    | none => some (s, false)
    | some last => ensureUserWriteLoop registry root (writePages addr last) s

def writeMapped (registry : Registry) (root : Nat) (s : Machine σ) (addr len : Nat) :
    Option (Machine σ × List ByteAccess) :=
  (ensureUserWritePages registry root s addr len).map fun (s, writable) =>
    (s, if writable then eachByte (mmuAccess .x86_64 storable s.mem root) addr len else [])

variable (arch : Arch)

def userWrite (registry : Registry) (root : Nat) (s : Machine σ) (addr size : Nat) :
    Option (Machine σ × List ByteAccess) :=
  match arch with
  | .riscv64 => some (s, eachByte (mmuAccess .riscv64 storable s.mem root) addr size)
  | .x86_64 => writeMapped registry root s addr size

def userWriteU8 (registry : Registry) (root : Nat) (s : Machine σ) (addr : Nat) :
    Option (Machine σ × List ByteAccess) :=
  userWrite arch registry root s addr 1

/-- `user_write_bytes`; on riscv64 each byte goes where `user_translate` says. -/
def userWriteBytes (registry : Registry) (root : Nat) (s : Machine σ)
    (addr len : Nat) : Option (Machine σ × List ByteAccess) :=
  match arch with
  | .riscv64 =>
    some (s, eachByte (fun vaddr =>
      match userTranslate .riscv64 s.mem root vaddr with
      | some paddr => some ⟨vaddr, paddr⟩
      | none => mmuAccess .riscv64 storable s.mem root vaddr) addr len)
  | .x86_64 => writeMapped registry root s addr len

end KarteOs.Syscall

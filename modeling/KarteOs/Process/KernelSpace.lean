import KarteOs.Mm.Vmm

/-! # Kernel mappings of a process

Every process table maps the kernel next to the user pages: on riscv64 the RAM
and the devices, page by page; on x86_64 a copy of the kernel's 2 MiB identity
map, the VGA buffer, the kernel stack of the process and a transition page.
-/

namespace KarteOs.Process

universe u

open Mm

def kernelStackPages : Nat := 8

def kernelStackVirtBase : Nat := 0xffff800000000000

def cetTransitionStackPage : Nat := 0xfffffffffffff000

def pagesFrom (base count : Nat) : List Nat := (List.range count).map (base + · * pageSize)

def kernelStackPhysBase (arch : Arch) (top : Nat) : Nat :=
  match arch with
  | .riscv64 => top - kernelStackPages * pageSize
  | .x86_64 => top - kernelStackVirtBase - kernelStackPages * pageSize

variable {σ : Type u}

section
variable [FrameSource σ (2 ^ 40)]

def mapPages (arch : Arch) (root : Nat) (flags : PTEFlags arch) (mappings : List (Nat × Nat))
    (s : Machine σ) : Option (Machine σ) :=
  mappings.foldlM (fun s m => map arch s root m.1 m.2 flags) s

def identity (vaddrs : List Nat) : List (Nat × Nat) := vaddrs.map fun vaddr => (vaddr, vaddr)

def mapKernelStackPages (arch : Arch) (root top : Nat) (s : Machine σ) : Option (Machine σ) :=
  let virtBase := top - kernelStackPages * pageSize
  let physBase := kernelStackPhysBase arch top
  mapPages arch root (.krw arch)
    ((List.range kernelStackPages).map fun i =>
      (virtBase + i * pageSize, physBase + i * pageSize)) s

/-! ## `copy_kernel_mappings` -/

/-- The entry of a page directory as the process gets it: leaves lose the user
bit, references to tables get it. -/
def copiedPdEntry (entry : PTE) : PTE :=
  if !entry.isValid .x86_64 then 0
  else if entry.isHuge .x86_64 then entry &&& ~~~ PTEFlags.user.bits
  else entry ||| PTEFlags.user.bits

def copyKernelPd (kernelPdp userPdp : Nat) (s : Machine σ) (i : Nat) : Option (Machine σ) :=
  let kpe := s.mem kernelPdp i
  if !kpe.isValid .x86_64 || kpe.isHuge .x86_64 then some s
  else if (s.mem userPdp i).isValid .x86_64 then some s
  else
    s.zeroed.map fun (newPd, s) =>
      let s := s.setFrame newPd fun j => copiedPdEntry (s.mem (kpe.ppn .x86_64) j)
      s.setEntry userPdp i (.newNonleaf .x86_64 newPd)

def copyKernelIdentity (kernelRoot root : Nat) (s : Machine σ) : Option (Machine σ) :=
  let ke := s.mem kernelRoot 0
  if ke.isValid .x86_64 then
    (s.ensureTable .x86_64 root 0).bind fun s =>
      (List.range pteCount).foldlM
        (copyKernelPd (ke.ppn .x86_64) ((s.mem root 0).ppn .x86_64)) s
  else some s

def mapTransitionPage (root : Nat) (s : Machine σ) : Option (Machine σ) :=
  if (translateUser .x86_64 s.mem root cetTransitionStackPage).isNone then
    s.allocFrame.bind fun (frame, s) =>
      map .x86_64 s root cetTransitionStackPage frame (.krw .x86_64)
  else some s

/-- The pages that a riscv64 process maps to themselves: RAM, and the UART,
VirtIO and PLIC registers. -/
def riscvRamPages : List Nat := pagesFrom 0x80200000 (128 * 1024 * 1024 / pageSize)

def riscvDevicePages : List Nat :=
  0x10000000 :: (pagesFrom 0x10001000 8 ++ pagesFrom 0x0C000000 1024)

def copyKernelMappings (kernelRoot root top : Nat) : (arch : Arch) → Machine σ → Option (Machine σ)
  | .riscv64, s =>
    (mapPages .riscv64 root (.krwx .riscv64) (identity riscvRamPages) s).bind
      (mapPages .riscv64 root (.krw .riscv64) (identity riscvDevicePages))
  | .x86_64, s =>
    (copyKernelIdentity kernelRoot root s).bind fun s =>
      (mapPages .x86_64 root (.krw .x86_64) (identity [0xB8000, 0xB9000]) s).bind fun s =>
        (mapKernelStackPages .x86_64 root top s).bind (mapTransitionPage root)

end

/-! ## Kernel stacks -/

variable [ContiguousSource σ (2 ^ 40)]

/-- `alloc_kernel_stack`: the top of the new stack. On x86_64 the stack is
mapped in the kernel's table. No frames is the inner `none`, a panic in `map`
the outer one. -/
def allocKernelStack (arch : Arch) (kernelRoot : Nat) (s : Machine σ) :
    Option (Option (Nat × Machine σ)) :=
  match ContiguousSource.allocRun s.frames kernelStackPages with
  | none => some none
  | some (first, frames) =>
    let physBase := first * pageSize
    match arch with
    | .riscv64 => some (some (physBase + kernelStackPages * pageSize, { s with frames }))
    | .x86_64 =>
      let top := kernelStackVirtBase + physBase + kernelStackPages * pageSize
      (mapKernelStackPages .x86_64 kernelRoot top { s with frames }).map fun s => some (top, s)

def deallocKernelStack (arch : Arch) (top : Nat) (frames : σ) : σ :=
  (pagesFrom (kernelStackPhysBase arch top) kernelStackPages).foldl
    (fun frames frame => FrameSource.dealloc frames (frame / pageSize)) frames

end KarteOs.Process

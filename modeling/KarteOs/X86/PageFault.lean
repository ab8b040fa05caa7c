import KarteOs.Syscall.Memory

/-! # The x86_64 page fault handler

`page_fault_handler_raw` decides whether a fault can be repaired and the
faulting instruction run again. Faults on present pages are repaired from the
protection of the VMA or, in the heap and stack regions, regardless of it;
faults on absent pages are repaired by mapping a page, with the VMA first and
then the heap, stack and ELF regions.
-/

namespace KarteOs.X86

universe u

open Mm Syscall

/-- What the handler is told: `CR2`, the error code, whether the fault came from
user mode, and whether the table in use was a user table. -/
structure Fault where
  cr2 : Nat
  errorCode : Nat
  fromUser : Bool
  userCr3 : Bool

namespace Fault

variable (f : Fault)

def addr : Nat := if isCanonical f.cr2 then f.cr2 else 0

def pageAddr : Nat := alignDown f.addr

def isPresent : Bool := f.errorCode.testBit 0

def isWrite : Bool := f.errorCode.testBit 1

def isExec : Bool := f.errorCode.testBit 4

def canLazyAlloc : Bool := f.fromUser || f.userCr3

def inHeap : Bool :=
  decide (Process.userHeapBase ≤ f.addr) && decide (f.addr < Process.userHeapLimit)

def inStack : Bool :=
  decide (Process.userStackBase ≤ f.addr) && decide (f.addr < Process.userStackTop)

def inElfRegion : Bool :=
  decide (0x400000 ≤ f.addr) && decide (f.addr < Process.userHeapBase)

def allowedBy (prot : Nat) : Bool :=
  decide (prot ≠ 0) &&
    if f.isExec then decide (prot &&& 4 ≠ 0)
    else if f.isWrite then decide (prot &&& 2 ≠ 0)
    else decide (prot &&& 3 ≠ 0)

end Fault

variable {σ : Type u} [FrameSource σ (2 ^ 40)] (root : Nat) (k : Kernel σ)

/-- Replace the frame of a page by a fresh one, or report the fault unhandled if
there is none. -/
def replaceFrame (page : Nat) (flags : PTEFlags .x86_64) : Option (Kernel σ × Bool) :=
  (mapFresh .x86_64 k.machine root page flags).map fun next =>
    match next with
    | none => (k, false)
    | some machine => ({ k with machine }, true)

def remapFrame (page frame : Nat) (flags : PTEFlags .x86_64) : Option (Kernel σ × Bool) :=
  (map .x86_64 k.machine root page frame flags).map fun machine => ({ k with machine }, true)

/-- Give a page the flags that its VMA or region asks for. An unmapped page gets
a frame only if `absent` is set; an identity mapping that `copy_kernel_mappings`
left is replaced, except in the ELF image. -/
def repairPage (f : Fault) (flags : PTEFlags .x86_64) (absent : Bool) : Option (Kernel σ × Bool) :=
  match translateUser .x86_64 k.machine.mem root f.pageAddr with
  | none => if absent then replaceFrame root k f.pageAddr flags else some (k, false)
  | some frame =>
    if frame = f.pageAddr then
      if k.registry.vmaIsElf root f.addr then some (k, false)
      else replaceFrame root k f.pageAddr flags
    else remapFrame root k f.pageAddr frame flags

variable (f : Fault)

def repairFlags : PTEFlags .x86_64 :=
  ((k.registry.vmaQuery root f.addr).map (protToPteFlags .x86_64)).getD (.urw .x86_64)

/-- The handler looks at a fault on a present page: it comes from user mode and
the VMA allows the access or the page is in the heap or stack region. -/
def entitled : Bool :=
  f.fromUser && ((k.registry.vmaQuery root f.addr).any f.allowedBy || f.inHeap || f.inStack)

def protectionFault : Option (Kernel σ × Bool) :=
  if entitled root k f then repairPage root k f (repairFlags root k f) false else some (k, false)

def vmaFault (prot : Nat) : Option (Kernel σ × Bool) :=
  repairPage root k f (protToPteFlags .x86_64 prot) true

/-- Lazy allocation in the heap region. The fault counts as handled also where
no frame was left; `brk` follows the mapped pages. -/
def heapFault : Option (Kernel σ × Bool) :=
  if needsFrame .x86_64 k.machine root f.pageAddr then
    (mapFresh .x86_64 k.machine root f.pageAddr (.urw .x86_64)).map fun next =>
      match next with
      | none => (k, true)
      | some machine => ({ k with machine, brk := max k.brk (f.pageAddr + pageSize) }, true)
  else some (k, true)

/-- Lazy allocation in the stack and ELF regions; it counts as handled in any case. -/
def regionFault : Option (Kernel σ × Bool) :=
  if (translateUser .x86_64 k.machine.mem root f.pageAddr).isNone then
    (mapFresh .x86_64 k.machine root f.pageAddr (.urw .x86_64)).map fun next =>
      match next with
      | none => (k, true)
      | some machine => ({ k with machine }, true)
  else some (k, true)

/-- `page_fault_handler_raw`: the kernel afterwards and whether the fault was
handled. `none` is a panic in `map`. -/
def pageFaultHandler : Option (Kernel σ × Bool) :=
  if f.isPresent then protectionFault root k f
  else if !f.canLazyAlloc then some (k, false)
  else
    match k.registry.vmaQuery root f.addr with
    | some prot => if prot ≠ 0 then vmaFault root k f prot else some (k, false)
    | none =>
      if f.inHeap then heapFault root k f
      else if f.inStack || f.inElfRegion then regionFault root k f
      else some (k, false)

/-! ## The handler leaves the VMAs alone -/

variable {root page : Nat} {k k' : Kernel σ} {f : Fault} {flags : PTEFlags .x86_64}
  {handled : Bool}

/-- Unless it panics, the handler has left the registry as it was. -/
def KeepsRegistry (k : Kernel σ) (result : Option (Kernel σ × Bool)) : Prop :=
  result.elim True (·.1.registry = k.registry)

omit [FrameSource σ (2 ^ 40)] in
lemma keepsRegistry_map {α : Type u} {g : α → Kernel σ × Bool}
    (hg : ∀ a, (g a).1.registry = k.registry) (found : Option α) :
    KeepsRegistry k (found.map g) := by
  cases found with
  | none => trivial
  | some a => exact hg a

lemma replaceFrame_registry : KeepsRegistry k (replaceFrame root k page flags) :=
  keepsRegistry_map (by rintro (_ | machine) <;> rfl) _

lemma repairPage_registry {absent : Bool} : KeepsRegistry k (repairPage root k f flags absent) := by
  rw [repairPage]
  split
  · split
    · exact replaceFrame_registry
    · exact rfl
  · split
    · split
      · exact rfl
      · exact replaceFrame_registry
    · exact keepsRegistry_map (by intro; rfl) _

lemma heapFault_registry : KeepsRegistry k (heapFault root k f) := by
  rw [heapFault]
  split
  · exact keepsRegistry_map (by rintro (_ | machine) <;> rfl) _
  · exact rfl

lemma regionFault_registry : KeepsRegistry k (regionFault root k f) := by
  rw [regionFault]
  split
  · exact keepsRegistry_map (by rintro (_ | machine) <;> rfl) _
  · exact rfl

lemma pageFaultHandler_registry (hrun : pageFaultHandler root k f = some (k', handled)) :
    k'.registry = k.registry := by
  have hkeeps : KeepsRegistry k (pageFaultHandler root k f) := by
    rw [pageFaultHandler]
    split
    · rw [protectionFault]
      split
      · exact repairPage_registry
      · exact rfl
    · split
      · exact rfl
      · split
        · split
          · exact repairPage_registry
          · exact rfl
        · split
          · exact heapFault_registry
          · split
            · exact regionFault_registry
            · exact rfl
  rwa [hrun] at hkeeps

end KarteOs.X86

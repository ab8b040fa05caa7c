import KarteOs.Syscall.Memory

/-! # The riscv64 page fault handler

The trap handler repairs faults of user code in the heap region only. There it
always runs the instruction again, also when no frame was left for the page.
-/

namespace KarteOs.Riscv

universe u

open Mm Syscall Option

/-- What the handler is told: `stval` and whether the trap came from user mode. -/
structure Fault where
  addr : Nat
  fromUser : Bool

namespace Fault

def pageAddr (f : Fault) : Nat := alignDown f.addr

def inHeap (f : Fault) : Bool :=
  decide (Process.userHeapBase ≤ f.addr) && decide (f.addr < Process.userHeapLimit)

end Fault

/-- How the trap returns: the instruction runs again, the process is killed, or
the instruction is skipped. -/
inductive Resumption where
  | retry
  | kill
  | skip
deriving DecidableEq

variable {σ : Type u} [FrameSource σ (2 ^ 40)] {root : Nat} {f : Fault}

def heapFault (root : Nat) (k : Kernel σ) (f : Fault) : Option (Kernel σ) :=
  if (translateUser .riscv64 k.machine.mem root f.pageAddr).isNone then
    (mapFresh .riscv64 k.machine root f.pageAddr (.urw .riscv64)).map fun next =>
      match next with
      | none => k
      | some machine => { k with machine, brk := max k.brk (f.pageAddr + pageSize) }
  else some k

/-- The page fault branch of `trap_handler`. `none` is a panic in `map`. -/
def pageFaultHandler (root : Nat) (k : Kernel σ) (f : Fault) : Option (Kernel σ × Resumption) :=
  if f.fromUser && f.inHeap then (heapFault root k f).map (·, .retry)
  else some (k, if f.fromUser then .kill else .skip)

lemma heapFault_registry {k k' : Kernel σ} (hrun : heapFault root k f = some k') :
    k'.registry = k.registry := by
  rw [heapFault] at hrun
  split at hrun
  · obtain ⟨next, -, rfl⟩ := map_eq_some_iff.mp hrun
    cases next <;> rfl
  · rw [some.inj hrun]

lemma pageFaultHandler_registry {k k' : Kernel σ} {resumption : Resumption}
    (hrun : pageFaultHandler root k f = some (k', resumption)) : k'.registry = k.registry := by
  rw [pageFaultHandler] at hrun
  split at hrun
  · obtain ⟨next, hheap, heq⟩ := map_eq_some_iff.mp hrun
    rw [← (Prod.mk.inj heq).1]
    exact heapFault_registry hheap
  · rw [(Prod.mk.inj (some.inj hrun)).1]

end KarteOs.Riscv

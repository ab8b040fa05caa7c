import KarteOs.Process.LoadSpec
import KarteOs.Riscv.PageFault
import KarteOs.Syscall.KernelMappings
import KarteOs.Syscall.MmapSpec
import KarteOs.X86.PageFault

/-! # The life of a process

A process is loaded, makes memory calls and faults, and is reclaimed when its
exit status has been collected.
-/

namespace KarteOs.Process

universe u

open Mm Syscall Transition Option Prod

variable {σ : Type u} {registry : Registry} {root : Nat}

def FaultOf : Arch → Type
  | .x86_64 => X86.Fault
  | .riscv64 => Riscv.Fault

inductive MemoryEvent (arch : Arch) where
  | call (call : MemoryCall)
  | brk (addr : Nat)
  | fault (f : FaultOf arch)

section
variable [FrameSource σ (2 ^ 40)]

/-- The page fault handler of the architecture, for its effect on the kernel. -/
def handleFault : (arch : Arch) → (root : Nat) → Kernel σ → FaultOf arch → Option (Kernel σ)
  | .x86_64, root, k, f => (X86.pageFaultHandler root k f).map (·.1)
  | .riscv64, root, k, f => (Riscv.pageFaultHandler root k f).map (·.1)

namespace MemoryEvent

def apply {arch : Arch} (root : Nat) (k : Kernel σ) : MemoryEvent arch → Option (Kernel σ)
  | call c => (c.apply arch root k).map (·.1)
  | brk addr => (sysBrk arch root k addr).map (·.1)
  | fault f => handleFault arch root k f

def Step (arch : Arch) (root : Nat) (k : Kernel σ) (event : MemoryEvent arch) (k' : Kernel σ) :
    Prop :=
  event.apply root k = some k'

end MemoryEvent

end

inductive Loads [ContiguousSource σ (2 ^ 40)] (arch : Arch) (kernelRoot : Nat) (image : Image)
    (k k' : Kernel σ) (process : Process) : Prop
  | whole : fromElf arch kernelRoot image k = some (k', .ok process) →
      Loads arch kernelRoot image k k' process
  | streaming : fromElfStreaming arch kernelRoot image k = some (k', .ok process) →
      Loads arch kernelRoot image k k' process

/-! ## The registry over a life -/

lemma aligned_registerElfVmas (segments : List Segment) (haligned : registry.Aligned root) :
    (segments.foldl (fun registry seg =>
      registry.registerElfVma root seg.pageStart seg.pageEnd seg.prot) registry).Aligned root := by
  induction segments generalizing registry with
  | nil => exact haligned
  | cons seg segments ih =>
    exact ih (haligned.vmaAdd (alignDown_mod _) (wrappingAlignUp_mod _) (wrappingAlignUp_lt _)
      seg.prot false)

lemma aligned_registerSegments (hroot : root ≠ 0) (image : Image) :
    (registerSegments registry root image).Aligned root := by
  have hinit : ((registry.initRoot root).getD registry).Aligned root :=
    Registry.aligned_initRoot hroot
  rw [registerSegments]
  split
  · exact (aligned_registerElfVmas image.segments hinit).ensureMmapAbove _
  · exact aligned_registerElfVmas image.segments hinit

variable {arch : Arch} {k k' : Kernel σ}

lemma Machine.zeroed_root [FrameSource σ (2 ^ 40)] {s s' : Machine σ}
    (hrun : s.zeroed = some (root, s')) : root ≠ 0 := by
  obtain ⟨⟨frame, frames⟩, halloc, heq⟩ := map_eq_some_iff.mp hrun
  cases heq
  exact (FrameSource.alloc_pos halloc).ne'

lemma Loads.aligned [ContiguousSource σ (2 ^ 40)] {kernelRoot : Nat} {image : Image}
    {process : Process} (hload : Loads arch kernelRoot image k k' process) :
    k'.registry.Aligned process.pageTableRoot := by
  cases hload with
  | whole hrun =>
    obtain ⟨_, _, _, _, hparts⟩ := fromElf_ok hrun
    rw [hparts.registry]
    exact Registry.aligned_initRoot (Machine.zeroed_root hparts.table)
  | streaming hrun =>
    obtain ⟨_, _, _, _, hparts⟩ := fromElfStreaming_ok hrun
    rw [hparts.registry]
    exact aligned_registerSegments (Machine.zeroed_root hparts.table) image

variable [FrameSource σ (2 ^ 40)] {result : Int}

lemma handleFault_registry {f : FaultOf arch} (hrun : handleFault arch root k f = some k') :
    k'.registry = k.registry := by
  cases arch with
  | x86_64 =>
    obtain ⟨⟨next, handled⟩, hfault, rfl⟩ := map_eq_some_iff.mp hrun
    exact X86.pageFaultHandler_registry hfault
  | riscv64 =>
    obtain ⟨⟨next, resumption⟩, hfault, rfl⟩ := map_eq_some_iff.mp hrun
    exact Riscv.pageFaultHandler_registry hfault

lemma sysBrk_registry {addr : Nat} (hrun : sysBrk arch root k addr = some (k', result)) :
    k'.registry = k.registry := by
  rw [sysBrk] at hrun
  split_ifs at hrun
  · exact congrArg Kernel.registry (Prod.mk.inj (some.inj hrun)).1.symm
  · exact congrArg Kernel.registry (Prod.mk.inj (some.inj hrun)).1.symm
  · exact congrArg Kernel.registry (Prod.mk.inj (some.inj hrun)).1.symm
  · obtain ⟨⟨machine, complete⟩, -, heq⟩ := map_eq_some_iff.mp hrun
    dsimp only at heq
    split at heq
    · rw [← (Prod.mk.inj heq).1]
    · rw [← (Prod.mk.inj heq).1]

variable (haligned : k.registry.Aligned root)
include haligned

lemma MemoryCall.apply_aligned {call : MemoryCall}
    (hrun : call.apply arch root k = some (k', result)) : k'.registry.Aligned root := by
  cases call with
  | mmap addr len prot flags =>
    cases linuxMmap_effect hrun with
    | invalid => exact haligned
    | noTarget htarget => exact (mmapTarget_aligned htarget haligned).1
    | noRegion htarget | mapped _ htarget => exact mmapTarget_vmaAdd_aligned htarget haligned
  | mprotect addr len prot =>
    obtain rfl := congrArg fst (some.inj hrun)
    dsimp [linuxMprotect]
    split
    exacts [haligned, haligned.vmaUpdateProt _ _ _]
  | munmap addr len =>
    obtain rfl := congrArg fst (some.inj hrun)
    dsimp [linuxMunmap]
    split
    exacts [haligned, haligned.vmaRemoveRange (alignDown_mod _) (wrappingAlignUp_mod _)]
  | madvise addr len advice =>
    rw [MemoryCall.apply, linuxMadvise] at hrun
    split at hrun
    · rwa [← (Prod.mk.inj (some.inj hrun)).1]
    · dsimp only at hrun
      split at hrun
      · rwa [← (Prod.mk.inj (some.inj hrun)).1]
      · obtain ⟨machine, -, heq⟩ := map_eq_some_iff.mp hrun
        rwa [← (Prod.mk.inj heq).1]
      · rwa [← (Prod.mk.inj (some.inj hrun)).1]

lemma MemoryEvent.apply_aligned {event : MemoryEvent arch}
    (hrun : event.apply root k = some k') : k'.registry.Aligned root := by
  cases event with
  | call c =>
    obtain ⟨⟨next, result⟩, hcall, rfl⟩ := map_eq_some_iff.mp hrun
    exact MemoryCall.apply_aligned haligned hcall
  | brk addr =>
    obtain ⟨⟨next, result⟩, hbrk, rfl⟩ := map_eq_some_iff.mp hrun
    rwa [sysBrk_registry hbrk]
  | fault f => rwa [handleFault_registry hrun]

lemma MemoryEvent.run_aligned {events : List (MemoryEvent arch)}
    (hrun : Run (MemoryEvent.Step arch root) k events k') : k'.registry.Aligned root :=
  hrun.invariant (fun _ _ _ hgood hstep => MemoryEvent.apply_aligned hgood hstep) haligned

end KarteOs.Process

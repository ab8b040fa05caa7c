import KarteOs.Mm.VmaSpec
import KarteOs.Process.Loader

/-! # The steps of a successful load

What each part of `from_elf` and `from_elf_streaming` returned when a process
came out of it.
-/

namespace KarteOs.Process

universe u

open Mm Syscall Option

variable {σ : Type u} {outcome : Outcome σ}

lemma Outcome.andThen_ok {rest : Machine σ → Outcome σ} {s' : Machine σ}
    (hrun : outcome.andThen rest = some (s', none)) :
    ∃ s, outcome = some (s, none) ∧ rest s = some (s', none) := by
  obtain ⟨⟨s, err⟩, houtcome, hrest⟩ := bind_eq_some_iff.mp hrun
  cases err with
  | none => exact ⟨s, houtcome, hrest⟩
  | some err => cases hrest

lemma Outcome.each_invariant {α : Type} {step : α → Machine σ → Outcome σ}
    {good : Machine σ → Prop} {items : List α}
    (hstep : ∀ item ∈ items, ∀ s s', good s → step item s = some (s', none) → good s')
    {s s' : Machine σ} (hs : good s) (hrun : Outcome.each step items s = some (s', none)) :
    good s' := by
  induction items generalizing s with
  | nil =>
    cases hrun
    exact hs
  | cons item rest ih =>
    obtain ⟨middle, hfirst, hrest⟩ := Outcome.andThen_ok hrun
    exact ih (fun item' hmem => hstep item' (.tail _ hmem))
      (hstep item (.head _) s middle hs hfirst) hrest

lemma Outcome.finish_ok {k k' : Kernel σ} {loaded : Registry} {brk : Nat}
    {process process' : Process}
    (hrun : outcome.finish k loaded brk process = some (k', .ok process')) :
    ∃ machine, outcome = some (machine, none) ∧ k' = ⟨machine, loaded, brk⟩ ∧
      process' = process := by
  obtain ⟨⟨machine, err⟩, houtcome, heq⟩ := map_eq_some_iff.mp hrun
  cases err with
  | none =>
    obtain ⟨rfl, hprocess⟩ := Prod.mk.inj heq
    exact ⟨machine, houtcome, rfl, (Except.ok.inj hprocess).symm⟩
  | some err => cases (Prod.mk.inj heq).2

variable [ContiguousSource σ (2 ^ 40)] {arch : Arch} {kernelRoot : Nat} {image : Image}
  {k k' : Kernel σ} {process : Process}

structure LoadedWhole (arch : Arch) (kernelRoot : Nat) (image : Image) (k k' : Kernel σ)
    (process : Process) (s₁ s₂ s₃ s₄ : Machine σ) : Prop where
  table : k.machine.zeroed = some (process.pageTableRoot, s₁)
  stack : allocKernelStack arch kernelRoot (takeGuard s₁) = some (some (process.kernelStackTop, s₂))
  kernel : copyKernelMappings kernelRoot process.pageTableRoot process.kernelStackTop arch s₂ =
    some s₃
  segments : Outcome.each (loadSegment arch process.pageTableRoot image.copyWhole)
    image.segments s₃ = some (s₄, none)
  userStack : mapUserStack arch process.pageTableRoot s₄ = some (k'.machine, none)
  registry : k'.registry = (k.registry.initRoot process.pageTableRoot).getD k.registry
  brk : k'.brk = initialBrk image

lemma fromElf_ok (hrun : fromElf arch kernelRoot image k = some (k', .ok process)) :
    ∃ s₁ s₂ s₃ s₄, LoadedWhole arch kernelRoot image k k' process s₁ s₂ s₃ s₄ := by
  obtain ⟨⟨root, s₁⟩, htable, hrun⟩ := bind_eq_some_iff.mp hrun
  obtain ⟨stack, hstack, hrun⟩ := bind_eq_some_iff.mp hrun
  cases stack with
  | none => cases hrun
  | some stack =>
    obtain ⟨top, s₂⟩ := stack
    obtain ⟨s₃, hkernel, hrun⟩ := bind_eq_some_iff.mp hrun
    obtain ⟨machine, hload, rfl, rfl⟩ := Outcome.finish_ok hrun
    obtain ⟨s₄, hsegments, huserStack⟩ := Outcome.andThen_ok hload
    exact ⟨s₁, s₂, s₃, s₄, htable, hstack, hkernel, hsegments, huserStack, rfl, rfl⟩

/-- The machines between the steps of `from_elf_streaming`. -/
structure LoadedStreaming (arch : Arch) (kernelRoot : Nat) (image : Image) (k k' : Kernel σ)
    (process : Process) (s₁ s₂ s₃ s₄ : Machine σ) : Prop where
  stack : allocKernelStack arch kernelRoot k.machine = some (some (process.kernelStackTop, s₁))
  table : (takeGuard s₁).zeroed = some (process.pageTableRoot, s₂)
  kernel : copyKernelMappings kernelRoot process.pageTableRoot process.kernelStackTop arch
    (takeGuard s₂) = some s₃
  segments : streamSegments arch process.pageTableRoot image s₃ = some (s₄, none)
  stackPages : streamStacks arch process.pageTableRoot process.kernelStackTop s₄ =
    some (k'.machine, none)
  registry : k'.registry = registerSegments k.registry process.pageTableRoot image
  brk : k'.brk = initialBrk image

lemma fromElfStreaming_ok
    (hrun : fromElfStreaming arch kernelRoot image k = some (k', .ok process)) :
    ∃ s₁ s₂ s₃ s₄, LoadedStreaming arch kernelRoot image k k' process s₁ s₂ s₃ s₄ := by
  obtain ⟨stack, hstack, hrun⟩ := bind_eq_some_iff.mp hrun
  cases stack with
  | none => cases hrun
  | some stack =>
    obtain ⟨top, s₁⟩ := stack
    obtain ⟨⟨root, s₂⟩, htable, hrun⟩ := bind_eq_some_iff.mp hrun
    obtain ⟨s₃, hkernel, hrun⟩ := bind_eq_some_iff.mp hrun
    obtain ⟨⟨s₄, err⟩, hsegments, hrun⟩ := bind_eq_some_iff.mp hrun
    cases err with
    | some err => cases hrun
    | none =>
      obtain ⟨machine, hstacks, rfl, rfl⟩ := Outcome.finish_ok hrun
      exact ⟨s₁, s₂, s₃, s₄, hstack, htable, hkernel, hsegments, hstacks, rfl, rfl⟩

end KarteOs.Process

import KarteOs.Riscv.Progress
import KarteOs.Sched.Scheduler
import KarteOs.Syscall.PipeRefs

/-! # Forking

`sys_fork` takes frames for the root table, the kernel stack, the kernel
mappings and a copy of every user page. No exit gives one of them back, so a
fork that fails leaves the allocator as it was only if it took nothing.
-/

namespace KarteOs.Syscall

open Mm Sched FrameSource ContiguousSource Option Prod

universe u v

/-- The machine after a copy, with the error that ended it; `none` is a panic. -/
abbrev Copied (σ : Type u) := Option (Machine σ × Option Int)

section
variable {σ : Type u} [FrameSource σ (2 ^ 40)]

/-- A loop over table entries, up to the first error. -/
def eachEntry (step : Nat → Machine σ → Copied σ) : List Nat → Machine σ → Copied σ
  | [], s => some (s, none)
  | i :: rest, s =>
    (step i s).bind fun (s, err) =>
      match err with
      | none => eachEntry step rest s
      | some err => some (s, some err)

def copyFrame (arch : Arch) (dst i : Nat) (pte : PTE) (s : Machine σ) : Copied σ :=
  match s.allocFrame with
  | none => some (s, some errNomem)
  | some (frame, s) =>
    some ((s.setFrame (frame / pageSize) (s.mem (pte.ppn arch))).setEntry dst i
      (.new arch (frame / pageSize) (pte.flags arch)), none)

/-- The table for entry `i` of the copy on x86_64: the one that is there, or a new one. -/
def copyTable (dst i : Nat) (s : Machine σ) : Option (Nat × Machine σ) :=
  let existing := s.mem dst i
  if existing.isValid .x86_64 && !existing.isHuge .x86_64 then some (existing.ppn .x86_64, s)
  else s.zeroed.map fun (ppn, s) => (ppn, s.setEntry dst i (.newNonleaf .x86_64 ppn))

/-- The body of `copy_user_pages_x86`; `below` copies the tables one level down. -/
def copyEntryX86 (level dst src : Nat) (below : Nat → Nat → Machine σ → Copied σ) (i : Nat)
    (s : Machine σ) : Copied σ :=
  let pte := s.mem src i
  if !pte.isValid .x86_64 then some (s, none)
  else if level = 0 ∨ pte.isHuge .x86_64 then
    if !(pte.flags .x86_64).isUser then some (s, none)
    else if level ≠ 0 then some (s, some errInval)
    else copyFrame .x86_64 dst i pte s
  else (copyTable dst i s).bind fun (child, s) => below child (pte.ppn .x86_64) s

/-- Whether a page was copied, which the caller does not look at, is left out. -/
def copyUserPagesX86 : Nat → Nat → Nat → Machine σ → Copied σ
  | 0, dst, src =>
    eachEntry (copyEntryX86 0 dst src fun _ _ s => some (s, none)) (List.range pteCount)
  | level + 1, dst, src =>
    eachEntry (copyEntryX86 (level + 1) dst src (copyUserPagesX86 level)) (List.range pteCount)

def isRamFrame (addr : Nat) : Bool :=
  decide (0x80200000 ≤ addr) && decide (addr < 0x80200000 + 128 * 1024 * 1024)

/-- The body of `deep_copy_user_pt`. -/
def deepCopyEntry (level dst src : Nat) (below : Nat → Nat → Machine σ → Copied σ) (i : Nat)
    (s : Machine σ) : Copied σ :=
  let pte := s.mem src i
  if !pte.isValid .riscv64 then some (s, none)
  else if Riscv.isLeaf pte then
    if !(pte.flags .riscv64).isUser || !isRamFrame (pte.ppn .riscv64 * pageSize) then
      some (s.setEntry dst i pte, none)
    else copyFrame .riscv64 dst i pte s
  else if level = 0 then some (s, none)
  else
    s.zeroed.bind fun (child, s) =>
      (below child (pte.ppn .riscv64) s).map fun (s, err) =>
        match err with
        | none => (s.setEntry dst i (.new .riscv64 child (pte.flags .riscv64)), none)
        | some err => (s, some err)

def deepCopyUserPt : Nat → Nat → Nat → Machine σ → Copied σ
  | 0, dst, src =>
    eachEntry (deepCopyEntry 0 dst src fun _ _ s => some (s, none)) (List.range pteCount)
  | level + 1, dst, src =>
    -- the upper half of the root is the kernel's
    eachEntry (deepCopyEntry (level + 1) dst src (deepCopyUserPt level))
      (List.range (if level + 1 = 2 then 256 else pteCount))

def copyUserPages (dst src : Nat) : Arch → Machine σ → Copied σ
  | .x86_64, s => copyUserPagesX86 3 dst src s
  | .riscv64, s =>
    (deepCopyUserPt 2 dst src s).map fun (s, err) => (s, err.map fun _ => errNomem)

end

/-- The parts of the kernel that `sys_fork` works on. -/
structure ForkSystem (σ : Type u) (fs : Type v) where
  machine : Machine σ
  registry : Registry
  fds : FdSystem fs
  os : SchedState

namespace ForkSystem

variable {σ : Type u} {fs : Type v}

/-- The part of `sys_fork` after the copy. The slot that `add_process` takes
does not depend on the process. -/
def addForked (s : ForkSystem σ fs) (proc : Process) (space : NewSpace) : ForkSystem σ fs × Int :=
  let reg := s.registry
  let root := space.pageTableRoot
  let registry := ((reg.cloneRootState proc.pageTableRoot root).or (reg.initRoot root)).getD reg
  let (os, slot) := s.os.allocateUserSlot (s.fds.procs.addProcess proc).2
  let (fds, result) := s.fds.sysFork proc (if slot.isSome then .scheduled else .unscheduled) space
  ({ s with registry, fds, os }, result)

variable [ContiguousSource σ (2 ^ 40)]

def sysFork (arch : Arch) (kernelRoot : Nat) (s : ForkSystem σ fs) :
    Option (ForkSystem σ fs × Int) :=
  match s.fds.procs.get s.fds.current with
  | none => some (s, errInval)
  | some proc =>
    s.machine.zeroed.bind fun (root, machine) =>
      (Process.allocKernelStack arch kernelRoot machine).bind fun stack =>
        match stack with
        | none => some ({ s with machine }, errNomem)
        | some (top, machine) =>
          (Process.copyKernelMappings kernelRoot root top arch machine).bind fun machine =>
            (copyUserPages root proc.pageTableRoot arch machine).map fun (machine, err) =>
              match err with
              | some err => ({ s with machine }, err)
              | none => { s with machine }.addForked proc ⟨root, top⟩

/-- `sys_fork` returns `error` and leaves `next`. -/
def ForkFails (arch : Arch) (kernelRoot : Nat) (s next : ForkSystem σ fs) (error : Int) : Prop :=
  s.sysFork arch kernelRoot = some (next, error) ∧ error < 0

structure Unchanged (s next : ForkSystem σ fs) : Prop where
  frames : free next.machine.frames = free s.machine.frames
  procs : next.fds.procs = s.fds.procs
  registry : next.registry = s.registry
  pipes : next.fds.pipes = s.fds.pipes
  os : next.os = s.os

end ForkSystem

/-! ## No step gives a frame back -/

/-- Whatever `result` leaves has at most the free frames of `s`. -/
def Takes {σ : Type u} [FrameSource σ (2 ^ 40)] {α : Type*} (machine : α → Machine σ)
    (s : Machine σ) (result : Option α) : Prop :=
  ∀ a, result = some a → free (machine a).frames ⊆ free s.frames

section
variable {σ : Type u} [FrameSource σ (2 ^ 40)] {α β : Type*} {machine : α → Machine σ}
  {after : β → Machine σ} {s : Machine σ} {result : Option α} {arch : Arch}
  {below : Nat → Nat → Machine σ → Copied σ}

lemma Takes.some {a : α} (heq : (machine a).frames = s.frames) : Takes machine s (some a) := by
  rintro _ ⟨⟩
  rw [heq]

lemma Takes.none : Takes machine s none := by rintro _ ⟨⟩

lemma Takes.ite {cond : Prop} [Decidable cond] {other : Option α} (hyes : Takes machine s result)
    (hno : Takes machine s other) : Takes machine s (if cond then result else other) := by
  split
  exacts [hyes, hno]

lemma Takes.bind {next : α → Option β} (hfirst : Takes machine s result)
    (hnext : ∀ a, Takes after (machine a) (next a)) : Takes after s (result.bind next) := by
  intro b hb
  obtain ⟨a, ha, hb⟩ := bind_eq_some_iff.mp hb
  exact (hnext a b hb).trans (hfirst a ha)

lemma Takes.map {f : α → β} (hfirst : Takes machine s result)
    (hf : ∀ a, (after (f a)).frames = (machine a).frames) : Takes after s (result.map f) := by
  intro b hb
  obtain ⟨a, ha, rfl⟩ := map_eq_some_iff.mp hb
  rw [hf]
  exact hfirst a ha

lemma Takes.foldlM {step : Machine σ → α → Option (Machine σ)}
    (hstep : ∀ s a, Takes id s (step s a)) (items : List α) (s : Machine σ) :
    Takes id s (items.foldlM step s) := by
  induction items generalizing s with
  | nil => exact .some rfl
  | cons a rest ih => exact (hstep s a).bind ih

lemma takes_zeroed (s : Machine σ) : Takes snd s s.zeroed := by
  intro _ hrun
  obtain ⟨_, halloc, rfl⟩ := map_eq_some_iff.mp hrun
  exact free_alloc_subset halloc

lemma takes_allocFrame (s : Machine σ) : Takes snd s s.allocFrame := by
  intro _ hrun
  obtain ⟨_, halloc, rfl⟩ := map_eq_some_iff.mp hrun
  exact free_alloc_subset halloc

lemma takes_ensureTable (arch : Arch) (table i : Nat) (s : Machine σ) :
    Takes id s (s.ensureTable arch table i) :=
  .ite (.some rfl) ((takes_zeroed s).map fun _ => rfl)

lemma takes_splitHuge (table i size : Nat) (s : Machine σ) :
    Takes snd s (s.splitHuge table i size) :=
  (takes_zeroed s).map fun _ => rfl

lemma takes_map (s : Machine σ) (root vaddr paddr : Nat) (flags : PTEFlags arch) :
    Takes id s (map arch s root vaddr paddr flags) := by
  have hdescend (level table : Nat) (s : Machine σ) :
      Takes fst s (mapDescend arch vaddr flags level table s) := by
    induction level generalizing table s with
    | zero => exact .some rfl
    | succ level ih =>
      exact (takes_ensureTable arch table _ s).bind fun s => .ite
        ((takes_splitHuge table _ _ s).bind fun split =>
          .ite .none (.ite (.some rfl) (ih split.1 split.2)))
        (.ite (.some rfl) (ih _ _))
  refine (hdescend _ root s).map fun (s, table) => ?_
  cases table <;> rfl

lemma takes_mapPages (root : Nat) (flags : PTEFlags arch) (mappings : List (Nat × Nat))
    (s : Machine σ) : Takes id s (Process.mapPages arch root flags mappings s) := by
  unfold Process.mapPages
  exact .foldlM (fun s m => takes_map s root m.1 m.2 flags) mappings s

lemma takes_copyKernelIdentity (kernelRoot root : Nat) (s : Machine σ) :
    Takes id s (Process.copyKernelIdentity kernelRoot root s) := by
  have hentry (kernelPdp userPdp : Nat) (s : Machine σ) (i : Nat) :
      Takes id s (Process.copyKernelPd kernelPdp userPdp s i) :=
    .ite (.some rfl) (.ite (.some rfl) ((takes_zeroed s).map fun _ => rfl))
  refine .ite ((takes_ensureTable .x86_64 root 0 s).bind fun s => ?_) (.some rfl)
  exact .foldlM (hentry _ _) (List.range pteCount) s

lemma takes_copyKernelMappings (kernelRoot root top : Nat) (arch : Arch) (s : Machine σ) :
    Takes id s (Process.copyKernelMappings kernelRoot root top arch s) := by
  unfold Process.copyKernelMappings
  cases arch with
  | riscv64 => exact (takes_mapPages root _ _ s).bind (takes_mapPages root _ _)
  | x86_64 =>
    refine (takes_copyKernelIdentity kernelRoot root s).bind fun s =>
      (takes_mapPages root _ _ s).bind fun s => (takes_mapPages root _ _ s).bind fun s => ?_
    exact .ite ((takes_allocFrame s).bind fun _ => takes_map _ root _ _ _) (.some rfl)

lemma takes_eachEntry {step : Nat → Machine σ → Copied σ}
    (hstep : ∀ i s, Takes fst s (step i s)) (entries : List Nat) (s : Machine σ) :
    Takes fst s (eachEntry step entries s) := by
  induction entries generalizing s with
  | nil => exact .some rfl
  | cons i rest ih =>
    refine (hstep i s).bind fun (s, err) => ?_
    cases err with
    | none => exact ih s
    | some err => exact .some rfl

lemma takes_copyFrame (arch : Arch) (dst i : Nat) (pte : PTE) (s : Machine σ) :
    Takes fst s (copyFrame arch dst i pte s) := by
  unfold copyFrame
  cases halloc : s.allocFrame with
  | none => exact .some rfl
  | some taken =>
    rintro _ ⟨⟩
    exact takes_allocFrame s _ halloc

section
variable (hbelow : ∀ dst src s, Takes Prod.fst s (below dst src s))
include hbelow

lemma takes_copyEntryX86 {level dst src : Nat} (i : Nat) (s : Machine σ) :
    Takes fst s (copyEntryX86 level dst src below i s) := by
  have htable : Takes snd s (copyTable dst i s) :=
    .ite (.some rfl) ((takes_zeroed s).map fun _ => rfl)
  exact .ite (.some rfl) (.ite
    (.ite (.some rfl) (.ite (.some rfl) (takes_copyFrame .x86_64 dst i _ s)))
    (htable.bind fun _ => hbelow _ _ _))

lemma takes_deepCopyEntry {level dst src : Nat} (i : Nat) (s : Machine σ) :
    Takes fst s (deepCopyEntry level dst src below i s) := by
  refine .ite (.some rfl) (.ite (.ite (.some rfl) (takes_copyFrame .riscv64 dst i _ s))
    (.ite (.some rfl) ((takes_zeroed s).bind fun _ => (hbelow _ _ _).map fun (s, err) => ?_)))
  cases err <;> rfl

end

lemma takes_copyUserPages (dst src : Nat) (arch : Arch) (s : Machine σ) :
    Takes fst s (copyUserPages dst src arch s) := by
  cases arch with
  | x86_64 =>
    have hcopy (level dst src : Nat) (s : Machine σ) :
        Takes fst s (copyUserPagesX86 level dst src s) := by
      induction level generalizing dst src s with
      | zero => exact takes_eachEntry (takes_copyEntryX86 fun _ _ _ => .some rfl) _ s
      | succ level ih => exact takes_eachEntry (takes_copyEntryX86 ih) _ s
    exact hcopy 3 dst src s
  | riscv64 =>
    have hcopy (level dst src : Nat) (s : Machine σ) :
        Takes fst s (deepCopyUserPt level dst src s) := by
      induction level generalizing dst src s with
      | zero => exact takes_eachEntry (takes_deepCopyEntry fun _ _ _ => .some rfl) _ s
      | succ level ih => exact takes_eachEntry (takes_deepCopyEntry ih) _ s
    exact (hcopy 2 dst src s).map fun _ => rfl

end

namespace ForkSystem

variable {σ : Type u} [ContiguousSource σ (2 ^ 40)] {fs : Type v} {arch : Arch} {kernelRoot : Nat}
  {s next : ForkSystem σ fs} {proc : Process} {result : Int}

lemma takes_allocKernelStack (arch : Arch) (kernelRoot : Nat) (s : Machine σ) :
    Takes (fun stack => (stack.map snd).getD s) s (Process.allocKernelStack arch kernelRoot s) := by
  unfold Process.allocKernelStack
  split
  · exact .some rfl
  next first frames hrun =>
    have htaken := free_allocRun_subset hrun
    cases arch with
    | riscv64 =>
      rintro _ ⟨⟩
      exact htaken
    | x86_64 =>
      intro _ hrun
      obtain ⟨s', hmap, rfl⟩ := map_eq_some_iff.mp hrun
      exact (takes_mapPages kernelRoot _ _ _ s' hmap).trans htaken

/-- A fork with a parent has fewer free frames at its end, however it ends: the
root table is taken first and not given back. -/
lemma sysFork_not_unchanged (hproc : s.fds.procs.get s.fds.current = some proc)
    (hrun : s.sysFork arch kernelRoot = some (next, result)) : ¬Unchanged s next := by
  intro hsame
  simp only [sysFork, hproc] at hrun
  obtain ⟨⟨root, machine⟩, hzeroed, hrun⟩ := Option.bind_eq_some_iff.mp hrun
  have hrest : Takes (fun out : ForkSystem σ fs × Int => out.1.machine) machine
      (some (next, result)) := by
    rw [← hrun]
    refine (takes_allocKernelStack arch kernelRoot machine).bind fun stack => ?_
    cases stack with
    | none => exact .some rfl
    | some stack =>
      refine (takes_copyKernelMappings kernelRoot root stack.1 arch stack.2).bind fun machine =>
        (takes_copyUserPages root proc.pageTableRoot arch machine).map fun (machine, err) => ?_
      cases err <;> rfl
  obtain ⟨⟨frame, frames⟩, halloc, heq⟩ := Option.map_eq_some_iff.mp hzeroed
  obtain ⟨rfl, rfl⟩ := Prod.mk.inj heq
  have hfree : frame ∈ free next.machine.frames := hsame.frames ▸ alloc_mem halloc
  exact not_mem_free_alloc halloc (hrest _ rfl hfree)

/-- A failed fork changes nothing exactly if no process is current. With a parent,
every failure keeps at least the frame of the root table. -/
theorem forkFails_unchanged_iff (hfails : ForkFails arch kernelRoot s next result) :
    Unchanged s next ↔ s.fds.procs.get s.fds.current = none := by
  constructor
  · intro hsame
    cases hproc : s.fds.procs.get s.fds.current with
    | none => rfl
    | some proc => exact absurd hsame (sysFork_not_unchanged hproc hfails.1)
  · intro hnone
    have hrun := hfails.1
    simp only [sysFork, hnone] at hrun
    cases hrun
    exact ⟨rfl, rfl, rfl, rfl, rfl⟩

/-- One process and one free frame. -/
def oneFrame : ForkSystem KernelFrames Driver.RamFileSystem where
  machine := ⟨fun _ _ => 0, KernelFrames.single⟩
  registry := .boot
  fds := .bare
  os := .init

lemma oneFrame_proc : oneFrame.fds.procs.get oneFrame.fds.current = some FdSystem.bareProc := rfl

/-- The frame goes to the root table, and there are none for the kernel stack. -/
lemma oneFrame_fails (arch : Arch) (kernelRoot : Nat) :
    ∃ next, ForkFails arch kernelRoot oneFrame next errNomem := by
  have hfull : (alloc KernelFrames.single).any (fun result =>
      (allocRun result.2 Process.kernelStackPages).isNone) := by
    decide
  obtain ⟨⟨root, frames⟩, halloc, hnone⟩ := (Option.any_eq_true ..).mp hfull
  have hzeroed : oneFrame.machine.zeroed = some (root, _) := Machine.zeroed_eq halloc
  have hstack : allocRun frames _ = none := isNone_iff_eq_none.mp hnone
  simp only [ForkFails, sysFork, oneFrame_proc, hzeroed, bind_some, Process.allocKernelStack,
    Machine.setFrame, hstack]
  exact ⟨_, rfl, by decide⟩

theorem forkFails_unchanged_iff_oneFrame : ∃ next, ForkFails .x86_64 0 oneFrame next errNomem ∧
    (Unchanged oneFrame next ↔ oneFrame.fds.procs.get oneFrame.fds.current = none) := by
  obtain ⟨next, hfails⟩ := oneFrame_fails .x86_64 0
  exact ⟨next, hfails, forkFails_unchanged_iff hfails⟩

theorem failed_fork_changes :
    ∃ next, ForkFails .x86_64 0 oneFrame next errNomem ∧ ¬ Unchanged oneFrame next := by
  obtain ⟨next, hfails⟩ := oneFrame_fails .x86_64 0
  exact ⟨next, hfails, sysFork_not_unchanged oneFrame_proc hfails.1⟩

end ForkSystem

end KarteOs.Syscall

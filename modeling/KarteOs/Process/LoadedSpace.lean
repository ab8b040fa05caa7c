import KarteOs.Process.Lifecycle
import KarteOs.Process.SharedTables

/-! # The address space of a loaded process

Loading leaves the table of the process a sound address space. On x86_64 it shares
tables with the kernel's own. Frames that are in use and belong to no table stay
outside of it, among them the guard frames that the loaders take.
-/

namespace KarteOs.Process

universe u

open Mm Syscall RadixTree FrameSource ContiguousSource Option Prod

variable {σ : Type u}

section
variable [FrameSource σ (2 ^ 40)] {arch : Arch} {root : Nat} {lost few : Set Nat} {s s' : Machine σ}

/-- The tables are frames. Entries have wider frame numbers than that on riscv64 only. -/
def Narrow (arch : Arch) (pos : Layout) : Prop :=
  arch = .riscv64 → ∀ t, pos t ≠ none → t < 2 ^ 40

lemma narrow_x86_64 (pos : Layout) : Narrow .x86_64 pos := by rintro ⟨⟩

/-- The table under `root` is sound; the `lost` frames are neither free nor tables of it. -/
structure Apart (arch : Arch) (root : Nat) (lost : Set Nat) (s : Machine σ) : Prop where
  space : ∃ pos, AddressSpace arch pos s root ∧ (∀ t ∈ lost, pos t = none) ∧ Narrow arch pos
  held : ∀ t ∈ lost, t ∉ free s.frames

lemma Apart.mono (hs : Apart arch root lost s) (hsubset : few ⊆ lost) : Apart arch root few s := by
  obtain ⟨pos, hspace, hnone, hnarrow⟩ := hs.space
  exact ⟨⟨pos, hspace, fun t ht => hnone t (hsubset ht), hnarrow⟩,
    fun t ht => hs.held t (hsubset ht)⟩

variable {flags : PTEFlags arch} {frames : σ}

section
variable (hs : Apart arch root lost s)
include hs

lemma Apart.map {vaddr paddr : Nat} (hmap : Mm.map arch s root vaddr paddr flags = some s') :
    Apart arch root lost s' ∧ (∀ t ∈ lost, s'.mem t = s.mem t) ∧
      free s'.frames ⊆ free s.frames := by
  obtain ⟨pos, hspace, hnone, hnarrow⟩ := hs.space
  obtain ⟨pos', hupdates⟩ := hspace.map_spec hmap
  have hgrows := hupdates.descent.toGrows
  refine ⟨⟨⟨pos', hupdates.space, fun t ht => ?_, fun harch t hsome => ?_⟩, fun t ht hfree => ?_⟩,
    fun t ht => ?_, hgrows.shrink⟩
  · by_contra hsome
    exact hs.held t ht (hgrows.fresh t (hnone t ht) hsome).1
  · by_cases hold : pos t = none
    · exact (free_range (hgrows.fresh t hold hsome).1).2
    · exact hnarrow harch t hold
  · exact hs.held t ht (hgrows.shrink hfree)
  · exact hgrows.outside t (hnone t ht) (hs.held t ht)

lemma Apart.mapPages {mappings : List (Nat × Nat)}
    (hrun : mapPages arch root flags mappings s = some s') :
    Apart arch root lost s' ∧ (∀ t ∈ lost, s'.mem t = s.mem t) ∧
      free s'.frames ⊆ free s.frames := by
  induction mappings generalizing s with
  | nil =>
    cases hrun
    exact ⟨hs, fun _ _ => rfl, subset_rfl⟩
  | cons m rest ih =>
    rw [Process.mapPages, List.foldlM_cons] at hrun
    obtain ⟨middle, hmap, hrest⟩ := bind_eq_some_iff.mp hrun
    obtain ⟨hmiddle, hmem, hshrink⟩ := hs.map hmap
    obtain ⟨hfinal, hmem', hshrink'⟩ := ih hmiddle hrest
    exact ⟨hfinal, fun t ht => (hmem' t ht).trans (hmem t ht), hshrink'.trans hshrink⟩

lemma Apart.alloc {frame : Nat} (halloc : FrameSource.alloc s.frames = some (frame, frames)) :
    Apart arch root (insert frame lost) { s with frames } := by
  obtain ⟨pos, hspace, hnone, hnarrow⟩ := hs.space
  have hshrink := free_alloc_subset halloc
  refine ⟨⟨pos, hspace.congr (fun _ _ => rfl) fun t ht hfree => ?_, ?_, hnarrow⟩, ?_⟩
  · exact hspace.owned t ht (hshrink hfree)
  · rintro t (rfl | ht)
    · exact hspace.pos_eq_none halloc
    · exact hnone t ht
  · rintro t (rfl | ht)
    · exact not_mem_free_alloc halloc
    · exact fun hfree => hs.held t ht (hshrink hfree)

lemma Apart.setFrame {frame : Nat} (hframe : frame ∈ lost) (words : Nat → PTE) :
    Apart arch root lost (s.setFrame frame words) := by
  obtain ⟨pos, hspace, hnone, hnarrow⟩ := hs.space
  refine ⟨⟨pos, hspace.congr (fun t ht => Function.update_of_ne ?_ ..) hspace.owned, hnone,
    hnarrow⟩, hs.held⟩
  rintro rfl
  exact ht (hnone _ hframe)

end

lemma allocFrame_some {addr : Nat} (halloc : s.allocFrame = some (addr, s')) :
    ∃ frame frames, FrameSource.alloc s.frames = some (frame, frames) ∧
      addr = frame * pageSize ∧ s' = { s with frames } := by
  obtain ⟨⟨frame, frames⟩, hframe, heq⟩ := map_eq_some_iff.mp halloc
  cases heq
  exact ⟨frame, frames, hframe, rfl, rfl⟩

/-! ## The loops of the loaders -/

section
variable {vaddr : Nat}

lemma mapCleared_ok {err : LoadError}
    (hrun : mapCleared arch root vaddr flags err s = some (s', none)) :
    ∃ frame frames mapped, FrameSource.alloc s.frames = some (frame, frames) ∧
      Mm.map arch { s with frames } root vaddr (frame * pageSize) flags = some mapped ∧
      s' = mapped.setFrame frame fun _ => 0 := by
  rw [mapCleared] at hrun
  split at hrun
  · cases hrun
  next addr taken halloc =>
    obtain ⟨frame, frames, hframe, rfl, rfl⟩ := allocFrame_some halloc
    obtain ⟨mapped, hmap, heq⟩ := map_eq_some_iff.mp hrun
    refine ⟨frame, frames, mapped, hframe, hmap, ?_⟩
    rw [← (Prod.mk.inj heq).1, Nat.mul_div_cancel _ (by decide : 0 < pageSize)]

lemma backPage_ok (hrun : backPage arch root flags vaddr s = some (s', none)) :
    mapCleared arch root vaddr flags .segment s = some (s', none) ∨
      ∃ addr merged, translateUser arch s.mem root vaddr = some addr ∧ addr ≠ vaddr ∧
        Mm.map arch s root vaddr addr merged = some s' := by
  rw [backPage] at hrun
  split at hrun
  next addr haddr =>
    split at hrun
    · exact .inl hrun
    next hne =>
      obtain ⟨mapped, hmap, heq⟩ := map_eq_some_iff.mp hrun
      cases heq
      exact .inr ⟨addr, _, haddr, hne, hmap⟩
  · exact .inl hrun

variable {good : Machine σ → Prop}

lemma loadSegment_invariant {copy : Segment → Nat → Option Bool} {seg : Segment}
    (hback : ∀ vaddr ∈ seg.pages, ∀ s s', good s →
      backPage arch root (elfSegmentPteFlags arch seg.flags) vaddr s = some (s', none) → good s')
    (hs : good s) (hrun : loadSegment arch root copy seg s = some (s', none)) : good s' := by
  refine Outcome.each_invariant (fun vaddr hvaddr s s' hs hrun => ?_) hs hrun
  obtain ⟨middle, hmiddle, hcopy⟩ := Outcome.andThen_ok hrun
  obtain ⟨copied, -, heq⟩ := map_eq_some_iff.mp hcopy
  obtain rfl := (Prod.mk.inj heq).1
  exact hback vaddr hvaddr s _ hs hmiddle

lemma verifyStreamingElfPages_invariant {image : Image} (hpage : ∀ page flags s s', good s →
      mapCleared .x86_64 root page flags .repair s = some (s', none) → good s') (hs : good s)
    (hrun : verifyStreamingElfPages root image s = some (s', none)) : good s' := by
  refine Outcome.each_invariant (fun page _ s s' hs hrun => ?_) hs hrun
  split at hrun
  · cases hrun
    exact hs
  · obtain ⟨middle, hreload, hverify⟩ := Outcome.andThen_ok hrun
    obtain rfl := (Prod.mk.inj (some.inj hverify)).1
    rw [reloadStreamingElfPage] at hreload
    split at hreload
    · cases hreload
    · obtain ⟨mapped, hmapped, hread⟩ := Outcome.andThen_ok hreload
      obtain rfl := (Prod.mk.inj (some.inj hread)).1
      exact hpage _ _ _ _ hs hmapped

lemma mapUserStack_invariant (hpage : ∀ vaddr ∈ userStackVaddrs, ∀ frame frames s s', good s →
      FrameSource.alloc s.frames = some (frame, frames) →
      Mm.map arch { s with frames } root vaddr (frame * pageSize) (.urw arch) = some s' → good s')
    (hs : good s) (hrun : mapUserStack arch root s = some (s', none)) : good s' := by
  refine Outcome.each_invariant (fun vaddr hvaddr s s' hs hrun => ?_) hs hrun
  split at hrun
  · cases hrun
  next addr taken halloc =>
    obtain ⟨frame, frames, hframe, rfl, rfl⟩ := allocFrame_some halloc
    obtain ⟨mapped, hmap, heq⟩ := map_eq_some_iff.mp hrun
    cases heq
    exact hpage vaddr hvaddr frame frames s _ hs hframe hmap

end

lemma Apart.mapCleared {vaddr : Nat} {err : LoadError} (hs : Apart arch root lost s)
    (hrun : mapCleared arch root vaddr flags err s = some (s', none)) :
    Apart arch root lost s' := by
  obtain ⟨frame, frames, mapped, hframe, hmap, rfl⟩ := mapCleared_ok hrun
  have hmapped := ((hs.alloc hframe).map hmap).1
  exact (hmapped.setFrame (Set.mem_insert ..) _).mono (Set.subset_insert ..)

lemma Apart.backPage {vaddr : Nat} (hs : Apart arch root lost s)
    (hrun : backPage arch root flags vaddr s = some (s', none)) : Apart arch root lost s' := by
  rcases backPage_ok hrun with hcleared | ⟨addr, merged, -, -, hmap⟩
  exacts [hs.mapCleared hcleared, (hs.map hmap).1]

lemma Apart.loadSegment {copy : Segment → Nat → Option Bool} {seg : Segment}
    (hs : Apart arch root lost s) (hrun : loadSegment arch root copy seg s = some (s', none)) :
    Apart arch root lost s' :=
  loadSegment_invariant (fun _ _ _ _ => .backPage) hs hrun

lemma Apart.mapUserStack (hs : Apart arch root lost s)
    (hrun : mapUserStack arch root s = some (s', none)) : Apart arch root lost s' := by
  refine mapUserStack_invariant (fun vaddr _ frame frames s s' hs hframe hmap => ?_) hs hrun
  exact Apart.mono ((Apart.alloc hs hframe).map hmap).1 (Set.subset_insert ..)

lemma Apart.verifyStreamingElfPages {image : Image} (hs : Apart .x86_64 root lost s)
    (hrun : verifyStreamingElfPages root image s = some (s', none)) : Apart .x86_64 root lost s' :=
  verifyStreamingElfPages_invariant (fun _ _ _ _ => .mapCleared) hs hrun

lemma Apart.mapTransitionPage (hs : Apart .x86_64 root lost s)
    (hrun : mapTransitionPage root s = some s') : Apart .x86_64 root lost s' := by
  rw [Process.mapTransitionPage] at hrun
  split at hrun
  · obtain ⟨⟨addr, taken⟩, halloc, hmap⟩ := bind_eq_some_iff.mp hrun
    obtain ⟨frame, frames, hframe, rfl, rfl⟩ := allocFrame_some halloc
    exact ((hs.alloc hframe).map hmap).1.mono (Set.subset_insert ..)
  · cases hrun
    exact hs

/-! ## Before the table has entries -/

/-- The free frames are among those there were at the start; the `lost` frames are not
free and, on x86_64, no tables of the kernel, whose own table is sound. -/
structure Reserved (arch : Arch) (kernelRoot : Nat) (start lost : Set Nat) (s : Machine σ) :
    Prop where
  fewer : free s.frames ⊆ start
  held : ∀ t ∈ lost, t ∉ free s.frames
  kernel : arch = .x86_64 → Apart .x86_64 kernelRoot lost s

variable {kernelRoot : Nat} {start : Set Nat}

section
variable (hs : Reserved arch kernelRoot start lost s)
include hs

lemma Reserved.mono (hsubset : few ⊆ lost) : Reserved arch kernelRoot start few s :=
  ⟨hs.fewer, fun t ht => hs.held t (hsubset ht), fun harch => (hs.kernel harch).mono hsubset⟩

lemma Reserved.alloc {frame : Nat} (halloc : FrameSource.alloc s.frames = some (frame, frames)) :
    Reserved arch kernelRoot start (insert frame lost) { s with frames } := by
  have hshrink := free_alloc_subset halloc
  refine ⟨hshrink.trans hs.fewer, ?_, fun harch => (hs.kernel harch).alloc halloc⟩
  rintro t (rfl | ht)
  · exact not_mem_free_alloc halloc
  · exact fun hfree => hs.held t ht (hshrink hfree)

lemma Reserved.zeroed (hrun : s.zeroed = some (root, s')) :
    Reserved arch kernelRoot start (insert root lost) s' := by
  obtain ⟨⟨frame, frames⟩, halloc, heq⟩ := map_eq_some_iff.mp hrun
  cases heq
  have htaken := hs.alloc halloc
  exact ⟨htaken.fewer, htaken.held, fun harch =>
    (htaken.kernel harch).setFrame (Set.mem_insert ..) _⟩

end

lemma takeGuard_cases (s : Machine σ) : takeGuard s = s ∧ free s.frames = ∅ ∨
    ∃ guard frames, FrameSource.alloc s.frames = some (guard, frames) ∧
      takeGuard s = { s with frames } := by
  rw [takeGuard, Machine.allocFrame]
  cases halloc : FrameSource.alloc s.frames with
  | none => exact .inl ⟨rfl, free_of_alloc_none halloc⟩
  | some result => exact .inr ⟨result.1, result.2, rfl, rfl⟩

lemma takeGuard_mem (s : Machine σ) : (takeGuard s).mem = s.mem := by
  obtain ⟨hsame, -⟩ | ⟨guard, frames, -, hnext⟩ := takeGuard_cases s
  · rw [hsame]
  · rw [hnext]

lemma Reserved.takeGuard (hs : Reserved arch kernelRoot start lost s) :
    Reserved arch kernelRoot start lost (takeGuard s) := by
  obtain ⟨hsame, -⟩ | ⟨guard, frames, halloc, hnext⟩ := takeGuard_cases s
  · rwa [hsame]
  · rw [hnext]
    exact (hs.alloc halloc).mono (Set.subset_insert ..)

lemma Reserved.copyKernelMappings {top : Nat}
    (hs : Reserved arch kernelRoot start (insert root lost) s) (hroot : root ∉ lost)
    (hbound : root < 2 ^ 40) (hzero : ∀ i, s.mem root i = 0)
    (hrun : copyKernelMappings kernelRoot root top arch s = some s') : Apart arch root lost s' := by
  have howned := hs.held root (Set.mem_insert ..)
  have hne : ∀ t ∈ lost, t ≠ root := by
    rintro t ht rfl
    exact hroot ht
  cases arch with
  | riscv64 =>
    have hempty : Apart .riscv64 root lost s :=
      ⟨⟨_, emptyTable_space hzero howned, fun t ht => rootLayout_of_ne (hne t ht),
        fun _ t ht => eq_of_rootLayout ht ▸ hbound⟩,
        fun t ht => hs.held t (Set.mem_insert_of_mem _ ht)⟩
    rw [Process.copyKernelMappings] at hrun
    obtain ⟨middle, hram, hdevices⟩ := bind_eq_some_iff.mp hrun
    exact ((hempty.mapPages hram).1.mapPages hdevices).1
  | x86_64 =>
    obtain ⟨kpos, hkernel, hnone, -⟩ := (hs.kernel rfl).space
    obtain ⟨s₁, hidentity, hrun⟩ := bind_eq_some_iff.mp hrun
    obtain ⟨s₂, hvga, hrun⟩ := bind_eq_some_iff.mp hrun
    obtain ⟨s₃, hstack, htransition⟩ := bind_eq_some_iff.mp hrun
    obtain ⟨pos, hspace, houtside⟩ := copyKernelIdentity_space hkernel hzero howned
      (hnone root (Set.mem_insert ..)) (fun t ht => ⟨hne t ht,
        hnone t (Set.mem_insert_of_mem _ ht), hs.held t (Set.mem_insert_of_mem _ ht)⟩) hidentity
    have hidentical : Apart .x86_64 root lost s₁ :=
      ⟨⟨pos, hspace, fun t ht => (houtside t ht).1, narrow_x86_64 pos⟩,
        fun t ht => (houtside t ht).2⟩
    exact ((hidentical.mapPages hvga).1.mapPages hstack).1.mapTransitionPage htransition

end

/-! ## Loaded processes -/

def stackFrames (arch : Arch) (top : Nat) : Set Nat :=
  Set.Ico (kernelStackPhysBase arch top / pageSize)
    (kernelStackPhysBase arch top / pageSize + kernelStackPages)

variable [ContiguousSource σ (2 ^ 40)] {arch : Arch} {kernelRoot root top guard : Nat}
  {start lost : Set Nat} {s s' s₁ s₂ s₃ s₄ : Machine σ}

lemma Apart.allocRun {count first : Nat} {frames : σ} (hs : Apart arch root lost s)
    (hrun : allocRun s.frames count = some (first, frames)) :
    Apart arch root (lost ∪ Set.Ico first (first + count)) { s with frames } := by
  obtain ⟨pos, hspace, hnone, hnarrow⟩ := hs.space
  have hshrink := free_allocRun_subset hrun
  have hfree := free_allocRun hrun
  refine ⟨⟨pos, hspace.congr (fun _ _ => rfl) fun t ht hfree => ?_, ?_, hnarrow⟩, ?_⟩
  · exact hspace.owned t ht (hshrink hfree)
  · rintro t (ht | ⟨hle, hlt⟩)
    · exact hnone t ht
    · by_contra hsome
      have hmem := allocRun_mem hrun (t - first) (by omega)
      rw [Nat.add_sub_cancel' hle] at hmem
      exact hspace.owned t hsome hmem
  · rintro t (ht | ht)
    · exact fun hmem => hs.held t ht (hshrink hmem)
    · rw [hfree]
      exact fun hmem => hmem.2 ht

lemma kernelStackPhysBase_x86_64 (base : Nat) :
    kernelStackPhysBase .x86_64 (kernelStackVirtBase + base + kernelStackPages * pageSize) =
      base := by
  rw [kernelStackPhysBase, Nat.add_assoc, Nat.add_sub_cancel_left, Nat.add_sub_cancel]

lemma Reserved.allocKernelStack (hs : Reserved arch kernelRoot start lost s)
    (hrun : allocKernelStack arch kernelRoot s = some (some (top, s'))) :
    Reserved arch kernelRoot start (lost ∪ stackFrames arch top) s' ∧
      (∀ t ∈ lost, s'.mem t = s.mem t) ∧ stackFrames arch top ⊆ free s.frames := by
  rw [Process.allocKernelStack] at hrun
  split at hrun
  · cases some.inj hrun
  next first frames hfirst =>
    have hmem : Set.Ico first (first + kernelStackPages) ⊆ free s.frames := by
      rintro t ⟨hle, hlt⟩
      have hmem := allocRun_mem hfirst (t - first) (by omega)
      rwa [Nat.add_sub_cancel' hle] at hmem
    have hshrink := free_allocRun_subset hfirst
    have hdiv : first * pageSize / pageSize = first := Nat.mul_div_cancel _ (by decide)
    cases arch with
    | riscv64 =>
      cases hrun
      rw [stackFrames, kernelStackPhysBase, Nat.add_sub_cancel, hdiv]
      refine ⟨⟨hshrink.trans hs.fewer, ?_, nofun⟩, fun _ _ => rfl, hmem⟩
      rintro t (ht | ht)
      · exact fun hfree => hs.held t ht (hshrink hfree)
      · rw [free_allocRun hfirst]
        exact fun hfree => hfree.2 ht
    | x86_64 =>
      obtain ⟨mapped, hmapped, heq⟩ := map_eq_some_iff.mp hrun
      cases heq
      rw [stackFrames, kernelStackPhysBase_x86_64, hdiv]
      obtain ⟨hapart, hsame, hfewer⟩ := ((hs.kernel rfl).allocRun hfirst).mapPages hmapped
      exact ⟨⟨(hfewer.trans hshrink).trans hs.fewer, hapart.held, fun _ => hapart⟩,
        fun t ht => hsame t (.inl ht), hmem⟩

lemma Apart.streamSegments {image : Image} (hs : Apart arch root lost s)
    (hrun : streamSegments arch root image s = some (s', none)) : Apart arch root lost s' := by
  obtain ⟨middle, hload, hverify⟩ := Outcome.andThen_ok hrun
  have hmiddle := Outcome.each_invariant (fun _ _ _ _ hs hrun => hs.loadSegment hrun) hs hload
  split at hverify
  next harch =>
    subst harch
    exact hmiddle.verifyStreamingElfPages hverify
  · cases hverify
    exact hmiddle

lemma Apart.streamStacks (hs : Apart arch root lost s)
    (hrun : streamStacks arch root top s = some (s', none)) : Apart arch root lost s' := by
  obtain ⟨middle, huser, hkernel⟩ := Outcome.andThen_ok hrun
  have hmiddle := hs.mapUserStack huser
  split at hkernel
  · obtain ⟨mapped, hmapped, heq⟩ := map_eq_some_iff.mp hkernel
    cases heq
    exact (hmiddle.mapPages hmapped).1
  · cases hkernel
    exact hmiddle

variable {image : Image} {k k' : Kernel σ} {process : Process}

/-- A frame that loading took and that is neither a table of the process nor part of its
kernel stack, both of which were taken as well. -/
structure IsGuard (arch : Arch) (process : Process) (k k' : Kernel σ) (guard : Nat) : Prop where
  taken : guard ∈ free k.machine.frames
  apart : Apart arch process.pageTableRoot {guard} k'.machine
  not_stack : guard ∉ stackFrames arch process.kernelStackTop
  root : process.pageTableRoot ∈ free k.machine.frames
  stack : stackFrames arch process.kernelStackTop ⊆ free k.machine.frames

lemma Reserved.initial
    (hkernel : arch = .x86_64 → ∃ kpos, AddressSpace .x86_64 kpos k.machine kernelRoot) :
    Reserved arch kernelRoot (free k.machine.frames) ∅ k.machine := by
  refine ⟨subset_rfl, by simp, fun harch => ?_⟩
  obtain ⟨kpos, hspace⟩ := hkernel harch
  exact ⟨⟨kpos, hspace, by simp, narrow_x86_64 kpos⟩, by simp⟩

lemma zeroed_mem (hrun : s.zeroed = some (root, s')) : root ∈ free s.frames := by
  obtain ⟨⟨frame, frames⟩, halloc, heq⟩ := map_eq_some_iff.mp hrun
  cases heq
  exact FrameSource.alloc_mem halloc

/-- Before the kernel mappings are copied: the root is a table without entries, and it,
the kernel stack and a guard were taken. -/
structure Prepared (arch : Arch) (kernelRoot : Nat) (process : Process) (k : Kernel σ)
    (s : Machine σ) (guard : Nat) : Prop where
  taken : guard ∈ free k.machine.frames
  not_stack : guard ∉ stackFrames arch process.kernelStackTop
  root : process.pageTableRoot ∈ free k.machine.frames
  stack : stackFrames arch process.kernelStackTop ⊆ free k.machine.frames
  reserved : Reserved arch kernelRoot (free k.machine.frames)
    (insert process.pageTableRoot {guard}) s
  root_ne : process.pageTableRoot ≠ guard
  zero : ∀ i, s.mem process.pageTableRoot i = 0

section
variable (hprepared : Prepared arch kernelRoot process k s guard)
include hprepared

lemma Prepared.copyKernelMappings
    (hrun : copyKernelMappings kernelRoot process.pageTableRoot top arch s = some s') :
    Apart arch process.pageTableRoot {guard} s' :=
  hprepared.reserved.copyKernelMappings hprepared.root_ne (free_range hprepared.root).2
    hprepared.zero hrun

lemma Prepared.isGuard (hapart : Apart arch process.pageTableRoot {guard} k'.machine) :
    IsGuard arch process k k' guard :=
  ⟨hprepared.taken, hapart, hprepared.not_stack, hprepared.root, hprepared.stack⟩

end

lemma LoadedWhole.exists_prepared
    (hparts : LoadedWhole arch kernelRoot image k k' process s₁ s₂ s₃ s₄)
    (hkernel : arch = .x86_64 → ∃ kpos, AddressSpace .x86_64 kpos k.machine kernelRoot) :
    ∃ guard, Prepared arch kernelRoot process k s₂ guard := by
  have hrooted := (Reserved.initial hkernel).zeroed hparts.table
  obtain ⟨hsame, hempty⟩ | ⟨guard, frames, halloc, hnext⟩ := takeGuard_cases s₁
  · have hfresh := (hrooted.takeGuard.allocKernelStack hparts.stack).2.2
      ⟨le_rfl, Nat.lt_add_of_pos_right (by decide)⟩
    rw [hsame, hempty] at hfresh
    exact hfresh.elim
  · have hguarded := hrooted.alloc halloc
    have hstacked := hparts.stack
    rw [hnext] at hstacked
    obtain ⟨hstack, hmem, hfresh⟩ := hguarded.allocKernelStack hstacked
    have hguard := FrameSource.alloc_mem halloc
    refine ⟨guard, hrooted.fewer hguard, fun hstack => not_mem_free_alloc halloc (hfresh hstack),
      zeroed_mem hparts.table, fun t ht => hguarded.fewer (hfresh ht), hstack.mono ?_, ?_, ?_⟩
    · rintro t (rfl | rfl)
      exacts [.inl (.inr (.inl rfl)), .inl (.inl rfl)]
    · rintro rfl
      exact hrooted.held _ (Set.mem_insert ..) hguard
    · intro i
      rw [hmem _ (.inr (.inl rfl))]
      exact (Mm.zeroed_root hparts.table).1 i

lemma LoadedStreaming.exists_prepared
    (hparts : LoadedStreaming arch kernelRoot image k k' process s₁ s₂ s₃ s₄)
    (hkernel : arch = .x86_64 → ∃ kpos, AddressSpace .x86_64 kpos k.machine kernelRoot) :
    ∃ guard, Prepared arch kernelRoot process k (takeGuard s₂) guard := by
  obtain ⟨hstack, -, hfresh⟩ := (Reserved.initial hkernel).allocKernelStack hparts.stack
  have hroot := zeroed_mem hparts.table
  obtain ⟨hsame, hempty⟩ | ⟨guard, frames, halloc, hnext⟩ := takeGuard_cases s₁
  · rw [hsame, hempty] at hroot
    exact hroot.elim
  · have hguarded := hstack.alloc halloc
    have htable := hparts.table
    rw [hnext] at htable hroot
    have hguard := FrameSource.alloc_mem halloc
    refine ⟨guard, hstack.fewer hguard, fun hmem => hstack.held guard (.inr hmem) hguard,
      hguarded.fewer hroot, hfresh, (hguarded.zeroed htable).takeGuard.mono ?_, ?_, ?_⟩
    · rintro t (rfl | rfl)
      exacts [.inl rfl, .inr (.inl rfl)]
    · rintro rfl
      exact not_mem_free_alloc halloc hroot
    · rw [takeGuard_mem]
      exact (Mm.zeroed_root htable).1

lemma Loads.exists_guard (hload : Loads arch kernelRoot image k k' process)
    (hkernel : arch = .x86_64 → ∃ kpos, AddressSpace .x86_64 kpos k.machine kernelRoot) :
    ∃ guard, IsGuard arch process k k' guard := by
  cases hload with
  | whole hrun =>
    obtain ⟨_, _, _, _, hparts⟩ := fromElf_ok hrun
    obtain ⟨guard, hprepared⟩ := hparts.exists_prepared hkernel
    have hloaded := Outcome.each_invariant (fun _ _ _ _ hs hrun => hs.loadSegment hrun)
      (hprepared.copyKernelMappings hparts.kernel) hparts.segments
    exact ⟨guard, hprepared.isGuard (hloaded.mapUserStack hparts.userStack)⟩
  | streaming hrun =>
    obtain ⟨_, _, _, _, hparts⟩ := fromElfStreaming_ok hrun
    obtain ⟨guard, hprepared⟩ := hparts.exists_prepared hkernel
    have hloaded := (hprepared.copyKernelMappings hparts.kernel).streamSegments hparts.segments
    exact ⟨guard, hprepared.isGuard (hloaded.streamStacks hparts.stackPages)⟩

end KarteOs.Process

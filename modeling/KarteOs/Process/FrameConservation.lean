import KarteOs.Process.LoadTotal
import KarteOs.Process.LoadedSpace

/-! # Frames over the life of a process

What a process takes from the allocator should come back when it is reclaimed, and
until then be a table, a mapped frame or part of its kernel stack. The loaders take a
guard frame that no one remembers, so no process gives back what it took.
-/

namespace KarteOs.Process

universe u

open Mm Syscall RadixTree FrameSource Transition MemoryEvent Format List Option Nat

variable {σ : Type u}

/-! ## The books of a process -/

inductive IsTable (arch : Arch) (mem : Memory) (root : Nat) : Nat → Nat → Prop
  | root : IsTable arch mem root (rootLevel arch) root
  | child {level table i next : Nat} : IsTable arch mem root (level + 1) table → i < pteCount →
      (format arch).child (mem table i) = some next → IsTable arch mem root level next

/-- A process reaches its tables, the frames that they map and its kernel stack. -/
def Reaches (arch : Arch) (process : Process) (mem : Memory) (frame : Nat) : Prop :=
  (∃ level, IsTable arch mem process.pageTableRoot level frame) ∨
    (∃ n < pteCount ^ arch.ptLevels, ∃ flags,
      pages arch mem process.pageTableRoot n = some (frame, flags)) ∨
    frame ∈ stackFrames arch process.kernelStackTop

/-- `brk`, `mmap`, `munmap`, `madvise` with `MADV_DONTNEED`, and page faults. -/
def MemoryEvent.IsPaging {arch : Arch} : MemoryEvent arch → Prop
  | .call (.mprotect _ _ _) => False
  | .call (.madvise _ _ advice) => advice = 4
  | _ => True

/-- The books of a process balance: in every run, the frames that are missing from the
allocator since before it was loaded are within its reach, and reclaiming it brings back
the frames that were free before it was loaded. -/
def Conserves [ContiguousSource σ (2 ^ 40)] (arch : Arch) (process : Process)
    (k₀ k₁ : Kernel σ) : Prop :=
  ∀ events k, (∀ event ∈ events, event.IsPaging) →
    Run (Step arch process.pageTableRoot) k₁ events k →
      (∀ frame ∈ free k₀.machine.frames \ free k.machine.frames,
        Reaches arch process k.machine.mem frame) ∧
      free (reclaimProcess arch process k).machine.frames = free k₀.machine.frames

/-! ## Releasing the frames -/

section
variable [FrameSource σ (2 ^ 40)] {arch : Arch} {pos : Layout} {s : Machine σ} {guard level : Nat}

lemma Narrow.ppn_lt (hnarrow : Narrow arch pos) {pte : PTE} (hpos : pos (pte.ppn arch) ≠ none) :
    pte.ppn arch < 2 ^ 40 := by
  cases arch with
  | riscv64 => exact hnarrow rfl _ hpos
  | x86_64 => exact PTE.ppn_lt .x86_64 pte

/-- A frame is out of the reach of `free_level` if it is no table and no user page of
the numbers under `table` maps it. -/
def Spared (arch : Arch) (pos : Layout) (mem : Memory) (level table guard : Nat) : Prop :=
  ∀ n, (format arch).At pos table level n → ∀ pte,
    (format arch).lookup mem level table n = (0, pte) → pte.isValid arch = true →
      (pte.flags arch).isUser = true → pte.ppn arch < 2 ^ 40 ∧ guard ≠ pte.ppn arch

lemma Spared.child {mem : Memory} {table region i next : Nat}
    (hspared : Spared arch pos mem (level + 1) table guard)
    (hpos : pos table = some (level + 1, region)) (hi : i < pteCount)
    (hchild : (format arch).child (mem table i) = some next)
    (hnext : pos next = some (level, region * pteCount + i)) :
    Spared arch pos mem level next guard := by
  intro n hat pte hlookup
  have hcell : region * pteCount + i = (format arch).cell (level + 1) n := by
    simpa using hnext.symm.trans hat
  have hindex : (format arch).index (level + 1) n = i := by
    rw [index, ← hcell]
    exact mul_add_mod_of_lt hi
  have habove : (format arch).At pos table (level + 1) n := by
    rw [At, hpos, cell_succ, ← hcell]
    have hdiv : (region * pteCount + i) / pteCount = region := by
      simp only [pteCount] at hi ⊢
      omega
    exact congrArg (fun r => some (level + 1, r)) hdiv.symm
  refine hspared n habove pte ?_
  rw [lookup_of_child _ (hindex ▸ hchild), hlookup]

lemma not_mem_free_freeLevel (hsound : Sound arch pos s) (hnarrow : Narrow arch pos)
    (hguard : pos guard = none) {table region : Nat} (hpos : pos table = some (level, region))
    (hspared : Spared arch pos s.mem level table guard) {frames : σ}
    (hframes : guard ∉ free frames) :
    guard ∉ free (freeLevel arch s.mem (level + 1) table frames) := by
  induction level generalizing table region frames with
  | zero =>
    rw [freeLevel]
    refine not_mem_free_foldl (fun frames hframes i hi => ?_) hframes
    have hi := mem_range.mp hi
    by_cases hvalid : (s.mem table i).isValid arch
    · by_cases huser : ((s.mem table i).flags arch).isUser
      · have hcell : (format arch).cell 1 (region * pteCount + i) = region := by
          simp only [cell_eq, pteCount] at hi ⊢
          omega
        have hindex : (format arch).index 0 (region * pteCount + i) = i := by
          rw [index_zero]
          exact mul_add_mod_of_lt hi
        obtain ⟨hlt, hne⟩ := hspared (region * pteCount + i) (by rw [At, hpos, hcell])
          (s.mem table i) (by rw [Format.lookup, hindex]) hvalid huser
        simpa [hvalid, huser] using not_mem_free_dealloc hlt hne hframes
      · simpa [hvalid, huser] using hframes
    · simpa [hvalid] using hframes
  | succ level ih =>
    rw [freeLevel]
    refine not_mem_free_foldl (fun frames hframes i hi => ?_) hframes
    have hi := mem_range.mp hi
    by_cases hvalid : (s.mem table i).isValid arch
    · cases hhuge : (s.mem table i).isHuge arch with
      | true => simpa [hvalid, hhuge] using hframes
      | false =>
        have hentry := hsound.entries table level region hpos i hi hvalid
        rw [if_neg (by simp [hhuge])] at hentry
        have hchild : (format arch).child (s.mem table i) = some ((s.mem table i).ppn arch) :=
          child_eq_some.mpr ⟨hvalid, hhuge, hentry.1, rfl⟩
        have hnext := hsound.typed table level region hpos i hi _ hchild
        have hbelow := ih hnext (hspared.child hpos hi hchild hnext) hframes
        have hne : guard ≠ (s.mem table i).ppn arch := by
          rintro rfl
          cases hguard.symm.trans hnext
        simpa [hvalid, hhuge] using
          not_mem_free_dealloc (hnarrow.ppn_lt (by rw [hnext]; simp)) hne hbelow
    · simpa [hvalid] using hframes

end

/-! ## The guard frame -/

section
variable [ContiguousSource σ (2 ^ 40)] {arch : Arch} {pos : Layout} {process : Process}
  {k k₀ k₁ : Kernel σ} {guard root vaddr : Nat} {lost : Set Nat} {s : Machine σ}

/-- The frame is no user page of the process, and the user pages are frames. -/
def Unmapped (arch : Arch) (mem : Memory) (root guard : Nat) : Prop :=
  ∀ n < pteCount ^ arch.ptLevels, inHugePage arch mem root n = false → ∀ frame flags,
    pages arch mem root n = some (frame, flags) → flags.isUser = true →
      frame < 2 ^ 40 ∧ guard ≠ frame

lemma Unmapped.spared {mem : Memory} (hunmapped : Unmapped arch mem root guard)
    (hroot : pos root = some (rootLevel arch, 0)) :
    Spared arch pos mem (rootLevel arch) root guard := by
  intro n hat pte hlookup hvalid huser
  have hlevels : rootLevel arch + 1 = arch.ptLevels := by cases arch <;> rfl
  have hcell : 0 = n / pteCount ^ (rootLevel arch + 1) := by
    simpa [cell_eq] using hroot.symm.trans hat
  have hn : n < pteCount ^ arch.ptLevels := by
    rw [hlevels] at hcell
    exact (div_eq_zero_iff_lt (Nat.pow_pos (by decide))).mp hcell.symm
  refine hunmapped n hn ?_ (pte.ppn arch) (pte.flags arch) ?_ huser
  · rw [inHugePage, hlookup]
    rfl
  · rw [pages, hlookup, leafOf, if_pos hvalid, if_pos rfl]

lemma not_mem_free_deallocKernelStack {top : Nat} {frames : σ}
    (hstack : ∀ t ∈ stackFrames arch top, t < 2 ^ 40) (hguard : guard ∉ stackFrames arch top)
    (hframes : guard ∉ free frames) : guard ∉ free (deallocKernelStack arch top frames) := by
  rw [deallocKernelStack]
  refine not_mem_free_foldl (fun frames hframes addr haddr => ?_) hframes
  obtain ⟨i, hi, rfl⟩ := List.mem_map.mp haddr
  have hdiv : (kernelStackPhysBase arch top + i * pageSize) / pageSize =
      kernelStackPhysBase arch top / pageSize + i := add_mul_div_right _ _ (by decide)
  have hmem : kernelStackPhysBase arch top / pageSize + i ∈ stackFrames arch top :=
    ⟨Nat.le_add_right .., Nat.add_lt_add_left (mem_range.mp hi) _⟩
  rw [hdiv]
  refine not_mem_free_dealloc (hstack _ hmem) ?_ hframes
  rintro rfl
  exact hguard hmem

lemma IsGuard.not_mem_free_reclaimProcess (hguard : IsGuard arch process k₀ k₁ guard)
    (hspace : Apart arch process.pageTableRoot {guard} k.machine)
    (hunmapped : Unmapped arch k.machine.mem process.pageTableRoot guard) :
    guard ∉ free (reclaimProcess arch process k).machine.frames := by
  obtain ⟨pos, hspace', hnone, hnarrow⟩ := hspace.space
  have hpos := hnone guard rfl
  have hne : guard ≠ process.pageTableRoot := by
    rintro rfl
    cases hpos.symm.trans hspace'.root_pos
  have hlevels : rootLevel arch + 1 = arch.ptLevels := by cases arch <;> rfl
  have htables := not_mem_free_freeLevel hspace'.toSound hnarrow hpos hspace'.root_pos
    (hunmapped.spared hspace'.root_pos) (hspace.held guard rfl)
  rw [hlevels] at htables
  have hroot := not_mem_free_dealloc (free_range hguard.root).2 hne htables
  exact not_mem_free_deallocKernelStack (fun t ht => (free_range (hguard.stack ht)).2)
    hguard.not_stack hroot

/-! ## A run after which the guard is lost -/

lemma pageRange_one (haligned : vaddr % pageSize = 0) (hlt : vaddr < 2 ^ 48) :
    pageRange (alignDown vaddr) (wrappingAlignUp (vaddr + 1)) = [vaddr] := by
  have hstart : alignDown vaddr = vaddr := by
    simp only [alignDown, pageSize] at haligned ⊢
    omega
  have hstop : wrappingAlignUp (vaddr + 1) = vaddr + pageSize := by
    simp only [wrappingAlignUp, wrappingAdd, alignDown, usizeRange, pageSize] at haligned ⊢
    omega
  rw [hstart, hstop, pageRange, Nat.add_sub_cancel_left, Nat.div_self (by decide)]
  simp

def dontneed (arch : Arch) (vaddr : Nat) : MemoryEvent arch := .call (.madvise vaddr 1 4)

lemma dontneed_step (haligned : vaddr % pageSize = 0) (hlt : vaddr < 2 ^ 48) :
    Step arch root k (dontneed arch vaddr)
      { k with machine := (unmapUser arch k.machine root vaddr).1 } := by
  have hadvice : adviceOf 4 = .decommit := rfl
  simp only [Step, dontneed, apply, MemoryCall.apply, linuxMadvise,
    hadvice, unmapRange, pageRange_one haligned hlt, foldl_cons, foldl_nil]
  rfl

lemma dontneed_run {vaddrs : List Nat}
    (hvaddrs : ∀ vaddr ∈ vaddrs, vaddr % pageSize = 0 ∧ vaddr < 2 ^ 48) (k : Kernel σ) :
    Run (Step arch root) k (vaddrs.map (dontneed arch)) { k with
      machine := vaddrs.foldl (fun s vaddr => (unmapUser arch s root vaddr).1) k.machine } := by
  induction vaddrs generalizing k with
  | nil => exact .nil k
  | cons vaddr rest ih =>
    obtain ⟨haligned, hlt⟩ := hvaddrs vaddr (.head _)
    exact .cons (dontneed_step haligned hlt) (ih (fun v hv => hvaddrs v (.tail _ hv)) _)

lemma Apart.unmapPages (hs : Apart arch root lost s) (vaddrs : List Nat) :
    Apart arch root lost (vaddrs.foldl (fun s vaddr => (unmapUser arch s root vaddr).1) s) := by
  obtain ⟨pos, hspace, hnone, hnarrow⟩ := hs.space
  have hrw := unmapPages_spec hspace vaddrs
  exact ⟨⟨pos, hrw.space, hnone, hnarrow⟩,
    fun t ht hfree => hs.held t ht (hrw.grows.shrink hfree)⟩

lemma Apart.exists_unmapped (hs : Apart arch root lost s) (guard : Nat) :
    ∃ vaddrs : List Nat, (∀ vaddr ∈ vaddrs, vaddr % pageSize = 0 ∧ vaddr < 2 ^ 48) ∧
      Unmapped arch (vaddrs.foldl (fun s vaddr => (unmapUser arch s root vaddr).1) s).mem root
        guard := by
  classical
  obtain ⟨pos, hspace, -⟩ := hs.space
  -- a leaf past the physical memory is no frame, and nothing is known of releasing it
  let mapped (n : Nat) : Prop := ∃ frame flags,
    pages arch s.mem root n = some (frame, flags) ∧ flags.isUser ∧ (2 ^ 40 ≤ frame ∨ frame = guard)
  let numbers := (range (pteCount ^ arch.ptLevels)).filter fun n => decide (mapped n)
  refine ⟨numbers.map (· * pageSize), ?_, ?_⟩
  · intro vaddr hvaddr
    obtain ⟨n, hn, rfl⟩ := List.mem_map.mp hvaddr
    have hlt := mem_range.mp (mem_filter.mp hn).1
    refine ⟨mul_mod_left .., ?_⟩
    have hwidth : pteCount ^ arch.ptLevels ≤ 2 ^ 36 := by cases arch <;> decide
    simp only [pageSize]
    omega
  · have hrw := unmapPages_spec hspace (numbers.map (· * pageSize))
    intro n hn hhuge frame flags hpage huser
    rw [hrw.huge n hn] at hhuge
    rw [hrw.pages n hn] at hpage
    split at hpage
    · cases hpage
    next hkept =>
      by_contra hbad
      refine hkept ⟨List.mem_map.mpr ⟨n * pageSize, List.mem_map.mpr ⟨n, ?_, rfl⟩, ?_⟩, hhuge⟩
      · refine mem_filter.mpr ⟨mem_range.mpr hn, decide_eq_true ?_⟩
        refine ⟨frame, flags, hpage, huser, ?_⟩
        by_contra hfine
        push Not at hfine
        exact hbad ⟨hfine.1, hfine.2.symm⟩
      · rw [pageNumber, Nat.mul_div_cancel _ (by decide : 0 < pageSize), mod_eq_of_lt hn]

lemma IsGuard.exists_leak (hguard : IsGuard arch process k₀ k₁ guard) :
    ∃ events k, (∀ event ∈ events, event.IsPaging) ∧
      Run (Step arch process.pageTableRoot) k₁ events k ∧
        guard ∉ free (reclaimProcess arch process k).machine.frames := by
  obtain ⟨vaddrs, hvaddrs, hunmapped⟩ := hguard.apart.exists_unmapped guard
  refine ⟨vaddrs.map (dontneed arch), _, ?_, dontneed_run hvaddrs k₁,
    hguard.not_mem_free_reclaimProcess (hguard.apart.unmapPages vaddrs) hunmapped⟩
  intro event hevent
  obtain ⟨vaddr, -, rfl⟩ := List.mem_map.mp hevent
  rfl

lemma IsGuard.leaks (hguard : IsGuard arch process k₀ k₁ guard) :
    ¬Conserves arch process k₀ k₁ := by
  intro hconserves
  obtain ⟨events, k, hpaging, hrun, hleak⟩ := hguard.exists_leak
  rw [(hconserves events k hpaging hrun).2] at hleak
  exact hleak hguard.taken

/-- No loaded process conserves the frames. -/
theorem Loads.not_conserves {kernelRoot : Nat} {image : Image}
    (hload : Loads arch kernelRoot image k₀ k₁ process)
    (hkernel : arch = .x86_64 → ∃ kpos, AddressSpace .x86_64 kpos k₀.machine kernelRoot) :
    ¬ Conserves arch process k₀ k₁ := by
  obtain ⟨guard, hguard⟩ := hload.exists_guard hkernel
  exact hguard.leaks

end

/-! ## Programs that do nothing

On riscv64 a guard is mapped by its own identity page at most, unless a segment lies at
addresses that Sv39 takes for those of the identity map.
-/

section
variable [FrameSource σ (2 ^ 40)] {root guard vaddr frame : Nat} {lost : Set Nat} {s s' : Machine σ}

/-- The pages map frames, and only its own page maps the guard, for the kernel. -/
structure Kept (root guard : Nat) (lost : Set Nat) (s : Machine σ) : Prop where
  member : guard ∈ lost
  apart : Apart .riscv64 root lost s
  leaves : ∀ n < pteCount ^ Arch.riscv64.ptLevels, ∀ frame flags,
    pages .riscv64 s.mem root n = some (frame, flags) →
      frame < 2 ^ 40 ∧ (frame = guard → n = guard ∧ flags.isUser = false)

lemma Kept.unmapped (hs : Kept root guard lost s) : Unmapped .riscv64 s.mem root guard := by
  intro n hn _ frame flags hpage huser
  obtain ⟨hlt, hown⟩ := hs.leaves n hn frame flags hpage
  refine ⟨hlt, ?_⟩
  rintro rfl
  cases huser.symm.trans (hown rfl).2

variable {flags : PTEFlags .riscv64} {frames : σ}

section
variable (hs : Kept root guard lost s)
include hs

lemma Kept.map {paddr : Nat} (hmap : Mm.map .riscv64 s root vaddr paddr flags = some s')
    (hlt : paddr / pageSize < 2 ^ 40)
    (hown : paddr / pageSize = guard → pageNumber .riscv64 vaddr = guard ∧ flags.isUser = false) :
    Kept root guard lost s' := by
  refine ⟨hs.member, (hs.apart.map hmap).1, fun n hn frame flags' hpage => ?_⟩
  obtain ⟨pos, hspace, -⟩ := hs.apart.space
  obtain ⟨pos', hupdates⟩ := hspace.map_spec hmap
  rw [hupdates.pages n hn] at hpage
  split at hpage
  next heq =>
    have hwidth : paddr / pageSize < 2 ^ Arch.riscv64.ppnWidth := hlt.trans (by decide)
    rw [leafOf] at hpage
    split at hpage
    · rw [if_pos rfl, PTE.ppn_new _ hwidth, PTE.flags_new _ hwidth] at hpage
      cases hpage
      exact ⟨hlt, fun hframe => heq ▸ hown hframe⟩
    · cases hpage
  · exact hs.leaves n hn frame flags' hpage

lemma Kept.alloc (halloc : FrameSource.alloc s.frames = some (frame, frames)) :
    Kept root guard (insert frame lost) { s with frames } ∧ frame < 2 ^ 40 ∧ frame ≠ guard := by
  refine ⟨⟨.inr hs.member, hs.apart.alloc halloc, hs.leaves⟩, alloc_lt halloc, ?_⟩
  rintro rfl
  exact hs.apart.held _ hs.member (FrameSource.alloc_mem halloc)

lemma Kept.mono {few : Set Nat} (hsubset : few ⊆ lost) (hfew : guard ∈ few) :
    Kept root guard few s :=
  ⟨hfew, hs.apart.mono hsubset, hs.leaves⟩

lemma Kept.setFrame (hframe : frame ∈ lost) (words : Nat → PTE) :
    Kept root guard lost (s.setFrame frame words) := by
  refine ⟨hs.member, hs.apart.setFrame hframe words, fun n hn leaf flags hpage => ?_⟩
  obtain ⟨pos, hspace, hnone, -⟩ := hs.apart.space
  have hmem : ∀ t, pos t ≠ none → (s.setFrame frame words).mem t = s.mem t := by
    intro t ht
    refine Function.update_of_ne ?_ _ _
    rintro rfl
    exact ht (hnone _ hframe)
  rw [(hspace.pages_congr hmem hn).1] at hpage
  exact hs.leaves n hn leaf flags hpage

lemma Kept.mapFresh (halloc : FrameSource.alloc s.frames = some (frame, frames))
    (hmap : Mm.map .riscv64 { s with frames } root vaddr (frame * pageSize) flags = some s') :
    Kept root guard (insert frame lost) s' := by
  obtain ⟨htaken, hlt, hne⟩ := hs.alloc halloc
  have hdiv : frame * pageSize / pageSize = frame := Nat.mul_div_cancel _ (by decide)
  refine htaken.map hmap (by rwa [hdiv]) fun hguard => ?_
  exact absurd (hdiv.symm.trans hguard) hne

end

lemma Kept.mapIdentity (hflags : flags.isUser = false) {vaddrs : List Nat}
    (hvaddrs : ∀ vaddr ∈ vaddrs, vaddr < 2 ^ 39) (hs : Kept root guard lost s)
    (hrun : mapPages .riscv64 root flags (identity vaddrs) s = some s') :
    Kept root guard lost s' := by
  induction vaddrs generalizing s with
  | nil =>
    cases hrun
    exact hs
  | cons vaddr rest ih =>
    rw [identity, map_cons, mapPages, foldlM_cons] at hrun
    obtain ⟨middle, hmap, hrest⟩ := bind_eq_some_iff.mp hrun
    have hlow := hvaddrs vaddr (.head _)
    have hnumber : pageNumber .riscv64 vaddr = vaddr / pageSize := by
      refine mod_eq_of_lt ?_
      simp only [pageSize, pteCount, Arch.ptLevels]
      omega
    have hlt : vaddr / pageSize < 2 ^ 40 := (Nat.div_le_self ..).trans_lt (by omega)
    exact ih (fun v hv => hvaddrs v (.tail _ hv))
      (hs.map hmap hlt fun hguard => ⟨hnumber.trans hguard, hflags⟩) hrest

lemma Kept.mapCleared {err : LoadError} (hs : Kept root guard lost s)
    (hrun : mapCleared .riscv64 root vaddr flags err s = some (s', none)) :
    Kept root guard lost s' := by
  obtain ⟨frame, frames, mapped, hframe, hmap, rfl⟩ := mapCleared_ok hrun
  have hmapped := hs.mapFresh hframe hmap
  exact (hmapped.setFrame (Set.mem_insert ..) _).mono (Set.subset_insert ..) hs.member

lemma Kept.backPage (hs : Kept root guard lost s) (haligned : vaddr % pageSize = 0)
    (hlow : vaddr < 2 ^ 39) (hrun : backPage .riscv64 root flags vaddr s = some (s', none)) :
    Kept root guard lost s' := by
  rcases backPage_ok hrun with hcleared | ⟨addr, merged, hframe, hne, hmap⟩
  · exact hs.mapCleared hcleared
  · obtain ⟨pos, hspace, -⟩ := hs.apart.space
    rw [hspace.translateUser_eq] at hframe
    obtain ⟨⟨leaf, old⟩, hleaf, rfl⟩ := map_eq_some_iff.mp hframe
    obtain ⟨hlt, hown⟩ := hs.leaves _ (pageNumber_lt ..) leaf old hleaf
    have haddr : leafAddr vaddr (leaf, old) = leaf * pageSize := by simp [leafAddr, haligned]
    have hdiv : leafAddr vaddr (leaf, old) / pageSize = leaf := by
      rw [haddr]
      exact Nat.mul_div_cancel _ (by decide)
    -- only the guard's own page maps the guard, and there the address is the page's
    refine hs.map hmap (by rwa [hdiv]) fun hguard => ?_
    obtain ⟨hnumber, -⟩ := hown (hdiv.symm.trans hguard)
    refine absurd ?_ hne
    rw [haddr, ← hdiv, hguard, ← hnumber, pageNumber]
    simp only [pageSize, pteCount, Arch.ptLevels] at haligned ⊢
    omega

lemma Kept.loadSegment {copy : Segment → Nat → Option Bool} {seg : Segment}
    (hlow : ∀ vaddr ∈ seg.pages, vaddr < 2 ^ 39) (hs : Kept root guard lost s)
    (hrun : loadSegment .riscv64 root copy seg s = some (s', none)) : Kept root guard lost s' := by
  refine loadSegment_invariant (fun vaddr hvaddr s s' hs hback => ?_) hs hrun
  have haligned := ((mem_pageRange (alignDown_mod _)).mp hvaddr).1
  exact .backPage hs haligned (hlow vaddr hvaddr) hback

lemma Kept.mapUserStack (hs : Kept root guard lost s)
    (hrun : mapUserStack .riscv64 root s = some (s', none)) : Kept root guard lost s' := by
  refine mapUserStack_invariant (fun vaddr _ frame frames s s' hs hframe hmap => ?_) hs hrun
  exact .mono (.mapFresh hs hframe hmap) (Set.subset_insert ..) hs.member

end

section
variable [ContiguousSource σ (2 ^ 40)] {process : Process} {k k₀ k₁ : Kernel σ}
  {kernelRoot : Nat} {image : Image}

lemma mem_pagesFrom_lt {base count limit vaddr : Nat} (hlimit : base + count * pageSize ≤ limit)
    (hvaddr : vaddr ∈ pagesFrom base count) : vaddr < limit := by
  obtain ⟨i, hi, rfl⟩ := List.mem_map.mp hvaddr
  have hi := mem_range.mp hi
  simp only [pageSize] at hlimit ⊢
  omega

lemma Prepared.kept {s s' : Machine σ} {guard top : Nat}
    (hprepared : Prepared .riscv64 kernelRoot process k s guard)
    (hrun : Process.copyKernelMappings kernelRoot process.pageTableRoot top .riscv64 s = some s') :
    Kept process.pageTableRoot guard {guard} s' := by
  have howned := hprepared.reserved.held _ (Set.mem_insert ..)
  have hempty : Kept process.pageTableRoot guard {guard} s := by
    refine ⟨rfl, ⟨⟨_, emptyTable_space hprepared.zero howned, ?_, ?_⟩, ?_⟩, ?_⟩
    · rintro t rfl
      exact rootLayout_of_ne hprepared.root_ne.symm
    · intro _ t ht
      exact eq_of_rootLayout ht ▸ (free_range hprepared.root).2
    · exact fun t ht => hprepared.reserved.held t (Set.mem_insert_of_mem _ ht)
    · intro n hn frame flags hpage
      rw [(emptyTable_pages hprepared.zero n).1] at hpage
      cases hpage
  rw [Process.copyKernelMappings] at hrun
  obtain ⟨middle, hram, hdevices⟩ := bind_eq_some_iff.mp hrun
  have hmiddle := hempty.mapIdentity (by decide)
    (fun vaddr hvaddr => mem_pagesFrom_lt (by decide) hvaddr) hram
  refine hmiddle.mapIdentity (by decide) (fun vaddr hvaddr => ?_) hdevices
  rcases mem_cons.mp hvaddr with rfl | hvaddr
  · decide
  · rcases mem_append.mp hvaddr with hvaddr | hvaddr
    exacts [mem_pagesFrom_lt (by decide) hvaddr, mem_pagesFrom_lt (by decide) hvaddr]

lemma Loads.leaks (hload : Loads .riscv64 kernelRoot image k₀ k₁ process)
    (hlow : ∀ seg ∈ image.segments, ∀ vaddr ∈ seg.pages, vaddr < 2 ^ 39) :
    ∃ guard ∈ free k₀.machine.frames,
      guard ∉ free (reclaimProcess .riscv64 process k₁).machine.frames := by
  cases hload with
  | whole hrun =>
    obtain ⟨_, _, _, _, hparts⟩ := fromElf_ok hrun
    obtain ⟨guard, hprepared⟩ := hparts.exists_prepared nofun
    have hloaded := Outcome.each_invariant
      (fun seg hseg _ _ hs hrun => .loadSegment (hlow seg hseg) hs hrun)
      (hprepared.kept hparts.kernel) hparts.segments
    have hkept := hloaded.mapUserStack hparts.userStack
    exact ⟨guard, hprepared.taken,
      (hprepared.isGuard hkept.apart).not_mem_free_reclaimProcess hkept.apart hkept.unmapped⟩
  | streaming hrun =>
    obtain ⟨_, _, _, _, hparts⟩ := fromElfStreaming_ok hrun
    obtain ⟨guard, hprepared⟩ := hparts.exists_prepared nofun
    obtain ⟨s₅, hsegments, hdone⟩ := Outcome.andThen_ok hparts.segments
    cases hdone
    have hloaded := Outcome.each_invariant
      (fun seg hseg _ _ hs hrun => Kept.loadSegment (hlow seg hseg) hs hrun)
      (hprepared.kept hparts.kernel) hsegments
    obtain ⟨s₆, huser, hdone⟩ := Outcome.andThen_ok hparts.stackPages
    have hkept := hloaded.mapUserStack huser
    obtain hlast := (Prod.mk.inj (some.inj hdone)).1
    rw [hlast] at hkept
    exact ⟨guard, hprepared.taken,
      (hprepared.isGuard hkept.apart).not_mem_free_reclaimProcess hkept.apart hkept.unmapped⟩

end

lemma onePage_low {vaddr : Nat} (haligned : vaddr % pageSize = 0) (hlow : vaddr < ramEnd) :
    ∀ seg ∈ (onePage vaddr).segments, ∀ page ∈ seg.pages, page < 2 ^ 39 := by
  intro seg hseg page hpage
  obtain rfl := mem_singleton.mp hseg
  rw [textPage_pages haligned (hlow.trans (by decide)), mem_singleton] at hpage
  exact hpage ▸ hlow.trans (by decide)

/-- The first program of a fresh kernel does nothing and exits; its guard stays taken. -/
theorem exit_leaks_guard : ∃ k process,
    fromElfStreaming .riscv64 0 (onePage 0x10000) bootKernel = some (k, .ok process) ∧
      (∃ guard ∈ free bootKernel.machine.frames,
        guard ∉ free (reclaimProcess .riscv64 process k).machine.frames) ∧
      ¬ Conserves .riscv64 process bootKernel k := by
  have haligned : 0x10000 % pageSize = 0 := rfl
  have hlow : 0x10000 < ramEnd := by decide
  obtain ⟨k, process, hrun⟩ := fromElfStreaming_onePage haligned hlow
  obtain ⟨guard, hfree, hleak⟩ :=
    (Loads.streaming hrun).leaks (onePage_low haligned hlow)
  refine ⟨k, process, hrun, ⟨guard, hfree, hleak⟩, fun hconserves => ?_⟩
  rw [(hconserves [] k (by simp) (.nil k)).2] at hleak
  exact hleak hfree

theorem not_conserves_onePage : ∃ k process,
    Loads .riscv64 0 (onePage 0x10000) bootKernel k process ∧
      ¬ Conserves .riscv64 process bootKernel k := by
  have haligned : 0x10000 % pageSize = 0 := rfl
  have hlow : 0x10000 < ramEnd := by decide
  obtain ⟨k, process, hrun⟩ := fromElfStreaming_onePage haligned hlow
  exact ⟨k, process, .streaming hrun, (Loads.streaming hrun).not_conserves nofun⟩

end KarteOs.Process

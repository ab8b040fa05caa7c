import KarteOs.Mm.Pointwise
import KarteOs.Process.LoadSpec

/-! # Loading with enough memory

On riscv64 the loader fails and panics for want of frames only. All that it maps
lies below the end of RAM, by the bits of an address that Sv39 translates. A 2 MiB
region of these addresses needs at most two tables, whatever is mapped in it, so a
process comes out whenever there are frames for the tables of all regions, for the
pages of the image and for the stacks.
-/

namespace KarteOs.Process

universe u

open Mm Syscall RadixTree FrameSource Machine PTEFlags List Option Nat

variable {σ : Type u} {vaddr first : Nat}

def ramEnd : Nat := 0x88200000

def regionCount : Nat := ramEnd / 2 ^ 21

def Served (root : Nat) (mem : Memory) (region : Nat) : Prop :=
  ∃ n < pteCount ^ Arch.riscv64.ptLevels, n / pteCount = region ∧
    (pages .riscv64 mem root n).isSome = true

/-- The page is in one of these regions, by the bits of its address that Sv39 translates. -/
def Within (vaddr : Nat) : Prop := pageNumber .riscv64 vaddr / pteCount < regionCount

lemma within_of_lt (hvaddr : vaddr < ramEnd) : Within vaddr := by
  have hsize : pteCount ^ Arch.riscv64.ptLevels = 2 ^ 27 := by decide
  rw [Within, pageNumber, hsize]
  simp only [ramEnd, regionCount, pageSize, pteCount] at *
  omega

lemma Served.bottom {root n region : Nat} {mem : Memory} (hserved : Served root mem region)
    (hn : n / pteCount = region) :
    ∃ leaf, (format .riscv64).bottom mem (rootLevel .riscv64) root n = some leaf := by
  obtain ⟨m, -, hm, hsome⟩ := hserved
  have hcell : (format .riscv64).cell 1 m = (format .riscv64).cell 1 n := by
    rw [cell_eq, cell_eq, Nat.pow_one, hm, hn]
  rw [← (format .riscv64).bottom_congr mem hcell]
  cases hbottom : (format .riscv64).bottom mem (rootLevel .riscv64) root m with
  | some leaf => exact ⟨leaf, rfl⟩
  | none =>
    -- riscv64 has no huge pages here: a lookup that stops early finds no leaf
    have hstop := ((format .riscv64).lookup_of_bottom_none hbottom).1
    rw [pages, leafOf, if_neg hstop] at hsome
    simp [PTE.isHuge] at hsome

section
variable [FrameSource σ (2 ^ 40)] {root spare vaddr : Nat} {s next : Machine σ} {pos : Layout}

/-- Tables for the regions that have none yet, and `spare` frames beside them. -/
def RoomFor (root spare : Nat) (mem : Memory) (frames : σ) : Prop :=
  ∃ missing : Finset Nat, (∀ region < regionCount, region ∈ missing ∨ Served root mem region) ∧
    ((2 * missing.card + spare : Nat) : ℕ∞) ≤ (free frames).encard

/-- The table under `root` is in order and there is room. -/
structure Roomy (root spare : Nat) (s : Machine σ) : Prop where
  space : ∃ pos, AddressSpace .riscv64 pos s root
  room : RoomFor root spare s.mem s.frames

variable {flags : PTEFlags .riscv64}

lemma Served.map {paddr region : Nat} (hspace : AddressSpace .riscv64 pos s root)
    (hflags : flags.contains (.valid .riscv64))
    (hmap : Mm.map .riscv64 s root vaddr paddr flags = some next)
    (hserved : Served root s.mem region ∨ pageNumber .riscv64 vaddr / pteCount = region) :
    Served root next.mem region := by
  obtain ⟨pos', hupdates⟩ := hspace.map_spec hmap
  have hleaf : leafOf .riscv64 (0, .new .riscv64 (paddr / pageSize) flags)
      (pageNumber .riscv64 vaddr) ≠ none := by
    rw [leafOf_zero (by rw [PTE.isValid_new, hflags])]
    simp
  rcases hserved with ⟨n, hn, hregion, hsome⟩ | hregion
  · refine ⟨n, hn, hregion, ?_⟩
    rw [hupdates.pages n hn]
    split
    · exact isSome_iff_ne_none.mpr hleaf
    · exact hsome
  · refine ⟨_, pageNumber_lt .riscv64 vaddr, hregion, ?_⟩
    rw [hupdates.pages _ (pageNumber_lt .riscv64 vaddr), if_pos rfl]
    exact isSome_iff_ne_none.mpr hleaf

variable {mem : Memory} {frames : σ}

lemma Roomy.map (hroomy : Roomy root spare s) (hvaddr : Within vaddr) (paddr : Nat)
    (hflags : flags.contains (.valid .riscv64)) :
    ∃ next, map .riscv64 s root vaddr paddr flags = some next ∧ Roomy root spare next := by
  obtain ⟨pos, hspace⟩ := hroomy.space
  obtain ⟨missing, hregions, hroom⟩ := hroomy.room
  have hspaces : ∀ next, Mm.map .riscv64 s root vaddr paddr flags = some next →
      ∃ pos', AddressSpace .riscv64 pos' next root := by
    intro next hmap
    obtain ⟨pos', hupdates⟩ := hspace.map_spec hmap
    exact ⟨pos', hupdates.space⟩
  rcases hregions _ hvaddr with hmissing | hserved
  · have hcard := Finset.card_erase_add_one hmissing
    have hsplit : ((rootLevel .riscv64 : ℕ∞) + ((2 * (missing.erase
        (pageNumber .riscv64 vaddr / pteCount)).card + spare : Nat) : ℕ∞)) ≤
        (free s.frames).encard := by
      refine le_trans (le_of_eq ?_) hroom
      rw [← hcard, ← cast_add]
      exact congrArg _ (by simp only [rootLevel, Arch.ptLevels]; omega)
    obtain ⟨next, hmap, hspare⟩ : ∃ next, Mm.map .riscv64 s root vaddr paddr flags = some next ∧
        _ ≤ (free next.frames).encard := by
      refine hspace.map_total paddr flags hsplit ?_
      intro hhuge
      cases hhuge
    refine ⟨next, hmap, hspaces next hmap, _, fun region hregion => ?_, hspare⟩
    by_cases heq : pageNumber .riscv64 vaddr / pteCount = region
    · exact .inr (.map hspace hflags hmap (.inr heq))
    · refine (hregions region hregion).imp (fun hmem => ?_) fun hserved =>
        .map hspace hflags hmap (.inl hserved)
      exact Finset.mem_erase.mpr ⟨fun h => heq h.symm, hmem⟩
  · obtain ⟨leaf, hbottom⟩ := hserved.bottom rfl
    obtain ⟨next, hmap, hframes⟩ := hspace.map_of_bottom hbottom paddr flags
    refine ⟨next, hmap, hspaces next hmap, missing, fun region hregion => ?_, by rwa [hframes]⟩
    exact (hregions region hregion).imp_right fun hserved => .map hspace hflags hmap (.inl hserved)

lemma Roomy.mapPages (hroomy : Roomy root spare s)
    (hflags : flags.contains (.valid .riscv64)) {mappings : List (Nat × Nat)}
    (hlow : ∀ m ∈ mappings, m.1 < ramEnd) :
    ∃ next, mapPages .riscv64 root flags mappings s = some next ∧ Roomy root spare next := by
  induction mappings generalizing s with
  | nil => exact ⟨s, rfl, hroomy⟩
  | cons m rest ih =>
    obtain ⟨middle, hmap, hmiddle⟩ := hroomy.map (within_of_lt (hlow m (.head _))) m.2 hflags
    obtain ⟨next, hrest, hnext⟩ := ih hmiddle fun m' hm' => hlow m' (.tail _ hm')
    refine ⟨next, ?_, hnext⟩
    rw [Process.mapPages, foldlM_cons, hmap]
    exact hrest

lemma RoomFor.congr (hspace : AddressSpace .riscv64 pos s root)
    (hmem : ∀ t, pos t ≠ none → mem t = s.mem t) (hroom : RoomFor root spare s.mem frames) :
    RoomFor root spare mem frames := by
  obtain ⟨missing, hregions, hcard⟩ := hroom
  refine ⟨missing, fun region hregion => (hregions region hregion).imp_right ?_, hcard⟩
  rintro ⟨n, hn, hregion, hsome⟩
  exact ⟨n, hn, hregion, by rwa [(hspace.pages_congr hmem hn).1]⟩

lemma Roomy.alloc (hroomy : Roomy root (spare + 1) s) :
    ∃ frame frames pos, alloc s.frames = some (frame, frames) ∧
      AddressSpace .riscv64 pos { s with frames } root ∧ pos frame = none ∧
      Roomy root spare { s with frames } := by
  obtain ⟨pos, hspace⟩ := hroomy.space
  obtain ⟨missing, hregions, hroom⟩ := hroomy.room
  rw [← Nat.add_assoc, cast_add_one] at hroom
  obtain ⟨frame, frames, halloc⟩ := exists_alloc (nonempty_of_le_encard hroom)
  have hspace' : AddressSpace .riscv64 pos { s with frames } root :=
    hspace.congr (fun _ _ => rfl)
      fun t ht hfree => hspace.owned t ht (free_alloc_subset halloc hfree)
  exact ⟨frame, frames, pos, halloc, hspace', hspace.pos_eq_none halloc, ⟨pos, hspace'⟩,
    missing, hregions, le_encard_free_alloc halloc hroom⟩

lemma Roomy.takeGuard (hroomy : Roomy root (spare + 1) s) : Roomy root spare (takeGuard s) := by
  obtain ⟨frame, frames, -, halloc, -, -, hnext⟩ := hroomy.alloc
  rw [Process.takeGuard, allocFrame, halloc]
  exact hnext

lemma Roomy.of_zeroed (hzeroed : s.zeroed = some (root, next))
    (hroom : ((2 * regionCount + spare : Nat) : ℕ∞) ≤ (free next.frames).encard) :
    Roomy root spare next := by
  refine ⟨zeroed_space hzeroed, Finset.range regionCount, fun region hregion => ?_, ?_⟩
  · exact .inl (Finset.mem_range.mpr hregion)
  · rwa [Finset.card_range]

lemma le_encard_free_takeGuard {n : Nat} (hfree : ((n + 1 : Nat) : ℕ∞) ≤ (free s.frames).encard) :
    (n : ℕ∞) ≤ (free (Process.takeGuard s).frames).encard := by
  rw [cast_add_one] at hfree
  obtain ⟨frame, frames, halloc⟩ := exists_alloc (nonempty_of_le_encard hfree)
  rw [Process.takeGuard, allocFrame, halloc]
  exact le_encard_free_alloc halloc hfree

lemma Roomy.mapCleared (hroomy : Roomy root (spare + 1) s) (hvaddr : Within vaddr)
    (hflags : flags.contains (.valid .riscv64)) (err : LoadError) :
    ∃ next, mapCleared .riscv64 root vaddr flags err s = some (next, none) ∧
      Roomy root spare next := by
  obtain ⟨frame, frames, pos, halloc, hspace, hnone, hafter⟩ := hroomy.alloc
  obtain ⟨next, hmap, hnext⟩ := hafter.map hvaddr (frame * pageSize) hflags
  obtain ⟨pos', hupdates⟩ := hspace.map_spec hmap
  -- the new tables are frames that were still free, so the page's frame is none of them
  have hdata : pos' frame = none := by
    by_contra hsome
    exact not_mem_free_alloc halloc (hupdates.descent.fresh frame hnone hsome).1
  have hmem : ∀ t, pos' t ≠ none → (next.setFrame frame fun _ => 0).mem t = next.mem t := by
    intro t ht
    refine Function.update_of_ne ?_ _ _
    rintro rfl
    exact ht hdata
  refine ⟨next.setFrame frame fun _ => 0, ?_,
    ⟨pos', hupdates.space.congr hmem hupdates.space.owned⟩, hnext.room.congr hupdates.space hmem⟩
  simp only [Process.mapCleared, allocFrame, halloc, map_some, hmap,
    Nat.mul_div_cancel _ (by decide : 0 < pageSize)]

lemma RoomFor.mono {few : Nat} (hle : few ≤ spare) (hroom : RoomFor root spare mem frames) :
    RoomFor root few mem frames := by
  obtain ⟨missing, hregions, hcard⟩ := hroom
  refine ⟨missing, hregions, le_trans ?_ hcard⟩
  exact_mod_cast Nat.add_le_add_left hle _

lemma Roomy.backPage (hroomy : Roomy root (spare + 1) s) (hvaddr : Within vaddr)
    (hflags : flags.contains (.valid .riscv64)) :
    ∃ next, backPage .riscv64 root flags vaddr s = some (next, none) ∧ Roomy root spare next := by
  rw [Process.backPage]
  split
  next frame _ =>
    split
    · exact hroomy.mapCleared hvaddr hflags .segment
    · have hmerged :
          (mergePageFlags .riscv64 s.mem root vaddr flags).contains (.valid .riscv64) := by
        rw [mergePageFlags]
        split
        exacts [contains_or_of_right hflags, contains_or_of_right hflags, hflags]
      obtain ⟨next, hmap, hspace, hroom⟩ := hroomy.map hvaddr frame hmerged
      exact ⟨next, by rw [hmap]; rfl, hspace, hroom.mono (Nat.le_add_right spare 1)⟩
  · exact hroomy.mapCleared hvaddr hflags .segment

lemma Roomy.each {α : Type} {step : α → Machine σ → Outcome σ} {cost : α → Nat} {items : List α}
    (hstep : ∀ item ∈ items, ∀ (spare : Nat) (s : Machine σ), Roomy root (spare + cost item) s →
      ∃ next, step item s = some (next, none) ∧ Roomy root spare next)
    (hroomy : Roomy root (spare + (items.map cost).sum) s) :
    ∃ next, Outcome.each step items s = some (next, none) ∧ Roomy root spare next := by
  induction items generalizing s with
  | nil => exact ⟨s, rfl, hroomy⟩
  | cons item rest ih =>
    rw [map_cons, sum_cons, Nat.add_comm (cost item), ← Nat.add_assoc] at hroomy
    obtain ⟨middle, hfirst, hmiddle⟩ := hstep item (.head _) _ s hroomy
    obtain ⟨next, hrest, hnext⟩ := ih (fun item' hmem => hstep item' (.tail _ hmem)) hmiddle
    refine ⟨next, ?_, hnext⟩
    rw [Outcome.each, hfirst]
    exact hrest

lemma sum_ones (items : List Nat) : (items.map fun _ => 1).sum = items.length := by simp

lemma valid_elfSegmentPteFlags (flags : Nat) :
    (elfSegmentPteFlags .riscv64 flags).contains (.valid .riscv64) := by
  simp only [elfSegmentPteFlags]
  split_ifs <;> decide

lemma Roomy.loadSegment {copy : Segment → Nat → Option Bool} {seg : Segment}
    (hlow : ∀ vaddr ∈ seg.pages, Within vaddr) (hcopy : ∀ vaddr, copy seg vaddr = some true)
    (hroomy : Roomy root (spare + seg.pages.length) s) :
    ∃ next, loadSegment .riscv64 root copy seg s = some (next, none) ∧ Roomy root spare next := by
  rw [← sum_ones] at hroomy
  refine Roomy.each (fun vaddr hmem spare s hroomy => ?_) hroomy
  obtain ⟨next, hback, hnext⟩ :=
    hroomy.backPage (hlow vaddr hmem) (valid_elfSegmentPteFlags seg.flags)
  refine ⟨next, ?_, hnext⟩
  rw [hback, Outcome.andThen, bind_some, hcopy]
  rfl

lemma userStackVaddrs_lt (hvaddr : vaddr ∈ userStackVaddrs) : vaddr < ramEnd := by
  obtain ⟨i, -, rfl⟩ := List.mem_map.mp hvaddr
  refine lt_of_le_of_lt ((alignDown_le _).trans (sub_le ..)) (by decide)

lemma Roomy.mapUserStack (hroomy : Roomy root (spare + userStackPages) s) :
    ∃ next, mapUserStack .riscv64 root s = some (next, none) ∧ Roomy root spare next := by
  have hlength : userStackVaddrs.length = userStackPages := by
    rw [userStackVaddrs, length_map, length_range]
  rw [← hlength, ← sum_ones] at hroomy
  refine Roomy.each (fun vaddr hmem spare s hroomy => ?_) hroomy
  obtain ⟨frame, frames, -, halloc, -, -, hafter⟩ := hroomy.alloc
  obtain ⟨next, hmap, hnext⟩ := hafter.map (within_of_lt (userStackVaddrs_lt hmem))
    (frame * pageSize) (by decide : (urw .riscv64).contains (.valid .riscv64))
  refine ⟨next, ?_, hnext⟩
  simp only [allocFrame, halloc, map_some, hmap]

lemma pagesFrom_lt {base count : Nat} (hend : base + count * pageSize ≤ ramEnd)
    (hmem : vaddr ∈ pagesFrom base count) : vaddr < ramEnd := by
  obtain ⟨i, hi, rfl⟩ := List.mem_map.mp hmem
  have hi := mem_range.mp hi
  have := Nat.mul_lt_mul_of_pos_right hi (by decide : 0 < pageSize)
  omega

lemma identity_lt {vaddrs : List Nat} (hlow : ∀ vaddr ∈ vaddrs, vaddr < ramEnd) :
    ∀ m ∈ identity vaddrs, m.1 < ramEnd := by
  intro m hm
  obtain ⟨vaddr, hvaddr, rfl⟩ := List.mem_map.mp hm
  exact hlow vaddr hvaddr

lemma Roomy.copyKernelMappings (hroomy : Roomy root spare s) (kernelRoot top : Nat) :
    ∃ next, copyKernelMappings kernelRoot root top .riscv64 s = some next ∧
      Roomy root spare next := by
  have hramLow : ∀ vaddr ∈ riscvRamPages, vaddr < ramEnd := fun vaddr =>
    pagesFrom_lt (show 0x80200000 + 128 * 1024 * 1024 / pageSize * pageSize ≤ ramEnd by decide)
  have hdeviceLow : ∀ vaddr ∈ riscvDevicePages, vaddr < ramEnd := by
    intro vaddr hvaddr
    rcases mem_cons.mp hvaddr with rfl | hvaddr
    · decide
    · exact (mem_append.mp hvaddr).elim (pagesFrom_lt (by decide)) (pagesFrom_lt (by decide))
  obtain ⟨middle, hram, hmiddle⟩ := hroomy.mapPages
    (by decide : (krwx .riscv64).contains (.valid .riscv64))
    (identity_lt hramLow)
  obtain ⟨next, hdevices, hnext⟩ := hmiddle.mapPages
    (by decide : (krw .riscv64).contains (.valid .riscv64))
    (identity_lt hdeviceLow)
  refine ⟨next, ?_, hnext⟩
  rw [Process.copyKernelMappings, hram]
  exact hdevices

end

/-! ## `from_elf_streaming` -/

variable [ContiguousSource σ (2 ^ 40)] {image : Image} {k : Kernel σ}

/-- Tables for every region, the user stack and the image, two guards and the
root, and the kernel stack. -/
def framesToLoad (image : Image) : Nat :=
  2 * regionCount + (userStackPages + (image.segments.map (·.pages.length)).sum + 1) + 1 + 1 +
    kernelStackPages

variable (kernelRoot : Nat)

lemma fromElfStreaming_total (hfirst : ∀ i < kernelStackPages, first + i ∈ free k.machine.frames)
    (hroom : (framesToLoad image : ℕ∞) ≤ (free k.machine.frames).encard)
    (hlow : ∀ seg ∈ image.segments, ∀ vaddr ∈ seg.pages, Within vaddr)
    (hread : ∀ seg ∈ image.segments, ∀ vaddr, image.copyStreaming seg vaddr = some true) :
    ∃ k' process, fromElfStreaming .riscv64 kernelRoot image k = some (k', .ok process) := by
  obtain ⟨base, frames, hrun⟩ := ContiguousSource.exists_allocRun (by decide) hfirst
  rw [framesToLoad, cast_add] at hroom
  have hguard : _ ≤ (free (takeGuard ⟨k.machine.mem, frames⟩).frames).encard :=
    le_encard_free_takeGuard (ContiguousSource.le_encard_free_allocRun hrun hroom)
  rw [cast_add_one] at hguard
  obtain ⟨root, frames', halloc⟩ := exists_alloc (nonempty_of_le_encard hguard)
  have hzeroed := zeroed_eq halloc
  obtain ⟨s₃, hkernel, hroomy₃⟩ :=
    (Roomy.of_zeroed hzeroed (le_encard_free_alloc halloc hguard)).takeGuard.copyKernelMappings
      kernelRoot (base * pageSize + kernelStackPages * pageSize)
  obtain ⟨s₄, hsegments, hroomy₄⟩ :=
    Roomy.each (fun seg hseg _ _ => Roomy.loadSegment (hlow seg hseg) (hread seg hseg)) hroomy₃
  obtain ⟨s₅, hstack, -⟩ :=
    Roomy.mapUserStack (by rwa [Nat.zero_add] : Roomy root (0 + userStackPages) s₄)
  have hloaded : streamSegments .riscv64 root image s₃ = some (s₄, none) := by
    rw [streamSegments, hsegments]
    rfl
  have hstacks : streamStacks .riscv64 root (base * pageSize + kernelStackPages * pageSize) s₄ =
      some (s₅, none) := by
    rw [streamStacks, hstack]
    rfl
  simp only [fromElfStreaming, allocKernelStack, hrun, bind_some, hzeroed, hkernel, hloaded,
    hstacks, Outcome.finish, map_some]
  exact ⟨_, _, rfl⟩

/-! ## A machine that boots -/

def riscvRam : MemoryRegion := ⟨0x80400000, ramEnd, by decide, by decide⟩

lemma inRange_riscvRam : (FrameAllocator.new riscvRam).InRange := by
  unfold FrameAllocator.InRange
  decide

def bootKernel : Kernel KernelFrames :=
  ⟨⟨fun _ _ => 0, .fresh riscvRam inRange_riscvRam⟩, .boot, 0⟩

def textPage (vaddr : Nat) : Segment := ⟨vaddr, 0, pageSize, pageSize, 5⟩

section
variable (haligned : vaddr % pageSize = 0) (hlow : vaddr < 2 ^ 63)
include haligned

lemma textPage_pageStart : (textPage vaddr).pageStart = vaddr := by
  exact Nat.div_mul_cancel (dvd_of_mod_eq_zero haligned)

include hlow

lemma textPage_pageEnd : (textPage vaddr).pageEnd = vaddr + pageSize := by
  refine wrappingAlignUp_eq_self ?_ ?_ <;>
    simp only [pageSize, usizeRange, textPage] at * <;> omega

lemma textPage_pages : (textPage vaddr).pages = [vaddr] := by
  rw [Segment.pages, textPage_pageStart haligned, textPage_pageEnd haligned hlow, pageRange,
    Nat.add_sub_cancel_left, Nat.div_self (by decide)]
  simp

end

def onePage (vaddr : Nat) : Image := ⟨[textPage vaddr], pageSize, fun _ _ => true⟩

lemma fromElfStreaming_textPage (haligned : vaddr % pageSize = 0) (hlow : vaddr < 2 ^ 63)
    (hwithin : Within vaddr) (hfirst : ∀ i < kernelStackPages, first + i ∈ free k.machine.frames)
    (hroom : (framesToLoad (onePage 0) : ℕ∞) ≤ (free k.machine.frames).encard) :
    ∃ k' process, fromElfStreaming .riscv64 kernelRoot (onePage vaddr) k =
      some (k', .ok process) := by
  have hpages := textPage_pages haligned hlow
  have hframes : framesToLoad (onePage vaddr) = framesToLoad (onePage 0) := by
    rw [framesToLoad, framesToLoad, onePage, onePage, map_singleton, map_singleton,
      hpages, textPage_pages rfl (by decide), length_singleton, length_singleton]
  refine fromElfStreaming_total kernelRoot hfirst (by rwa [hframes]) ?_ fun seg _ _ => ?_
  · intro seg hseg page hpage
    obtain rfl := mem_singleton.mp hseg
    rw [hpages, mem_singleton] at hpage
    exact hpage ▸ hwithin
  · exact congrArg some (Bool.or_true _)

lemma fromElfStreaming_onePage (haligned : vaddr % pageSize = 0) (hlow : vaddr < ramEnd) :
    ∃ k process, fromElfStreaming .riscv64 0 (onePage vaddr) bootKernel =
      some (k, .ok process) := by
  have hcard : (free bootKernel.machine.frames).encard = riscvRam.managedFrames :=
    KernelFrames.encard_free_fresh inRange_riscvRam
  have hstack : ∀ i < kernelStackPages,
      riscvRam.managedStart / pageSize + i ∈ free bootKernel.machine.frames := by
    intro i hi
    rw [bootKernel, KernelFrames.free_fresh inRange_riscvRam]
    have hroom : kernelStackPages ≤ riscvRam.managedFrames := by decide
    exact ⟨Nat.le_add_right .., Nat.add_lt_add_left (hi.trans_le hroom) _⟩
  refine fromElfStreaming_textPage 0 haligned (hlow.trans (by decide)) (within_of_lt hlow) hstack ?_
  rw [hcard]
  exact_mod_cast (by decide)

end KarteOs.Process

import KarteOs.Syscall.MmapSpec
import KarteOs.X86.FaultSpec

/-! # The protection of pages covered by VMAs

The protection of a page is recorded in its VMA and in its leaf. `mmap`,
`mprotect` and `munmap` update both records, each in its own way, and the page
fault handler derives leaves from VMAs or from the region of the address.
-/

namespace KarteOs.X86

universe u

open Mm RadixTree FrameSource Syscall Transition Registry List Option

def granted (prot : Nat) (flags : PTEFlags .x86_64) : Bool :=
  decide (prot ≠ 0) && (!flags.isWritable || decide (prot &&& protWrite ≠ 0)) &&
    (!flags.isExecutable || decide (prot &&& protExec ≠ 0))

def respects (prot : Nat) (leaf : Option (Nat × PTEFlags .x86_64)) : Bool :=
  leaf.all fun leaf => !leaf.2.isUser || granted prot leaf.2

lemma granted_protToPteFlags {prot : Nat} (hprot : prot ≠ 0) :
    granted prot (protToPteFlags .x86_64 prot) := by
  have hflags : (protToPteFlags .x86_64 prot).isWritable = decide (prot &&& protWrite ≠ 0) ∧
      (protToPteFlags .x86_64 prot).isExecutable = decide (prot &&& protExec ≠ 0) := by
    simp only [protToPteFlags]
    split_ifs <;> simp_all <;> decide
  simp [granted, hflags, hprot]

lemma respects_of_granted {prot frame : Nat} {flags : PTEFlags .x86_64}
    (hgranted : granted prot flags) : respects prot (some (frame, flags)) := by
  simp [respects, hgranted]

variable {σ : Type u}

/-- No page goes beyond the protection of a VMA that covers it. -/
structure ProtectionSound (root : Nat) (k : Kernel σ) : Prop where
  aligned : k.registry.Aligned root
  respected : ∀ v vma, v < usizeRange → isCanonical v = true → k.registry.CoveredBy root v vma →
    respects vma.prot (pages .x86_64 k.machine.mem root (pageNumber .x86_64 v)) = true

lemma ProtectionSound.covers_fault {root : Nat} {k : Kernel σ} (hsound : ProtectionSound root k)
    {f : Fault} {v : Nat} {vma : VmaRegion} (hcr2 : f.cr2 < usizeRange) (hv : v < usizeRange)
    (hcanonical : isCanonical v) (hvma : k.registry.CoveredBy root v vma)
    (hpage : pageNumber .x86_64 v = pageNumber .x86_64 f.pageAddr) :
    k.registry.CoveredBy root f.addr vma := by
  obtain ⟨state, hstate, hmem, hcovers⟩ := hvma
  have hregion := (hsound.aligned state hstate).regions vma hmem (VmaRegion.covers_iff.mp hcovers).1
  refine ⟨state, hstate, hmem, hregion.covers ?_ hcovers⟩
  rw [Fault.pageAddr, pageNumber_alignDown] at hpage
  refine alignDown_eq_of_pageNumber hv ?_ hcanonical ?_ hpage
  · rw [Fault.addr]
    split
    exacts [hcr2, by decide]
  · rw [Fault.addr]
    split
    next hcanonical => exact hcanonical
    · rfl

inductive SpaceEvent where
  | mmap (addr len prot flags : Nat)
  | mprotect (addr len prot : Nat)
  | munmap (addr len : Nat)
  | fault (f : Fault)

namespace SpaceEvent

/-- A new region must not cover user pages that go beyond its protection. The
call itself removes the 4 KiB pages under a fixed accessible region only. -/
def MmapKeeps (root : Nat) (k : Kernel σ) (addr len prot flags : Nat) : Prop :=
  len ≠ 0 → ∀ registry target,
    mmapTarget k.registry root addr (wrappingAlignUp len) (flags.testBit 4) =
      some (registry, some target) →
    (registry.vmaAdd root target (wrappingAdd target (wrappingAlignUp len)) prot
      (flags.testBit 4)).2 = true →
    ∀ v, v < usizeRange → isCanonical v = true → target ≤ v →
      v < wrappingAdd target (wrappingAlignUp len) →
      (prot ≠ 0 → flags.testBit 4 = true →
        inHugePage .x86_64 k.machine.mem root (pageNumber .x86_64 v) = true) →
      respects prot (pages .x86_64 k.machine.mem root (pageNumber .x86_64 v)) = true

/-- `mprotect` gives every region that meets the range the new protection as a
whole, and the mapped 4 KiB pages of the range flags with the user bit. The
pages of the range must be granted these flags, and the pages of the regions
outside of the range must go along with the new protection. -/
def MprotectKeeps (root : Nat) (k : Kernel σ) (addr len prot : Nat) : Prop :=
  addr ≠ 0 → len ≠ 0 → ∀ v vma, v < usizeRange → isCanonical v = true →
    k.registry.CoveredBy root v vma →
    let start := alignDown addr
    let stop := wrappingAlignUp (addr + len)
    let leaf := pages .x86_64 k.machine.mem root (pageNumber .x86_64 v)
    if pageNumber .x86_64 v ∈ pageNumbers .x86_64 (pageRange start stop) ∧
        inHugePage .x86_64 k.machine.mem root (pageNumber .x86_64 v) = false then
      leaf.isSome = true → granted (if vma.overlaps start stop then prot else vma.prot)
          (protToPteFlags .x86_64 prot) = true
    else vma.overlaps start stop = true → respects prot leaf = true

end SpaceEvent

variable [FrameSource σ (2 ^ 40)]

/-- A page is repaired only where every VMA that covers the address allows the
access and grants the flags. -/
def Fault.Keeps (root : Nat) (k : Kernel σ) (f : Fault) : Prop :=
  f.attempted root k → ∀ vma, k.registry.CoveredBy root f.addr vma →
    f.allowedBy vma.prot = true ∧ granted vma.prot (repairFlags root k f) = true

namespace SpaceEvent

def apply (root : Nat) (k : Kernel σ) : SpaceEvent → Option (Kernel σ)
  | mmap addr len prot flags => (linuxMmap .x86_64 root k addr len prot flags).map (·.1)
  | mprotect addr len prot => some (linuxMprotect .x86_64 root k addr len prot).1
  | munmap addr len => some (linuxMunmap .x86_64 root k addr len).1
  | fault f => (pageFaultHandler root k f).map (·.1)

def Keeps (root : Nat) (k : Kernel σ) : SpaceEvent → Prop
  | mmap addr len prot flags => MmapKeeps root k addr len prot flags
  | mprotect addr len prot => MprotectKeeps root k addr len prot
  | munmap _ _ => True
  | fault f => f.cr2 < usizeRange ∧ f.Keeps root k

end SpaceEvent

section
variable {pos : Layout} {root prot addr len : Nat} {k k' : Kernel σ} {handled : Bool} {f : Fault}

lemma respects_unmapRange (hspace : AddressSpace .x86_64 pos k.machine root) {start stop n : Nat}
    (hn : n < pteCount ^ Arch.x86_64.ptLevels)
    (hleaf : ¬(n ∈ pageNumbers .x86_64 (pageRange start stop) ∧
      inHugePage .x86_64 k.machine.mem root n = false) →
      respects prot (pages .x86_64 k.machine.mem root n)) :
    respects prot (pages .x86_64 (unmapRange .x86_64 root k.machine start stop).mem root n) =
      true := by
  rw [unmapRange, (unmapPages_spec hspace _).pages n hn]
  split
  · rfl
  next hstays => exact hleaf hstays

section
variable (hsound : ProtectionSound root k)
include hsound

section
variable (hspace : AddressSpace .x86_64 pos k.machine root)
include hspace

lemma ProtectionSound.munmap (addr len : Nat) :
    ProtectionSound root (linuxMunmap .x86_64 root k addr len).1 := by
  simp only [linuxMunmap]
  split
  · exact hsound
  · refine ⟨hsound.aligned.vmaRemoveRange (alignDown_mod _) (wrappingAlignUp_mod _), ?_⟩
    intro v vma hv hcanonical hvma
    obtain ⟨old, hold, hprot⟩ := coveredBy_vmaRemoveRange hvma
    rw [hprot]
    exact respects_unmapRange hspace (pageNumber_lt ..)
      fun _ => hsound.respected v old hv hcanonical hold

lemma ProtectionSound.mprotect (hkeeps : SpaceEvent.MprotectKeeps root k addr len prot) :
    ProtectionSound root (linuxMprotect .x86_64 root k addr len prot).1 := by
  simp only [linuxMprotect]
  split
  · exact hsound
  next hargs =>
    obtain ⟨haddr, hlen⟩ := not_or.mp hargs
    refine ⟨hsound.aligned.vmaUpdateProt _ _ _, ?_⟩
    intro v vma hv hcanonical hvma
    obtain ⟨old, hold, hprot⟩ := coveredBy_vmaUpdateProt hvma
    have hcond := hkeeps haddr hlen v old hv hcanonical hold
    have hpages := (protectPages_spec (valid_protToPteFlags .x86_64 prot) hspace
      (pageRange (alignDown addr) (wrappingAlignUp (addr + len)))).pages _ (pageNumber_lt _ v)
    rw [hprot, protectRange, hpages]
    dsimp only at hcond
    split at hcond
    next hrange =>
      rw [if_pos hrange]
      cases hleaf : pages .x86_64 k.machine.mem root (pageNumber .x86_64 v) with
      | none => rfl
      | some leaf => exact respects_of_granted (hcond (by rw [hleaf]; rfl))
    next hrange =>
      rw [if_neg hrange]
      split
      next hoverlaps => exact hcond hoverlaps
      · exact hsound.respected v old hv hcanonical hold

lemma ProtectionSound.mmap {flags : Nat} {result : Int}
    (hkeeps : SpaceEvent.MmapKeeps root k addr len prot flags)
    (hrun : linuxMmap .x86_64 root k addr len prot flags = some (k', result)) :
    ProtectionSound root k' := by
  cases linuxMmap_effect hrun with
  | invalid => exact hsound
  | noTarget htarget =>
    refine ⟨(mmapTarget_aligned htarget hsound.aligned).1, ?_⟩
    intro v vma hv hcanonical hvma
    exact hsound.respected v vma hv hcanonical (mmapTarget_coveredBy htarget hvma)
  | noRegion htarget hadded =>
    refine ⟨mmapTarget_vmaAdd_aligned htarget hsound.aligned, ?_⟩
    intro v vma hv hcanonical hvma
    rcases coveredBy_vmaAdd hvma with ⟨old, hold, hprot⟩ | ⟨-, -, -, hadded'⟩
    · rw [hprot]
      exact hsound.respected v old hv hcanonical (mmapTarget_coveredBy htarget hold)
    · rw [hadded] at hadded'
      cases hadded'
  | @mapped registry target hlen htarget hadded =>
    obtain ⟨-, htargetMod⟩ := mmapTarget_aligned htarget hsound.aligned
    refine ⟨mmapTarget_vmaAdd_aligned htarget hsound.aligned, ?_⟩
    intro v vma hv hcanonical hvma
    have hn := pageNumber_lt .x86_64 v
    dsimp only
    rcases coveredBy_vmaAdd hvma with ⟨old, hold, hprot⟩ | ⟨hle, hlt, hprot, -⟩
    · have hrespected := hsound.respected v old hv hcanonical (mmapTarget_coveredBy htarget hold)
      rw [hprot]
      split
      · exact respects_unmapRange hspace hn fun _ => hrespected
      · exact hrespected
    · have hnew := hkeeps hlen registry target htarget hadded v hv hcanonical hle hlt
      rw [hprot]
      split
      next hfixed =>
        refine respects_unmapRange hspace hn fun hstays => hnew fun _ _ => ?_
        by_contra hsmall
        have hpage : alignDown v ∈ pageRange target (wrappingAdd target (wrappingAlignUp len)) :=
          alignDown_mem_pageRange (htargetMod target rfl)
            (wrappingAdd_mod (htargetMod target rfl) (wrappingAlignUp_mod len)) hle hlt
        refine hstays ⟨?_, by simpa using hsmall⟩
        rw [← pageNumber_alignDown]
        exact List.mem_map_of_mem hpage
      next hfixed => exact hnew fun hprot hfixed' => absurd ⟨hprot, hfixed'⟩ hfixed

end

lemma ProtectionSound.mapsPage {flags : PTEFlags .x86_64} (hcr2 : f.cr2 < usizeRange)
    (hmaps : MapsPage root k k' f.pageAddr flags)
    (hgranted : ∀ vma, k.registry.CoveredBy root f.addr vma → granted vma.prot flags) :
    ProtectionSound root k' := by
  refine ⟨hmaps.registry ▸ hsound.aligned, ?_⟩
  intro v vma hv hcanonical hvma
  rw [hmaps.registry] at hvma
  by_cases hpage : pageNumber .x86_64 v = pageNumber .x86_64 f.pageAddr
  · obtain ⟨frame, hleaf⟩ := hmaps.self
    rw [hpage, hleaf]
    exact respects_of_granted (hgranted vma (hsound.covers_fault hcr2 hv hcanonical hvma hpage))
  · rw [hmaps.other _ (pageNumber_lt ..) hpage]
    exact hsound.respected v vma hv hcanonical hvma

lemma ProtectionSound.fault (hspace : AddressSpace .x86_64 pos k.machine root)
    (hcr2 : f.cr2 < usizeRange) (hkeeps : f.Keeps root k)
    (hrun : pageFaultHandler root k f = some (k', handled)) : ProtectionSound root k' := by
  rcases pageFaultHandler_cases hspace hrun with
    ⟨-, rfl⟩ | ⟨hattempted, hmaps⟩ | ⟨hnone, rfl | hmaps⟩
  · exact hsound
  · exact hsound.mapsPage hcr2 hmaps fun vma hvma => (hkeeps hattempted vma hvma).2
  · exact hsound
  · refine hsound.mapsPage hcr2 hmaps fun vma hvma => ?_
    -- a VMA at the address would have been found
    obtain ⟨first, -, hquery⟩ := hvma.vmaQuery
    rw [hnone] at hquery
    cases hquery

end

lemma Fault.Keeps.refused (hspace : AddressSpace .x86_64 pos k.machine root)
    (hkeeps : f.Keeps root k) (hrun : pageFaultHandler root k f = some (k', handled))
    {vma : VmaRegion} (hvma : k.registry.CoveredBy root f.addr vma)
    (hforbidden : f.allowedBy vma.prot = false) : handled = false ∧ k' = k := by
  rcases pageFaultHandler_cases hspace hrun with hrefused | ⟨hattempted, -⟩ | ⟨hnone, -⟩
  · exact hrefused
  · have hallowed := (hkeeps hattempted vma hvma).1
    rw [hforbidden] at hallowed
    cases hallowed
  · obtain ⟨first, -, hquery⟩ := hvma.vmaQuery
    rw [hnone] at hquery
    cases hquery

end

namespace SpaceEvent

variable {pos : Layout} {root : Nat} {k k' : Kernel σ} {event : SpaceEvent}

section
variable (hspace : AddressSpace .x86_64 pos k.machine root)
include hspace

lemma apply_space
    (hrun : event.apply root k = some k') : ∃ pos', AddressSpace .x86_64 pos' k'.machine root := by
  cases event with
  | mmap addr len prot flags =>
    obtain ⟨⟨next, result⟩, hmmap, rfl⟩ := map_eq_some_iff.mp hrun
    cases linuxMmap_effect hmmap with
    | invalid | noTarget | noRegion => exact ⟨pos, hspace⟩
    | mapped =>
      dsimp only
      split
      exacts [⟨pos, (unmapPages_spec hspace _).space⟩, ⟨pos, hspace⟩]
  | mprotect addr len prot =>
    cases hrun
    simp only [linuxMprotect]
    split
    exacts [⟨pos, hspace⟩,
      ⟨pos, (protectPages_spec (valid_protToPteFlags .x86_64 prot) hspace _).space⟩]
  | munmap addr len =>
    cases hrun
    simp only [linuxMunmap]
    split
    exacts [⟨pos, hspace⟩, ⟨pos, (unmapPages_spec hspace _).space⟩]
  | fault f =>
    obtain ⟨⟨next, handled⟩, hfault, rfl⟩ := map_eq_some_iff.mp hrun
    rcases pageFaultHandler_cases hspace hfault with
      ⟨-, rfl⟩ | ⟨-, hmaps⟩ | ⟨-, rfl | hmaps⟩
    exacts [⟨pos, hspace⟩, hmaps.space, ⟨pos, hspace⟩, hmaps.space]

lemma apply_protectionSound (hsound : ProtectionSound root k) (hkeeps : event.Keeps root k)
    (hrun : event.apply root k = some k') : ProtectionSound root k' := by
  cases event with
  | mmap addr len prot flags =>
    obtain ⟨⟨next, result⟩, hmmap, rfl⟩ := map_eq_some_iff.mp hrun
    exact hsound.mmap hspace hkeeps hmmap
  | mprotect addr len prot =>
    cases hrun
    exact hsound.mprotect hspace hkeeps
  | munmap addr len =>
    cases hrun
    exact hsound.munmap hspace addr len
  | fault f =>
    obtain ⟨⟨next, handled⟩, hfault, rfl⟩ := map_eq_some_iff.mp hrun
    exact hsound.fault hspace hkeeps.1 hkeeps.2 hfault

end

/-- An event that keeps the records in step and does not end in a panic. -/
def Step (root : Nat) (k : Kernel σ) (event : SpaceEvent) (k' : Kernel σ) : Prop :=
  event.Keeps root k ∧ event.apply root k = some k'

end SpaceEvent

/-- In every run whose events keep the records in step, no page goes beyond the
protection of its VMAs, and a further fault that a VMA forbids is refused. -/
theorem run_protectionSound {pos : Layout} {root : Nat} {k₀ k : Kernel σ} {events : List SpaceEvent}
    (hspace : AddressSpace .x86_64 pos k₀.machine root) (hsound : ProtectionSound root k₀)
    (hrun : Run (SpaceEvent.Step root) k₀ events k) :
    ProtectionSound root k ∧
      ∀ f k' handled vma, f.Keeps root k → pageFaultHandler root k f = some (k', handled) →
        k.registry.CoveredBy root f.addr vma → f.allowedBy vma.prot = false →
        handled = false ∧ k' = k := by
  induction hrun generalizing pos with
  | nil state =>
    refine ⟨hsound, ?_⟩
    intro f k' handled vma hkeeps hfault hvma hforbidden
    exact hkeeps.refused hspace hfault hvma hforbidden
  | cons hhead _ ih =>
    obtain ⟨pos', hspace'⟩ := SpaceEvent.apply_space hspace hhead.2
    exact ih hspace' (SpaceEvent.apply_protectionSound hspace hsound hhead.1 hhead.2)

/-! ## A mapped region of one page -/

def pageRegion : VmaRegion := ⟨0x20000000, 0x20001000, 3, true⟩

def pageMappings : List (Nat × Nat × PTEFlags .x86_64) :=
  [(0x20000000, 0x400, protToPteFlags .x86_64 3)]

def pageState : VmState := ⟨pageRegion :: List.replicate (maxVmas - 1) .empty, 0x20001000, 0⟩

/-- The address space at `root` has the region, and its table maps the page. -/
structure HasPage (k : Kernel KernelFrames) (root : Nat) : Prop where
  registry : k.registry.stateOf root = some pageState
  table : Machine.tableOf ⟨fun _ _ => 0, .sixtyFour⟩ pageMappings = some (root, k.machine)

lemma exists_hasPage : ∃ k root pos, HasPage k root ∧ AddressSpace .x86_64 pos k.machine root ∧
    pages .x86_64 k.machine.mem root (pageNumber .x86_64 0x20000000) =
      some (0x400, protToPteFlags .x86_64 3) ∧
    inHugePage .x86_64 k.machine.mem root (pageNumber .x86_64 0x20000000) = false := by
  obtain ⟨root, s, pos, hbuilt, hspace, htable⟩ :=
    exists_tableOf pageMappings (by decide) (by decide)
  obtain ⟨hpages, hsmall⟩ := htable _ (pageNumber_lt .x86_64 0x20000000)
  refine ⟨⟨s, .ofSlots [⟨root, true, pageState⟩], 0x10000000⟩, root, pos, ⟨?_, hbuilt⟩, hspace,
    hpages.trans (by decide), hsmall⟩
  simp [stateOf, ofSlots, VmStateSlot.holds]

namespace HasPage

variable {k : Kernel KernelFrames} {root v : Nat} {pos : Layout} {vma : VmaRegion}
  (hpage : HasPage k root)
include hpage

lemma coveredBy (hvma : k.registry.CoveredBy root v vma) :
    vma = pageRegion ∧ alignDown v = 0x20000000 := by
  obtain ⟨state, hstate, hmem, hcovers⟩ := hvma
  cases hpage.registry.symm.trans hstate
  obtain ⟨hactive, hle, hlt⟩ := VmaRegion.covers_iff.mp hcovers
  rcases mem_cons.mp hmem with rfl | hrest
  · refine ⟨rfl, ?_⟩
    simp only [pageRegion, alignDown, pageSize] at hle hlt ⊢
    omega
  · obtain rfl := eq_of_mem_replicate hrest
    cases hactive

lemma pageNumber_eq (hvma : k.registry.CoveredBy root v vma) :
    pageNumber .x86_64 v = pageNumber .x86_64 0x20000000 := by
  rw [← pageNumber_alignDown, (hpage.coveredBy hvma).2]

lemma protectionSound (hleaf : pages .x86_64 k.machine.mem root (pageNumber .x86_64 0x20000000) =
    some (0x400, protToPteFlags .x86_64 3)) : ProtectionSound root k := by
  constructor
  · intro state hstate
    cases hpage.registry.symm.trans hstate
    refine ⟨by decide, ?_⟩
    intro vma hvma hactive
    rcases mem_cons.mp hvma with rfl | hrest
    · exact ⟨by decide, by decide, by decide⟩
    · obtain rfl := eq_of_mem_replicate hrest
      cases hactive
  · intro v vma _ _ hvma
    rw [hpage.pageNumber_eq hvma, hleaf, (hpage.coveredBy hvma).1]
    exact respects_of_granted (granted_protToPteFlags (by decide))

end HasPage

theorem run_protectionSound_readOnly : ∃ k root k', HasPage k root ∧
    Run (SpaceEvent.Step root) k [.mprotect 0x20000000 0x1000 1] k' ∧
    ProtectionSound root k' := by
  obtain ⟨k, root, pos, hpage, hspace, hleaf, hsmall⟩ := exists_hasPage
  have hkeeps : SpaceEvent.MprotectKeeps root k 0x20000000 0x1000 1 := by
    intro _ _ v vma _ _ hvma
    dsimp only
    rw [hpage.pageNumber_eq hvma, if_pos ⟨by decide, hsmall⟩, (hpage.coveredBy hvma).1]
    exact fun _ => granted_protToPteFlags (by decide)
  have hrun : Run (SpaceEvent.Step root) k [.mprotect 0x20000000 0x1000 1] _ :=
    .cons ⟨hkeeps, rfl⟩ (.nil _)
  exact ⟨k, root, _, hpage, hrun, (run_protectionSound hspace (hpage.protectionSound hleaf) hrun).1⟩

/-- `mprotect` to `PROT_NONE` leaves the page readable for user code. -/
theorem mprotect_none_leaves_user_page : ∃ k root, HasPage k root ∧ ProtectionSound root k ∧
    (linuxMprotect .x86_64 root k 0x20000000 0x1000 0).2 = 0 ∧
    (linuxMprotect .x86_64 root k 0x20000000 0x1000 0).1.registry.CoveredBy root 0x20000000
      { pageRegion with prot := 0 } ∧
    pages .x86_64 (linuxMprotect .x86_64 root k 0x20000000 0x1000 0).1.machine.mem root
      (pageNumber .x86_64 0x20000000) = some (0x400, protToPteFlags .x86_64 0) ∧
    (protToPteFlags .x86_64 0).isUser = true ∧
    ¬ ProtectionSound root (linuxMprotect .x86_64 root k 0x20000000 0x1000 0).1 := by
  obtain ⟨k, root, pos, hpage, hspace, hleaf, hsmall⟩ := exists_hasPage
  have hpages : pages .x86_64 (linuxMprotect .x86_64 root k 0x20000000 0x1000 0).1.machine.mem root
      (pageNumber .x86_64 0x20000000) = some (0x400, protToPteFlags .x86_64 0) := by
    refine ((protectPages_spec (valid_protToPteFlags .x86_64 0) hspace [0x20000000]).pages _
      (pageNumber_lt _ _)).trans ?_
    rw [if_pos ⟨by decide, hsmall⟩, hleaf]
    rfl
  have hcovered : (linuxMprotect .x86_64 root k 0x20000000 0x1000 0).1.registry.CoveredBy root
      0x20000000 { pageRegion with prot := 0 } := by
    refine ⟨pageState.updateProt 0x20000000 0x20001000 0, ?_, .head _, by decide⟩
    change (k.registry.vmaUpdateProt root 0x20000000 0x20001000 0).stateOf root = _
    rw [vmaUpdateProt, stateOf_withState_self, hpage.registry, map_some]
  refine ⟨k, root, hpage, hpage.protectionSound hleaf, rfl, hcovered, hpages,
    isUser_protToPteFlags .x86_64 0, ?_⟩
  intro hsound
  have hrespected := hsound.respected _ _ (by decide) (by decide) hcovered
  rw [hpages] at hrespected
  exact absurd hrespected (by decide)

end KarteOs.X86

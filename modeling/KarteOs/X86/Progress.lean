import KarteOs.Mm.VmaRegistry
import KarteOs.X86.FaultSpec

/-! # Progress of page fault handling

A fault that is reported as handled resumes the process at the faulting
instruction. The instruction gets further only if the page table now permits
the access, which the handler does not check.
-/

namespace KarteOs.X86

universe u

open Mm RadixTree FrameSource Syscall Fault Option

variable {σ : Type u}

/-- The page table grants the access. -/
def Fault.Permitted (f : Fault) (root : Nat) (k : Kernel σ) : Prop :=
  permitted .user k.machine.mem root f.addr = true ∧
    (f.isWrite = true → permitted .write k.machine.mem root f.addr = true) ∧
    (f.isExec = true → permitted .execute k.machine.mem root f.addr = true)

def Fault.grantedBy (f : Fault) (flags : PTEFlags .x86_64) : Bool :=
  flags.isUser && (!f.isWrite || flags.isWritable) && (!f.isExec || flags.isExecutable)

def Fault.grantedByLeaf (f : Fault) (root : Nat) (k : Kernel σ) : Bool :=
  (pages .x86_64 k.machine.mem root (pageNumber .x86_64 f.pageAddr)).any fun leaf =>
    f.grantedBy leaf.2

variable [FrameSource σ (2 ^ 40)] {pos : Layout} {root : Nat} {k k' : Kernel σ} {f : Fault}
  {handled : Bool} {flags : PTEFlags .x86_64}

lemma pageNumber_pageAddr (f : Fault) :
    pageNumber .x86_64 f.pageAddr = pageNumber .x86_64 f.addr := by
  rw [pageAddr, alignDown, pageNumber, Nat.mul_div_cancel _ (by decide), pageNumber]

lemma permitted_iff_grantedByLeaf (hspace : AddressSpace .x86_64 pos k.machine root) :
    f.Permitted root k ↔ f.grantedByLeaf root k := by
  simp only [Permitted, grantedByLeaf, hspace.permitted_eq, pageNumber_pageAddr]
  cases pages .x86_64 k.machine.mem root (pageNumber .x86_64 f.addr) with
  | none => simp
  | some leaf =>
    simp only [any_some, Permission.allowedBy, grantedBy, Bool.and_eq_true,
      Bool.or_eq_true, Bool.not_eq_true', and_assoc]
    cases f.isWrite <;> cases f.isExec <;> simp

lemma MapsPage.permitted_iff (hmaps : MapsPage root k k' f.pageAddr flags) :
    f.Permitted root k' ↔ f.grantedBy flags := by
  obtain ⟨pos', hspace'⟩ := hmaps.space
  obtain ⟨frame, hleaf⟩ := hmaps.self
  rw [permitted_iff_grantedByLeaf hspace', grantedByLeaf, hleaf, any_some]

lemma grantedBy_urw (f : Fault) : f.grantedBy (.urw .x86_64) := by
  have hall : (PTEFlags.urw .x86_64).isUser ∧ (PTEFlags.urw .x86_64).isWritable ∧
      (PTEFlags.urw .x86_64).isExecutable := by decide
  simp [grantedBy, hall]

/-- When a handled fault is bound to get further. Where a page is repaired, the
flags it gets have to permit the access; where the region alone decides, the
page has to be mapped anew or its leaf has to permit the access already. -/
def Fault.CanProgress (f : Fault) (root : Nat) (k : Kernel σ) : Prop :=
  if f.isPresent then
    entitled root k f = true → Repairable root k f false → f.grantedBy (repairFlags root k f) = true
  else f.canLazyAlloc = true →
    match k.registry.vmaQuery root f.addr with
    | some prot => prot ≠ 0 → Repairable root k f true →
        f.grantedBy (protToPteFlags .x86_64 prot) = true
    | none =>
      if f.inHeap then
        needsFrame .x86_64 k.machine root f.pageAddr = true ∧
          (free k.machine.frames).Nonempty ∨ f.grantedByLeaf root k = true
      else (f.inStack || f.inElfRegion) = true →
        translateUser .x86_64 k.machine.mem root f.pageAddr = none ∧
          (free k.machine.frames).Nonempty ∨ f.grantedByLeaf root k = true

lemma repaired_progress_iff {repaired : Prop} (hcases : handled = false ∧ k' = k ∧ ¬repaired ∨
      handled ∧ repaired ∧ MapsPage root k k' f.pageAddr flags) :
    (handled → f.Permitted root k') ↔ (repaired → f.grantedBy flags) := by
  rcases hcases with ⟨rfl, -, hnot⟩ | ⟨rfl, hrepaired, hmaps⟩
  · exact iff_of_true nofun fun h => absurd h hnot
  · rw [← hmaps.permitted_iff]
    exact ⟨fun h _ => h rfl, fun h _ => h hrepaired⟩

lemma lazy_progress_iff {needed available : Prop} (hspace : AddressSpace .x86_64 pos k.machine root)
    (hcases : handled ∧ (k' = k ∧ ¬(needed ∧ available) ∨
      needed ∧ available ∧ MapsPage root k k' f.pageAddr (.urw .x86_64))) :
    (handled → f.Permitted root k') ↔ needed ∧ available ∨ f.grantedByLeaf root k := by
  obtain ⟨rfl, ⟨rfl, hnot⟩ | ⟨hneeded, havailable, hmaps⟩⟩ := hcases
  · rw [permitted_iff_grantedByLeaf hspace, or_iff_right hnot]
    exact ⟨fun h => h rfl, fun h _ => h⟩
  · exact iff_of_true (fun _ => hmaps.permitted_iff.mpr (grantedBy_urw f))
      (.inl ⟨hneeded, havailable⟩)

/-- A fault that is reported as handled leaves the access permitted if and only
if the fault can progress. -/
theorem pageFault_progress_iff (hspace : AddressSpace .x86_64 pos k.machine root)
    (hrun : pageFaultHandler root k f = some (k', handled)) :
    (handled = true → f.Permitted root k') ↔ f.CanProgress root k := by
  have hrejected : some (k, false) = some (k', handled) → handled = true → f.Permitted root k' := by
    intro heq
    cases heq
    exact nofun
  cases hpresent : f.isPresent with
  | true =>
    simp only [pageFaultHandler, CanProgress, hpresent, if_true] at hrun ⊢
    rw [← and_imp]
    exact repaired_progress_iff (by simpa [and_assoc] using protectionFault_cases hspace hrun)
  | false =>
    simp only [pageFaultHandler, CanProgress, hpresent, Bool.false_eq_true, if_false] at hrun ⊢
    cases hlazy : f.canLazyAlloc with
    | false =>
      simp only [hlazy, Bool.not_false, if_true] at hrun
      exact iff_of_true (hrejected hrun) nofun
    | true =>
      simp only [hlazy, Bool.not_true, Bool.false_eq_true, if_false] at hrun
      rw [imp_iff_right rfl]
      cases hquery : k.registry.vmaQuery root f.addr with
      | some prot =>
        simp only [hquery] at hrun ⊢
        split_ifs at hrun with hprot
        · rw [imp_iff_right hprot]
          exact repaired_progress_iff
            (repairPage_cases (valid_protToPteFlags .x86_64 prot) hspace hrun)
        · exact iff_of_true (hrejected hrun) fun h => absurd h hprot
      | none =>
        simp only [hquery] at hrun ⊢
        split_ifs at hrun ⊢ with hheap hregion
        · exact lazy_progress_iff hspace (heapFault_cases hspace hrun)
        · rw [imp_iff_right hregion]
          exact lazy_progress_iff hspace (regionFault_cases hspace hrun)
        · exact iff_of_true (hrejected hrun) fun h => absurd h hregion

/-- A user mode write to the first page of the heap, which is not present. -/
def heapWrite : Fault := ⟨0x10000000, 6, true, true⟩

/-- The kernel with an empty process table, after `root` was taken from `start`. -/
def emptySpace (root : Nat) (frames : KernelFrames) : Kernel KernelFrames :=
  ⟨Machine.setFrame ⟨fun _ _ => 0, frames⟩ root fun _ => 0, .boot, 0x10000000⟩

section
variable {start frames : KernelFrames}

lemma zeroed_emptySpace (halloc : alloc start = some (root, frames)) :
    Machine.zeroed ⟨fun _ _ => 0, start⟩ = some (root, (emptySpace root frames).machine) :=
  Machine.zeroed_eq (s := ⟨fun _ _ => 0, start⟩) halloc

lemma vmaQuery_emptySpace (addr : Nat) :
    (emptySpace root frames).registry.vmaQuery root addr = none := by
  rw [emptySpace, Registry.vmaQuery, Registry.stateOf_boot, bind_none]

lemma needsFrame_emptySpace (halloc : alloc start = some (root, frames)) (page : Nat) :
    needsFrame .x86_64 (emptySpace root frames).machine root page := by
  obtain ⟨pos, hspace⟩ : ∃ pos, AddressSpace .x86_64 pos _ root :=
    zeroed_space (zeroed_emptySpace halloc)
  rw [needsFrame, hspace.translateUser_eq, (zeroed_pages (zeroed_emptySpace halloc) _).1]
  rfl

lemma pageFaultHandler_heapWrite : pageFaultHandler root (emptySpace root frames) heapWrite =
    heapFault root (emptySpace root frames) heapWrite := by
  rw [pageFaultHandler, if_neg (by decide), if_neg (by decide), vmaQuery_emptySpace]
  exact if_pos (by decide)

end

theorem pageFault_progress_heapWrite : ∃ (root : Nat) (k k' : Kernel KernelFrames),
    pageFaultHandler root k heapWrite = some (k', true) ∧ heapWrite.Permitted root k' := by
  obtain ⟨root, frames, halloc, hfree⟩ := KernelFrames.exists_alloc_sixtyFour
  obtain ⟨pos, hspace⟩ : ∃ pos, AddressSpace .x86_64 pos _ root :=
    zeroed_space (zeroed_emptySpace halloc)
  obtain ⟨next, hnext⟩ := mapFresh_total (.urw .x86_64) hspace (le_trans (by decide) hfree)
    fun _ => (by decide : isCanonical 0x10000000 = true)
  obtain ⟨k', hrun⟩ : ∃ k', pageFaultHandler root (emptySpace root frames) heapWrite =
      some (k', true) := by
    rw [pageFaultHandler_heapWrite, heapFault, if_pos (needsFrame_emptySpace halloc _),
      show heapWrite.pageAddr = 0x10000000 by decide, hnext]
    exact ⟨_, rfl⟩
  refine ⟨root, _, k', hrun, (pageFault_progress_iff hspace hrun).mpr ?_ rfl⟩
  rw [CanProgress, if_neg (by decide), vmaQuery_emptySpace]
  intro _
  dsimp only
  rw [if_pos (by decide)]
  exact .inl ⟨needsFrame_emptySpace halloc _, nonempty_of_le_encard hfree⟩

/-- Without a free frame the same fault is reported as handled, and the page is
still not mapped. -/
theorem pageFault_no_progress : ∃ (root : Nat) (k : Kernel KernelFrames) (pos : Layout),
    AddressSpace .x86_64 pos k.machine root ∧
    pageFaultHandler root k heapWrite = some (k, true) ∧ ¬ heapWrite.Permitted root k := by
  have hfull : (alloc KernelFrames.single).any (fun result => (alloc result.2).isNone) = true := by
    decide
  obtain ⟨⟨root, frames⟩, halloc, hnone⟩ := (Option.any_eq_true _ _).mp hfull
  obtain ⟨pos, hspace⟩ : ∃ pos, AddressSpace .x86_64 pos _ root :=
    zeroed_space (zeroed_emptySpace halloc)
  have hempty : alloc (emptySpace root frames).machine.frames = none :=
    isNone_iff_eq_none.mp hnone
  refine ⟨root, emptySpace root frames, pos, hspace, ?_, ?_⟩
  · rw [pageFaultHandler_heapWrite, heapFault, if_pos (needsFrame_emptySpace halloc _),
      mapFresh_of_full hempty]
    rfl
  · rw [permitted_iff_grantedByLeaf hspace, grantedByLeaf,
      (zeroed_pages (zeroed_emptySpace halloc) _).1]
    simp

end KarteOs.X86

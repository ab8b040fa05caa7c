import KarteOs.Process.Lifecycle

/-! # Progress of riscv64 page fault handling

A fault in the heap region always resumes the process at the faulting
instruction; elsewhere the process is killed, also where `mmap` promised memory.
The kind of the access, which the exception code tells, plays no part. The
results say after which histories of a process that is right.
-/

namespace KarteOs.Riscv

universe u

open Mm RadixTree FrameSource Syscall Fault PTEFlags Registry Option Process Transition

/-- The access that faulted: exception codes 12, 13 and 15. -/
inductive Access where
  | fetch
  | load
  | store
deriving DecidableEq

namespace Access

/-- The leaf lets user mode make the access; writable but not readable is a
reserved encoding, which lets nothing through. -/
def grantedBy (access : Access) (flags : PTEFlags .riscv64) : Bool :=
  flags.isUser && (!flags.isWritable || flags.contains .r) &&
    match access with
    | fetch => flags.isExecutable
    | load => flags.contains .r
    | store => flags.isWritable

def permittedBy (access : Access) (prot : Nat) : Bool :=
  match access with
  | fetch => prot &&& protExec != 0
  | load => prot &&& protRead != 0
  | store => prot &&& protWrite != 0

end Access

def isLeaf (entry : PTE) : Bool :=
  (entry.flags .riscv64).contains .r || (entry.flags .riscv64).isWritable ||
    (entry.flags .riscv64).isExecutable

def permittedFrom (access : Access) (mem : Memory) (vaddr : Nat) : Nat → Nat → Bool
  | 0, table =>
    let entry := mem table (vpn vaddr 0)
    entry.isValid .riscv64 && access.grantedBy (entry.flags .riscv64)
  | level + 1, table =>
    let entry := mem table (vpn vaddr (level + 1))
    entry.isValid .riscv64 &&
      if isLeaf entry then access.grantedBy (entry.flags .riscv64)
      else permittedFrom access mem vaddr level (entry.ppn .riscv64)

def permitted (access : Access) (mem : Memory) (root vaddr : Nat) : Bool :=
  permittedFrom access mem vaddr (rootLevel .riscv64) root

lemma isLeaf_of_permissive {entry : PTE} (hentry : entry.Permissive .riscv64) :
    isLeaf entry = false := by
  obtain ⟨hr, hw, hx⟩ := hentry
  have hbit : ∀ i < 8, (entry.flags .riscv64).contains (.single .riscv64 i) = entry.getLsbD i := by
    intro i hi
    have hmask : Arch.riscv64.flagMask.getLsbD i := by
      revert i
      decide
    rw [contains_single hmask, PTE.flags, bits_fromBitsTruncate,
      BitVec.getLsbD_and, hmask, Bool.and_true]
  have hr' := (hbit 1 (by decide)).trans hr
  have hw' := (hbit 2 (by decide)).trans hw
  have hx' := (hbit 3 (by decide)).trans hx
  simp [isLeaf, isWritable, isExecutable, r, w, x, hr', hw', hx']

variable {σ : Type u} [FrameSource σ (2 ^ 40)] {pos : Layout} {s : Machine σ} {root : Nat}

lemma permittedFrom_eq (hs : Sound .riscv64 pos s) (access : Access) {level table vaddr : Nat}
    (hlevel : level ≤ rootLevel .riscv64)
    (hat : (format .riscv64).At pos table level (pageNumber .riscv64 vaddr)) :
    permittedFrom access s.mem vaddr level table =
      (leafOf .riscv64 ((format .riscv64).lookup s.mem level table (pageNumber .riscv64 vaddr))
        (pageNumber .riscv64 vaddr)).any fun leaf => access.grantedBy leaf.2 := by
  refine hs.walk_eq (g := fun found => (leafOf .riscv64 found _).any _) (fun table => ?_)
    (fun level table hvalid => ?_) nofun (fun level table hok hvalid hhuge => ?_) hlevel hat
  · rw [permittedFrom]
    cases hvalid : (s.mem table (vpn vaddr 0)).isValid .riscv64 with
    | false => rw [leafOf_invalid hvalid]; rfl
    | true => rw [leafOf_zero hvalid]; rfl
  · rw [leafOf_invalid hvalid]
    simp [permittedFrom, hvalid]
  · simp [permittedFrom, hvalid, isLeaf_of_permissive (hok.table hvalid hhuge).2]

lemma permitted_eq (hspace : AddressSpace .riscv64 pos s root) (access : Access) (vaddr : Nat) :
    permitted access s.mem root vaddr =
      (pages .riscv64 s.mem root (pageNumber .riscv64 vaddr)).any fun leaf =>
        access.grantedBy leaf.2 :=
  permittedFrom_eq hspace.toSound access le_rfl (hspace.root_at (pageNumber_lt .riscv64 vaddr))

/-! ## What the handler does -/

def ZeroPage (root : Nat) (k : Kernel σ) (addr : Nat) : Prop :=
  ∃ leaf, pages .riscv64 k.machine.mem root (pageNumber .riscv64 addr) = some leaf ∧
    leaf.2.isUser = true ∧ k.machine.mem leaf.1 = fun _ => 0

/-- A memory call or a fault of the process with the root of the label. -/
def ProcessStep (k : Kernel σ) (label : Nat × MemoryEvent .riscv64) (k' : Kernel σ) : Prop :=
  label.2.Step .riscv64 label.1 k k'

/-- What the processes have done since the one with the root was loaded: their memory calls and
faults, and the kernel that they have led to. -/
structure History (σ : Type u) [FrameSource σ (2 ^ 40)] (root : Nat) where
  start : Kernel σ
  events : List (Nat × MemoryEvent .riscv64)
  kernel : Kernel σ
  run : Run ProcessStep start events kernel

/-- One of the calls was an `mmap` that returned a range with the address. Regions from before
the history, such as the segments of the image, do not count. -/
def History.Created (h : History σ root) (addr : Nat) : Prop :=
  ∃ (earlier later : List (Nat × MemoryEvent .riscv64)) (hint len prot flags start : Nat)
    (k k' : Kernel σ), h.events = earlier ++ (root, .call (.mmap hint len prot flags)) :: later ∧
      Run ProcessStep h.start earlier k ∧
      linuxMmap .riscv64 root k hint len prot flags = some (k', (start : Int)) ∧
      start ≤ addr ∧ addr < start + wrappingAlignUp len

/-- `mmap` promised the access and there is a frame to keep the promise. -/
def History.Promised (h : History σ root) (addr : Nat) (access : Access) : Prop :=
  (free h.kernel.machine.frames).Nonempty ∧ ∃ vma, h.kernel.registry.CoveredBy root addr vma ∧
    h.Created addr ∧ access.permittedBy vma.prot = true

/-- A fault of user mode is resolved: where the process goes on, the access is
permitted, and where the access was promised, it goes on with a page of zeros. -/
structure Resolved (promised : Prop) (root : Nat) (k : Kernel σ) (addr : Nat)
    (access : Access) : Prop where
  progress : ∀ k', pageFaultHandler root k ⟨addr, true⟩ = some (k', .retry) →
    permitted access k'.machine.mem root addr = true
  promise : promised →
    ∃ k', pageFaultHandler root k ⟨addr, true⟩ = some (k', .retry) ∧ ZeroPage root k' addr

/-- When a fault is resolved. In the heap region a page that is mapped has to
permit the access already, and a page that is not needs a frame, is no page to
fetch from, and gets mapped only if there are frames for its tables. Elsewhere
nothing may have been promised. -/
def Resolvable (promised : Prop) (root : Nat) (k : Kernel σ) (addr : Nat) (access : Access) :
    Prop :=
  if (mk addr true).inHeap then
    match pages .riscv64 k.machine.mem root (pageNumber .riscv64 addr) with
    | some leaf =>
      access.grantedBy leaf.2 = true ∧
        (promised → k.machine.mem leaf.1 = fun _ => 0)
    | none =>
      (free k.machine.frames).Nonempty ∧
        ((missingTables k.machine.mem root addr : ℕ∞) + 1 ≤ (free k.machine.frames).encard →
          access ≠ .fetch) ∧
        (promised →
          (missingTables k.machine.mem root addr : ℕ∞) + 1 ≤ (free k.machine.frames).encard)
  else ¬promised

variable {promised : Prop} {k k' : Kernel σ} {addr : Nat} {access : Access} {leaf : Nat × PTEFlags .riscv64}

lemma missingTables_alignDown (mem : Memory) (root addr : Nat) :
    missingTables mem root (alignDown addr) = missingTables mem root addr := by
  rw [missingTables, pageNumber_alignDown, missingTables]

lemma grantedBy_urw : access.grantedBy (.urw .riscv64) ↔ access ≠ .fetch := by
  cases access <;> decide

lemma isUser_of_grantedBy {flags : PTEFlags .riscv64} (h : access.grantedBy flags) :
    flags.isUser := by
  simp only [Access.grantedBy, Bool.and_eq_true] at h
  exact h.1.1

lemma pageFaultHandler_heap (hheap : (mk addr true).inHeap) :
    pageFaultHandler root k ⟨addr, true⟩ = (heapFault root k ⟨addr, true⟩).map (·, .retry) := by
  rw [pageFaultHandler, hheap]
  rfl

lemma pageFaultHandler_outside (hheap : (mk addr true).inHeap = false) :
    pageFaultHandler root k ⟨addr, true⟩ = some (k, .kill) := by
  rw [pageFaultHandler, hheap]
  rfl

section
variable (hspace : AddressSpace .riscv64 pos k.machine root)
include hspace

lemma heapFault_of_mapped
    (hleaf : pages .riscv64 k.machine.mem root (pageNumber .riscv64 addr) = some leaf) :
    heapFault root k ⟨addr, true⟩ = some k := by
  rw [heapFault, pageAddr, hspace.translateUser_eq, pageNumber_alignDown, hleaf]
  rfl

lemma heapFault_of_unmapped
    (hleaf : pages .riscv64 k.machine.mem root (pageNumber .riscv64 addr) = none) :
    heapFault root k ⟨addr, true⟩ =
      (mapFresh .riscv64 k.machine root (alignDown addr) (.urw .riscv64)).map fun next =>
        match next with
        | none => k
        | some machine => { k with machine, brk := max k.brk (alignDown addr + pageSize) } := by
  rw [heapFault, pageAddr, hspace.translateUser_eq, pageNumber_alignDown, hleaf]
  rfl

lemma resolved_iff_of_mapped (hheap : (mk addr true).inHeap)
    (hleaf : pages .riscv64 k.machine.mem root (pageNumber .riscv64 addr) = some leaf) :
    Resolved promised root k addr access ↔ access.grantedBy leaf.2 ∧
      (promised → k.machine.mem leaf.1 = fun _ => 0) := by
  have hrun : pageFaultHandler root k ⟨addr, true⟩ = some (k, .retry) := by
    rw [pageFaultHandler_heap hheap, heapFault_of_mapped hspace hleaf]
    rfl
  have hpermitted : permitted access k.machine.mem root addr = access.grantedBy leaf.2 := by
    rw [permitted_eq hspace, hleaf, any_some]
  constructor
  · intro h
    refine ⟨hpermitted.symm.trans (h.progress k hrun), ?_⟩
    intro hpromised
    obtain ⟨k', hrun', found, hfound, -, hzero⟩ := h.promise hpromised
    cases hrun.symm.trans hrun'
    cases hleaf.symm.trans hfound
    exact hzero
  · intro ⟨hgranted, hzero⟩
    refine ⟨?_, fun hpromised => ⟨k, hrun, leaf, hleaf, isUser_of_grantedBy hgranted,
      hzero hpromised⟩⟩
    intro k' hrun'
    cases hrun.symm.trans hrun'
    exact hpermitted.trans hgranted

lemma resolved_iff_of_enough (hheap : (mk addr true).inHeap)
    (hleaf : pages .riscv64 k.machine.mem root (pageNumber .riscv64 addr) = none)
    (henough : (missingTables k.machine.mem root addr : ℕ∞) + 1 ≤ (free k.machine.frames).encard) :
    Resolved promised root k addr access ↔ access ≠ .fetch := by
  rw [← missingTables_alignDown] at henough
  obtain ⟨next, hnext⟩ := (exists_mapFresh_iff (.urw .riscv64) hspace).mpr henough
  obtain ⟨pos₁, frame, hmaps, hzero⟩ := mapFresh_cleared (by decide) hspace hnext
  have hrun : pageFaultHandler root k ⟨addr, true⟩ =
      some ({ k with machine := next, brk := max k.brk (alignDown addr + pageSize) }, .retry) := by
    rw [pageFaultHandler_heap hheap, heapFault_of_unmapped hspace hleaf, hnext]
    rfl
  have hpage : pages .riscv64 next.mem root (pageNumber .riscv64 addr) =
      some (frame, .urw .riscv64) := by
    rw [hmaps.pages _ (pageNumber_lt .riscv64 addr), pageNumber_alignDown, if_pos rfl]
  have hpermitted : permitted access next.mem root addr = access.grantedBy (.urw .riscv64) := by
    rw [permitted_eq hmaps.space, hpage, any_some]
  rw [← grantedBy_urw, ← hpermitted]
  constructor
  · intro h
    exact h.progress _ hrun
  · intro hgranted
    refine ⟨?_, fun _ => ⟨_, hrun, (frame, .urw .riscv64), hpage,
      (by decide : (urw .riscv64).isUser), hzero⟩⟩
    intro k' hrun'
    cases hrun.symm.trans hrun'
    exact hgranted

end

lemma resolved_iff_of_not_retried
    (hrun : ∀ k', pageFaultHandler root k ⟨addr, true⟩ ≠ some (k', .retry)) :
    Resolved promised root k addr access ↔ ¬promised := by
  constructor
  · intro h hpromised
    obtain ⟨k', hretry, -⟩ := h.promise hpromised
    exact hrun k' hretry
  · intro hnot
    exact ⟨fun k' hretry => absurd hretry (hrun k'), fun hpromised => absurd hpromised hnot⟩

section
variable (hspace : AddressSpace .riscv64 pos k.machine root)
include hspace

lemma pageFaultHandler_of_short (hheap : (mk addr true).inHeap)
    (hleaf : pages .riscv64 k.machine.mem root (pageNumber .riscv64 addr) = none)
    (hfree : (free k.machine.frames).Nonempty)
    (hshort : ¬(missingTables k.machine.mem root addr : ℕ∞) + 1 ≤
      (free k.machine.frames).encard) : pageFaultHandler root k ⟨addr, true⟩ = none := by
  obtain ⟨frame, frames, halloc⟩ := exists_alloc hfree
  rw [← missingTables_alignDown, ← exists_mapFresh_iff (.urw .riscv64) hspace] at hshort
  rw [pageFaultHandler_heap hheap, heapFault_of_unmapped hspace hleaf]
  cases hfresh : mapFresh .riscv64 k.machine root (alignDown addr) (.urw .riscv64) with
  | none => rfl
  | some next =>
    cases next with
    | some machine => exact absurd ⟨machine, hfresh⟩ hshort
    | none =>
      rw [mapFresh_eq halloc, map_eq_some_iff] at hfresh
      obtain ⟨_, -, hnone⟩ := hfresh
      cases hnone

lemma not_resolved_of_full (hheap : (mk addr true).inHeap)
    (hleaf : pages .riscv64 k.machine.mem root (pageNumber .riscv64 addr) = none)
    (hfull : ¬(free k.machine.frames).Nonempty) : ¬Resolved promised root k addr access := by
  have halloc : alloc k.machine.frames = none := by
    cases halloc : alloc k.machine.frames with
    | none => rfl
    | some result => exact absurd ⟨_, alloc_mem halloc⟩ hfull
  intro h
  have hpermitted := h.progress k (by
    rw [pageFaultHandler_heap hheap, heapFault_of_unmapped hspace hleaf, mapFresh_of_full halloc]
    rfl)
  rw [permitted_eq hspace, hleaf] at hpermitted
  cases hpermitted

end

lemma resolved_iff (hspace : AddressSpace .riscv64 pos k.machine root) :
    Resolved promised root k addr access ↔ Resolvable promised root k addr access := by
  unfold Resolvable
  split
  next hheap =>
    cases hleaf : pages .riscv64 k.machine.mem root (pageNumber .riscv64 addr) with
    | some leaf => exact resolved_iff_of_mapped hspace hheap hleaf
    | none =>
      dsimp only
      by_cases hfree : (free k.machine.frames).Nonempty
      · by_cases henough : (missingTables k.machine.mem root addr : ℕ∞) + 1 ≤
            (free k.machine.frames).encard
        · rw [resolved_iff_of_enough hspace hheap hleaf henough]
          simp [hfree, henough]
        · have hpanic := pageFaultHandler_of_short hspace hheap hleaf hfree henough
          rw [resolved_iff_of_not_retried (by simp [hpanic])]
          simp [hfree, henough]
      · exact iff_of_false (not_resolved_of_full hspace hheap hleaf hfree) fun h => hfree h.1
  next hheap =>
    have hkill : pageFaultHandler root k ⟨addr, true⟩ = some (k, .kill) :=
      pageFaultHandler_outside (by simpa using hheap)
    exact resolved_iff_of_not_retried (by simp [hkill])

/-- After any history a user page fault is resolved if and only if it is resolvable. -/
theorem pageFault_resolved_iff (h : History σ root)
    (hspace : AddressSpace .riscv64 pos h.kernel.machine root) (addr : Nat) (access : Access) :
    Resolved (h.Promised addr access) root h.kernel addr access ↔
      Resolvable (h.Promised addr access) root h.kernel addr access :=
  resolved_iff hspace

/-! ## An address space with nothing in it -/

section
variable {start frames : KernelFrames}

def oneRoot (root : Nat) : Registry :=
  ⟨root, true, .cleared⟩ :: List.replicate (maxAddressSpaces - 1) .default

def emptySpace (root : Nat) (frames : KernelFrames) : Kernel KernelFrames :=
  ⟨Machine.setFrame ⟨fun _ _ => 0, frames⟩ root fun _ => 0, oneRoot root, Process.userHeapBase⟩

lemma stateOf_oneRoot (root : Nat) : (oneRoot root).stateOf root = some .cleared := by
  simp [oneRoot, stateOf, VmStateSlot.holds]

lemma zeroed_emptySpace (halloc : alloc start = some (root, frames)) :
    Machine.zeroed ⟨fun _ _ => 0, start⟩ = some (root, (emptySpace root frames).machine) :=
  Machine.zeroed_eq (s := ⟨fun _ _ => 0, start⟩) halloc

variable (root : Nat)

lemma missingTables_emptySpace (frames : KernelFrames) (addr : Nat) :
    missingTables (emptySpace root frames).machine.mem root addr = 2 := by
  refine lookup_of_empty ?_ _ _
  intro i
  simp [emptySpace, Machine.setFrame]

lemma mmapTarget_oneRoot : mmapTarget (oneRoot root) root 0x30000000 pageSize false =
    some (oneRoot root, some 0x30000000) := by
  have hoverlaps : (oneRoot root).vmaOverlaps root 0x30000000 0x30001000 = false := by
    rw [vmaOverlaps, stateOf_oneRoot, any_some]
    decide +kernel
  have hhint : mmapHint (oneRoot root) root 0x30000000 pageSize = 0x30000000 :=
    if_pos ⟨by decide, by decide, by decide, hoverlaps⟩
  simp [mmapTarget, hhint]

def withRegion : Registry :=
  ((oneRoot root).vmaAdd root 0x30000000 0x30001000 3 false).1

lemma coveredBy_withRegion :
    (withRegion root).CoveredBy root 0x30000000 ⟨0x30000000, 0x30001000, 3, true⟩ := by
  refine ⟨(VmState.cleared.add 0x30000000 0x30001000 3 false).1, ?_, by decide,
    by decide⟩
  rw [withRegion, vmaAdd, stateOf_withState_self, stateOf_oneRoot, map_some]

lemma linuxMmap_emptySpace (frames : KernelFrames) :
    linuxMmap .riscv64 root (emptySpace root frames) 0x30000000 pageSize 3 0x22 =
      some ({ emptySpace root frames with registry := withRegion root }, 0x30000000) := by
  have hlen : wrappingAlignUp pageSize = pageSize := by decide
  have hroom : (VmState.cleared.add 0x30000000 0x30001000 3 false).2 := by decide
  have hadded : ((oneRoot root).vmaAdd root 0x30000000 0x30001000 3 false).2 := by
    simp [vmaAdd, stateOf_oneRoot, any_some, hroom]
  simp only [linuxMmap, hlen, show Nat.testBit 0x22 4 = false from by decide, emptySpace,
    mmapTarget_oneRoot, map_some, show wrappingAdd 0x30000000 pageSize = 0x30001000 from rfl,
    hadded]
  rfl

end

def beforeCalls (k : Kernel σ) (root : Nat) : History σ root := ⟨k, [], k, .nil k⟩

/-- The first store to the heap is resolved. -/
theorem pageFault_resolved_heapStore : ∃ (root : Nat) (h : History KernelFrames root),
    Resolved (h.Promised 0x10000000 .store) root h.kernel 0x10000000 .store := by
  obtain ⟨root, frames, halloc, hfree⟩ := KernelFrames.exists_alloc_sixtyFour
  obtain ⟨pos, hspace⟩ : ∃ pos, AddressSpace .riscv64 pos _ root :=
    zeroed_space (zeroed_emptySpace halloc)
  refine ⟨root, beforeCalls (emptySpace root frames) root,
    (pageFault_resolved_iff _ hspace _ _).mpr ?_⟩
  rw [Resolvable, if_pos (by decide), beforeCalls, (zeroed_pages (zeroed_emptySpace halloc) _).1]
  refine ⟨nonempty_of_le_encard hfree, fun _ => by decide, fun _ => ?_⟩
  rw [missingTables_emptySpace]
  exact le_trans (by decide) hfree

/-- A store to memory that `mmap` just returned kills the process, with frames to
spare. -/
theorem mmap_store_killed :
    ∃ (root : Nat) (h : History KernelFrames root) (pos : Layout),
      h.events = [(root, .call (.mmap 0x30000000 pageSize 3 0x22))] ∧
      linuxMmap .riscv64 root h.start 0x30000000 pageSize 3 0x22 =
        some (h.kernel, 0x30000000) ∧
      AddressSpace .riscv64 pos h.kernel.machine root ∧ h.Promised 0x30000000 .store ∧
      pageFaultHandler root h.kernel ⟨0x30000000, true⟩ = some (h.kernel, .kill) ∧
      ¬Resolved (h.Promised 0x30000000 .store) root h.kernel 0x30000000 .store := by
  obtain ⟨root, frames, halloc, hfree⟩ := KernelFrames.exists_alloc_sixtyFour
  obtain ⟨pos, hspace⟩ : ∃ pos, AddressSpace .riscv64 pos _ root :=
    zeroed_space (zeroed_emptySpace halloc)
  have hmmap := linuxMmap_emptySpace root frames
  have hstep : ProcessStep (emptySpace root frames)
      (root, .call (.mmap 0x30000000 pageSize 3 0x22)) _ := congrArg (Option.map Prod.fst) hmmap
  let h : History KernelFrames root := ⟨_, _, _, .cons hstep (.nil _)⟩
  have hcreated : h.Created 0x30000000 :=
    ⟨[], [], _, _, _, _, _, _, _, rfl, .nil _, hmmap, by decide, by decide⟩
  have hpromised : h.Promised 0x30000000 .store :=
    ⟨nonempty_of_le_encard hfree, _, coveredBy_withRegion root, hcreated, by decide⟩
  have hkill : pageFaultHandler root h.kernel ⟨0x30000000, true⟩ = some (h.kernel, .kill) :=
    pageFaultHandler_outside (by decide)
  refine ⟨root, h, pos, rfl, hmmap, hspace, hpromised, hkill, ?_⟩
  rw [resolved_iff_of_not_retried (by simp [hkill])]
  exact not_not_intro hpromised

end KarteOs.Riscv

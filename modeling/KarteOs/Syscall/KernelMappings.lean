import KarteOs.Syscall.RangeSpec

/-! # Kernel mappings under the memory calls

A process page table also holds supervisor pages: the identity mappings, the
device pages and the kernel stack. The loops of `mprotect`, `munmap`,
`madvise` and fixed `mmap` do not look at the user bit of the leaves they
rewrite, so what protects a supervisor page is the range of the call.
-/

namespace KarteOs.Syscall

universe u

open Mm RadixTree FrameSource Transition Option

variable {σ : Type u} {arch : Arch} {pos : Layout} {s s₁ s₂ : Machine σ} {root vaddr : Nat}

def isSupervisor (arch : Arch) (s : Machine σ) (root n : Nat) : Bool :=
  (pages arch s.mem root n).any fun leaf => !leaf.2.isUser

def KeepsSupervisor (arch : Arch) (root : Nat) (s s' : Machine σ) : Prop :=
  ∀ n < pteCount ^ arch.ptLevels, isSupervisor arch s root n = true →
    pages arch s'.mem root n = pages arch s.mem root n

lemma KeepsSupervisor.refl (arch : Arch) (root : Nat) (s : Machine σ) :
    KeepsSupervisor arch root s s := fun _ _ _ => rfl

lemma KeepsSupervisor.trans (h : KeepsSupervisor arch root s s₁)
    (h' : KeepsSupervisor arch root s₁ s₂) : KeepsSupervisor arch root s s₂ := by
  intro n hn hsup
  have heq := h n hn hsup
  rw [h' n hn (by rwa [isSupervisor, heq]), heq]

/-! ## The three loops -/

variable [FrameSource σ (2 ^ 40)] {vaddrs : List Nat} {flags : PTEFlags arch}

lemma keepsSupervisor_of_rewrites
    (change : Option (Nat × PTEFlags arch) → Option (Nat × PTEFlags arch))
    (hrw : Rewrites arch pos s s₁ root fun n =>
      if n ∈ pageNumbers arch vaddrs ∧ inHugePage arch s.mem root n = false then
        change (pages arch s.mem root n) else pages arch s.mem root n)
    (hspares : ∀ vaddr ∈ vaddrs, isSupervisor arch s root (pageNumber arch vaddr) →
      inHugePage arch s.mem root (pageNumber arch vaddr)) : KeepsSupervisor arch root s s₁ := by
  intro n hn hsup
  rw [hrw.pages n hn]
  refine if_neg ?_
  rintro ⟨hmem, hsmall⟩
  obtain ⟨vaddr, hvaddr, rfl⟩ := List.mem_map.mp hmem
  simp [hspares vaddr hvaddr hsup] at hsmall

lemma identity_of_needsFrame (hspace : AddressSpace arch pos s root)
    (hneeds : needsFrame arch s root vaddr)
    (hsup : isSupervisor arch s root (pageNumber arch vaddr)) :
    arch = .x86_64 ∧ translateUser arch s.mem root vaddr = some vaddr := by
  rw [needsFrame] at hneeds
  split at hneeds
  next hnone =>
    rw [hspace.translateUser_eq, map_eq_none_iff] at hnone
    simp [isSupervisor, hnone] at hsup
  next frame hframe =>
    obtain ⟨harch, rfl⟩ := of_decide_eq_true hneeds
    exact ⟨harch, hframe⟩

lemma populatePage_cases
    (hflags : flags.contains (.valid arch)) (hspace : AddressSpace arch pos s root)
    (hrun : populatePage arch root flags s vaddr = some s₁) :
    s₁ = s ∨ needsFrame arch s root vaddr ∧
      ∃ pos₁ frame, MapsFresh arch pos pos₁ s s₁ root (pageNumber arch vaddr) frame flags := by
  rw [populatePage] at hrun
  split at hrun
  next hneeds =>
    obtain ⟨next, hfresh, rfl⟩ := map_eq_some_iff.mp hrun
    cases next with
    | none => exact .inl rfl
    | some next => exact .inr ⟨hneeds, mapFresh_spec hflags hspace hfresh⟩
  · exact .inl (some.inj hrun).symm

lemma populatePages_keeps (hflags : flags.contains (.valid arch))
    (huser : flags.isUser) (hspace : AddressSpace arch pos s root)
    (hspares : ∀ vaddr ∈ vaddrs, arch = .x86_64 → (free s.frames).Nonempty →
      isSupervisor arch s root (pageNumber arch vaddr) →
      translateUser arch s.mem root vaddr ≠ some vaddr)
    (hrun : vaddrs.foldlM (populatePage arch root flags) s = some s₁) :
    ∃ pos₁, AddressSpace arch pos₁ s₁ root ∧ KeepsSupervisor arch root s s₁ := by
  induction vaddrs generalizing pos s with
  | nil =>
    obtain rfl := some.inj hrun
    exact ⟨pos, hspace, .refl arch root s⟩
  | cons vaddr rest ih =>
    rw [List.foldlM_cons] at hrun
    obtain ⟨middle, hfirst, hrest⟩ := bind_eq_some_iff.mp hrun
    rcases populatePage_cases hflags hspace hfirst with rfl | ⟨hneeds, pos₁, frame, hmaps⟩
    · exact ih hspace (fun v hv => hspares v (.tail _ hv)) hrest
    · have hfree : (free s.frames).Nonempty := ⟨frame, hmaps.was_free⟩
      -- the page just mapped is a user page; the others are as before
      have hsame : ∀ n < pteCount ^ arch.ptLevels,
          isSupervisor arch middle root n → n ≠ pageNumber arch vaddr := by
        rintro n hn hsup rfl
        rw [isSupervisor, hmaps.pages _ hn, if_pos rfl] at hsup
        simp [huser] at hsup
      have hkeeps : KeepsSupervisor arch root s middle := by
        intro n hn hsup
        rw [hmaps.pages n hn]
        refine if_neg ?_
        rintro rfl
        obtain ⟨harch, hident⟩ := identity_of_needsFrame hspace hneeds hsup
        exact hspares vaddr (.head _) harch hfree hsup hident
      obtain ⟨pos₂, hspace₂, hkeeps₂⟩ := ih hmaps.space (by
        intro v hv harch _ hsup
        have hn := pageNumber_lt arch v
        have hpages := hmaps.pages _ hn
        rw [if_neg (hsame _ hn hsup)] at hpages
        rw [hmaps.space.translateUser_eq, hpages, ← hspace.translateUser_eq]
        exact hspares v (.tail _ hv) harch hfree (by rwa [isSupervisor, ← hpages])) hrest
      exact ⟨pos₂, hspace₂, hkeeps.trans hkeeps₂⟩

inductive MemoryCall where
  | mmap (addr len prot flags : Nat)
  | mprotect (addr len prot : Nat)
  | munmap (addr len : Nat)
  | madvise (addr len advice : Nat)

namespace MemoryCall

def apply (arch : Arch) (root : Nat) (k : Kernel σ) : MemoryCall → Option (Kernel σ × Int)
  | mmap addr len prot flags => linuxMmap arch root k addr len prot flags
  | mprotect addr len prot => some (linuxMprotect arch root k addr len prot)
  | munmap addr len => some (linuxMunmap arch root k addr len)
  | madvise addr len advice => linuxMadvise arch root k addr len advice

/-- The pages whose leaves the call rewrites in place. For `mmap` these are
the pages of an accepted fixed mapping that is not `PROT_NONE`. -/
def rewritten (root : Nat) (k : Kernel σ) : MemoryCall → List Nat
  | mmap addr len prot flags =>
    if len ≠ 0 ∧ prot ≠ 0 ∧ flags.testBit 4 = true then
      match mmapTarget k.registry root addr (wrappingAlignUp len) true with
      | some (registry, some target) =>
        let stop := wrappingAdd target (wrappingAlignUp len)
        if (registry.vmaAdd root target stop prot true).2 then pageRange target stop else []
      | _ => []
    else []
  | mprotect addr len _ =>
    if addr = 0 ∨ len = 0 then [] else pageRange (alignDown addr) (wrappingAlignUp (addr + len))
  | munmap addr len =>
    if munmapRefused addr len then []
    else pageRange (alignDown addr) (wrappingAlignUp (addr + len))
  | madvise addr len advice =>
    match adviceOf advice with
    | .decommit =>
      if len = 0 then [] else pageRange (alignDown addr) (wrappingAlignUp (addr + len))
    | _ => []

def populated : MemoryCall → List Nat
  | madvise addr len advice =>
    match adviceOf advice with
    | .populate =>
      if len = 0 then [] else pageRange (alignDown addr) (wrappingAlignUp (addr + len))
    | _ => []
  | _ => []

/-- The call stays clear of supervisor pages: it rewrites none except inside
huge pages, where the loops do nothing, and on x86_64 it populates no
supervisor page that is identity mapped while there are free frames. -/
def Spares (arch : Arch) (root : Nat) (k : Kernel σ) (call : MemoryCall) : Prop :=
  (∀ vaddr ∈ call.rewritten root k,
    isSupervisor arch k.machine root (pageNumber arch vaddr) = true →
      inHugePage arch k.machine.mem root (pageNumber arch vaddr) = true) ∧
  ∀ vaddr ∈ call.populated, arch = .x86_64 → (free k.machine.frames).Nonempty →
    isSupervisor arch k.machine root (pageNumber arch vaddr) = true →
      translateUser arch k.machine.mem root vaddr ≠ some vaddr

variable {k k' k₀ : Kernel σ} {call : MemoryCall} {result : Int}

inductive MachineEffect (arch : Arch) (root : Nat) (k : Kernel σ) (call : MemoryCall) :
    Machine σ → Prop
  | none : MachineEffect arch root k call k.machine
  | unmap : MachineEffect arch root k call
      ((call.rewritten root k).foldl (fun s vaddr => (unmapUser arch s root vaddr).1) k.machine)
  | protect (prot : Nat) : MachineEffect arch root k call
      ((call.rewritten root k).foldl (fun s vaddr =>
        if (translateUser arch s.mem root vaddr).isSome then
          (mprotectUser arch s root vaddr (protToPteFlags arch prot)).1 else s) k.machine)
  | populate {prot : Nat} {s : Machine σ} :
      call.populated.foldlM (populatePage arch root (protToPteFlags arch prot)) k.machine = some s →
      MachineEffect arch root k call s

lemma apply_machine (hrun : call.apply arch root k = some (k', result)) :
    MachineEffect arch root k call k'.machine := by
  cases call with
  | mmap addr len prot flags =>
    simp only [apply, linuxMmap] at hrun
    split at hrun
    · cases hrun; exact .none
    next hlen =>
      obtain ⟨⟨registry, target⟩, htarget, heq⟩ := map_eq_some_iff.mp hrun
      cases target with
      | none => cases heq; exact .none
      | some target =>
        dsimp only at heq
        split_ifs at heq with hadded hfixed
        · cases heq; exact .none
        · cases heq
          have heffect : MachineEffect arch root k (.mmap addr len prot flags) _ := .unmap
          rw [hfixed.2] at htarget hadded
          simpa [rewritten, hlen, hfixed.1, hfixed.2, htarget, hadded, unmapRange] using heffect
        · cases heq; exact .none
  | mprotect addr len prot =>
    simp only [apply, linuxMprotect, some.injEq] at hrun
    split at hrun
    · cases hrun; exact .none
    next hargs =>
      cases hrun
      have heffect : MachineEffect arch root k (.mprotect addr len prot) _ := .protect prot
      rwa [rewritten, if_neg hargs] at heffect
  | munmap addr len =>
    simp only [apply, linuxMunmap, some.injEq] at hrun
    split at hrun
    · cases hrun; exact .none
    next hargs =>
      cases hrun
      have heffect : MachineEffect arch root k (.munmap addr len) _ := .unmap
      rwa [rewritten, if_neg hargs] at heffect
  | madvise addr len advice =>
    simp only [apply, linuxMadvise] at hrun
    split at hrun
    · cases hrun; exact .none
    next hlen =>
      split at hrun
      next hadvice =>
        cases hrun
        have heffect : MachineEffect arch root k (.madvise addr len advice) _ := .unmap
        simpa only [rewritten, hadvice, if_neg hlen, unmapRange] using heffect
      next hadvice =>
        obtain ⟨machine, hloop, heq⟩ := map_eq_some_iff.mp hrun
        cases heq
        rw [populateFlags] at hloop
        exact .populate (by simpa only [populated, hadvice, if_neg hlen] using hloop)
      · cases hrun; exact .none

lemma apply_keepsSupervisor (hspace : AddressSpace arch pos k.machine root)
    (hspares : call.Spares arch root k) (hrun : call.apply arch root k = some (k', result)) :
    ∃ pos', AddressSpace arch pos' k'.machine root ∧
      KeepsSupervisor arch root k.machine k'.machine := by
  generalize hmachine : k'.machine = machine
  cases hmachine ▸ apply_machine hrun with
  | none => exact ⟨pos, hspace, .refl arch root k.machine⟩
  | unmap =>
    have hunmap := unmapPages_spec hspace
    exact ⟨pos, (hunmap _).space, keepsSupervisor_of_rewrites (fun _ => none) (hunmap _) hspares.1⟩
  | protect prot =>
    have hprotect := protectPages_spec (valid_protToPteFlags arch prot) hspace
    exact ⟨pos, (hprotect _).space, keepsSupervisor_of_rewrites _ (hprotect _) hspares.1⟩
  | populate hloop =>
    exact populatePages_keeps (valid_protToPteFlags arch _) (isUser_protToPteFlags arch _)
      hspace hspares.2 hloop

/-- A call of the process that returns and that spares the supervisor pages. -/
def Step (arch : Arch) (root : Nat) (k : Kernel σ) (call : MemoryCall) (k' : Kernel σ) : Prop :=
  call.Spares arch root k ∧ ∃ result, call.apply arch root k = some (k', result)

lemma run_keepsSupervisor {calls : List MemoryCall}
    (hspace : AddressSpace arch pos k₀.machine root) (hrun : Run (Step arch root) k₀ calls k) :
    ∃ pos', AddressSpace arch pos' k.machine root ∧
      KeepsSupervisor arch root k₀.machine k.machine := by
  induction hrun generalizing pos with
  | nil state => exact ⟨pos, hspace, .refl arch root state.machine⟩
  | cons hhead _ ih =>
    obtain ⟨hspares, result, hcall⟩ := hhead
    obtain ⟨pos₁, hspace₁, hkeeps₁⟩ := apply_keepsSupervisor hspace hspares hcall
    obtain ⟨pos₂, hspace₂, hkeeps₂⟩ := ih hspace₁
    exact ⟨pos₂, hspace₂, hkeeps₁.trans hkeeps₂⟩

end MemoryCall

/-- In every run of memory calls that spare the supervisor pages, each address
that starts out behind a supervisor leaf keeps its translation and the leaf. -/
theorem run_keeps_kernel_mappings {k₀ k : Kernel σ} {calls : List MemoryCall}
    (hspace : AddressSpace arch pos k₀.machine root)
    (hrun : Run (MemoryCall.Step arch root) k₀ calls k) {vaddr : Nat} {leaf : Nat × PTEFlags arch}
    (hleaf : pages arch k₀.machine.mem root (pageNumber arch vaddr) = some leaf)
    (hsup : leaf.2.isUser = false) :
    pages arch k.machine.mem root (pageNumber arch vaddr) = some leaf ∧
      translateUser arch k.machine.mem root vaddr =
        translateUser arch k₀.machine.mem root vaddr := by
  obtain ⟨pos', hspace', hkeeps⟩ := MemoryCall.run_keepsSupervisor hspace hrun
  have hpages := hkeeps _ (pageNumber_lt arch vaddr) (by simp [isSupervisor, hleaf, hsup])
  exact ⟨hpages.trans hleaf, by rw [hspace'.translateUser_eq, hspace.translateUser_eq, hpages]⟩

def stackMappings : List (Nat × Nat × PTEFlags .x86_64) :=
  [(0xffff800000400000, 0x400, .krw .x86_64), (0x10000000, 0x401, .urw .x86_64)]

def HasStackTable (k : Kernel KernelFrames) (root : Nat) : Prop :=
  Machine.tableOf ⟨fun _ _ => 0, .sixtyFour⟩ stackMappings = some (root, k.machine)

lemma exists_stackTable : ∃ k root pos, HasStackTable k root ∧
    AddressSpace .x86_64 pos k.machine root ∧ ∀ n < pteCount ^ Arch.x86_64.ptLevels,
      pages .x86_64 k.machine.mem root n = lastMapping stackMappings n none ∧
        inHugePage .x86_64 k.machine.mem root n = false := by
  obtain ⟨root, s, pos, hbuilt, htable⟩ :=
    exists_tableOf stackMappings (by decide +kernel) (by decide)
  exact ⟨⟨s, .boot, 0x10001000⟩, root, pos, hbuilt, htable⟩

theorem run_keeps_kernel_mappings_stackTable : ∃ k root k', HasStackTable k root ∧
    Run (MemoryCall.Step .x86_64 root) k [.mprotect 0x10000000 0x1000 1] k' ∧
    pages .x86_64 k'.machine.mem root (pageNumber .x86_64 0xffff800000400000) =
      some (0x400, .krw .x86_64) := by
  obtain ⟨k, root, pos, hbuilt, hspace, htable⟩ := exists_stackTable
  have hspares : MemoryCall.Spares .x86_64 root k (.mprotect 0x10000000 0x1000 1) := by
    refine ⟨?_, nofun⟩
    intro vaddr hmem hsup
    obtain rfl : vaddr = 0x10000000 := List.mem_singleton.mp hmem
    have huser : (lastMapping stackMappings (pageNumber .x86_64 0x10000000) none).any
        (fun leaf => !leaf.2.isUser) = false := by decide +kernel
    rw [isSupervisor, (htable _ (pageNumber_lt _ _)).1, huser] at hsup
    cases hsup
  have hrun : Run (MemoryCall.Step .x86_64 root) k [.mprotect 0x10000000 0x1000 1] _ :=
    .cons ⟨hspares, _, congrArg some Prod.mk.eta.symm⟩ (.nil _)
  exact ⟨k, root, _, hbuilt, hrun, (run_keeps_kernel_mappings hspace hrun
    ((htable _ (pageNumber_lt _ _)).1.trans (by decide +kernel)) (by decide)).1⟩

/-- `mprotect` opens a kernel stack page to the process and `madvise` unmaps it. -/
theorem calls_reach_kernel_mappings : ∃ k root k' result, HasStackTable k root ∧
    pages .x86_64 k.machine.mem root (pageNumber .x86_64 0xffff800000400000) =
      some (0x400, .krw .x86_64) ∧
    pages .x86_64 (linuxMprotect .x86_64 root k 0xffff800000400000 0x1000 3).1.machine.mem root
      (pageNumber .x86_64 0xffff800000400000) = some (0x400, protToPteFlags .x86_64 3) ∧
    (protToPteFlags .x86_64 3).isUser = true ∧
    linuxMadvise .x86_64 root k 0xffff800000400000 0x1000 4 = some (k', result) ∧
    pages .x86_64 k'.machine.mem root (pageNumber .x86_64 0xffff800000400000) = none := by
  obtain ⟨k, root, pos, hbuilt, hspace, htable⟩ := exists_stackTable
  obtain ⟨hpages, hsmall⟩ := htable _ (pageNumber_lt .x86_64 0xffff800000400000)
  have hleaf : pages .x86_64 k.machine.mem root (pageNumber .x86_64 0xffff800000400000) =
      some (0x400, .krw .x86_64) := hpages.trans (by decide +kernel)
  refine ⟨k, root, _, _, hbuilt, hleaf, ?_, isUser_protToPteFlags .x86_64 3, rfl, ?_⟩
  · refine ((protectPages_spec (valid_protToPteFlags .x86_64 3) hspace [0xffff800000400000]).pages _
      (pageNumber_lt _ _)).trans ?_
    rw [if_pos ⟨by decide, hsmall⟩, hleaf]
    rfl
  · refine ((unmapPages_spec hspace [0xffff800000400000]).pages _ (pageNumber_lt _ _)).trans ?_
    rw [if_pos ⟨by decide, hsmall⟩]

end KarteOs.Syscall

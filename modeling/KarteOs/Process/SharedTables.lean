import KarteOs.Mm.Pointwise
import KarteOs.Process.KernelSpace

/-! # The kernel's tables in a process of x86_64

A process gets copies of the kernel's page directories. Where the kernel maps 4 KiB
pages, the copies refer to the kernel's own bottom tables, so the two trees share
them. The table of the process is a sound address space nevertheless.
-/

namespace KarteOs.Process

universe u

open Mm RadixTree FrameSource PTE Machine PTEFlags List Option Nat

/-! ## Copied entries -/

variable {entry : PTE} {level : Nat}

lemma getLsbD_copiedPdEntry (hvalid : entry.isValid .x86_64) {k : Nat} (hk : k ≠ 2) :
    (copiedPdEntry entry).getLsbD k = entry.getLsbD k := by
  have huser : user.bits = BitVec.twoPow 64 2 := bits_single (by decide)
  rw [copiedPdEntry, hvalid, huser]
  split
  next h => cases h
  · split
    · rw [BitVec.getLsbD_and, BitVec.getLsbD_not, BitVec.getLsbD_twoPow]
      by_cases hlt : k < 64
      · simp [hlt, hk.symm]
      · simp [BitVec.getLsbD_of_ge entry k (not_lt.mp hlt)]
    · rw [BitVec.getLsbD_or, BitVec.getLsbD_twoPow]
      simp [hk.symm]

lemma copiedPdEntry_of_invalid (hvalid : entry.isValid .x86_64 = false) :
    copiedPdEntry entry = 0 := by
  rw [copiedPdEntry, hvalid]
  rfl

lemma isValid_copiedPdEntry (entry : PTE) :
    (copiedPdEntry entry).isValid .x86_64 = entry.isValid .x86_64 := by
  cases hvalid : entry.isValid .x86_64 with
  | false => rw [copiedPdEntry_of_invalid hvalid, isValid_zero]
  | true => rw [isValid_eq, getLsbD_copiedPdEntry hvalid (by decide), ← isValid_eq, hvalid]

section
variable (hvalid : entry.isValid .x86_64 = true)
include hvalid

lemma isHuge_copiedPdEntry : (copiedPdEntry entry).isHuge .x86_64 = entry.isHuge .x86_64 := by
  rw [isHuge_x86_64, getLsbD_copiedPdEntry hvalid (by decide), ← isHuge_x86_64]

lemma ppn_copiedPdEntry : (copiedPdEntry entry).ppn .x86_64 = entry.ppn .x86_64 := by
  apply eq_of_testBit_eq
  intro j
  rw [testBit_ppn, testBit_ppn, getLsbD_copiedPdEntry hvalid (by simp only [Arch.ppnShift]; omega)]

lemma permissive_copiedPdEntry (hhuge : entry.isHuge .x86_64 = false)
    (hentry : entry.Permissive .x86_64) : (copiedPdEntry entry).Permissive .x86_64 := by
  have huser : user.bits = BitVec.twoPow 64 2 := bits_single (by decide)
  refine ⟨?_, ?_, ?_⟩
  · rw [getLsbD_copiedPdEntry hvalid (by decide)]
    exact hentry.1
  · simp [copiedPdEntry, hvalid, hhuge, huser]
  · rw [getLsbD_copiedPdEntry hvalid (by decide)]
    exact hentry.2.2

end

lemma entryOk_copiedPdEntry (hentry : EntryOk .x86_64 level entry) :
    EntryOk .x86_64 level (copiedPdEntry entry) := by
  intro hvalid
  rw [isValid_copiedPdEntry] at hvalid
  rw [isHuge_copiedPdEntry hvalid, ppn_copiedPdEntry hvalid]
  cases hhuge : entry.isHuge .x86_64 with
  | true => simpa using hentry.huge hvalid hhuge
  | false =>
    obtain ⟨hppn, hpermissive⟩ := hentry.table hvalid hhuge
    simpa using ⟨hppn, permissive_copiedPdEntry hvalid hhuge hpermissive⟩

lemma child_of_copiedPdEntry {next : Nat}
    (hchild : (format .x86_64).child (copiedPdEntry entry) = some next) :
    (format .x86_64).child entry = some next := by
  obtain ⟨hvalid, hhuge, hppn, hnext⟩ := child_eq_some.mp hchild
  rw [isValid_copiedPdEntry] at hvalid
  rw [isHuge_copiedPdEntry hvalid] at hhuge
  rw [ppn_copiedPdEntry hvalid] at hppn hnext
  exact child_eq_some.mpr ⟨hvalid, hhuge, hppn, hnext⟩

/-! ## Two trees that share bottom tables -/

variable {σ : Type u} [FrameSource σ (2 ^ 40)]

/-- The kernel's table and that of a process are sound and have at most bottom tables in
common; the `lost` frames are neither free nor tables of either. -/
structure Sharing (kpos pos : Layout) (kernelRoot root : Nat) (lost : Set Nat) (s : Machine σ) :
    Prop where
  kernel : AddressSpace .x86_64 kpos s kernelRoot
  user : AddressSpace .x86_64 pos s root
  common : ∀ t, pos t ≠ none → kpos t ≠ none → pos t = kpos t ∧ ∃ region, kpos t = some (0, region)
  outside : ∀ t ∈ lost, kpos t = none ∧ pos t = none ∧ t ∉ free s.frames

/-- The layout with the kernel's bottom tables below one page directory. -/
def shareLayout (kpos pos : Layout) (directory : Nat) : Layout := fun t =>
  match kpos t with
  | some (0, region) => if region / pteCount = directory then some (0, region) else pos t
  | _ => pos t

variable {kpos pos : Layout} {kernelRoot root t i userPdp : Nat} {lost : Set Nat} {s s' : Machine σ}

lemma shareLayout_bottom {region directory : Nat} (ht : kpos t = some (0, region))
    (hregion : region / pteCount = directory) :
    shareLayout kpos pos directory t = some (0, region) := by
  rw [shareLayout, ht]
  exact if_pos hregion

lemma shareLayout_cases (kpos pos : Layout) (directory t : Nat) :
    shareLayout kpos pos directory t = pos t ∨ ∃ region, kpos t = some (0, region) ∧
        shareLayout kpos pos directory t = some (0, region) := by
  unfold shareLayout
  split
  next region hregion =>
    split
    · exact .inr ⟨region, hregion, rfl⟩
    · exact .inl rfl
  · exact .inl rfl

section
variable (hs : Sharing kpos pos kernelRoot root lost s)
include hs

lemma Sharing.shareLayout_of_ne_none (ht : pos t ≠ none) (directory : Nat) :
    shareLayout kpos pos directory t = pos t := by
  rcases shareLayout_cases kpos pos directory t with hsame | ⟨region, hkernel, hnew⟩
  · exact hsame
  · rw [hnew, (hs.common t ht (by rw [hkernel]; simp)).1, hkernel]

lemma Sharing.share (directory : Nat) :
    Sharing kpos (shareLayout kpos pos directory) kernelRoot root lost s := by
  have habove : ∀ t l region, shareLayout kpos pos directory t = some (l + 1, region) →
      pos t = some (l + 1, region) := by
    intro t l region ht
    rcases shareLayout_cases kpos pos directory t with hsame | ⟨bottom, -, hnew⟩
    · rw [← hsame, ht]
    · rw [hnew] at ht
      cases ht
  refine ⟨hs.kernel, ⟨⟨?_, ?_, ?_⟩, ?_⟩, ?_, ?_⟩
  · intro t l region ht i hi next hnext
    have hpos := hs.user.typed t l region (habove t l region ht) i hi next hnext
    rw [hs.shareLayout_of_ne_none (by rw [hpos]; simp), hpos]
  · intro t l region ht
    exact hs.user.entries t l region (habove t l region ht)
  · intro t ht
    rcases shareLayout_cases kpos pos directory t with hsame | ⟨region, hkernel, -⟩
    · exact hs.user.owned t (hsame ▸ ht)
    · exact hs.kernel.owned t (by rw [hkernel]; simp)
  · rw [hs.shareLayout_of_ne_none (by rw [hs.user.root_pos]; simp), hs.user.root_pos]
  · intro t ht hkernel
    rcases shareLayout_cases kpos pos directory t with hsame | ⟨region, hregion, hnew⟩
    · rw [hsame] at ht ⊢
      exact hs.common t ht hkernel
    · exact ⟨hnew.trans hregion.symm, region, hregion⟩
  · intro t ht
    obtain ⟨hkernel, huser, hheld⟩ := hs.outside t ht
    exact ⟨hkernel, by rw [shareLayout, hkernel, huser], hheld⟩

lemma Sharing.graft {table n fresh : Nat} {frames : σ}
    (hat : (format .x86_64).At pos table (level + 1) n)
    (halloc : alloc s.frames = some (fresh, frames)) (words : Nat → PTE)
    (hchild : ∀ l, level = l + 1 → ∀ j < pteCount, ∀ next,
      (format .x86_64).child (words j) = some next →
      pos next = some (l, (format .x86_64).cell (level + 1) n * pteCount + j))
    (hwords : ∀ j < pteCount, level ≠ 0 → EntryOk .x86_64 level (words j)) :
    Sharing kpos (graftLayout .x86_64 pos fresh level n) kernelRoot root lost
      (s.graft .x86_64 frames table ((format .x86_64).index (level + 1) n) fresh words) := by
  have hshrink := free_alloc_subset halloc
  -- only bottom tables are shared, so the kernel does not use the table that is written
  have htable : kpos table = none := by
    by_contra hsome
    obtain ⟨hsame, region, hregion⟩ := hs.common table (by rw [hat]; simp) hsome
    rw [hat, hregion] at hsame
    cases hsame
  refine ⟨?_, ⟨graft_sound_of_typed hs.user.toSound hat halloc hchild hwords, ?_⟩, ?_, ?_⟩
  · refine hs.kernel.congr (fun t ht => ?_) fun t ht hfree => hs.kernel.owned t ht (hshrink hfree)
    funext j
    refine graft_mem_other (hs.kernel.fresh_ne halloc ht) (.inl ?_)
    rintro rfl
    exact ht htable
  · rw [graftLayout_of_ne (hs.user.fresh_ne halloc (by rw [hs.user.root_pos]; simp)),
      hs.user.root_pos]
  · intro t ht hkernel
    have hne := hs.kernel.fresh_ne halloc hkernel
    rw [graftLayout_of_ne hne] at ht ⊢
    exact hs.common t ht hkernel
  · intro t ht
    obtain ⟨hkernel, huser, hheld⟩ := hs.outside t ht
    have hne : t ≠ fresh := by
      rintro rfl
      exact hheld (alloc_mem halloc)
    exact ⟨hkernel, (graftLayout_of_ne hne).trans huser, fun hfree => hheld (hshrink hfree)⟩

end

/-! ## `copy_kernel_mappings` -/

lemma root_child (hkernel : AddressSpace .x86_64 kpos s kernelRoot)
    (hvalid : (s.mem kernelRoot 0).isValid .x86_64) :
    (format .x86_64).child (s.mem kernelRoot 0) = some ((s.mem kernelRoot 0).ppn .x86_64) := by
  have hok := hkernel.entries kernelRoot 2 0 hkernel.root_pos 0 (by decide)
  refine hok.child hvalid ?_
  by_contra hhuge
  have hlevel := (hok.huge hvalid (by simpa using hhuge)).1
  omega

def directoryStart (i : Nat) : Nat := i * pteCount ^ 2

lemma cell_directoryStart (i : Nat) : (format .x86_64).cell 2 (directoryStart i) = i := by
  rw [cell_eq, directoryStart, Nat.mul_div_cancel _ (by decide)]

lemma index_directoryStart (hi : i < pteCount) :
    (format .x86_64).index 2 (directoryStart i) = i := by
  rw [Format.index, cell_directoryStart]
  exact mod_eq_of_lt hi

lemma cell_three_directoryStart (hi : i < pteCount) :
    (format .x86_64).cell 3 (directoryStart i) = 0 := by
  rw [Format.cell_succ, cell_directoryStart]
  exact div_eq_of_lt hi

variable {kernelPdp : Nat}

lemma copyKernelPd_cases (hrun : copyKernelPd kernelPdp userPdp s i = some s') :
    s' = s ∧ ((s.mem kernelPdp i).isValid .x86_64 →
      (s.mem kernelPdp i).isHuge .x86_64 = false → (s.mem userPdp i).isValid .x86_64) ∨
    (s.mem kernelPdp i).isValid .x86_64 ∧
      (s.mem kernelPdp i).isHuge .x86_64 = false ∧ (s.mem userPdp i).isValid .x86_64 = false ∧
      ∃ fresh frames words, alloc s.frames = some (fresh, frames) ∧
        s' = s.graft .x86_64 frames userPdp i fresh words ∧
        ((s.mem kernelPdp i).ppn .x86_64 ≠ fresh →
          words = fun j => copiedPdEntry (s.mem ((s.mem kernelPdp i).ppn .x86_64) j)) := by
  rw [copyKernelPd] at hrun
  split at hrun
  next hskip =>
    refine .inl ⟨(some.inj hrun).symm, fun hvalid hhuge => ?_⟩
    simp [hvalid, hhuge] at hskip
  next hkpe =>
    split at hrun
    next hpresent => exact .inl ⟨(some.inj hrun).symm, fun _ _ => hpresent⟩
    next huser =>
      simp only [Bool.or_eq_true, Bool.not_eq_true', not_or, Bool.not_eq_false,
        Bool.not_eq_true] at hkpe huser
      refine .inr ⟨hkpe.1, hkpe.2, huser, ?_⟩
      cases halloc : alloc s.frames with
      | none =>
        rw [zeroed, halloc] at hrun
        cases hrun
      | some result =>
        obtain ⟨fresh, frames⟩ := result
        rw [zeroed_eq halloc] at hrun
        cases hrun
        refine ⟨fresh, frames, fun j => copiedPdEntry (Function.update s.mem fresh (fun _ => 0)
          ((s.mem kernelPdp i).ppn .x86_64) j), rfl, ?_, fun hne => ?_⟩
        · simp [graft, setFrame]
        · rw [Function.update_of_ne hne]

section
variable (hs : Sharing kpos pos kernelRoot root lost s)
include hs

lemma Sharing.copyKernelPd
    (hkernelPdp : kpos kernelPdp = some (2, 0)) (huserPdp : pos userPdp = some (2, 0))
    (hi : i < pteCount) (hrun : copyKernelPd kernelPdp userPdp s i = some s') :
    ∃ pos', Sharing kpos pos' kernelRoot root lost s' ∧ pos' userPdp = some (2, 0) := by
  obtain ⟨rfl, -⟩ | ⟨hvalid, hhuge, -, fresh, frames, words, halloc, rfl, hwords⟩ :=
    copyKernelPd_cases hrun
  · exact ⟨pos, hs, huserPdp⟩
  · have hok := hs.kernel.entries kernelPdp 1 0 hkernelPdp i hi
    have hkernelPd := hs.kernel.typed kernelPdp 1 0 hkernelPdp i hi _ (hok.child hvalid hhuge)
    rw [zero_mul, Nat.zero_add] at hkernelPd
    obtain rfl := hwords (hs.kernel.fresh_ne halloc (by rw [hkernelPd]; simp))
    have huser : shareLayout kpos pos i userPdp = some (2, 0) := by
      rw [hs.shareLayout_of_ne_none (by rw [huserPdp]; simp), huserPdp]
    have hat : (format .x86_64).At (shareLayout kpos pos i) userPdp (1 + 1) (directoryStart i) := by
      rw [Format.At, huser, cell_three_directoryStart hi]
    have hgraft := (hs.share i).graft hat halloc _ (fun l hl j hj next hchild => ?_)
      fun j hj _ => entryOk_copiedPdEntry (hs.kernel.entries _ 0 i hkernelPd j hj)
    · rw [index_directoryStart hi] at hgraft
      refine ⟨_, hgraft, ?_⟩
      rw [graftLayout_of_ne ((hs.share i).user.fresh_ne halloc (by rw [huser]; simp)), huser]
    · -- the bottom tables below the directory are those of its cells in the kernel's tree
      obtain rfl : l = 0 := by omega
      have hbottom := hs.kernel.typed _ 0 i hkernelPd j hj next (child_of_copiedPdEntry hchild)
      rw [cell_directoryStart]
      refine shareLayout_bottom hbottom ?_
      rw [Nat.mul_comm, mul_add_div (by decide), div_eq_of_lt hj, Nat.add_zero]

lemma Sharing.copyKernelPds
    (hkernelPdp : kpos kernelPdp = some (2, 0)) (huserPdp : pos userPdp = some (2, 0))
    {indices : List Nat} (hindices : ∀ i ∈ indices, i < pteCount)
    (hrun : indices.foldlM (Process.copyKernelPd kernelPdp userPdp) s = some s') :
    ∃ pos', Sharing kpos pos' kernelRoot root lost s' := by
  induction indices generalizing pos s with
  | nil =>
    cases hrun
    exact ⟨pos, hs⟩
  | cons i rest ih =>
    rw [foldlM_cons] at hrun
    obtain ⟨middle, hround, hrest⟩ := bind_eq_some_iff.mp hrun
    obtain ⟨pos', hmiddle, huser⟩ :=
      hs.copyKernelPd hkernelPdp huserPdp (hindices i (.head _)) hround
    exact ih hmiddle huser (fun j hj => hindices j (mem_cons_of_mem i hj)) hrest

end

variable (hkernel : AddressSpace .x86_64 kpos s kernelRoot) (hzero : ∀ i, s.mem root i = 0)
  (hroot : root ∉ free s.frames) (hapart : kpos root = none)
  (hlost : ∀ t ∈ lost, t ≠ root ∧ kpos t = none ∧ t ∉ free s.frames)
  (hrun : copyKernelIdentity kernelRoot root s = some s')
include hkernel hzero hroot hapart hlost

lemma emptyRoot_sharing : Sharing kpos (rootLayout .x86_64 root) kernelRoot root lost s := by
  refine ⟨hkernel, emptyTable_space hzero hroot, fun t ht hsome => ?_, fun t ht => ?_⟩
  · obtain rfl := eq_of_rootLayout ht
    exact absurd hapart hsome
  · obtain ⟨hne, hnone, hheld⟩ := hlost t ht
    exact ⟨hnone, rootLayout_of_ne hne, hheld⟩

include hrun

lemma copyKernelIdentity_rounds (hvalid : (s.mem kernelRoot 0).isValid .x86_64) :
    ∃ tabled userPdp pos, s.ensureTable .x86_64 root 0 = some tabled ∧
      (format .x86_64).child (tabled.mem root 0) = some userPdp ∧
      Sharing kpos pos kernelRoot root lost tabled ∧
      kpos ((s.mem kernelRoot 0).ppn .x86_64) = some (2, 0) ∧ pos userPdp = some (2, 0) ∧
      (∀ j, tabled.mem userPdp j = 0) ∧
      (range pteCount).foldlM (copyKernelPd ((s.mem kernelRoot 0).ppn .x86_64) userPdp)
        tabled = some s' := by
  have hs := emptyRoot_sharing hkernel hzero hroot hapart hlost
  rw [copyKernelIdentity, if_pos hvalid] at hrun
  have hkernelPdp := hkernel.typed kernelRoot 2 0 hkernel.root_pos 0 (by decide) _
    (root_child hkernel hvalid)
  obtain ⟨tabled, htable, hloop⟩ := bind_eq_some_iff.mp hrun
  have htable' := htable
  have hinvalid : (s.mem root 0).isValid .x86_64 = false := by rw [hzero, isValid_zero]
  rw [ensureTable_eq hinvalid] at htable
  obtain ⟨⟨fresh, frames⟩, halloc, rfl⟩ := map_eq_some_iff.mp htable
  have hat : (format .x86_64).At (rootLayout .x86_64 root) root (2 + 1) 0 := by
    rw [Format.At, cell_eq, Nat.zero_div]
    exact if_pos rfl
  have hgraft := hs.graft hat halloc (fun _ => 0) (fun l hl j hj next hchild => ?_)
    fun j hj _ hvalid => ?_
  · have huserPdp : (((s.graft .x86_64 frames root 0 fresh fun _ => 0).mem root 0).ppn
        .x86_64) = fresh := by
      rw [graft_mem_entry, ppn_newNonleaf (alloc_lt halloc)]
    rw [huserPdp] at hloop
    have hne : root ≠ fresh := hs.user.fresh_ne halloc (by rw [hs.user.root_pos]; simp)
    exact ⟨_, fresh, _, htable', graft_child halloc 0, hgraft, hkernelPdp,
      graftLayout_fresh .x86_64 (rootLayout .x86_64 root) fresh 2 0,
      fun j => by rw [graft_mem_fresh hne], hloop⟩
  · rw [child_eq_none_of_invalid (isValid_zero .x86_64)] at hchild
    cases hchild
  · rw [isValid_zero] at hvalid
    cases hvalid

lemma copyKernelIdentity_sharing : ∃ pos, Sharing kpos pos kernelRoot root lost s' := by
  by_cases hvalid : (s.mem kernelRoot 0).isValid .x86_64
  · obtain ⟨tabled, userPdp, pos, -, -, hs, hkernelPdp, huserPdp, -, hloop⟩ :=
      copyKernelIdentity_rounds hkernel hzero hroot hapart hlost hrun hvalid
    exact hs.copyKernelPds hkernelPdp huserPdp (fun i hi => mem_range.mp hi) hloop
  · rw [copyKernelIdentity, if_neg hvalid] at hrun
    cases hrun
    exact ⟨_, emptyRoot_sharing hkernel hzero hroot hapart hlost⟩

lemma copyKernelIdentity_space : ∃ pos, AddressSpace .x86_64 pos s' root ∧
    ∀ t ∈ lost, pos t = none ∧ t ∉ free s'.frames := by
  obtain ⟨pos, hs⟩ := copyKernelIdentity_sharing hkernel hzero hroot hapart hlost hrun
  exact ⟨pos, hs.user, fun t ht => (hs.outside t ht).2⟩

end KarteOs.Process

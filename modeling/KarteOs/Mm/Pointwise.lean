import KarteOs.Foundation.Run
import KarteOs.Mm.Access
import KarteOs.Mm.KernelFrames

/-! # Page table updates are pointwise

A page table starts as `PageTable::zeroed` and grows by `map` and, on x86_64,
`identity_map_2mb`. Every table built this way is a sound address space, and
`map` changes the mapping of its own page only, also where it splits a 2 MiB
page.
-/

namespace KarteOs.Mm

universe u

open RadixTree FrameSource Transition Machine PTE KernelFrames Option Nat

variable {σ : Type u} [FrameSource σ (2 ^ 40)] {arch : Arch} {pos : Layout} {s s₁ : Machine σ}
  {root t table level vaddr : Nat} {mem : Memory} {flags : PTEFlags .x86_64} {spare : ℕ∞}

/-! ## Tables built by the kernel -/

lemma Machine.zeroed_eq {frames : σ} (halloc : alloc s.frames = some (root, frames)) :
    s.zeroed = some (root, setFrame { s with frames } root fun _ => 0) := by
  rw [zeroed, halloc]
  rfl

def rootLayout (arch : Arch) (root : Nat) : Layout :=
  fun t => if t = root then some (rootLevel arch, 0) else none

lemma rootLayout_of_ne (hne : t ≠ root) : rootLayout arch root t = none := if_neg hne

lemma eq_of_rootLayout (ht : rootLayout arch root t ≠ none) : t = root := by
  by_contra hne
  exact ht (rootLayout_of_ne hne)

lemma emptyTable_space (hzero : ∀ i, s.mem root i = 0) (howned : root ∉ free s.frames) :
    AddressSpace arch (rootLayout arch root) s root := by
  refine ⟨⟨?_, ?_, ?_⟩, if_pos rfl⟩
  · intro t l region ht i _ next hnext
    obtain rfl := eq_of_rootLayout (by rw [ht]; simp)
    rw [hzero, child_eq_none_of_invalid (isValid_zero arch)] at hnext
    cases hnext
  · intro t l region ht i _ hvalid
    obtain rfl := eq_of_rootLayout (by rw [ht]; simp)
    rw [hzero, isValid_zero] at hvalid
    cases hvalid
  · intro t ht
    obtain rfl := eq_of_rootLayout ht
    exact howned

lemma zeroed_root (hzeroed : s.zeroed = some (root, s₁)) :
    (∀ i, s₁.mem root i = 0) ∧ root ∉ free s₁.frames := by
  obtain ⟨⟨frame, frames⟩, halloc, heq⟩ := map_eq_some_iff.mp hzeroed
  cases heq
  exact ⟨fun i => by simp [setFrame], not_mem_free_alloc halloc⟩

lemma zeroed_space (hzeroed : s.zeroed = some (root, s₁)) : ∃ pos, AddressSpace arch pos s₁ root :=
  ⟨_, emptyTable_space (zeroed_root hzeroed).1 (zeroed_root hzeroed).2⟩

lemma emptyTable_pages (hzero : ∀ i, mem root i = 0) (n : Nat) :
    pages arch mem root n = none ∧ inHugePage arch mem root n = false := by
  have hinvalid := isValid_zero arch
  obtain ⟨level, hlevel⟩ : ∃ level, rootLevel arch = level + 1 := by
    cases arch <;> exact ⟨_, rfl⟩
  have hstop : (format arch).child (mem root ((format arch).index (level + 1) n)) = none := by
    rw [hzero, child_eq_none_of_invalid hinvalid]
  rw [pages, inHugePage, hlevel, Format.lookup_of_stop _ hstop, hzero]
  exact ⟨leafOf_invalid hinvalid n, hugeOf_invalid hinvalid⟩

lemma zeroed_pages (hzeroed : s.zeroed = some (root, s₁)) (n : Nat) :
    pages arch s₁.mem root n = none ∧ inHugePage arch s₁.mem root n = false :=
  emptyTable_pages (zeroed_root hzeroed).1 n

lemma AddressSpace.setEntry_stop (hspace : AddressSpace arch pos s root) {region i : Nat}
    {entry : PTE} (hpos : pos table = some (level + 1, region))
    (hstop : (format arch).child entry = none) (hok : EntryOk arch (level + 1) entry) :
    AddressSpace arch pos (s.setEntry table i entry) root := by
  have hset : ∀ t j, (s.setEntry table i entry).mem t j =
      if t = table ∧ j = i then entry else s.mem t j := by
    intro t j
    by_cases ht : t = table
    · subst ht
      by_cases hj : j = i
      · subst hj
        simp [setEntry, Store.set_same]
      · simp [setEntry, Store.set_of_index_ne _ _ _ hj, hj]
    · simp [setEntry, Store.set_of_table_ne _ _ _ _ ht, ht]
  refine ⟨⟨?_, ?_, hspace.owned⟩, hspace.root_pos⟩
  · intro t l r ht j hj next hnext
    rw [hset] at hnext
    split at hnext
    · exact absurd (hnext.symm.trans hstop) (by simp)
    · exact hspace.typed t l r ht j hj next hnext
  · intro t l r ht j hj
    rw [hset]
    split
    next heq =>
      rw [heq.1, hpos] at ht
      rw [← (Prod.mk.inj (some.inj ht)).1]
      exact hok
    · exact hspace.entries t l r ht j hj

lemma AddressSpace.child_of_ensureTable (hspace : AddressSpace .x86_64 pos s root) {n : Nat}
    (hat : (format .x86_64).At pos table (level + 2) n)
    (hrun : s.ensureTable .x86_64 table ((format .x86_64).index (level + 2) n) = some s₁) :
    ∃ pos₁, AddressSpace .x86_64 pos₁ s₁ root ∧ (format .x86_64).At pos₁
        ((s₁.mem table ((format .x86_64).index (level + 2) n)).ppn .x86_64) (level + 1) n := by
  obtain ⟨⟨pos₁, hkeeps⟩, hvalid⟩ := hspace.ensureTable_spec hat hrun
  have hat₁ := hkeeps.descent.at_of_at hat
  have hok := hkeeps.sound.entryOk_at hat₁
  have hhuge : (s₁.mem table ((format .x86_64).index (level + 2) n)).isHuge .x86_64 = false := by
    rw [Bool.eq_false_iff]
    intro hhuge
    have := (hok.huge hvalid hhuge).1
    omega
  refine ⟨pos₁, ⟨hkeeps.sound, ?_⟩, hkeeps.sound.typed.child_at hat₁ (hok.child hvalid hhuge)⟩
  rw [hkeeps.descent.extend root (by rw [hspace.root_pos]; simp), hspace.root_pos]

lemma entryOk_hugeLeaf {addr : Nat} (haddr : 2 ^ 21 ∣ addr) (flags : PTEFlags .x86_64) :
    (new .x86_64 (addr / pageSize) (flags ||| .ps)).isHuge .x86_64 = true ∧
      EntryOk .x86_64 1 (.new .x86_64 (addr / pageSize) (flags ||| .ps)) := by
  have hhuge : (new .x86_64 (addr / pageSize) (flags ||| .ps)).isHuge .x86_64 = true := by
    rw [isHuge_x86_64, getLsbD_new_low _ _ _ (by decide), PTEFlags.bits_or,
      BitVec.getLsbD_or, show PTEFlags.ps.bits.getLsbD 7 = true by decide, Bool.or_true]
  refine ⟨hhuge, ?_⟩
  intro _
  rw [if_pos hhuge, ppn_new_mod]
  refine ⟨rfl, (dvd_mod_iff (by decide)).mpr ?_⟩
  obtain ⟨q, rfl⟩ := haddr
  refine ⟨q, ?_⟩
  simp only [pageSize, pteCount]
  omega

lemma AddressSpace.identityMap2mbPage_space (hspace : AddressSpace .x86_64 pos s root)
    {addr : Nat} (haddr : 2 ^ 21 ∣ addr) (hrun : identityMap2mbPage s root addr flags = some s₁) :
    ∃ pos₁, AddressSpace .x86_64 pos₁ s₁ root := by
  have hindex : ∀ level ≤ 3, vpn addr level =
      (format .x86_64).index level (pageNumber .x86_64 addr) :=
    fun level hlevel =>
      (index_pageNumber (by simpa [rootLevel, Arch.ptLevels] using hlevel) addr).symm
  simp only [identityMap2mbPage, hindex 3 le_rfl, hindex 2 (by decide),
    hindex 1 (by decide)] at hrun
  obtain ⟨s₂, hfirst, hrun⟩ := bind_eq_some_iff.mp hrun
  obtain ⟨pos₂, hspace₂, hp3⟩ :=
    hspace.child_of_ensureTable (hspace.root_at (pageNumber_lt .x86_64 addr)) hfirst
  obtain ⟨s₃, hsecond, rfl⟩ := map_eq_some_iff.mp hrun
  obtain ⟨pos₃, hspace₃, hp2⟩ := hspace₂.child_of_ensureTable hp3 hsecond
  obtain ⟨hhuge, hok⟩ := entryOk_hugeLeaf haddr flags
  exact ⟨pos₃, hspace₃.setEntry_stop hp2 (child_eq_none_of_huge hhuge) hok⟩

lemma AddressSpace.identityMap2mbLoop_space {rounds addr : Nat}
    (hspace : AddressSpace .x86_64 pos s root) (haddr : 2 ^ 21 ∣ addr)
    (hrun : identityMap2mbLoop root flags rounds addr s = some s₁) :
    ∃ pos₁, AddressSpace .x86_64 pos₁ s₁ root := by
  induction rounds generalizing addr s pos with
  | zero =>
    cases hrun
    exact ⟨pos, hspace⟩
  | succ rounds ih =>
    obtain ⟨s₂, hpage, hrest⟩ := bind_eq_some_iff.mp hrun
    obtain ⟨pos₂, hspace₂⟩ := hspace.identityMap2mbPage_space haddr hpage
    exact ih hspace₂ (Nat.dvd_add haddr dvd_rfl) hrest

inductive TableOp : Arch → Type where
  | map {arch : Arch} (vaddr paddr : Nat) (flags : PTEFlags arch) : TableOp arch
  | identityMap2mb (start stop : Nat) (flags : PTEFlags .x86_64) : TableOp .x86_64

inductive TableStep (root : Nat) : {arch : Arch} → Machine σ → TableOp arch → Machine σ → Prop
  | map {arch : Arch} {s next : Machine σ} {vaddr paddr : Nat} {flags : PTEFlags arch} :
      vaddr % pageSize = 0 → paddr % pageSize = 0 →
      KarteOs.Mm.map arch s root vaddr paddr flags = some next →
      TableStep root s (.map vaddr paddr flags) next
  | identityMap2mb {s next : Machine σ} {start stop : Nat} {flags : PTEFlags .x86_64} :
      start % pageSize = 0 → stop % pageSize = 0 →
      KarteOs.Mm.identityMap2mb s root start stop flags = some next →
      TableStep root s (.identityMap2mb start stop flags) next

def Built (arch : Arch) (s : Machine σ) (root : Nat) : Prop :=
  ∃ (before start : Machine σ) (ops : List (TableOp arch)),
    before.zeroed = some (root, start) ∧ Run (TableStep root) start ops s

lemma AddressSpace.step {op : TableOp arch} (hspace : AddressSpace arch pos s root)
    (hstep : TableStep root s op s₁) : ∃ pos₁, AddressSpace arch pos₁ s₁ root := by
  cases hstep with
  | map _ _ hmap =>
    obtain ⟨pos₁, hupdates⟩ := hspace.map_spec hmap
    exact ⟨pos₁, hupdates.space⟩
  | identityMap2mb _ _ hrun => exact hspace.identityMap2mbLoop_space (Nat.dvd_mul_left ..) hrun

lemma Built.space (hbuilt : Built arch s root) : ∃ pos, AddressSpace arch pos s root := by
  obtain ⟨before, start, ops, hzeroed, hrun⟩ := hbuilt
  have hstep : ∀ (s : Machine σ) (op : TableOp arch) (next : Machine σ),
      (∃ pos, AddressSpace arch pos s root) → TableStep root s op next →
        ∃ pos, AddressSpace arch pos next root := by
    rintro s op next ⟨pos, hspace⟩ hstep
    exact hspace.step hstep
  exact hrun.invariant hstep (zeroed_space hzeroed)

/-! ## The call returns -/

lemma Sound.mapDescend_total {flags : PTEFlags arch} (hs : Sound arch pos s)
    (hlevel : level ≤ rootLevel arch)
    (hat : (format arch).At pos table level (pageNumber arch vaddr))
    (hfree : level + spare ≤ (free s.frames).encard)
    (hcanonical : arch = .x86_64 → isCanonical vaddr) :
    ∃ next target, mapDescend arch vaddr flags level table s = some (next, target) ∧
      spare ≤ (free next.frames).encard := by
  induction level generalizing table pos s with
  | zero => exact ⟨s, some table, rfl, by simpa using hfree⟩
  | succ level ih =>
    have hindex := index_pageNumber hlevel vaddr
    have hfree' : (level : ℕ∞) + spare + 1 ≤ (free s.frames).encard := by
      rwa [cast_add_one, add_right_comm] at hfree
    have hensure : ∃ s₀,
        s.ensureTable arch table ((format arch).index (level + 1) (pageNumber arch vaddr)) =
          some s₀ ∧ level + spare ≤ (free s₀.frames).encard ∧
        ((s₀.mem table ((format arch).index (level + 1) (pageNumber arch vaddr))).isHuge arch =
          true → s₀ = s) := by
      cases hvalid : (s.mem table
          ((format arch).index (level + 1) (pageNumber arch vaddr))).isValid arch with
      | true =>
        exact ⟨s, by rw [ensureTable, if_pos hvalid], le_trans (by simp) hfree', fun _ => rfl⟩
      | false =>
        obtain ⟨fresh, frames, halloc⟩ := exists_alloc (nonempty_of_le_encard hfree')
        rw [ensureTable_eq hvalid, halloc]
        refine ⟨_, rfl, le_encard_free_alloc halloc hfree', ?_⟩
        intro hhuge
        rw [graft_mem_entry, isHuge_newNonleaf] at hhuge
        cases hhuge
    obtain ⟨s₀, hensure, hfree₀, hsame⟩ := hensure
    obtain ⟨⟨pos₀, hkeeps⟩, hvalid⟩ := hs.ensureTable_spec hat hensure
    have hat₀ := hkeeps.descent.at_of_at hat
    have hok := hkeeps.sound.entryOk_at hat₀
    simp only [mapDescend, ← hindex, hensure, bind_some]
    cases hhuge : (s₀.mem table
        ((format arch).index (level + 1) (pageNumber arch vaddr))).isHuge arch with
    | true =>
      obtain ⟨hone, _⟩ := hok.huge hvalid hhuge
      obtain rfl : level = 0 := by omega
      cases arch with
      | riscv64 => cases hhuge
      | x86_64 =>
        obtain rfl := hsame hhuge
        obtain ⟨fresh, frames, halloc⟩ := exists_alloc (nonempty_of_le_encard hfree')
        rw [if_pos rfl, splitHuge_eq, halloc]
        simp only [map_some, bind_some, hcanonical rfl]
        refine ⟨_, _, rfl, le_trans ?_ (le_encard_free_alloc halloc hfree')⟩
        simp
    | false =>
      obtain ⟨hppn, hpermissive⟩ := hok.table hvalid hhuge
      rw [if_neg (by simp), if_neg (by simp [hppn]), patchNonleaf_of_permissive hpermissive,
        setEntry_self]
      exact ih hkeeps.sound (by omega)
        (hkeeps.sound.typed.child_at hat₀ (hok.child hvalid hhuge)) hfree₀

lemma mapDescend_riscv_succ (vaddr : Nat) (flags : PTEFlags .riscv64) (level table : Nat)
    (s : Machine σ) : mapDescend .riscv64 vaddr flags (level + 1) table s =
      (s.ensureTable .riscv64 table (vpn vaddr (level + 1))).bind fun s =>
        mapDescend .riscv64 vaddr flags level
          ((s.mem table (vpn vaddr (level + 1))).ppn .riscv64) s := by
  simp [mapDescend, isHuge, patchNonleaf, setEntry_self]

lemma lookup_of_empty (hempty : ∀ i, mem table i = 0) (level n : Nat) :
    ((format arch).lookup mem level table n).1 = level := by
  cases level with
  | zero => rfl
  | succ level =>
    rw [Format.lookup_of_stop]
    rw [hempty]
    exact child_eq_none_of_invalid (isValid_zero arch)

lemma Sound.mapDescend_isSome_iff {flags : PTEFlags .riscv64} (hs : Sound .riscv64 pos s)
    (hlevel : level ≤ rootLevel .riscv64)
    (hat : (format .riscv64).At pos table level (pageNumber .riscv64 vaddr)) :
    (mapDescend .riscv64 vaddr flags level table s).isSome ↔
      (((format .riscv64).lookup s.mem level table (pageNumber .riscv64 vaddr)).1 : ℕ∞) ≤
        (free s.frames).encard := by
  induction level generalizing table pos s with
  | zero => simp [mapDescend, Format.lookup]
  | succ level ih =>
    have hindex := index_pageNumber hlevel vaddr
    rw [mapDescend_riscv_succ, ← hindex]
    cases hvalid : (s.mem table
        ((format .riscv64).index (level + 1) (pageNumber .riscv64 vaddr))).isValid .riscv64 with
    | true =>
      have hchild := (hs.entryOk_at hat).child hvalid rfl
      rw [ensureTable, if_pos hvalid, bind_some,
        ih hs (by omega) (hs.typed.child_at hat hchild), Format.lookup_of_child _ hchild]
    | false =>
      rw [ensureTable_eq hvalid, Format.lookup_of_stop _ (child_eq_none_of_invalid hvalid)]
      cases halloc : alloc s.frames with
      | none => simp [free_of_alloc_none halloc]
      | some result =>
        obtain ⟨fresh, frames⟩ := result
        have hfresh : fresh < 2 ^ Arch.riscv64.ppnWidth :=
          (alloc_lt halloc).trans_le (Nat.pow_le_pow_right (by decide) (by decide))
        have hempty : ∀ j, (s.graft .riscv64 frames table
            ((format .riscv64).index (level + 1) (pageNumber .riscv64 vaddr)) fresh
            fun _ => 0).mem fresh j = 0 := by
          intro j
          rw [graft_mem_fresh (hs.fresh_ne halloc (by rw [hat]; simp))]
        have hensure : s.ensureTable .riscv64 table
            ((format .riscv64).index (level + 1) (pageNumber .riscv64 vaddr)) = some _ :=
          (ensureTable_eq hvalid).trans (by rw [halloc]; rfl)
        obtain ⟨⟨pos₀, hkeeps⟩, hvalid₀⟩ := hs.ensureTable_spec hat hensure
        have hat₀ := hkeeps.descent.at_of_at hat
        have hchild := (hkeeps.sound.entryOk_at hat₀).child hvalid₀ rfl
        rw [map_some, bind_some,
          ih hkeeps.sound (by omega) (hkeeps.sound.typed.child_at hat₀ hchild),
          graft_mem_entry, ppn_newNonleaf hfresh, lookup_of_empty hempty]
        exact (le_encard_free_alloc_iff halloc).trans (by rw [Nat.cast_add_one])

lemma Sound.mapDescend_of_bottom {leaf : Nat} {flags : PTEFlags arch} (hs : Sound arch pos s)
    (hlevel : level ≤ rootLevel arch)
    (hat : (format arch).At pos table level (pageNumber arch vaddr))
    (hbottom : (format arch).bottom s.mem level table (pageNumber arch vaddr) = some leaf) :
    mapDescend arch vaddr flags level table s = some (s, some leaf) := by
  induction level generalizing table with
  | zero =>
    cases hbottom
    rfl
  | succ level ih =>
    have hindex := index_pageNumber hlevel vaddr
    obtain ⟨next, hchild, hnext⟩ := bind_eq_some_iff.mp hbottom
    obtain ⟨⟨hvalid, hhuge, hppn⟩, heq⟩ := ite_none_right_eq_some.mp hchild
    cases heq
    obtain ⟨-, hpermissive⟩ := (hs.entryOk_at hat).table hvalid hhuge
    simp only [mapDescend, ← hindex, ensureTable, if_pos hvalid, bind_some]
    rw [if_neg (by simp [hhuge]), if_neg (by simp [hppn]),
      patchNonleaf_of_permissive hpermissive, setEntry_self]
    exact ih (by omega) (hs.typed.child_at hat hchild) hnext

lemma AddressSpace.map_of_bottom {leaf : Nat} (hspace : AddressSpace arch pos s root)
    (hbottom : (format arch).bottom s.mem (rootLevel arch) root (pageNumber arch vaddr) =
      some leaf) (paddr : Nat) (flags : PTEFlags arch) :
    ∃ next, map arch s root vaddr paddr flags = some next ∧ next.frames = s.frames := by
  rw [map, show arch.ptLevels - 1 = rootLevel arch from rfl,
    hspace.mapDescend_of_bottom le_rfl (hspace.root_at (pageNumber_lt arch vaddr)) hbottom]
  exact ⟨_, rfl, rfl⟩

lemma AddressSpace.map_total (hspace : AddressSpace arch pos s root) (paddr : Nat)
    (flags : PTEFlags arch) (hfree : rootLevel arch + spare ≤ (free s.frames).encard)
    (hcanonical : arch = .x86_64 → isCanonical vaddr) :
    ∃ next, map arch s root vaddr paddr flags = some next ∧ spare ≤ (free next.frames).encard := by
  obtain ⟨next, target, hresult, hspare⟩ := hspace.mapDescend_total le_rfl
    (hspace.root_at (pageNumber_lt arch vaddr)) hfree hcanonical
  rw [map, show arch.ptLevels - 1 = rootLevel arch from rfl, hresult]
  cases target with
  | none => exact ⟨next, rfl, hspare⟩
  | some target => exact ⟨_, rfl, hspare⟩

def missingTables (mem : Memory) (root vaddr : Nat) : Nat :=
  ((format .riscv64).lookup mem (rootLevel .riscv64) root (pageNumber .riscv64 vaddr)).1

lemma AddressSpace.map_isSome_iff (hspace : AddressSpace .riscv64 pos s root) (vaddr paddr : Nat)
    (flags : PTEFlags .riscv64) : (map .riscv64 s root vaddr paddr flags).isSome ↔
      (missingTables s.mem root vaddr : ℕ∞) ≤ (free s.frames).encard := by
  rw [map, isSome_map]
  exact hspace.mapDescend_isSome_iff le_rfl (hspace.root_at (pageNumber_lt .riscv64 vaddr))

/-- A new table with the given 4 KiB mappings, each an address, a frame number
and flags. -/
def Machine.tableOf (s : Machine σ) (mappings : List (Nat × Nat × PTEFlags arch)) :
    Option (Nat × Machine σ) :=
  s.zeroed.bind fun (root, s) =>
    (mappings.foldlM (fun s m => map arch s root m.1 (m.2.1 * pageSize) m.2.2) s).map fun s =>
      (root, s)

variable (mappings : List (Nat × Nat × PTEFlags arch))

def lastMapping (n : Nat) (before : Option (Nat × PTEFlags arch)) : Option (Nat × PTEFlags arch) :=
  mappings.foldl (fun leaf m => if n = pageNumber arch m.1 then some m.2 else leaf) before

/-- Mappings that `map` represents exactly and whose addresses it can flush. -/
def Representable (m : Nat × Nat × PTEFlags arch) : Prop :=
  m.2.1 < 2 ^ arch.ppnWidth ∧ m.2.2.contains (.valid arch) = true ∧
    (arch = .x86_64 → isCanonical m.1 = true)
deriving Decidable

lemma AddressSpace.mapAll_total {mappings : List (Nat × Nat × PTEFlags arch)}
    (hspace : AddressSpace arch pos s root) (hmappings : ∀ m ∈ mappings, Representable m)
    (hfree : ((mappings.length * rootLevel arch : Nat) : ℕ∞) ≤ (free s.frames).encard) :
    ∃ next pos', mappings.foldlM (fun s m => map arch s root m.1 (m.2.1 * pageSize) m.2.2) s =
        some next ∧ AddressSpace arch pos' next root ∧ ∀ n < pteCount ^ arch.ptLevels,
        pages arch next.mem root n = lastMapping mappings n (pages arch s.mem root n) ∧
        (inHugePage arch s.mem root n = false → inHugePage arch next.mem root n = false) := by
  induction mappings generalizing pos s with
  | nil => exact ⟨s, pos, rfl, hspace, fun _ _ => ⟨rfl, id⟩⟩
  | cons m rest ih =>
    obtain ⟨hppn, hvalid, hcanonical⟩ := hmappings m (.head _)
    rw [List.length_cons, Nat.add_one_mul, Nat.add_comm, cast_add] at hfree
    obtain ⟨middle, hmap, hspare⟩ := hspace.map_total (m.2.1 * pageSize) m.2.2 hfree hcanonical
    obtain ⟨pos₁, hupdates⟩ := hspace.map_spec hmap
    obtain ⟨next, pos₂, hrest, hspace₂, hpages⟩ :=
      ih hupdates.space (fun m' hm' => hmappings m' (.tail _ hm')) hspare
    refine ⟨next, pos₂, by rw [List.foldlM_cons, hmap]; exact hrest, hspace₂, ?_⟩
    intro n hn
    obtain ⟨hrewritten, hhuge⟩ := hpages n hn
    constructor
    · rw [hrewritten, hupdates.pages n hn, Nat.mul_div_cancel _ (by decide), leafOf_new hvalid hppn]
      rfl
    · intro hsmall
      exact hhuge (by rw [hupdates.huge n hn, hsmall, Bool.false_and])

lemma Machine.tableOf_total (s : Machine σ) (mappings : List (Nat × Nat × PTEFlags arch))
    (hmappings : ∀ m ∈ mappings, Representable m)
    (hfree : ((mappings.length * rootLevel arch + 1 : Nat) : ℕ∞) ≤ (free s.frames).encard) :
    ∃ root next pos, s.tableOf mappings = some (root, next) ∧ AddressSpace arch pos next root ∧
      ∀ n < pteCount ^ arch.ptLevels, pages arch next.mem root n = lastMapping mappings n none ∧
        inHugePage arch next.mem root n = false := by
  have hfree' : ((mappings.length * rootLevel arch : Nat) : ℕ∞) + 1 ≤ (free s.frames).encard := by
    exact_mod_cast hfree
  obtain ⟨root, frames, halloc⟩ := exists_alloc (nonempty_of_le_encard hfree')
  have hzeroed := zeroed_eq halloc
  obtain ⟨pos, hspace⟩ : ∃ pos, AddressSpace arch pos _ root := zeroed_space hzeroed
  obtain ⟨next, pos', hrun, hspace', hpages⟩ :=
    hspace.mapAll_total hmappings (le_encard_free_alloc halloc hfree')
  refine ⟨root, next, pos', ?_, hspace', ?_⟩
  · rw [tableOf, hzeroed, bind_some]
    exact map_eq_some_iff.mpr ⟨next, hrun, rfl⟩
  · intro n hn
    obtain ⟨hnone, hsmall⟩ := zeroed_pages hzeroed n
    exact ⟨by rw [(hpages n hn).1, hnone], (hpages n hn).2 hsmall⟩

lemma exists_tableOf (hmappings : ∀ m ∈ mappings, Representable m)
    (hsmall : mappings.length * rootLevel arch + 1 ≤ 64) :
    ∃ root next pos, tableOf ⟨fun _ _ => 0, sixtyFour⟩ mappings = some (root, next) ∧
      AddressSpace arch pos next root ∧
      ∀ n < pteCount ^ arch.ptLevels, pages arch next.mem root n = lastMapping mappings n none ∧
        inHugePage arch next.mem root n = false := by
  refine tableOf_total _ mappings hmappings ?_
  rw [encard_free_sixtyFour]
  exact_mod_cast hsmall

/-! ## Pointwise update -/

/-- The update of one page, as the walks see it. A 4 KiB leaf with frame 0
counts as corrupt, so nothing is said about frame 0 in a 2 MiB page that is split. -/
structure PointwiseUpdate (arch : Arch) (s s' : Machine σ) (root vaddr paddr : Nat)
    (flags : PTEFlags arch) : Prop where
  walk_self : walkMapping arch s'.mem root vaddr = .mapped4K paddr flags
  user_self : effectiveUser arch s'.mem root vaddr = flags.isUser
  walk_other : ∀ vaddr', pageNumber arch vaddr' ≠ pageNumber arch vaddr →
    (pageNumber arch vaddr' / pteCount = pageNumber arch vaddr / pteCount → ∀ frame leafFlags,
      (walkMapping arch s.mem root vaddr').asPage = .mapped4K frame leafFlags → pageSize ≤ frame) →
    (walkMapping arch s'.mem root vaddr').asPage = (walkMapping arch s.mem root vaddr').asPage
  user_other : ∀ vaddr', pageNumber arch vaddr' ≠ pageNumber arch vaddr →
    effectiveUser arch s'.mem root vaddr' = effectiveUser arch s.mem root vaddr'

lemma AddressSpace.walk_other {pos₁ : Layout} {n vaddr' : Nat} {split : Bool}
    {leaf : Option (Nat × PTEFlags arch)} (hspace : AddressSpace arch pos s root)
    (hupdates : Updates arch pos pos₁ s s₁ root n leaf split) (hne : pageNumber arch vaddr' ≠ n)
    (hframe : pageNumber arch vaddr' / pteCount = n / pteCount → ∀ frame leafFlags,
      (walkMapping arch s.mem root vaddr').asPage = .mapped4K frame leafFlags → pageSize ≤ frame) :
    (walkMapping arch s₁.mem root vaddr').asPage = (walkMapping arch s.mem root vaddr').asPage := by
  have hlt := pageNumber_lt arch vaddr'
  rw [hspace.walkMapping_asPage] at hframe ⊢
  rw [hupdates.space.walkMapping_asPage, hupdates.pages _ hlt, if_neg hne, hupdates.huge _ hlt]
  cases hpage : pages arch s.mem root (pageNumber arch vaddr') with
  | none => rfl
  | some found =>
    simp only [hpage] at hframe ⊢
    by_cases hzero : found.1 = 0
    · cases hhuge : inHugePage arch s.mem root (pageNumber arch vaddr') with
      | false => simp
      | true =>
        by_cases hsame : pageNumber arch vaddr' / pteCount = n / pteCount
        · -- a huge page at frame 0 is what the hypothesis rules out
          rw [hhuge, if_neg (by simp)] at hframe
          have hle := hframe hsame _ _ rfl
          have hmod : vaddr' % pageSize < pageSize := mod_lt _ (by decide)
          simp only [leafAddr, hzero, zero_mul, Nat.zero_add] at hle
          omega
        · simp [hsame]
    · simp [hzero]

/-- On every table that was built, `map` with a present, non-zero, representable
frame is a pointwise update, and it returns if it finds enough table frames. -/
theorem map_pointwise (hbuilt : Built arch s root) {vaddr paddr : Nat} {flags : PTEFlags arch}
    (hvaddr : vaddr % pageSize = 0) (hpaddr : paddr % pageSize = 0) (hframe : 0 < paddr)
    (hlimit : paddr < 2 ^ arch.ppnWidth * pageSize)
    (hpresent : flags.contains (.valid arch) = true) :
    ((rootLevel arch : ℕ∞) ≤ (free s.frames).encard → (arch = .x86_64 → isCanonical vaddr = true) →
        ∃ s', map arch s root vaddr paddr flags = some s') ∧
    ∀ s', map arch s root vaddr paddr flags = some s' →
      PointwiseUpdate arch s s' root vaddr paddr flags := by
  obtain ⟨pos, hspace⟩ := hbuilt.space
  constructor
  · intro hfree hcanonical
    obtain ⟨s', hmap, _⟩ :=
      hspace.map_total paddr flags ((add_zero (rootLevel arch : ℕ∞)).le.trans hfree) hcanonical
    exact ⟨s', hmap⟩
  intro s' hmap
  obtain ⟨pos', hupdates⟩ := hspace.map_spec hmap
  have hn := pageNumber_lt arch vaddr
  have hppn : paddr / pageSize < 2 ^ arch.ppnWidth := Nat.div_lt_of_lt_mul (by
    rwa [Nat.mul_comm])
  have hleaf : pages arch s'.mem root (pageNumber arch vaddr) = some (paddr / pageSize, flags) := by
    rw [hupdates.pages _ hn, if_pos rfl, leafOf_new hpresent hppn]
  have hhuge : inHugePage arch s'.mem root (pageNumber arch vaddr) = false := by
    rw [hupdates.huge _ hn]
    simp
  have haddr : paddr / pageSize * pageSize = paddr :=
    Nat.div_mul_cancel (Nat.dvd_of_mod_eq_zero hpaddr)
  have hne : paddr / pageSize ≠ 0 := by
    intro hzero
    rw [hzero, Nat.zero_mul] at haddr
    omega
  refine ⟨?_, ?_, ?_, ?_⟩
  · rw [walkMapping_of_not_huge hhuge, hupdates.space.walkMapping_asPage, hleaf]
    simp [hne, leafAddr, haddr, hvaddr]
  · rw [hupdates.space.effectiveUser_eq, hleaf, any_some]
  · intro vaddr' hother hreported
    exact hspace.walk_other hupdates hother hreported
  · intro vaddr' hother
    rw [hupdates.space.effectiveUser_eq, hspace.effectiveUser_eq,
      hupdates.pages _ (pageNumber_lt arch vaddr'), if_neg hother]

def hugeTable : Option (Machine KernelFrames × Nat) :=
  (zeroed ⟨fun _ _ => 0, sixtyFour⟩).bind fun (root, s) =>
    (identityMap2mb s root 0 0x200000 (.krw .x86_64)).map fun s => (s, root)

lemma built_of_hugeTable {s : Machine KernelFrames}
    (hs : hugeTable = some (s, root)) : Built .x86_64 s root := by
  obtain ⟨⟨frame, start⟩, hzeroed, hmap⟩ := bind_eq_some_iff.mp hs
  obtain ⟨next, hrun, heq⟩ := map_eq_some_iff.mp hmap
  obtain ⟨rfl, rfl⟩ := Prod.mk.inj heq
  exact ⟨_, start, [.identityMap2mb 0 0x200000 (.krw .x86_64)], hzeroed,
    .cons (.identityMap2mb rfl rfl hrun) (.nil next)⟩

def walksAround (vaddr paddr : Nat) (flags : PTEFlags .x86_64) (probe : Nat) :
    Option (WalkResult .x86_64 × WalkResult .x86_64) :=
  hugeTable.bind fun (s, root) =>
    (map .x86_64 s root vaddr paddr flags).map fun s' =>
      ((walkMapping .x86_64 s.mem root probe).asPage,
        (walkMapping .x86_64 s'.mem root probe).asPage)

theorem map_pointwise_hugeTable : ∃ s root, hugeTable = some (s, root) ∧ ∀ s',
    map .x86_64 s root 0x1000 0x5000 (.urw .x86_64) = some s' →
      PointwiseUpdate .x86_64 s s' root 0x1000 0x5000 (.urw .x86_64) := by
  have hsome : hugeTable.isSome = true := by decide
  have htable := (some_get hsome).symm
  exact ⟨_, _, htable, (map_pointwise (built_of_hugeTable htable) (by decide) (by decide)
    (by decide) (by decide) (by decide)).2⟩

/-- Without the conditions: splitting the page at frame 0 makes the walk of page
0 fail, flags without `PRESENT` and frame 0 leave the page unmapped, a frame
past the 52-bit limit is truncated, and addresses that differ only above bit 47
are one page. -/
theorem map_not_pointwise : (∀ s root, hugeTable = some (s, root) → Built .x86_64 s root) ∧
    walksAround 0x1000 0x5000 (.urw .x86_64) 0 = some (.mapped4K 0 (.krw .x86_64), .invalid) ∧
    walksAround 0x1000 0x5000 .user 0x1000 = some (.mapped4K 0x1000 (.krw .x86_64), .notMapped) ∧
    walksAround 0x1000 0 (.urw .x86_64) 0x1000 = some (.mapped4K 0x1000 (.krw .x86_64), .invalid) ∧
    walksAround 0x1000 0x10000000005000 (.urw .x86_64) 0x1000 =
      some (.mapped4K 0x1000 (.krw .x86_64), .mapped4K 0x5000 (.urw .x86_64)) ∧
    walksAround 0x1000 0x5000 (.urw .x86_64) 0x1000000001000 =
      some (.mapped4K 0x1000 (.krw .x86_64), .mapped4K 0x5000 (.urw .x86_64)) :=
  ⟨fun _ _ hs => built_of_hugeTable hs, by decide +kernel, by decide +kernel, by decide +kernel,
    by decide +kernel, by decide +kernel⟩

end KarteOs.Mm

import KarteOs.Mm.Vmm

/-! # Page tables as radix trees

The tables of one address space form a radix tree over page numbers. The
invariant `Sound` says which entries occur above the leaves: a valid entry is a
2 MiB page at level 1 or refers to the table of its cell without restricting
access. What an address space is for, its map from pages to frames and
permissions, is read off the leaves.
-/

namespace KarteOs.Mm

universe u

open RadixTree FrameSource Format WalkResult Nat

variable (arch : Arch)

def format : Format PTE where
  fanout := pteCount
  fanout_pos := by decide
  child pte :=
    if pte.isValid arch = true ∧ pte.isHuge arch = false ∧ pte.ppn arch ≠ 0 then
      some (pte.ppn arch)
    else none

lemma cell_eq (level n : Nat) : (format arch).cell level n = n / pteCount ^ level := rfl

lemma index_zero (n : Nat) : (format arch).index 0 n = n % pteCount := by
  rw [index, cell_zero]
  rfl

def rootLevel : Nat := arch.ptLevels - 1

def pageNumber (vaddr : Nat) : Nat :=
  vaddr / pageSize % pteCount ^ arch.ptLevels

variable {arch : Arch} {level ppn : Nat}

lemma index_pageNumber (hlevel : level ≤ rootLevel arch) (vaddr : Nat) :
    (format arch).index level (pageNumber arch vaddr) = vpn vaddr level := by
  have hsplit : pteCount ^ arch.ptLevels =
      pteCount ^ level * pteCount ^ (arch.ptLevels - level) := by
    rw [← Nat.pow_add]
    congr 1
    simp only [rootLevel] at hlevel
    omega
  have hdvd : pteCount ∣ pteCount ^ (arch.ptLevels - level) := by
    apply dvd_pow_self
    have hpos : 0 < arch.ptLevels := by cases arch <;> decide
    simp only [rootLevel] at hlevel
    omega
  have hpow : pageSize * pteCount ^ level = 2 ^ (12 + 9 * level) := by
    rw [Nat.pow_add, Nat.pow_mul]
    rfl
  change pageNumber arch vaddr / pteCount ^ level % pteCount = _
  rw [pageNumber, hsplit, Nat.mod_mul_right_div_self, Nat.mod_mod_of_dvd _ hdvd,
    Nat.div_div_eq_div_mul, hpow, vpn]

lemma pageNumber_lt (arch : Arch) (vaddr : Nat) :
    pageNumber arch vaddr < pteCount ^ arch.ptLevels :=
  mod_lt _ (Nat.pow_pos (by decide))

lemma child_eq_some {pte : PTE} {next : Nat} : (format arch).child pte = some next ↔
    pte.isValid arch ∧ pte.isHuge arch = false ∧ pte.ppn arch ≠ 0 ∧ pte.ppn arch = next := by
  simp only [format]
  split
  next h => simp [h]
  next h =>
    simp only [reduceCtorEq, false_iff]
    rintro ⟨hvalid, hhuge, hppn, _⟩
    exact h ⟨hvalid, hhuge, hppn⟩

lemma child_newNonleaf (hpos : 0 < ppn) (hlt : ppn < 2 ^ 40) :
    (format arch).child (.newNonleaf arch ppn) = some ppn := by
  have hwidth : ppn < 2 ^ arch.ppnWidth :=
    hlt.trans_le (Nat.pow_le_pow_right (by decide) (by cases arch <;> decide))
  rw [child_eq_some, PTE.ppn_newNonleaf hwidth]
  exact ⟨PTE.isValid_newNonleaf arch ppn, PTE.isHuge_newNonleaf arch ppn, hpos.ne', rfl⟩

def EntryOk (arch : Arch) (level : Nat) (pte : PTE) : Prop :=
  pte.isValid arch = true →
    if pte.isHuge arch = true then level = 1 ∧ pteCount ∣ pte.ppn arch
    else pte.ppn arch ≠ 0 ∧ pte.Permissive arch

variable {σ : Type u} [FrameSource σ (2 ^ 40)]

/-- The tables of a layout form a separated tree of well-formed entries, and
the frame allocator does not own any of them. -/
structure Sound (arch : Arch) (pos : Layout) (s : Machine σ) : Prop where
  typed : (format arch).Typed pos s.mem
  entries : ∀ table level region, pos table = some (level + 1, region) →
    ∀ i < pteCount, EntryOk arch (level + 1) (s.mem table i)
  owned : ∀ table, pos table ≠ none → table ∉ free s.frames

/-- An address space: a sound layout with its root on top. -/
structure AddressSpace (arch : Arch) (pos : Layout) (s : Machine σ) (root : Nat) : Prop
    extends Sound arch pos s where
  root_pos : pos root = some (rootLevel arch, 0)

variable {pos : Layout} {s : Machine σ} {root n : Nat} {mem : Memory}

lemma AddressSpace.root_at (hspace : AddressSpace arch pos s root)
    (hn : n < pteCount ^ arch.ptLevels) : (format arch).At pos root (rootLevel arch) n := by
  have hlevels : rootLevel arch + 1 = arch.ptLevels := by cases arch <;> rfl
  rw [At, hspace.root_pos, cell_eq, hlevels, div_eq_of_lt hn]

/-! ## What a page maps to -/

def stripHuge : {arch : Arch} → PTEFlags arch → PTEFlags arch
  | .riscv64, flags => flags
  | .x86_64, flags => flags.difference .ps

/-- The frame and permissions that the end of a lookup gives to page `n`. -/
def leafOf (arch : Arch) (found : Nat × PTE) (n : Nat) : Option (Nat × PTEFlags arch) :=
  if found.2.isValid arch then
    if found.1 = 0 then some (found.2.ppn arch, found.2.flags arch)
    else if found.2.isHuge arch then
      some (found.2.ppn arch + n % pteCount ^ found.1, stripHuge (found.2.flags arch))
    else none
  else none

def hugeOf (arch : Arch) (found : Nat × PTE) : Bool :=
  decide (found.1 ≠ 0) && found.2.isValid arch && found.2.isHuge arch

/-- The map of an address space, from page numbers to frames and permissions. -/
def pages (arch : Arch) (mem : Memory) (root n : Nat) : Option (Nat × PTEFlags arch) :=
  leafOf arch ((format arch).lookup mem (rootLevel arch) root n) n

def inHugePage (arch : Arch) (mem : Memory) (root n : Nat) : Bool :=
  hugeOf arch ((format arch).lookup mem (rootLevel arch) root n)

/-! ## Memory outside the tables -/

lemma AddressSpace.congr {s' : Machine σ} (hspace : AddressSpace arch pos s root)
    (hmem : ∀ t, pos t ≠ none → s'.mem t = s.mem t)
    (howned : ∀ t, pos t ≠ none → t ∉ free s'.frames) : AddressSpace arch pos s' root := by
  refine ⟨⟨?_, ?_, howned⟩, hspace.root_pos⟩
  · intro t l region ht i hi next hnext
    rw [hmem t (by rw [ht]; simp)] at hnext
    exact hspace.typed t l region ht i hi next hnext
  · intro t l region ht i hi
    rw [hmem t (by rw [ht]; simp)]
    exact hspace.entries t l region ht i hi

lemma AddressSpace.lookup_congr (hspace : AddressSpace arch pos s root)
    (hmem : ∀ t, pos t ≠ none → mem t = s.mem t) (hn : n < pteCount ^ arch.ptLevels) :
    (format arch).lookup mem (rootLevel arch) root n =
      (format arch).lookup s.mem (rootLevel arch) root n := by
  refine hspace.typed.lookup_congr (hspace.root_at hn) ?_
  intro l _ t ht
  rw [hmem t (by rw [ht]; simp)]

lemma AddressSpace.pages_congr (hspace : AddressSpace arch pos s root)
    (hmem : ∀ t, pos t ≠ none → mem t = s.mem t) (hn : n < pteCount ^ arch.ptLevels) :
    pages arch mem root n = pages arch s.mem root n ∧
      inHugePage arch mem root n = inHugePage arch s.mem root n := by
  simp [pages, inHugePage, hspace.lookup_congr hmem hn]

/-! ## The walks read the map -/

lemma Sound.entryOk_at (hs : Sound arch pos s) {table : Nat}
    (hat : (format arch).At pos table (level + 1) n) :
    EntryOk arch (level + 1) (s.mem table ((format arch).index (level + 1) n)) :=
  hs.entries table level _ hat _ (index_lt ..)

lemma Sound.lookup_entryOk (hs : Sound arch pos s) {table : Nat}
    (hat : (format arch).At pos table level n)
    (habove : ((format arch).lookup s.mem level table n).1 ≠ 0) :
    EntryOk arch ((format arch).lookup s.mem level table n).1
      ((format arch).lookup s.mem level table n).2 := by
  induction level generalizing table with
  | zero => exact absurd rfl habove
  | succ level ih =>
    cases hchild : (format arch).child (s.mem table ((format arch).index (level + 1) n)) with
    | none =>
      rw [lookup_of_stop _ hchild]
      exact hs.entryOk_at hat
    | some next =>
      rw [lookup_of_child _ hchild] at habove ⊢
      exact ih (hs.typed.child_at hat hchild) habove

lemma walkToPt_eq_bottom (hlevel : level ≤ rootLevel arch) (mem : Memory) (vaddr table : Nat) :
    walkToPt arch mem vaddr level table =
      (format arch).bottom mem level table (pageNumber arch vaddr) := by
  induction level generalizing table with
  | zero => rfl
  | succ level ih =>
    simp only [walkToPt, bottom, index_pageNumber hlevel]
    split
    next hvalid => simp_all [format]
    next hvalid =>
      split
      next hhuge => simp_all [format]
      next hhuge =>
        split
        next hppn => simp_all [format]
        next hppn =>
          have hchild : (format arch).child (mem table (vpn vaddr (level + 1))) =
              some ((mem table (vpn vaddr (level + 1))).ppn arch) :=
            child_eq_some.mpr ⟨by simpa using hvalid, by simpa using hhuge, hppn, rfl⟩
          rw [hchild, Option.bind_some]
          exact ih (by omega) _

lemma frame_or_offset (ppn vaddr : Nat) :
    ppn * pageSize ||| vaddr % pageSize = ppn * pageSize + vaddr % pageSize := by
  have hlt : vaddr % pageSize < 2 ^ 12 := mod_lt _ (by decide)
  have hor := two_pow_add_eq_or_of_lt hlt ppn
  rw [Nat.mul_comm ppn, show pageSize = 2 ^ 12 from rfl]
  exact hor.symm

lemma pageNumber_mod (arch : Arch) (vaddr : Nat) :
    pageNumber arch vaddr % pteCount = vaddr / pageSize % pteCount := by
  have hdvd : pteCount ∣ pteCount ^ arch.ptLevels := dvd_pow_self _ (by cases arch <;> decide)
  rw [pageNumber, mod_mod_of_dvd _ hdvd]

lemma hugeFrame_or_offset (haligned : pteCount ∣ ppn) (vaddr : Nat) :
    ppn * pageSize ||| vaddr % 2 ^ 21 =
      (ppn + vaddr / pageSize % pteCount) * pageSize + vaddr % pageSize := by
  obtain ⟨q, rfl⟩ := haligned
  have hlt : vaddr % 2 ^ 21 < 2 ^ 21 := mod_lt _ (by decide)
  have hor := two_pow_add_eq_or_of_lt hlt q
  have hbase : pteCount * q * pageSize = 2 ^ 21 * q := by
    simp only [pteCount, pageSize]
    omega
  rw [hbase, ← hor]
  simp only [pteCount, pageSize]
  omega

def leafAddr {arch : Arch} (vaddr : Nat) (leaf : Nat × PTEFlags arch) : Nat :=
  leaf.1 * pageSize + vaddr % pageSize

lemma leafAddr_div (vaddr : Nat) (leaf : Nat × PTEFlags arch) :
    leafAddr vaddr leaf / pageSize = leaf.1 := by
  rw [leafAddr, Nat.mul_comm, mul_add_div (by decide),
    div_eq_of_lt (mod_lt _ (by decide)), Nat.add_zero]

def WalkResult.asPage {arch : Arch} : WalkResult arch → WalkResult arch
  | .mappedHuge frame _ _ flags => .mapped4K frame (stripHuge flags)
  | result => result

variable {pte : PTE}

section
variable (hok : EntryOk arch level pte)
include hok

variable (hvalid : pte.isValid arch = true)
include hvalid

lemma EntryOk.huge (hhuge : pte.isHuge arch) : level = 1 ∧ pteCount ∣ pte.ppn arch := by
  have h := hok hvalid
  rwa [if_pos hhuge] at h

lemma EntryOk.table (hhuge : pte.isHuge arch = false) : pte.ppn arch ≠ 0 ∧ pte.Permissive arch := by
  have h := hok hvalid
  rwa [if_neg (by simp [hhuge])] at h

lemma EntryOk.child (hhuge : pte.isHuge arch = false) :
    (format arch).child pte = some (pte.ppn arch) :=
  child_eq_some.mpr ⟨hvalid, hhuge, (hok.table hvalid hhuge).1, rfl⟩

end

lemma child_eq_none_of_invalid (hvalid : pte.isValid arch = false) :
    (format arch).child pte = none := by
  simp [format, hvalid]

lemma child_eq_none_of_huge (hhuge : pte.isHuge arch) : (format arch).child pte = none := by
  simp [format, hhuge]

lemma leafOf_zero (hvalid : pte.isValid arch) (n : Nat) :
    leafOf arch (0, pte) n = some (pte.ppn arch, pte.flags arch) := by
  simp [leafOf, hvalid]

lemma leafOf_invalid (hvalid : pte.isValid arch = false) (n : Nat) :
    leafOf arch (level, pte) n = none := by
  simp [leafOf, hvalid]

lemma hugeOf_zero (pte : PTE) : hugeOf arch (0, pte) = false := by simp [hugeOf]

lemma hugeOf_invalid (hvalid : pte.isValid arch = false) : hugeOf arch (level, pte) = false := by
  simp [hugeOf, hvalid]

lemma leafOf_huge (hvalid : pte.isValid arch) (hhuge : pte.isHuge arch) (n : Nat) :
    leafOf arch (level + 1, pte) n =
      some (pte.ppn arch + n % pteCount ^ (level + 1), stripHuge (pte.flags arch)) := by
  simp [leafOf, hvalid, hhuge]

lemma leafOf_new {flags : PTEFlags arch}
    (hflags : flags.contains (.valid arch)) (hppn : ppn < 2 ^ arch.ppnWidth) (n : Nat) :
    leafOf arch (0, .new arch ppn flags) n = some (ppn, flags) := by
  rw [leafOf_zero (by rw [PTE.isValid_new, hflags]), PTE.ppn_new flags hppn,
    PTE.flags_new flags hppn]

lemma AddressSpace.pages_lt (hspace : AddressSpace arch pos s root)
    (hn : n < pteCount ^ arch.ptLevels) {leaf : Nat × PTEFlags arch}
    (hleaf : pages arch s.mem root n = some leaf) : leaf.1 < 2 ^ arch.ppnWidth := by
  have hok := hspace.lookup_entryOk (hspace.root_at hn)
  generalize hfound : (format arch).lookup s.mem (rootLevel arch) root n = found at hok
  rw [pages, hfound, leafOf] at hleaf
  have hlt := PTE.ppn_lt arch found.2
  split_ifs at hleaf with hvalid hzero hhuge
  · cases hleaf
    exact hlt
  · cases hleaf
    obtain ⟨hlevel, k, hk⟩ := (hok hzero).huge hvalid hhuge
    have hwidth : 2 ^ arch.ppnWidth = pteCount * 2 ^ (arch.ppnWidth - 9) := by
      cases arch <;> rfl
    have hmod : n % pteCount < pteCount := mod_lt _ (by decide)
    rw [hlevel, Nat.pow_one]
    rw [hk, hwidth] at hlt ⊢
    have hk' : k + 1 ≤ 2 ^ (arch.ppnWidth - 9) := Nat.lt_of_mul_lt_mul_left hlt
    calc pteCount * k + n % pteCount < pteCount * (k + 1) := by rw [Nat.mul_add_one]; omega
      _ ≤ pteCount * 2 ^ (arch.ppnWidth - 9) := Nat.mul_le_mul_left _ hk'

variable {table vaddr : Nat}

lemma Sound.walk_eq (hs : Sound arch pos s) {α : Type} {f : Nat → Nat → α} {g : Nat × PTE → α}
    (hzero : ∀ table, f 0 table = g (0, s.mem table (vpn vaddr 0)))
    (hinvalid : ∀ level table, (s.mem table (vpn vaddr (level + 1))).isValid arch = false →
      f (level + 1) table = g (level + 1, s.mem table (vpn vaddr (level + 1))))
    (hleaf : ∀ table, EntryOk arch 1 (s.mem table (vpn vaddr 1)) →
      (s.mem table (vpn vaddr 1)).isValid arch →
      (s.mem table (vpn vaddr 1)).isHuge arch → f 1 table = g (1, s.mem table (vpn vaddr 1)))
    (hdown : ∀ level table, EntryOk arch (level + 1) (s.mem table (vpn vaddr (level + 1))) →
      (s.mem table (vpn vaddr (level + 1))).isValid arch →
      (s.mem table (vpn vaddr (level + 1))).isHuge arch = false →
      f (level + 1) table = f level ((s.mem table (vpn vaddr (level + 1))).ppn arch))
    (hlevel : level ≤ rootLevel arch)
    (hat : (format arch).At pos table level (pageNumber arch vaddr)) :
    f level table = g ((format arch).lookup s.mem level table (pageNumber arch vaddr)) := by
  induction level generalizing table with
  | zero => rw [hzero, Format.lookup, index_pageNumber hlevel]
  | succ level ih =>
    have hok := hs.entryOk_at hat
    have hindex := index_pageNumber hlevel vaddr
    rw [hindex] at hok
    cases hvalid : (s.mem table (vpn vaddr (level + 1))).isValid arch with
    | false =>
      rw [lookup_of_stop _ (by rw [hindex]; exact child_eq_none_of_invalid hvalid), hindex]
      exact hinvalid level table hvalid
    | true =>
      cases hhuge : (s.mem table (vpn vaddr (level + 1))).isHuge arch with
      | true =>
        obtain rfl : level = 0 := by have := (hok.huge hvalid hhuge).1; omega
        rw [lookup_of_stop _ (by rw [hindex]; exact child_eq_none_of_huge hhuge), hindex]
        exact hleaf table hok hvalid hhuge
      | false =>
        have hchild := hok.child hvalid hhuge
        rw [hdown level table hok hvalid hhuge, ← hindex] at *
        rw [lookup_of_child _ hchild, ← ih (by omega) (hs.typed.child_at hat hchild)]

lemma Sound.translateFrom_eq (hs : Sound arch pos s) (hlevel : level ≤ rootLevel arch)
    (hat : (format arch).At pos table level (pageNumber arch vaddr)) :
    translateFrom arch s.mem vaddr level table =
      (leafOf arch ((format arch).lookup s.mem level table (pageNumber arch vaddr))
        (pageNumber arch vaddr)).map (leafAddr vaddr) := by
  refine hs.walk_eq (g := fun found => (leafOf arch found _).map _) (fun table => ?_)
    (fun level table hvalid => ?_) (fun table hok hvalid hhuge => ?_)
    (fun level table hok hvalid hhuge => ?_) hlevel hat
  · rw [translateFrom]
    cases hvalid : (s.mem table (vpn vaddr 0)).isValid arch with
    | false => rw [leafOf_invalid hvalid]; rfl
    | true => rw [leafOf_zero hvalid, frame_or_offset]; rfl
  · rw [leafOf_invalid hvalid]
    simp [translateFrom, hvalid]
  · rw [leafOf_huge hvalid hhuge, Nat.pow_one, pageNumber_mod]
    simp only [translateFrom, hvalid, hhuge]
    exact congrArg some (hugeFrame_or_offset (hok.huge hvalid hhuge).2 vaddr)
  · simp [translateFrom, hvalid, hhuge, (hok.table hvalid hhuge).1]

lemma AddressSpace.translateUser_eq (hspace : AddressSpace arch pos s root) (vaddr : Nat) :
    translateUser arch s.mem root vaddr =
      (pages arch s.mem root (pageNumber arch vaddr)).map (leafAddr vaddr) :=
  hspace.translateFrom_eq le_rfl (hspace.root_at (pageNumber_lt arch vaddr))

/-- What a walk reports for the end of a lookup: the mapping of the page, except
that a 4 KiB leaf with frame 0 is taken for a corrupt entry. -/
def walkLeaf (arch : Arch) (found : Nat × PTE) (n vaddr : Nat) : WalkResult arch :=
  match leafOf arch found n with
  | none => .notMapped
  | some leaf =>
    if leaf.1 = 0 ∧ hugeOf arch found = false then .invalid
    else .mapped4K (leafAddr vaddr leaf) leaf.2

lemma Sound.walkFrom_asPage (hs : Sound arch pos s) (hlevel : level ≤ rootLevel arch)
    (hat : (format arch).At pos table level (pageNumber arch vaddr)) :
    (walkFrom arch s.mem vaddr level table).asPage =
      walkLeaf arch ((format arch).lookup s.mem level table (pageNumber arch vaddr))
        (pageNumber arch vaddr) vaddr := by
  refine hs.walk_eq (f := fun level table => (walkFrom arch s.mem vaddr level table).asPage)
    (g := fun found => walkLeaf arch found _ vaddr) (fun table => ?_)
    (fun level table hvalid => ?_) (fun table hok hvalid hhuge => ?_)
    (fun level table hok hvalid hhuge => ?_) hlevel hat
  · rw [walkFrom, walkLeaf]
    cases hvalid : (s.mem table (vpn vaddr 0)).isValid arch with
    | false => rw [leafOf_invalid hvalid]; rfl
    | true =>
      rw [leafOf_zero hvalid, frame_or_offset]
      by_cases hppn : (s.mem table (vpn vaddr 0)).ppn arch = 0
      · simp [hppn, asPage, hugeOf]
      · simp [hppn, asPage, leafAddr]
  · rw [walkLeaf, leafOf_invalid hvalid]
    simp [walkFrom, hvalid, asPage]
  · have haddr := hugeFrame_or_offset (hok.huge hvalid hhuge).2 vaddr
    rw [walkLeaf, leafOf_huge hvalid hhuge, Nat.pow_one, pageNumber_mod]
    simp only [walkFrom, hugeOf, hvalid, hhuge, Bool.not_true, Bool.false_eq_true, if_false,
      if_true, asPage, leafAddr]
    rw [if_neg (by simp)]
    exact congrArg (mapped4K · _) haddr
  · simp [walkFrom, hvalid, hhuge, (hok.table hvalid hhuge).1]

lemma walkFrom_of_not_huge (hlevel : level ≤ rootLevel arch)
    (hhuge : hugeOf arch ((format arch).lookup mem level table (pageNumber arch vaddr)) = false) :
    (walkFrom arch mem vaddr level table).asPage = walkFrom arch mem vaddr level table := by
  induction level generalizing table with
  | zero =>
    simp only [walkFrom]
    split
    · rfl
    · split <;> rfl
  | succ level ih =>
    have hindex := index_pageNumber hlevel vaddr
    simp only [walkFrom]
    split
    · rfl
    next hvalid =>
      split
      next hhuge' =>
        rw [lookup_of_stop _ (by rw [hindex]; exact child_eq_none_of_huge hhuge'), hindex] at hhuge
        simp only [hugeOf, hhuge', Bool.and_true] at hhuge
        simp_all
      next hhuge' =>
        split
        · rfl
        next hppn =>
          have hchild : (format arch).child (mem table (vpn vaddr (level + 1))) =
              some ((mem table (vpn vaddr (level + 1))).ppn arch) :=
            child_eq_some.mpr ⟨by simpa using hvalid, by simpa using hhuge', hppn, rfl⟩
          rw [lookup_of_child _ (by rw [hindex]; exact hchild)] at hhuge
          exact ih (by omega) hhuge

lemma AddressSpace.walkMapping_asPage (hspace : AddressSpace arch pos s root) (vaddr : Nat) :
    (walkMapping arch s.mem root vaddr).asPage =
      match pages arch s.mem root (pageNumber arch vaddr) with
      | none => .notMapped
      | some leaf =>
        if leaf.1 = 0 ∧ inHugePage arch s.mem root (pageNumber arch vaddr) = false then .invalid
        else .mapped4K (leafAddr vaddr leaf) leaf.2 :=
  hspace.walkFrom_asPage le_rfl (hspace.root_at (pageNumber_lt arch vaddr))

lemma walkMapping_of_not_huge (hhuge : inHugePage arch mem root (pageNumber arch vaddr) = false) :
    walkMapping arch mem root vaddr = (walkMapping arch mem root vaddr).asPage :=
  (walkFrom_of_not_huge le_rfl hhuge).symm

end KarteOs.Mm

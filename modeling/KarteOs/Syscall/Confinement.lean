import KarteOs.Syscall.UserCopy

/-! # Confinement of user copies

A copy is confined if every byte it touches lies behind a user leaf of the
process's page table, a writable one for a store, and if it does not get at
the byte by opening a supervisor leaf to the user. Neither `user_translate`
nor the direct accesses look at the user bit, so confinement is a property of
the leaves behind the buffer.
-/

namespace KarteOs.Syscall

universe u

open Mm RadixTree FrameSource List Option Nat

variable {σ : Type u} [FrameSource σ (2 ^ 40)] {arch : Arch} {pos : Layout} {s s₁ : Machine σ}
  {root vaddr : Nat} {mem : Memory}

/-- `before` is the machine at the call and `after` the one at the accesses. A
frame that a supervisor leaf maps at the call may only be reached at the same
page if it belongs to nobody. -/
def Confined (arch : Arch) (before after : Machine σ) (root : Nat) (store : Bool)
    (accesses : List ByteAccess) : Prop :=
  ∀ a ∈ accesses, ∃ leaf, pages arch after.mem root (pageNumber arch a.vaddr) = some leaf ∧
    a.paddr = leafAddr a.vaddr leaf ∧ leaf.2.isUser = true ∧
    (store = true → leaf.2.isWritable = true) ∧
    ∀ old, pages arch before.mem root (pageNumber arch a.vaddr) = some old → old.1 = leaf.1 →
      old.2.isUser = true ∨ leaf.1 ∈ free before.frames

/-! ## Accesses through a given table -/

/-- The leaf that `user_translate` goes through; it takes a 4 KiB leaf with
frame 0 for a corrupt entry. -/
def walkedLeaf (arch : Arch) (mem : Memory) (root vaddr : Nat) : Option (Nat × PTEFlags arch) :=
  (pages arch mem root (pageNumber arch vaddr)).filter fun leaf =>
    decide (leaf.1 ≠ 0) || inHugePage arch mem root (pageNumber arch vaddr)

lemma userTranslate_eq (hspace : AddressSpace arch pos s root) (vaddr : Nat) :
    userTranslate arch s.mem root vaddr =
      (walkedLeaf arch s.mem root vaddr).map (leafAddr vaddr) := by
  have hwalk := hspace.walkMapping_asPage vaddr
  have hpage : userTranslate arch s.mem root vaddr =
      match (walkMapping arch s.mem root vaddr).asPage with
      | .mapped4K frame _ => some frame
      | _ => none := by
    rw [userTranslate]
    cases walkMapping arch s.mem root vaddr <;> rfl
  rw [hpage, hwalk, walkedLeaf]
  cases pages arch s.mem root (pageNumber arch vaddr) with
  | none => rfl
  | some leaf =>
    simp only [filter_some]
    by_cases hzero : leaf.1 = 0 ∧ inHugePage arch s.mem root (pageNumber arch vaddr) = false
    · simp [hzero]
    · rw [if_neg hzero, if_pos (by simpa [← Bool.not_eq_false, imp_iff_not_or] using hzero)]
      rfl

lemma mem_eachByte {access : Nat → Option ByteAccess} {addr len : Nat} {a : ByteAccess} :
    a ∈ eachByte access addr len ↔ ∃ i < len, access (wrappingAdd addr i) = some a := by
  simp [eachByte]

lemma confined_eachByte {find : Nat → Option (Nat × PTEFlags arch)} {store : Bool}
    {addr len : Nat} (hfind : ∀ vaddr leaf, find vaddr = some leaf →
      pages arch s.mem root (pageNumber arch vaddr) = some leaf) : Confined arch s s root store
      (eachByte (fun vaddr => (find vaddr).map fun leaf => ⟨vaddr, leafAddr vaddr leaf⟩) addr len) ↔
    ∀ i < len, ∀ leaf, find (wrappingAdd addr i) = some leaf →
      leaf.2.isUser ∧ (store → leaf.2.isWritable) := by
  constructor
  · intro hconfined i hi leaf hleaf
    obtain ⟨leaf', hpages, -, huser, hwritable, -⟩ :=
      hconfined ⟨wrappingAdd addr i, leafAddr (wrappingAdd addr i) leaf⟩
        (mem_eachByte.mpr ⟨i, hi, by rw [hleaf]; rfl⟩)
    cases (hfind _ _ hleaf).symm.trans hpages
    exact ⟨huser, hwritable⟩
  · intro hsafe a ha
    obtain ⟨i, hi, haccess⟩ := mem_eachByte.mp ha
    obtain ⟨leaf, hleaf, rfl⟩ := map_eq_some_iff.mp haccess
    obtain ⟨huser, hwritable⟩ := hsafe i hi leaf hleaf
    have hpages := hfind _ _ hleaf
    refine ⟨leaf, hpages, rfl, huser, hwritable, ?_⟩
    intro old hold _
    cases hold.symm.trans hpages
    exact .inl huser

lemma pages_of_walkedLeaf {leaf : Nat × PTEFlags arch}
    (hleaf : walkedLeaf arch mem root vaddr = some leaf) :
    pages arch mem root (pageNumber arch vaddr) = some leaf :=
  (filter_eq_some_iff.mp hleaf).1

lemma pages_of_mmuLeaf {allowed : PTEFlags arch → Bool} {leaf : Nat × PTEFlags arch}
    (hleaf : mmuLeaf arch allowed mem root vaddr = some leaf) :
    pages arch mem root (pageNumber arch vaddr) = some leaf := by
  rw [mmuLeaf] at hleaf
  split at hleaf
  · exact (filter_eq_some_iff.mp hleaf).1
  · cases hleaf

/-! ## Making pages writable -/

variable {registry : Registry}

lemma writeFlags_some {page : Nat} {flags : PTEFlags .x86_64}
    (hflags : writeFlags registry root page = some flags) :
    flags.contains (.valid .x86_64) ∧ flags.isUser ∧ flags.isWritable := by
  rw [writeFlags] at hflags
  split at hflags
  next prot _ =>
    split at hflags
    · cases hflags
    next hwrite =>
      cases hflags
      refine ⟨valid_protToPteFlags .x86_64 prot, isUser_protToPteFlags .x86_64 prot, ?_⟩
      simp only [protToPteFlags, if_pos hwrite]
      split <;> decide
  · have hurw : PTEFlags.urw .x86_64 = flags := by split_ifs at hflags <;> exact some.inj hflags
    subst hurw
    decide

/-- What `ensure_user_write_pages` has made of one page: a writable user page,
with the old frame where the page was mapped other than to itself, and with a
free one otherwise. -/
def MadeWritable (s s' : Machine σ) (root page : Nat) : Prop :=
  ∃ leaf, pages .x86_64 s'.mem root (pageNumber .x86_64 page) = some leaf ∧
    leaf.2.isUser = true ∧ leaf.2.isWritable = true ∧
    ((∃ old, pages .x86_64 s.mem root (pageNumber .x86_64 page) = some old ∧ old.1 = leaf.1 ∧
        leafAddr page old ≠ page) ∨
      leaf.1 ∈ free s.frames ∧
        ∀ old, pages .x86_64 s.mem root (pageNumber .x86_64 page) = some old →
          leafAddr page old = page)

structure EnsuresPage (s s' : Machine σ) (root page : Nat) : Prop where
  space : ∃ pos', AddressSpace .x86_64 pos' s' root
  made : MadeWritable s s' root page
  shrink : free s'.frames ⊆ free s.frames
  other : ∀ m < pteCount ^ Arch.x86_64.ptLevels, m ≠ pageNumber .x86_64 page →
    pages .x86_64 s'.mem root m = pages .x86_64 s.mem root m

variable {page : Nat} {flags : PTEFlags .x86_64} {copy : UserCopy}

section
variable (hvalid : flags.contains (.valid .x86_64) = true)
include hvalid

lemma mapFresh_ensuresPage (huser : flags.isUser) (hwritable : flags.isWritable)
    (hspace : AddressSpace .x86_64 pos s root)
    (hidentity : ∀ old, pages .x86_64 s.mem root (pageNumber .x86_64 page) = some old →
      leafAddr page old = page) (hrun : mapFresh .x86_64 s root page flags = some (some s₁)) :
    EnsuresPage s s₁ root page := by
  obtain ⟨pos₁, frame, hmaps⟩ := mapFresh_spec hvalid hspace hrun
  refine ⟨⟨pos₁, hmaps.space⟩, ⟨(frame, flags), ?_, huser, hwritable, .inr ?_⟩,
    hmaps.grows.shrink, ?_⟩
  · rw [hmaps.pages _ (pageNumber_lt .x86_64 page), if_pos rfl]
  · exact ⟨hmaps.was_free, hidentity⟩
  · intro m hm hne
    rw [hmaps.pages m hm, if_neg hne]

lemma ensureUserWritePage_spec (huser : flags.isUser) (hwritable : flags.isWritable)
    (hspace : AddressSpace .x86_64 pos s root)
    (hrun : ensureUserWritePage root s page flags = some (some s₁)) :
    EnsuresPage s s₁ root page := by
  have hn := pageNumber_lt .x86_64 page
  rw [ensureUserWritePage, hspace.translateUser_eq] at hrun
  cases hold : pages .x86_64 s.mem root (pageNumber .x86_64 page) with
  | none =>
    rw [hold] at hrun
    exact mapFresh_ensuresPage hvalid huser hwritable hspace (by simp [hold]) hrun
  | some old =>
    simp only [hold, map_some] at hrun
    split at hrun
    next hne =>
      obtain ⟨next, hmap, heq⟩ := map_eq_some_iff.mp hrun
      cases heq
      obtain ⟨pos₁, hupdates⟩ := hspace.map_spec hmap
      refine ⟨⟨pos₁, hupdates.space⟩, ⟨(old.1, flags), ?_, huser, hwritable, .inl ?_⟩,
        hupdates.descent.shrink, ?_⟩
      · rw [hupdates.pages _ hn, if_pos rfl, leafAddr_div,
          leafOf_new hvalid (hspace.pages_lt hn hold)]
      · exact ⟨old, hold, rfl, hne⟩
      · intro m hm hne
        rw [hupdates.pages m hm, if_neg hne]
    next heq =>
      refine mapFresh_ensuresPage hvalid huser hwritable hspace ?_ hrun
      intro old' hold'
      cases hold.symm.trans hold'
      exact not_not.mp heq

end

lemma ensureUserWriteLoop_spec {vaddrs : List Nat} (hnodup : (pageNumbers .x86_64 vaddrs).Nodup)
    (hspace : AddressSpace .x86_64 pos s root)
    (hrun : ensureUserWriteLoop registry root vaddrs s = some (s₁, true)) :
    (∀ page ∈ vaddrs, MadeWritable s s₁ root page) ∧
      ∀ m < pteCount ^ Arch.x86_64.ptLevels, m ∉ pageNumbers .x86_64 vaddrs →
        pages .x86_64 s₁.mem root m = pages .x86_64 s.mem root m := by
  induction vaddrs generalizing pos s with
  | nil =>
    cases hrun
    exact ⟨by simp, fun _ _ _ => rfl⟩
  | cons page rest ih =>
    rw [ensureUserWriteLoop] at hrun
    split at hrun
    · simp at hrun
    next flags hflags =>
      obtain ⟨hvalid, huser, hwritable⟩ := writeFlags_some hflags
      obtain ⟨next, hpage, hrest⟩ := bind_eq_some_iff.mp hrun
      cases next with
      | none => simp at hrest
      | some middle =>
        obtain ⟨⟨pos₁, hspace₁⟩, hmade, hshrink, hother⟩ :=
          ensureUserWritePage_spec hvalid huser hwritable hspace hpage
        obtain ⟨hnotmem, hnodup'⟩ := nodup_cons.mp hnodup
        obtain ⟨hmade', hother'⟩ := ih hnodup' hspace₁ hrest
        have hsame : ∀ v ∈ rest, pages .x86_64 middle.mem root (pageNumber .x86_64 v) =
            pages .x86_64 s.mem root (pageNumber .x86_64 v) := by
          intro v hv
          refine hother _ (pageNumber_lt .x86_64 v) ?_
          intro heq
          exact hnotmem (heq ▸ List.mem_map_of_mem hv)
        constructor
        · intro v hv
          rcases mem_cons.mp hv with rfl | hv
          · obtain ⟨leaf, hleaf, hrest'⟩ := hmade
            exact ⟨leaf, (hother' _ (pageNumber_lt .x86_64 v) hnotmem).trans hleaf, hrest'⟩
          · obtain ⟨leaf, hleaf, huser', hwritable', horigin⟩ := hmade' v hv
            rw [hsame v hv] at horigin
            refine ⟨leaf, hleaf, huser', hwritable', horigin.imp id ?_⟩
            exact fun ⟨hmem, hidentity⟩ => ⟨hshrink hmem, hidentity⟩
        · intro m hm hmem
          obtain ⟨hne, hmem'⟩ := not_or.mp fun h => hmem (mem_cons.mpr h)
          rw [hother' m hm hmem', hother m hm hne]

/-! ## The buffer and its pages -/

lemma nodup_pageNumbers {start stop : Nat} (hstart : start % pageSize = 0)
    (hsmall : stop ≤ start + 2 ^ 48) : (pageNumbers .x86_64 (pageRange start stop)).Nodup := by
  rw [pageNumbers, pageRange, List.map_map]
  refine Nodup.map_on ?_ nodup_range
  intro i hi j hj heq
  rw [mem_range] at hi hj
  simp only [Function.comp, pageNumber, pageSize, pteCount, Arch.ptLevels] at *
  omega

def endsInLastPage (addr len : Nat) : Prop := alignDown (addr + (len - 1)) + pageSize = usizeRange
deriving Decidable

section
variable {addr len : Nat}

lemma alignDown_mem_writePages {i : Nat} (hi : i < len) (hlast : addr + (len - 1) < usizeRange)
    (hends : ¬endsInLastPage addr len) :
    alignDown (addr + i) ∈ writePages addr (addr + (len - 1)) := by
  have hsmall : alignDown (addr + (len - 1)) + pageSize < usizeRange := by
    have hle := alignDown_le (addr + (len - 1))
    have hmod := alignDown_mod (addr + (len - 1))
    simp only [endsInLastPage, pageSize, usizeRange] at *
    omega
  rw [writePages, wrappingAdd, mod_eq_of_lt hsmall, mem_pageRange (alignDown_mod _)]
  refine ⟨alignDown_mod _, ?_, ?_⟩ <;> simp only [alignDown, pageSize] <;> omega

lemma nodup_writePages (hlen : len ≤ 2 ^ 47) :
    (pageNumbers .x86_64 (writePages addr (addr + (len - 1)))).Nodup := by
  refine nodup_pageNumbers (alignDown_mod _) ((mod_le ..).trans ?_)
  simp only [alignDown, pageSize]
  omega

lemma ensureUserWritePages_of_endsInLastPage (hends : endsInLastPage addr len) :
    ensureUserWritePages registry root s addr len = some (s, true) := by
  rw [ensureUserWritePages]
  split
  · rfl
  · have hlast : addr + (len - 1) < usizeRange := (lt_alignDown_add _).trans_le hends.le
    rw [checkedAdd, if_pos hlast]
    have hnone : writePages addr (addr + (len - 1)) = [] := by
      rw [writePages, wrappingAdd, hends, mod_self, pageRange, Nat.zero_sub, Nat.zero_div]
      rfl
    simp [hnone, ensureUserWriteLoop]

lemma ensureUserWritePages_spec (hpos : 0 < len) (hlen : len ≤ 2 ^ 47)
    (hends : ¬endsInLastPage addr len) (hspace : AddressSpace .x86_64 pos s root)
    (hrun : ensureUserWritePages registry root s addr len = some (s₁, true)) :
    addr + (len - 1) < usizeRange ∧ ∀ i < len, MadeWritable s s₁ root (alignDown (addr + i)) := by
  rw [ensureUserWritePages, if_neg (by omega), checkedAdd] at hrun
  split_ifs at hrun with hlast
  · refine ⟨hlast, ?_⟩
    intro i hi
    exact (ensureUserWriteLoop_spec (nodup_writePages hlen) hspace hrun).1 _
      (alignDown_mem_writePages hi hlast hends)
  · simp at hrun

end

inductive UserCopy where
  | read (addr size : Nat)
  | readU8 (addr : Nat)
  | write (addr size : Nat)
  | writeU8 (addr : Nat)
  | writeBytes (addr len : Nat)

namespace UserCopy

def run (arch : Arch) (registry : Registry) (root : Nat) (s : Machine σ) :
    UserCopy → Option (Machine σ × List ByteAccess)
  | read addr size => some (s, userRead arch s.mem root addr size)
  | readU8 addr => some (s, (userReadU8 arch s.mem root addr).toList)
  | write addr size => userWrite arch registry root s addr size
  | writeU8 addr => userWriteU8 arch registry root s addr
  | writeBytes addr len => userWriteBytes arch registry root s addr len

def addr : UserCopy → Nat
  | read addr _ | readU8 addr | write addr _ | writeU8 addr | writeBytes addr _ => addr

def len : UserCopy → Nat
  | read _ size | write _ size => size
  | readU8 _ | writeU8 _ => 1
  | writeBytes _ len => len

def stores : UserCopy → Bool
  | read _ _ | readU8 _ => false
  | write _ _ | writeU8 _ | writeBytes _ _ => true

def leafAt (mem : Memory) (root vaddr : Nat) :
    (arch : Arch) → UserCopy → Option (Nat × PTEFlags arch)
  | .riscv64, read _ _ => mmuLeaf .riscv64 loadable mem root vaddr
  | .riscv64, readU8 _ =>
    (walkedLeaf .riscv64 mem root vaddr).or (mmuLeaf .riscv64 loadable mem root vaddr)
  | .riscv64, write _ _ => mmuLeaf .riscv64 storable mem root vaddr
  | .riscv64, writeU8 _ => mmuLeaf .riscv64 storable mem root vaddr
  | .riscv64, writeBytes _ _ =>
    (walkedLeaf .riscv64 mem root vaddr).or (mmuLeaf .riscv64 storable mem root vaddr)
  | .x86_64, read _ _ => walkedLeaf .x86_64 mem root vaddr
  | .x86_64, readU8 _ => walkedLeaf .x86_64 mem root vaddr
  | .x86_64, _ => mmuLeaf .x86_64 storable mem root vaddr

/-- All the leaves behind the buffer are user leaves, writable ones for a store. -/
def UserLeaves (arch : Arch) (s : Machine σ) (root : Nat) (copy : UserCopy) : Prop :=
  ∀ i < copy.len, ∀ leaf, copy.leafAt s.mem root (wrappingAdd copy.addr i) arch = some leaf →
    leaf.2.isUser = true ∧ (copy.stores = true → leaf.2.isWritable = true)

/-- No byte of the buffer is in a supervisor page that would be opened to the
user: one that is not mapped to itself and whose frame is in use. -/
def OpensNothing (s : Machine σ) (root : Nat) (copy : UserCopy) : Prop :=
  ∀ i < copy.len, isCanonical (copy.addr + i) = true →
    ∀ leaf, pages .x86_64 s.mem root (pageNumber .x86_64 (copy.addr + i)) = some leaf →
      leaf.2.isUser = true ∨ leaf.1 ∈ free s.frames ∨
        translateUser .x86_64 s.mem root (alignDown (copy.addr + i)) =
          some (alignDown (copy.addr + i))

/-- The kernel refuses the copy: no page of it can be made writable, or it ran
out of frames. -/
def Refused (registry : Registry) (root : Nat) (s : Machine σ) (copy : UserCopy) : Prop :=
  ∃ next, ensureUserWritePages registry root s copy.addr copy.len = some (next, false)

/-- When a copy is confined. On x86_64 a store is checked page by page, except
where the buffer ends in the last page of the address space. -/
def Safe (registry : Registry) (root : Nat) (s : Machine σ) : Arch → UserCopy → Prop
  | .riscv64, copy => copy.UserLeaves .riscv64 s root
  | .x86_64, copy =>
    if copy.stores = true ∧ ¬ endsInLastPage copy.addr copy.len then
      copy.Refused registry root s ∨ copy.OpensNothing s root
    else copy.UserLeaves .x86_64 s root

variable {accesses : List ByteAccess}

lemma pages_of_leafAt {leaf : Nat × PTEFlags arch}
    (hleaf : copy.leafAt mem root vaddr arch = some leaf) :
    pages arch mem root (pageNumber arch vaddr) = some leaf := by
  have hor : ∀ {allowed : PTEFlags arch → Bool},
      (walkedLeaf arch mem root vaddr).or (mmuLeaf arch allowed mem root vaddr) = some leaf →
        pages arch mem root (pageNumber arch vaddr) = some leaf := by
    intro allowed h
    rcases or_eq_some_iff.mp h with h | ⟨-, h⟩
    · exact pages_of_walkedLeaf h
    · exact pages_of_mmuLeaf h
  cases arch <;> cases copy <;>
    first | exact pages_of_walkedLeaf hleaf | exact pages_of_mmuLeaf hleaf | exact hor hleaf

lemma confined_iff_userLeaves (copy : UserCopy)
    (haccesses : accesses = eachByte (fun vaddr => (copy.leafAt s.mem root vaddr arch).map
      fun leaf => ⟨vaddr, leafAddr vaddr leaf⟩) copy.addr copy.len) :
    Confined arch s s root copy.stores accesses ↔ copy.UserLeaves arch s root := by
  rw [haccesses]
  exact confined_eachByte fun _ _ => pages_of_leafAt

lemma userReadU8_eq (hspace : AddressSpace arch pos s root) (addr vaddr : Nat) :
    userReadU8 arch s.mem root vaddr = ((readU8 addr).leafAt s.mem root vaddr arch).map fun leaf =>
        ⟨vaddr, leafAddr vaddr leaf⟩ := by
  rw [userReadU8.eq_def, userTranslate_eq hspace]
  cases arch <;> cases hwalked : walkedLeaf _ s.mem root vaddr <;>
    simp [leafAt, hwalked, mmuAccess]

lemma eachByte_one (access : Nat → Option ByteAccess) {addr : Nat} (haddr : addr < usizeRange) :
    eachByte access addr 1 = (access addr).toList := by
  have hsame : wrappingAdd addr 0 = addr := mod_eq_of_lt haddr
  simp only [eachByte, range_one, filterMap_cons, filterMap_nil, hsame]
  cases access addr <;> rfl

lemma run_direct (haddr : copy.addr < usizeRange)
    (hdirect : arch = .riscv64 ∨ copy.stores = false) (hspace : AddressSpace arch pos s root)
    (hrun : copy.run arch registry root s = some (s₁, accesses)) :
    s₁ = s ∧ accesses = eachByte (fun vaddr => (copy.leafAt s.mem root vaddr arch).map
      fun leaf => ⟨vaddr, leafAddr vaddr leaf⟩) copy.addr copy.len := by
  cases copy with
  | read addr size =>
    cases hrun
    refine ⟨rfl, ?_⟩
    cases arch with
    | riscv64 => rfl
    | x86_64 =>
      have hread := funext (userReadU8_eq hspace addr)
      rw [userRead, hread]
      rfl
  | readU8 addr =>
    cases hrun
    have hone := eachByte_one (userReadU8 arch s.mem root) haddr
    rw [funext (userReadU8_eq hspace addr)] at hone
    refine ⟨rfl, ?_⟩
    rw [userReadU8_eq hspace addr]
    exact hone.symm
  | write addr size | writeU8 addr =>
    obtain rfl := hdirect.resolve_right (by simp [stores])
    cases hrun
    exact ⟨rfl, rfl⟩
  | writeBytes addr len =>
    obtain rfl := hdirect.resolve_right (by simp [stores])
    cases hrun
    refine ⟨rfl, ?_⟩
    simp only [userTranslate_eq hspace]
    refine congrArg (fun access => eachByte access addr len) (funext fun vaddr => ?_)
    cases hwalked : walkedLeaf .riscv64 s.mem root vaddr <;> simp [leafAt, hwalked, mmuAccess]

lemma safe_direct (hdirect : arch = .riscv64 ∨ copy.stores = false) :
    copy.Safe registry root s arch = copy.UserLeaves arch s root := by
  cases arch with
  | riscv64 => rfl
  | x86_64 => exact if_neg (by simp [hdirect.resolve_left])

end UserCopy

lemma confined_nil (arch : Arch) (s s₁ : Machine σ) (root : Nat) (store : Bool) :
    Confined arch s s₁ root store [] := by
  intro a ha
  cases ha

lemma confined_writable_iff (hlast : copy.addr + (copy.len - 1) < usizeRange)
    (hmade : ∀ i < copy.len, MadeWritable s s₁ root (alignDown (copy.addr + i)))
    (hspace : AddressSpace .x86_64 pos s root) : Confined .x86_64 s s₁ root copy.stores
        (eachByte (mmuAccess .x86_64 storable s₁.mem root) copy.addr copy.len) ↔
      copy.OpensNothing s root := by
  have hnowrap : ∀ i < copy.len, wrappingAdd copy.addr i = copy.addr + i := by
    intro i hi
    exact mod_eq_of_lt (by omega)
  constructor
  · intro hconfined i hi hcanonical old hold
    obtain ⟨leaf, hleaf, -, -, horigin⟩ := hmade i hi
    rw [pageNumber_alignDown] at hleaf horigin
    have hmem : ⟨copy.addr + i, leafAddr (copy.addr + i) leaf⟩ ∈
        eachByte (mmuAccess .x86_64 storable s₁.mem root) copy.addr copy.len := by
      refine mem_eachByte.mpr ⟨i, hi, ?_⟩
      rw [hnowrap i hi, mmuAccess, mmuLeaf, signExtended, if_pos hcanonical, hleaf]
      rfl
    obtain ⟨leaf', hleaf', -, -, -, hclean⟩ := hconfined _ hmem
    cases hleaf.symm.trans hleaf'
    rcases horigin with ⟨old', hold', heq, -⟩ | ⟨-, hidentity⟩
    · cases hold.symm.trans hold'
      rcases hclean old hold heq with huser | hfree
      · exact .inl huser
      · exact .inr (.inl (heq ▸ hfree))
    · refine .inr (.inr ?_)
      rw [hspace.translateUser_eq, pageNumber_alignDown, hold, map_some, hidentity old hold]
  · intro hopens a ha
    obtain ⟨i, hi, haccess⟩ := mem_eachByte.mp ha
    rw [hnowrap i hi] at haccess
    obtain ⟨leaf, hleaf, rfl⟩ := map_eq_some_iff.mp haccess
    have hcanonical : isCanonical (copy.addr + i) := by
      by_contra hnot
      rw [mmuLeaf, signExtended, if_neg hnot] at hleaf
      cases hleaf
    have hpages := pages_of_mmuLeaf hleaf
    obtain ⟨leaf', hleaf', huser, hwritable, horigin⟩ := hmade i hi
    rw [pageNumber_alignDown] at hleaf' horigin
    cases hpages.symm.trans hleaf'
    refine ⟨leaf, hpages, rfl, huser, fun _ => hwritable, ?_⟩
    intro old hold heq
    rcases hopens i hi hcanonical old hold with huser' | hfree | hidentity
    · exact .inl huser'
    · exact .inr (heq ▸ hfree)
    · rw [hspace.translateUser_eq, pageNumber_alignDown, hold, map_some, some.injEq] at hidentity
      rcases horigin with ⟨old', hold', -, hne⟩ | ⟨hfree, -⟩
      · cases hold.symm.trans hold'
        exact absurd hidentity hne
      · exact .inr hfree

lemma writeMapped_confined_iff (hstores : copy.stores)
    (hleafAt : ∀ mem vaddr, copy.leafAt mem root vaddr .x86_64 =
      mmuLeaf .x86_64 storable mem root vaddr) (hlen : copy.len ≤ 2 ^ 47)
    {accesses : List ByteAccess} (hspace : AddressSpace .x86_64 pos s root)
    (hrun : writeMapped registry root s copy.addr copy.len = some (s₁, accesses)) :
    Confined .x86_64 s s₁ root copy.stores accesses ↔ copy.Safe registry root s .x86_64 := by
  have hdirect : Confined .x86_64 s s root copy.stores
      (eachByte (mmuAccess .x86_64 storable s.mem root) copy.addr copy.len) ↔
        copy.UserLeaves .x86_64 s root := by
    refine copy.confined_iff_userLeaves ?_
    simp only [hleafAt]
    rfl
  obtain ⟨⟨next, writable⟩, hensure, heq⟩ := map_eq_some_iff.mp hrun
  obtain ⟨rfl, rfl⟩ := Prod.mk.inj heq
  by_cases hends : endsInLastPage copy.addr copy.len
  · -- the loop visits no page
    rw [ensureUserWritePages_of_endsInLastPage hends] at hensure
    cases hensure
    have hsafe : copy.Safe registry root s .x86_64 = copy.UserLeaves .x86_64 s root :=
      if_neg (by simp [hends])
    rw [hsafe]
    exact hdirect
  · have hsafe : copy.Safe registry root s .x86_64 =
        (copy.Refused registry root s ∨ copy.OpensNothing s root) := if_pos ⟨hstores, hends⟩
    rw [hsafe]
    cases writable with
    | false => exact iff_of_true (confined_nil _ _ _ _ _) (.inl ⟨next, hensure⟩)
    | true =>
      have hperformed : ¬copy.Refused registry root s := by
        rintro ⟨other, hother⟩
        cases hensure.symm.trans hother
      rw [or_iff_right hperformed]
      rcases Nat.eq_zero_or_pos copy.len with hzero | hpos
      · refine iff_of_true ?_ ?_
        · rw [hzero]
          exact confined_nil _ _ _ _ _
        · intro i hi
          omega
      · obtain ⟨hlast, hmade⟩ := ensureUserWritePages_spec hpos hlen hends hspace hensure
        exact confined_writable_iff hlast hmade hspace

/-- A user copy that returns is confined if and only if it is safe. A slice of
kernel memory is shorter than half of the address space. -/
theorem userCopy_confined_iff {registry : Registry} {copy : UserCopy}
    (haddr : copy.addr < usizeRange) (hlen : copy.len ≤ 2 ^ 47) {accesses : List ByteAccess}
    (hspace : AddressSpace arch pos s root)
    (hrun : copy.run arch registry root s = some (s₁, accesses)) :
    Confined arch s s₁ root copy.stores accesses ↔ copy.Safe registry root s arch := by
  by_cases hdirect : arch = .riscv64 ∨ copy.stores = false
  · obtain ⟨rfl, haccesses⟩ := UserCopy.run_direct haddr hdirect hspace hrun
    rw [UserCopy.safe_direct hdirect]
    exact copy.confined_iff_userLeaves haccesses
  · obtain ⟨harch, hstores⟩ := not_or.mp hdirect
    cases arch with
    | riscv64 => exact absurd rfl harch
    | x86_64 =>
      cases copy with
      | read addr size | readU8 addr => exact absurd rfl hstores
      | write addr size | writeU8 addr | writeBytes addr len =>
        exact writeMapped_confined_iff rfl (fun _ _ => rfl) hlen hspace hrun

/-- The supervisor page that `copy_kernel_mappings` puts at the top of the
address space, and a heap page. -/
def topMappings : List (Nat × Nat × PTEFlags .x86_64) :=
  [(0xfffffffffffff000, 0x400, .krw .x86_64), (0x10000000, 0x401, .urw .x86_64)]

def HasTopTable (s : Machine KernelFrames) (root : Nat) : Prop :=
  Machine.tableOf ⟨fun _ _ => 0, .sixtyFour⟩ topMappings = some (root, s)

theorem userCopy_confined_heapByte : ∃ s root accesses, HasTopTable s root ∧
    UserCopy.run .x86_64 .boot root s (.readU8 0x10000000) = some (s, accesses) ∧
    Confined .x86_64 s s root false accesses := by
  obtain ⟨root, s, pos, hbuilt, hspace, htable⟩ :=
    exists_tableOf topMappings (by decide) (by decide)
  have hrun : UserCopy.run .x86_64 .boot root s (.readU8 0x10000000) = some (s, _) := rfl
  refine ⟨s, root, _, hbuilt, hrun, ?_⟩
  refine (userCopy_confined_iff (by decide) (by decide) hspace hrun).mpr ?_
  rw [UserCopy.safe_direct (.inr rfl)]
  intro i hi leaf hleaf
  obtain rfl : i = 0 := lt_one_iff.mp hi
  have hpages := UserCopy.pages_of_leafAt hleaf
  rw [(htable _ (pageNumber_lt _ _)).1] at hpages
  have huser : lastMapping topMappings (pageNumber .x86_64 0x10000000) none =
      some (0x401, .urw .x86_64) := by decide
  cases huser.symm.trans hpages
  exact ⟨by decide, nofun⟩

/-- `user_read_u8` and `user_write_u8` both reach the supervisor page at the top. -/
theorem userCopy_reaches_supervisor :
    ∃ s root pos, HasTopTable s root ∧ AddressSpace .x86_64 pos s root ∧
      pages .x86_64 s.mem root (pageNumber .x86_64 0xfffffffffffff000) =
        some (0x400, .krw .x86_64) ∧
      UserCopy.run .x86_64 .boot root s (.readU8 0xfffffffffffff000) =
        some (s, [⟨0xfffffffffffff000, 0x400000⟩]) ∧
      ¬ Confined .x86_64 s s root false [⟨0xfffffffffffff000, 0x400000⟩] ∧
      UserCopy.run .x86_64 .boot root s (.writeU8 0xfffffffffffff000) =
        some (s, [⟨0xfffffffffffff000, 0x400000⟩]) ∧
      ¬ Confined .x86_64 s s root true [⟨0xfffffffffffff000, 0x400000⟩] := by
  obtain ⟨root, s, pos, hbuilt, hspace, htable⟩ :=
    exists_tableOf topMappings (by decide) (by decide)
  have hleaf : pages .x86_64 s.mem root (pageNumber .x86_64 0xfffffffffffff000) =
      some (0x400, .krw .x86_64) :=
    (htable _ (pageNumber_lt _ _)).1.trans (by decide)
  have hnot : ∀ store, ¬ Confined .x86_64 s s root store [⟨0xfffffffffffff000, 0x400000⟩] := by
    intro store hconfined
    obtain ⟨leaf, hpages, -, huser, -⟩ := hconfined _ (mem_singleton_self _)
    cases hleaf.symm.trans hpages
    revert huser
    decide
  refine ⟨s, root, pos, hbuilt, hspace, hleaf, ?_, hnot false, ?_, hnot true⟩
  · rw [UserCopy.run, UserCopy.userReadU8_eq hspace 0, UserCopy.leafAt, walkedLeaf, hleaf]
    rfl
  · have hensure : ensureUserWritePages .boot root s 0xfffffffffffff000 1 = some (s, true) :=
      ensureUserWritePages_of_endsInLastPage (by decide)
    rw [UserCopy.run, userWriteU8, userWrite, writeMapped, hensure]
    simp only [map_some, if_true]
    rw [UserCopy.eachByte_one _ (by decide), mmuAccess, mmuLeaf, hleaf]
    rfl

end KarteOs.Syscall

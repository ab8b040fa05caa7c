import KarteOs.Mm.Pointwise
import KarteOs.Syscall.Memory

/-! # What the page range loops do to an address space

Each loop of the memory calls applies one page operation to every page of a
range. The effect on the whole address space is stated on its map from pages
to frames and permissions.
-/

namespace KarteOs.Syscall

universe u

open Mm RadixTree FrameSource Function Machine List Option

lemma mem_pageRange {start stop v : Nat} (hstart : start % pageSize = 0) :
    v ∈ pageRange start stop ↔ v % pageSize = 0 ∧ start ≤ v ∧ v + pageSize ≤ stop := by
  simp only [pageRange, List.mem_map, mem_range]
  constructor
  · rintro ⟨i, hi, rfl⟩
    have := Nat.div_mul_le_self (stop - start) pageSize
    have := Nat.mul_le_mul_right pageSize (Nat.succ_le_of_lt hi)
    simp only [pageSize] at *
    omega
  · rintro ⟨hv, hle, hstop⟩
    refine ⟨(v - start) / pageSize, ?_, ?_⟩ <;> simp only [pageSize] at * <;> omega

lemma alignDown_mem_pageRange {start stop v : Nat} (hstart : start % pageSize = 0)
    (hstop : stop % pageSize = 0) (hle : start ≤ v) (hlt : v < stop) :
    alignDown v ∈ pageRange start stop := by
  refine (mem_pageRange hstart).mpr ⟨alignDown_mod v, ?_, ?_⟩ <;>
    simp only [alignDown, pageSize] at * <;> omega

lemma pageNumber_alignDown (arch : Arch) (vaddr : Nat) :
    pageNumber arch (alignDown vaddr) = pageNumber arch vaddr := by
  rw [pageNumber, alignDown, Nat.mul_div_cancel _ (by decide), pageNumber]

lemma alignDown_eq_of_pageNumber {v w : Nat} (hv : v < usizeRange) (hw : w < usizeRange)
    (hcv : isCanonical v) (hcw : isCanonical w)
    (heq : pageNumber .x86_64 v = pageNumber .x86_64 w) : alignDown v = alignDown w := by
  simp only [isCanonical, Bool.or_eq_true, decide_eq_true_eq, usizeRange] at *
  simp only [pageNumber, alignDown, pageSize, pteCount, Arch.ptLevels] at *
  omega

variable {σ : Type u} [FrameSource σ (2 ^ 40)] {arch : Arch} {pos : Layout} {s s₁ : Machine σ}
  {root frame : Nat}

def pageNumbers (arch : Arch) (vaddrs : List Nat) : List Nat := vaddrs.map (pageNumber arch)

structure Rewrites (arch : Arch) (pos : Layout) (s s' : Machine σ) (root : Nat)
    (mapping : Nat → Option (Nat × PTEFlags arch)) : Prop where
  space : AddressSpace arch pos s' root
  grows : Grows pos pos s s'
  pages : ∀ n < pteCount ^ arch.ptLevels, pages arch s'.mem root n = mapping n
  huge : ∀ n < pteCount ^ arch.ptLevels,
    inHugePage arch s'.mem root n = inHugePage arch s.mem root n

lemma Rewrites.refl (hspace : AddressSpace arch pos s root) :
    Rewrites arch pos s s root (Mm.pages arch s.mem root) :=
  ⟨hspace, .refl pos s, fun _ _ => rfl, fun _ _ => rfl⟩

lemma Rewrites.cons {n : Nat} {leaf : Option (Nat × PTEFlags arch)} {s₂ : Machine σ}
    {mapping mapping' : Nat → Option (Nat × PTEFlags arch)}
    (hfirst : Updates arch pos pos s s₁ root n leaf false)
    (hrest : Rewrites arch pos s₁ s₂ root mapping)
    (hmapping : ∀ m < pteCount ^ arch.ptLevels, mapping m = mapping' m) :
    Rewrites arch pos s s₂ root mapping' where
  space := hrest.space
  grows := hfirst.descent.toGrows.trans hrest.grows
  pages m hm := (hrest.pages m hm).trans (hmapping m hm)
  huge m hm := by rw [hrest.huge m hm, hfirst.huge m hm]; simp

/-- A loop over pages that changes each page outside the huge ones in the same way. -/
lemma foldPages_spec {edit : Machine σ → Nat → Machine σ}
    (change : Option (Nat × PTEFlags arch) → Option (Nat × PTEFlags arch))
    (hchange : ∀ leaf, change (change leaf) = change leaf)
    (hedit : ∀ s vaddr, AddressSpace arch pos s root → Updates arch pos pos s (edit s vaddr) root
      (pageNumber arch vaddr) (if inHugePage arch s.mem root (pageNumber arch vaddr) then
        pages arch s.mem root (pageNumber arch vaddr)
      else change (pages arch s.mem root (pageNumber arch vaddr))) false)
    (hspace : AddressSpace arch pos s root) (vaddrs : List Nat) :
    Rewrites arch pos s (vaddrs.foldl edit s) root
      fun n => if n ∈ pageNumbers arch vaddrs ∧ inHugePage arch s.mem root n = false then
        change (pages arch s.mem root n) else pages arch s.mem root n := by
  induction vaddrs generalizing s with
  | nil => simpa [pageNumbers] using Rewrites.refl hspace
  | cons vaddr rest ih =>
    have hfirst := hedit s vaddr hspace
    refine .cons hfirst (ih hfirst.space) ?_
    intro m hm
    have hhuge := hfirst.huge m hm
    simp only [Bool.false_and, Bool.not_false, Bool.and_true] at hhuge
    simp only [hhuge, hfirst.pages m hm, pageNumbers, map_cons, mem_cons]
    by_cases heq : m = pageNumber arch vaddr
    · subst heq
      cases inHugePage arch s.mem root (pageNumber arch vaddr) <;> simp [hchange]
    · simp [heq]

lemma unmapPages_spec (hspace : AddressSpace arch pos s root) (vaddrs : List Nat) :
    Rewrites arch pos s (vaddrs.foldl (fun s vaddr => (unmapUser arch s root vaddr).1) s) root
      fun n => if n ∈ pageNumbers arch vaddrs ∧ inHugePage arch s.mem root n = false then none
        else pages arch s.mem root n :=
  foldPages_spec (fun _ => none) (fun _ => rfl)
    (fun _ vaddr hspace => hspace.unmapUser_spec vaddr) hspace vaddrs

variable {flags : PTEFlags arch} {frames : σ}

lemma protectPages_spec (hflags : flags.contains (.valid arch))
    (hspace : AddressSpace arch pos s root) (vaddrs : List Nat) :
    Rewrites arch pos s (vaddrs.foldl (fun s vaddr =>
        if (translateUser arch s.mem root vaddr).isSome then
          (mprotectUser arch s root vaddr flags).1 else s) s) root
      fun n => if n ∈ pageNumbers arch vaddrs ∧ inHugePage arch s.mem root n = false then
          (pages arch s.mem root n).map fun leaf => (leaf.1, flags)
        else pages arch s.mem root n := by
  refine foldPages_spec (Option.map fun leaf => (leaf.1, flags)) (fun _ => Option.map_map ..)
    (fun s vaddr hspace => ?_) hspace vaddrs
  split
  · exact hspace.mprotectUser_spec vaddr hflags
  next hnone =>
    -- an unmapped page is skipped, which is what the update would do to it
    have hpages : pages arch s.mem root (pageNumber arch vaddr) = none := by
      simpa [hspace.translateUser_eq] using hnone
    simpa [hpages] using Updates.refl hspace (pageNumber arch vaddr)

/-! ## Mapping fresh frames -/

/-- Page `n` now maps a frame that was free before, and no other mapping changed. -/
structure MapsFresh (arch : Arch) (pos pos' : Layout) (s s' : Machine σ) (root n frame : Nat)
    (flags : PTEFlags arch) : Prop where
  space : AddressSpace arch pos' s' root
  grows : Grows pos pos' s s'
  was_free : frame ∈ free s.frames
  not_free : frame ∉ free s'.frames
  data : pos' frame = none
  pages : ∀ m < pteCount ^ arch.ptLevels,
    pages arch s'.mem root m = if m = n then some (frame, flags) else pages arch s.mem root m
  huge : ∀ m < pteCount ^ arch.ptLevels, inHugePage arch s'.mem root m =
    (inHugePage arch s.mem root m && !decide (m / pteCount = n / pteCount))

lemma mem_clearFresh {t : Nat} (hspace : AddressSpace arch pos s root)
    (halloc : alloc s.frames = some (frame, frames)) (ht : pos t ≠ none) :
    (setFrame { s with frames } frame fun _ => 0).mem t = s.mem t :=
  update_of_ne (hspace.fresh_ne halloc ht) _ _

lemma clearFresh_space (hspace : AddressSpace arch pos s root)
    (halloc : alloc s.frames = some (frame, frames)) :
    AddressSpace arch pos (setFrame { s with frames } frame fun _ => 0) root :=
  hspace.congr (fun _ => mem_clearFresh hspace halloc)
    fun t ht hfree => hspace.owned t ht (free_alloc_subset halloc hfree)

lemma mapFresh_eq {vaddr : Nat} (halloc : alloc s.frames = some (frame, frames)) :
    mapFresh arch s root vaddr flags =
      (map arch (setFrame { s with frames } frame fun _ => 0) root vaddr
        (frame * pageSize) flags).map some := by
  simp only [mapFresh, allocFrame, halloc, map_some,
    Nat.mul_div_cancel _ (by decide : 0 < pageSize)]

variable {vaddr : Nat}

lemma mapFresh_of_full (halloc : alloc s.frames = none) :
    mapFresh arch s root vaddr flags = some none := by
  simp [mapFresh, allocFrame, halloc]

lemma mapFresh_total (flags : PTEFlags arch) (hspace : AddressSpace arch pos s root)
    (hfree : ((rootLevel arch + 1 : Nat) : ℕ∞) ≤ (free s.frames).encard)
    (hcanonical : arch = .x86_64 → isCanonical vaddr) :
    ∃ next, mapFresh arch s root vaddr flags = some (some next) := by
  have hfree' : (rootLevel arch : ℕ∞) + 1 ≤ (free s.frames).encard := by exact_mod_cast hfree
  obtain ⟨frame, frames, halloc⟩ := exists_alloc (nonempty_of_le_encard hfree')
  obtain ⟨next, hmap, -⟩ := (clearFresh_space hspace halloc).map_total (frame * pageSize) flags
    ((add_zero (rootLevel arch : ℕ∞)).le.trans (le_encard_free_alloc halloc hfree')) hcanonical
  exact ⟨next, by rw [mapFresh_eq halloc, hmap]; rfl⟩

lemma exists_mapFresh_iff (flags : PTEFlags .riscv64) (hspace : AddressSpace .riscv64 pos s root) :
    (∃ next, mapFresh .riscv64 s root vaddr flags = some (some next)) ↔
      (missingTables s.mem root vaddr : ℕ∞) + 1 ≤ (free s.frames).encard := by
  cases halloc : alloc s.frames with
  | none => simp [mapFresh_of_full halloc, free_of_alloc_none halloc]
  | some result =>
    obtain ⟨frame, frames⟩ := result
    have hmissing : missingTables (setFrame { s with frames } frame fun _ => 0).mem root
        vaddr = missingTables s.mem root vaddr := by
      rw [missingTables, hspace.lookup_congr (fun _ => mem_clearFresh hspace halloc)
        (pageNumber_lt .riscv64 vaddr), missingTables]
    have hmap := (clearFresh_space hspace halloc).map_isSome_iff vaddr (frame * pageSize) flags
    rw [hmissing] at hmap
    rw [← le_encard_free_alloc_iff halloc, mapFresh_eq halloc]
    refine Iff.trans ?_ hmap
    simp [isSome_iff_exists]

lemma mapFresh_cleared (hflags : flags.contains (.valid arch))
    (hspace : AddressSpace arch pos s root)
    (hrun : mapFresh arch s root vaddr flags = some (some s₁)) :
    ∃ pos₁ frame, MapsFresh arch pos pos₁ s s₁ root (pageNumber arch vaddr) frame flags ∧
      s₁.mem frame = fun _ => 0 := by
  cases halloc : alloc s.frames with
  | none => simp [mapFresh_of_full halloc] at hrun
  | some result =>
    obtain ⟨frame, frames⟩ := result
    have hdiv : frame * pageSize / pageSize = frame := Nat.mul_div_cancel _ (by decide)
    rw [mapFresh_eq halloc] at hrun
    obtain ⟨next, hmap, heq⟩ := map_eq_some_iff.mp hrun
    cases heq
    have hnone : pos frame = none := hspace.pos_eq_none halloc
    have hmem := fun t (ht : pos t ≠ none) => mem_clearFresh hspace halloc ht
    have hspace₀ := clearFresh_space hspace halloc
    have hgrows : Grows pos pos s (setFrame { s with frames } frame fun _ => 0) := by
      refine ⟨fun _ _ => rfl, fun _ hnone hsome => absurd hnone hsome, free_alloc_subset halloc, ?_⟩
      intro t _ hheld
      refine update_of_ne ?_ _ _
      rintro rfl
      exact hheld (alloc_mem halloc)
    obtain ⟨pos₁, hupdates⟩ := hspace₀.map_spec hmap
    have hframe : frame < 2 ^ arch.ppnWidth := (alloc_lt halloc).trans_le
      (Nat.pow_le_pow_right (by decide) (by cases arch <;> decide))
    refine ⟨pos₁, frame, ⟨hupdates.space, hgrows.trans hupdates.descent.toGrows,
      alloc_mem halloc, ?_, ?_, ?_, ?_⟩, ?_⟩
    · exact fun hfree => not_mem_free_alloc halloc (hupdates.descent.shrink hfree)
    · by_contra hsome
      exact not_mem_free_alloc halloc (hupdates.descent.fresh frame hnone hsome).1
    · intro m hm
      rw [hupdates.pages m hm, hdiv, leafOf_new hflags hframe, (hspace.pages_congr hmem hm).1]
    · intro m hm
      rw [hupdates.huge m hm, (hspace.pages_congr hmem hm).2]
      simp
    · rw [hupdates.descent.outside frame hnone (not_mem_free_alloc halloc)]
      exact update_self _ _ _

lemma mapFresh_spec (hflags : flags.contains (.valid arch)) (hspace : AddressSpace arch pos s root)
    (hrun : mapFresh arch s root vaddr flags = some (some s₁)) :
    ∃ pos₁ frame, MapsFresh arch pos pos₁ s s₁ root (pageNumber arch vaddr) frame flags := by
  obtain ⟨pos₁, frame, hmaps, -⟩ := mapFresh_cleared hflags hspace hrun
  exact ⟨pos₁, frame, hmaps⟩

lemma valid_protToPteFlags (arch : Arch) (prot : Nat) :
    (protToPteFlags arch prot).contains (.valid arch) := by
  cases arch <;> simp only [protToPteFlags] <;> split_ifs <;> decide

lemma isUser_protToPteFlags (arch : Arch) (prot : Nat) : (protToPteFlags arch prot).isUser := by
  cases arch <;> simp only [protToPteFlags] <;> split_ifs <;> decide

end KarteOs.Syscall

import KarteOs.Mm.PageTable

/-! # The effect of `map` on an address space

`map` descends along the path of one page. Each level either follows an entry,
hangs an empty table below an invalid entry, or replaces a 2 MiB page by a
table of 4 KiB pages. Every one of these steps keeps the tree sound and the
mapping of every page; the leaf write at the end then changes one page.
-/

namespace KarteOs.Mm

universe u

open RadixTree FrameSource Function Format Machine PTE Store Option

variable {σ : Type u}

/-- The machine after a fresh table with the given words has been hung below
entry `i` of `table`. -/
def Machine.graft (arch : Arch) (s : Machine σ) (frames : σ) (table i fresh : Nat)
    (words : Nat → PTE) : Machine σ :=
  (setFrame { s with frames } fresh words).setEntry table i (.newNonleaf arch fresh)

section
variable {arch : Arch} {s : Machine σ} {frames : σ} {table fresh : Nat} {words : Nat → PTE}

lemma graft_mem_fresh (hne : table ≠ fresh) (i : Nat) :
    (s.graft arch frames table i fresh words).mem fresh = words := by
  simp [graft, setEntry, setFrame, Store.set, update_of_ne hne.symm]

lemma graft_mem_entry (i : Nat) :
    (s.graft arch frames table i fresh words).mem table i = .newNonleaf arch fresh :=
  set_same _ _ _ _

lemma graft_mem_other {t j i : Nat} (ht : t ≠ fresh) (hj : t ≠ table ∨ j ≠ i) :
    (s.graft arch frames table i fresh words).mem t j = s.mem t j := by
  simp only [graft, setEntry, setFrame]
  by_cases htable : t = table
  · subst htable
    rw [set_of_index_ne _ _ _ (hj.resolve_left (by simp)), update_of_ne ht]
  · rw [set_of_table_ne _ _ _ _ htable, update_of_ne ht]

lemma Machine.setEntry_self (s : Machine σ) (table i : Nat) :
    s.setEntry table i (s.mem table i) = s := by
  simp [setEntry, Store.set]

end

variable [FrameSource σ (2 ^ 40)]

/-- A change to the tables of one layout. New tables come from the allocator,
and memory that is neither a table nor free stays as it is. -/
structure Grows (pos pos' : Layout) (s s' : Machine σ) : Prop where
  extend : ∀ t, pos t ≠ none → pos' t = pos t
  fresh : ∀ t, pos t = none → pos' t ≠ none → t ∈ free s.frames ∧ t ∉ free s'.frames
  shrink : free s'.frames ⊆ free s.frames
  outside : ∀ t, pos t = none → t ∉ free s.frames → s'.mem t = s.mem t

namespace Grows

variable {pos pos₁ pos₂ : Layout} {s s₁ s₂ : Machine σ}

lemma refl (pos : Layout) (s : Machine σ) : Grows pos pos s s where
  extend _ _ := rfl
  fresh _ hnone hsome := absurd hnone hsome
  shrink := subset_rfl
  outside _ _ _ := rfl

lemma trans (h : Grows pos pos₁ s s₁) (h' : Grows pos₁ pos₂ s₁ s₂) : Grows pos pos₂ s s₂ where
  extend t ht := by
    have hfirst := h.extend t ht
    rw [h'.extend t (by rw [hfirst]; exact ht), hfirst]
  fresh t hnone hsome := by
    by_cases hmid : pos₁ t = none
    · obtain ⟨hfree, hnot⟩ := h'.fresh t hmid hsome
      exact ⟨h.shrink hfree, hnot⟩
    · obtain ⟨hfree, hnot⟩ := h.fresh t hnone hmid
      exact ⟨hfree, fun hmem => hnot (h'.shrink hmem)⟩
  shrink := h'.shrink.trans h.shrink
  outside t hnone hheld := by
    have hmid : pos₁ t = none := by
      by_contra hsome
      exact hheld (h.fresh t hnone hsome).1
    rw [h'.outside t hmid fun hmem => hheld (h.shrink hmem), h.outside t hnone hheld]

end Grows

/-- A change of memory along the path of page `n`, up to `level`. -/
structure Descent (arch : Arch) (pos pos' : Layout) (s s' : Machine σ) (level n : Nat) : Prop
    extends Grows pos pos' s s' where
  path : (format arch).ChangesPath pos s.mem s'.mem level n

namespace Descent

variable {arch : Arch} {pos pos₁ pos₂ : Layout} {s s₁ s₂ : Machine σ} {level n : Nat}

lemma refl (arch : Arch) (pos : Layout) (s : Machine σ) (level n : Nat) :
    Descent arch pos pos s s level n :=
  ⟨.refl pos s, fun _ _ _ hchange => absurd rfl hchange⟩

variable (h : Descent arch pos pos₁ s s₁ level n)
include h

lemma mono {coarse : Nat} (hle : level ≤ coarse) : Descent arch pos pos₁ s s₁ coarse n :=
  { h with path := h.path.mono hle }

lemma at_of_at {table l m : Nat} (hat : (format arch).At pos table l m) :
    (format arch).At pos₁ table l m := by
  rw [At, h.extend table (by rw [hat]; simp)]
  exact hat

lemma trans (h' : Descent arch pos₁ pos₂ s₁ s₂ level n) : Descent arch pos pos₂ s s₂ level n := by
  refine ⟨h.toGrows.trans h'.toGrows, ?_⟩
  intro t i ht hchange
  by_cases hmid : s₁.mem t i = s.mem t i
  · have hpos := h.extend t ht
    obtain ⟨l, hl, hat, hi⟩ := h'.path t i (by rw [hpos]; exact ht) (by rw [hmid]; exact hchange)
    refine ⟨l, hl, ?_, hi⟩
    rw [At, ← hpos]
    exact hat
  · exact h.path t i ht hmid

end Descent

/-! ## Hanging a fresh table below an entry -/

section
variable {arch : Arch} {pos : Layout} {s : Machine σ} {frames : σ} {table level n fresh : Nat}
  {words : Nat → PTE}

lemma Sound.pos_eq_none (hs : Sound arch pos s) (halloc : alloc s.frames = some (fresh, frames)) :
    pos fresh = none := by
  by_contra hsome
  exact hs.owned fresh hsome (alloc_mem halloc)

lemma Sound.fresh_ne (hs : Sound arch pos s) (halloc : alloc s.frames = some (fresh, frames))
    {t : Nat} (ht : pos t ≠ none) : t ≠ fresh := by
  rintro rfl
  exact ht (hs.pos_eq_none halloc)

def graftLayout (arch : Arch) (pos : Layout) (fresh level n : Nat) : Layout :=
  update pos fresh (some (level, (format arch).cell (level + 1) n))

lemma graftLayout_fresh (arch : Arch) (pos : Layout) (fresh level n : Nat) :
    (format arch).At (graftLayout arch pos fresh level n) fresh level n := by
  simp [At, graftLayout]

lemma graftLayout_of_ne {t : Nat} (ht : t ≠ fresh) : graftLayout arch pos fresh level n t = pos t :=
  update_of_ne ht _ _

lemma graft_descent (hs : Sound arch pos s) (hat : (format arch).At pos table (level + 1) n)
    (halloc : alloc s.frames = some (fresh, frames)) (words : Nat → PTE) :
    Descent arch pos (graftLayout arch pos fresh level n) s
      (s.graft arch frames table ((format arch).index (level + 1) n) fresh words)
      (level + 1) n where
  extend t ht := graftLayout_of_ne (hs.fresh_ne halloc ht)
  fresh t hnone hsome := by
    have heq : t = fresh := by
      by_contra hne
      exact hsome (by rw [graftLayout_of_ne hne, hnone])
    rw [heq]
    exact ⟨alloc_mem halloc, not_mem_free_alloc halloc⟩
  shrink := free_alloc_subset halloc
  outside t hnone hheld := by
    funext j
    have hfresh : t ≠ fresh := fun heq => hheld (heq ▸ alloc_mem halloc)
    have htable : t ≠ table := by
      rintro rfl
      rw [hat] at hnone
      cases hnone
    exact graft_mem_other hfresh (.inl htable)
  path t j ht hchange := by
    have hfresh : t ≠ fresh := hs.fresh_ne halloc ht
    have hentry : t = table ∧ j = (format arch).index (level + 1) n := by
      by_contra hne
      exact hchange (graft_mem_other hfresh (not_and_or.mp hne))
    exact ⟨level + 1, le_rfl, hentry.1 ▸ hat, hentry.2⟩

lemma graft_child (halloc : alloc s.frames = some (fresh, frames)) (i : Nat) :
    (format arch).child ((s.graft arch frames table i fresh words).mem table i) = some fresh := by
  rw [graft_mem_entry]
  exact child_newNonleaf (alloc_pos halloc) (alloc_lt halloc)

lemma index_eq_of_cell_eq {m : Nat}
    (hcell : (format arch).cell level m = (format arch).cell level n) :
    (format arch).index level m = (format arch).index level n := by
  rw [index, index, hcell]

variable (hs : Sound arch pos s) (hat : (format arch).At pos table (level + 1) n)
include hs hat

lemma graft_sound_of_typed (halloc : alloc s.frames = some (fresh, frames))
    (hchild : ∀ l, level = l + 1 → ∀ j < pteCount, ∀ next,
      (format arch).child (words j) = some next →
      pos next = some (l, (format arch).cell (level + 1) n * pteCount + j))
    (hwords : ∀ j < pteCount, level ≠ 0 → EntryOk arch level (words j)) :
    Sound arch (graftLayout arch pos fresh level n)
      (s.graft arch frames table ((format arch).index (level + 1) n) fresh words) where
  typed t l region ht j hj next hnext := by
    have htable : table ≠ fresh := hs.fresh_ne halloc (by rw [hat]; simp)
    by_cases hfresh : t = fresh
    · subst hfresh
      rw [graftLayout_fresh] at ht
      cases ht
      rw [graft_mem_fresh htable] at hnext
      have hpos := hchild l rfl j hj next hnext
      rw [graftLayout_of_ne (hs.fresh_ne halloc (by rw [hpos]; simp)), hpos]
      rfl
    · rw [graftLayout_of_ne hfresh] at ht
      by_cases hentry : t = table ∧ j = (format arch).index (level + 1) n
      · obtain ⟨rfl, rfl⟩ := hentry
        rw [graft_child halloc] at hnext
        cases hnext
        rw [hat] at ht
        obtain ⟨hl, rfl⟩ := Prod.mk.inj (some.inj ht)
        obtain rfl : level = l := by omega
        rw [cell_succ_mul_add_index]
        exact graftLayout_fresh arch pos fresh level n
      · rw [graft_mem_other hfresh (not_and_or.mp hentry)] at hnext
        have hpos := hs.typed t l region ht j hj next hnext
        rw [graftLayout_of_ne (hs.fresh_ne halloc (by rw [hpos]; simp)), hpos]
  entries t l region ht j hj := by
    have htable : table ≠ fresh := hs.fresh_ne halloc (by rw [hat]; simp)
    by_cases hfresh : t = fresh
    · subst hfresh
      rw [graftLayout_fresh] at ht
      cases ht
      rw [graft_mem_fresh htable]
      exact hwords j hj (by omega)
    · rw [graftLayout_of_ne hfresh] at ht
      by_cases hentry : t = table ∧ j = (format arch).index (level + 1) n
      · obtain ⟨rfl, rfl⟩ := hentry
        intro _
        rw [graft_mem_entry, isHuge_newNonleaf, if_neg (by simp)]
        have hchild : (format arch).child (.newNonleaf arch fresh) = some fresh :=
          child_newNonleaf (alloc_pos halloc) (alloc_lt halloc)
        exact ⟨(child_eq_some.mp hchild).2.2.1, permissive_newNonleaf (alloc_lt halloc)⟩
      · rw [graft_mem_other hfresh (not_and_or.mp hentry)]
        exact hs.entries t l region ht j hj
  owned t ht := by
    by_cases hfresh : t = fresh
    · rw [hfresh]
      exact not_mem_free_alloc halloc
    · rw [graftLayout_of_ne hfresh] at ht
      exact fun hmem => hs.owned t ht (free_alloc_subset halloc hmem)

lemma graft_sound (halloc : alloc s.frames = some (fresh, frames))
    (hchild : ∀ j, level ≠ 0 → (format arch).child (words j) = none)
    (hwords : ∀ j, level ≠ 0 → EntryOk arch level (words j)) :
    Sound arch (graftLayout arch pos fresh level n)
      (s.graft arch frames table ((format arch).index (level + 1) n) fresh words) := by
  refine graft_sound_of_typed hs hat halloc (fun l hl j _ next hnext => ?_) fun j _ => hwords j
  rw [hchild j (by omega)] at hnext
  cases hnext

lemma graft_lookup_inside (halloc : alloc s.frames = some (fresh, frames))
    (hchild : ∀ j, level ≠ 0 → (format arch).child (words j) = none) {m : Nat}
    (hcell : (format arch).cell (level + 1) m = (format arch).cell (level + 1) n) :
    (format arch).lookup
      (s.graft arch frames table ((format arch).index (level + 1) n) fresh words).mem
      (level + 1) table m = (level, words ((format arch).index level m)) := by
  have htable : table ≠ fresh := hs.fresh_ne halloc (by rw [hat]; simp)
  have hindex := index_eq_of_cell_eq hcell
  rw [lookup_of_child _ (by rw [hindex]; exact graft_child halloc _)]
  cases level with
  | zero => simp [Format.lookup, graft_mem_fresh htable]
  | succ level =>
    have hstop := hchild ((format arch).index (level + 1) m) (by omega)
    rw [lookup_of_stop _ (by rw [graft_mem_fresh htable]; exact hstop), graft_mem_fresh htable]

end

/-! ## Steps that keep every mapping -/

/-- A descent to `level` after which every page below `table` maps as before,
while no page in the 2 MiB region of `n` is part of a huge page if `split`. -/
structure Keeps (arch : Arch) (pos pos' : Layout) (s s' : Machine σ) (level table n : Nat)
    (split : Bool) : Prop where
  sound : Sound arch pos' s'
  descent : Descent arch pos pos' s s' level n
  leaves : ∀ m, (format arch).cell (level + 1) m = (format arch).cell (level + 1) n →
    leafOf arch ((format arch).lookup s'.mem level table m) m =
      leafOf arch ((format arch).lookup s.mem level table m) m
  huge : ∀ m, (format arch).cell (level + 1) m = (format arch).cell (level + 1) n →
    hugeOf arch ((format arch).lookup s'.mem level table m) =
      (hugeOf arch ((format arch).lookup s.mem level table m) &&
        !(split && decide (m / pteCount = n / pteCount)))

section
variable {arch : Arch} {pos pos₁ pos₂ : Layout} {s s₁ s₂ : Machine σ} {table level n : Nat}
  {split : Bool}

lemma Keeps.refl (hs : Sound arch pos s) (level table n : Nat) :
    Keeps arch pos pos s s level table n false where
  sound := hs
  descent := .refl arch pos s level n
  leaves _ _ := rfl
  huge _ _ := by simp

lemma Keeps.trans (h : Keeps arch pos pos₁ s s₁ level table n false)
    (h' : Keeps arch pos₁ pos₂ s₁ s₂ level table n split) :
    Keeps arch pos pos₂ s s₂ level table n split where
  sound := h'.sound
  descent := h.descent.trans h'.descent
  leaves m hm := (h'.leaves m hm).trans (h.leaves m hm)
  huge m hm := by rw [h'.huge m hm, h.huge m hm]; simp

lemma Keeps.up (hs : Sound arch pos s) (hat : (format arch).At pos table (level + 1) n) {next : Nat}
    (hchild : (format arch).child (s.mem table ((format arch).index (level + 1) n)) = some next)
    (h : Keeps arch pos pos₁ s s₁ level next n split) :
    Keeps arch pos pos₁ s s₁ (level + 1) table n split ∧
      s₁.mem table ((format arch).index (level + 1) n) =
        s.mem table ((format arch).index (level + 1) n) := by
  have hentry : s₁.mem table ((format arch).index (level + 1) n) =
      s.mem table ((format arch).index (level + 1) n) := by
    by_contra hchange
    obtain ⟨l, hl, hat', _⟩ := h.descent.path table _ (by rw [hat]; simp) hchange
    have := (hat.cell_eq hat').1
    omega
  -- a page of the region is in the cell of `n`, or its lookup avoids the change
  have hinside : ∀ m, (format arch).cell (level + 1) m = (format arch).cell (level + 1) n →
      (format arch).lookup s₁.mem (level + 1) table m = (format arch).lookup s₁.mem level next m ∧
      (format arch).lookup s.mem (level + 1) table m = (format arch).lookup s.mem level next m := by
    intro m hm
    have hindex := index_eq_of_cell_eq hm
    exact ⟨lookup_of_child _ (by rw [hindex, hentry, hchild]),
      lookup_of_child _ (by rw [hindex, hchild])⟩
  have houtside : ∀ m, (format arch).cell (level + 1 + 1) m = (format arch).cell (level + 1 + 1) n →
      (format arch).cell (level + 1) m ≠ (format arch).cell (level + 1) n →
      (format arch).lookup s₁.mem (level + 1) table m =
        (format arch).lookup s.mem (level + 1) table m := by
    intro m hm hne
    exact hs.typed.lookup_off_path (hat.congr hm.symm) hne h.descent.path
  refine ⟨⟨h.sound, h.descent.mono (Nat.le_succ level), ?_, ?_⟩, hentry⟩
  · intro m hm
    by_cases hcell : (format arch).cell (level + 1) m = (format arch).cell (level + 1) n
    · rw [(hinside m hcell).1, (hinside m hcell).2, h.leaves m hcell]
    · rw [houtside m hm hcell]
  · intro m hm
    by_cases hcell : (format arch).cell (level + 1) m = (format arch).cell (level + 1) n
    · rw [(hinside m hcell).1, (hinside m hcell).2, h.huge m hcell]
    · have hregion : ¬m / pteCount = n / pteCount := fun heq =>
        hcell (cell_eq_of_le _ (Nat.le_add_left 1 level) (by simpa [cell_eq] using heq))
      rw [houtside m hm hcell]
      simp [hregion]

lemma Machine.ensureTable_eq {i : Nat} (hvalid : (s.mem table i).isValid arch = false) :
    s.ensureTable arch table i = (alloc s.frames).map fun (fresh, frames) =>
      s.graft arch frames table i fresh fun _ => 0 := by
  simp [ensureTable, hvalid, zeroed, Option.map_map, Function.comp_def, graft]

lemma Machine.splitHuge_eq (s : Machine σ) (table i subPageSize : Nat) :
    s.splitHuge table i subPageSize = (alloc s.frames).map fun (fresh, frames) =>
      (fresh, s.graft .x86_64 frames table i fresh ((s.mem table i).splitEntry subPageSize)) := by
  simp [splitHuge, zeroed, Option.map_map, Function.comp_def, graft, setFrame]

lemma graft_keeps {frames : σ} {fresh : Nat} {words : Nat → PTE} (hs : Sound arch pos s)
    (hat : (format arch).At pos table (level + 1) n)
    (halloc : alloc s.frames = some (fresh, frames))
    (hchild : ∀ j, level ≠ 0 → (format arch).child (words j) = none)
    (hwords : ∀ j, level ≠ 0 → EntryOk arch level (words j))
    (hleaves : ∀ m, (format arch).cell (level + 1) m = (format arch).cell (level + 1) n →
      leafOf arch (level, words ((format arch).index level m)) m =
        leafOf arch ((format arch).lookup s.mem (level + 1) table m) m)
    (hhuge : ∀ m, (format arch).cell (level + 1) m = (format arch).cell (level + 1) n →
      hugeOf arch (level, words ((format arch).index level m)) =
        (hugeOf arch ((format arch).lookup s.mem (level + 1) table m) &&
          !(split && decide (m / pteCount = n / pteCount)))) :
    Keeps arch pos (graftLayout arch pos fresh level n) s
      (s.graft arch frames table ((format arch).index (level + 1) n) fresh words)
      (level + 1) table n split := by
  have hdescent := graft_descent hs hat halloc words
  refine ⟨graft_sound hs hat halloc hchild hwords, hdescent, ?_, ?_⟩
  · intro m hm
    by_cases hcell : (format arch).cell (level + 1) m = (format arch).cell (level + 1) n
    · rw [graft_lookup_inside hs hat halloc hchild hcell, hleaves m hcell]
    · rw [hs.typed.lookup_off_path (hat.congr hm.symm) hcell hdescent.path]
  · intro m hm
    by_cases hcell : (format arch).cell (level + 1) m = (format arch).cell (level + 1) n
    · rw [graft_lookup_inside hs hat halloc hchild hcell, hhuge m hcell]
    · have hregion : ¬m / pteCount = n / pteCount := fun heq =>
        hcell (cell_eq_of_le _ (Nat.le_add_left 1 level) (by simpa [cell_eq] using heq))
      rw [hs.typed.lookup_off_path (hat.congr hm.symm) hcell hdescent.path]
      simp [hregion]

lemma Sound.ensureTable_spec (hs : Sound arch pos s)
    (hat : (format arch).At pos table (level + 1) n)
    (hrun : s.ensureTable arch table ((format arch).index (level + 1) n) = some s₁) :
    (∃ pos₁, Keeps arch pos pos₁ s s₁ (level + 1) table n false) ∧
      (s₁.mem table ((format arch).index (level + 1) n)).isValid arch := by
  cases hvalid : (s.mem table ((format arch).index (level + 1) n)).isValid arch with
  | true =>
    rw [ensureTable, if_pos hvalid] at hrun
    cases hrun
    exact ⟨⟨pos, .refl hs ..⟩, hvalid⟩
  | false =>
    rw [ensureTable_eq hvalid] at hrun
    obtain ⟨⟨fresh, frames⟩, halloc, rfl⟩ := map_eq_some_iff.mp hrun
    have hlookup : ∀ m, (format arch).cell (level + 1) m = (format arch).cell (level + 1) n →
        (format arch).lookup s.mem (level + 1) table m =
          (level + 1, s.mem table ((format arch).index (level + 1) n)) := by
      intro m hcell
      have hindex := index_eq_of_cell_eq hcell
      rw [lookup_of_stop _ (by rw [hindex]; exact child_eq_none_of_invalid hvalid), hindex]
    refine ⟨⟨_, graft_keeps hs hat halloc ?_ ?_ ?_ ?_⟩, ?_⟩
    · exact fun _ _ => child_eq_none_of_invalid (isValid_zero arch)
    · intro j _ hzero
      rw [isValid_zero] at hzero
      cases hzero
    · intro m hcell
      rw [hlookup m hcell, leafOf_invalid (isValid_zero arch), leafOf_invalid hvalid]
    · intro m hcell
      rw [hlookup m hcell, hugeOf_invalid (isValid_zero arch), hugeOf_invalid hvalid]
      rfl
    · rw [graft_mem_entry]
      exact isValid_newNonleaf arch fresh

lemma Sound.splitHuge_spec {newTable : Nat} (hs : Sound .x86_64 pos s)
    (hat : (format .x86_64).At pos table 1 n)
    (hvalid : (s.mem table ((format .x86_64).index 1 n)).isValid .x86_64)
    (hhuge : (s.mem table ((format .x86_64).index 1 n)).isHuge .x86_64)
    (hrun : s.splitHuge table ((format .x86_64).index 1 n) pageSize = some (newTable, s₁)) :
    (∃ pos₁, Keeps .x86_64 pos pos₁ s s₁ 1 table n true) ∧
      (format .x86_64).bottom s₁.mem 1 table n = some newTable := by
  rw [splitHuge_eq] at hrun
  obtain ⟨⟨fresh, frames⟩, halloc, heq⟩ := map_eq_some_iff.mp hrun
  cases heq
  have haligned : 512 ∣ (s.mem table ((format .x86_64).index 1 n)).ppn .x86_64 :=
    ((hs.entryOk_at hat).huge hvalid hhuge).2
  have hlookup : ∀ m, (format .x86_64).cell 1 m = (format .x86_64).cell 1 n →
      (format .x86_64).lookup s.mem 1 table m = (1, s.mem table ((format .x86_64).index 1 n)) := by
    intro m hcell
    have hindex := index_eq_of_cell_eq hcell
    rw [lookup_of_stop _ (by rw [hindex]; exact child_eq_none_of_huge hhuge), hindex]
  refine ⟨⟨_, graft_keeps hs hat halloc (fun _ h => absurd rfl h) (fun _ h => absurd rfl h)
    ?_ ?_⟩, ?_⟩
  · intro m hcell
    have hlt := index_lt (format .x86_64) 0 m
    rw [hlookup m hcell, leafOf_huge hvalid hhuge,
      leafOf_zero (by rw [isValid_splitEntry, hvalid]), ppn_splitEntry haligned hlt,
      flags_splitEntry haligned hlt, Nat.zero_add, Nat.pow_one, ← index_zero .x86_64]
    rfl
  · intro m hcell
    have hregion : m / pteCount = n / pteCount := by simpa [cell_eq] using hcell
    rw [hlookup m hcell, hugeOf_zero, decide_eq_true hregion]
    simp
  · simp only [bottom]
    rw [graft_child halloc]
    rfl

lemma patchNonleaf_of_permissive {pte : PTE} (hpte : pte.Permissive arch)
    (flags : PTEFlags arch) : patchNonleaf arch pte flags = pte := by
  cases arch with
  | riscv64 => rfl
  | x86_64 => exact ensureNonleafUserBit_of_permissive hpte flags

lemma Sound.mapDescend_spec {vaddr : Nat} {flags : PTEFlags arch} {target : Option Nat}
    (hs : Sound arch pos s) (hlevel : level ≤ rootLevel arch)
    (hat : (format arch).At pos table level (pageNumber arch vaddr))
    (hrun : mapDescend arch vaddr flags level table s = some (s₁, target)) :
    ∃ pos₁ leaf, target = some leaf ∧
      Keeps arch pos pos₁ s s₁ level table (pageNumber arch vaddr) true ∧
      (format arch).bottom s₁.mem level table (pageNumber arch vaddr) = some leaf := by
  induction level generalizing table pos s with
  | zero =>
    obtain ⟨rfl, rfl⟩ := Prod.mk.inj (some.inj hrun)
    refine ⟨pos, table, rfl, ⟨hs, .refl arch pos s 0 _, fun _ _ => rfl, ?_⟩, rfl⟩
    intro m _
    simp [Format.lookup, hugeOf_zero]
  | succ level ih =>
    have hindex := index_pageNumber hlevel vaddr
    simp only [mapDescend, ← hindex] at hrun
    obtain ⟨s₀, hensure, hrun⟩ := bind_eq_some_iff.mp hrun
    obtain ⟨⟨pos₀, hkeeps⟩, hvalid⟩ := hs.ensureTable_spec hat hensure
    have hat₀ := hkeeps.descent.at_of_at hat
    have hok := hkeeps.sound.entryOk_at hat₀
    cases hhuge : (s₀.mem table
        ((format arch).index (level + 1) (pageNumber arch vaddr))).isHuge arch with
    | true =>
      obtain ⟨hone, _⟩ := hok.huge hvalid hhuge
      obtain rfl : level = 0 := by omega
      cases arch with
      | riscv64 => cases hhuge
      | x86_64 =>
        rw [if_pos hhuge] at hrun
        obtain ⟨⟨newTable, s₂⟩, hsplit, hrun⟩ := bind_eq_some_iff.mp hrun
        split at hrun
        · cases hrun
        · cases hrun
          obtain ⟨⟨pos₂, hkeeps'⟩, hbottom⟩ := hkeeps.sound.splitHuge_spec hat₀ hvalid hhuge hsplit
          exact ⟨pos₂, newTable, rfl, hkeeps.trans hkeeps', hbottom⟩
    | false =>
      obtain ⟨hppn, hpermissive⟩ := hok.table hvalid hhuge
      have hchild := hok.child hvalid hhuge
      rw [if_neg (by simp [hhuge]), if_neg (by simp [hppn]),
        patchNonleaf_of_permissive hpermissive, setEntry_self] at hrun
      obtain ⟨pos₂, leaf, rfl, hbelow, hbottom⟩ := ih hkeeps.sound (by omega)
        (hkeeps.sound.typed.child_at hat₀ hchild) hrun
      obtain ⟨hup, hentry⟩ := Keeps.up hkeeps.sound hat₀ hchild hbelow
      refine ⟨pos₂, leaf, rfl, hkeeps.trans hup, ?_⟩
      simp only [bottom, hentry, hchild, bind_some]
      exact hbottom

end

/-! ## Operations on one page -/

/-- The operation gives page `n` the mapping `leaf` and changes no other
mapping; with `split` set the 2 MiB region of `n` is mapped by 4 KiB pages
afterwards. -/
structure Updates (arch : Arch) (pos pos' : Layout) (s s' : Machine σ) (root n : Nat)
    (leaf : Option (Nat × PTEFlags arch)) (split : Bool) : Prop where
  space : AddressSpace arch pos' s' root
  descent : Descent arch pos pos' s s' (rootLevel arch) n
  pages : ∀ m < pteCount ^ arch.ptLevels,
    pages arch s'.mem root m = if m = n then leaf else pages arch s.mem root m
  huge : ∀ m < pteCount ^ arch.ptLevels, inHugePage arch s'.mem root m =
      (inHugePage arch s.mem root m && !(split && decide (m / pteCount = n / pteCount)))

variable {arch : Arch} {pos pos₁ : Layout} {s s₁ : Machine σ} {root n leaf vaddr : Nat}
  {mem : Memory}

lemma cell_root_eq {m : Nat} (hm : m < pteCount ^ arch.ptLevels)
    (hn : n < pteCount ^ arch.ptLevels) :
    (format arch).cell (rootLevel arch + 1) m = (format arch).cell (rootLevel arch + 1) n := by
  have hlevels : rootLevel arch + 1 = arch.ptLevels := by cases arch <;> rfl
  rw [cell_eq, cell_eq, hlevels, Nat.div_eq_of_lt hm, Nat.div_eq_of_lt hn]

section
variable (hspace : AddressSpace arch pos s root)
include hspace

lemma Updates.refl (n : Nat) :
    Updates arch pos pos s s root n (KarteOs.Mm.pages arch s.mem root n) false where
  space := hspace
  descent := .refl arch pos s _ _
  pages m _ := by
    split
    next heq => rw [heq]
    · rfl
  huge m _ := by simp

lemma AddressSpace.setEntry_leaf (hleaf : (format arch).At pos leaf 0 n) (entry : PTE) :
    AddressSpace arch pos (s.setEntry leaf ((format arch).index 0 n) entry) root := by
  have hkeep : ∀ t l region i, pos t = some (l + 1, region) →
      (s.setEntry leaf ((format arch).index 0 n) entry).mem t i = s.mem t i := by
    intro t l region i ht
    refine set_of_table_ne _ _ _ _ ?_
    rintro rfl
    rw [hleaf] at ht
    simp at ht
  refine ⟨⟨?_, ?_, hspace.owned⟩, hspace.root_pos⟩
  · intro t l region ht i hi next hnext
    rw [hkeep t l region i ht] at hnext
    exact hspace.typed t l region ht i hi next hnext
  · intro t l region ht i hi
    rw [hkeep t l region i ht]
    exact hspace.entries t l region ht i hi

lemma AddressSpace.setEntry_updates (hn : n < pteCount ^ arch.ptLevels)
    (hbottom : (format arch).bottom s.mem (rootLevel arch) root n = some leaf) (entry : PTE) :
    Updates arch pos pos s (s.setEntry leaf ((format arch).index 0 n) entry) root n
      (leafOf arch (0, entry) n) false := by
  have hleaf := hspace.typed.bottom_at (hspace.root_at hn) hbottom
  have hself : (format arch).lookup (s.setEntry leaf ((format arch).index 0 n) entry).mem
      (rootLevel arch) root n = (0, entry) := by
    have hbottom' := hspace.typed.bottom_set_bottom (hspace.root_at hn) hleaf entry
    rw [hbottom] at hbottom'
    rw [setEntry, lookup_of_bottom _ hbottom', set_same]
  have hother : ∀ m < pteCount ^ arch.ptLevels, m ≠ n →
      (format arch).lookup (s.setEntry leaf ((format arch).index 0 n) entry).mem
        (rootLevel arch) root m = (format arch).lookup s.mem (rootLevel arch) root m := by
    intro m hm hne
    refine hspace.typed.lookup_set_of_cell_ne (hspace.root_at hm) hleaf ?_ entry
    rwa [cell_zero, cell_zero]
  refine ⟨hspace.setEntry_leaf hleaf entry,
    ⟨⟨fun _ _ => rfl, fun t hnone hsome => absurd hnone hsome, subset_rfl, ?_⟩, ?_⟩, ?_, ?_⟩
  · intro t hnone _
    refine update_of_ne ?_ _ _
    rintro rfl
    rw [hleaf] at hnone
    cases hnone
  · intro t i _ hchange
    refine ⟨0, Nat.zero_le _, ?_⟩
    by_contra hne
    refine hchange ?_
    by_cases htable : t = leaf
    · subst htable
      exact set_of_index_ne _ _ _ fun hi => hne ⟨hleaf, hi⟩
    · exact set_of_table_ne _ _ _ _ htable
  · intro m hm
    split
    next heq => rw [heq, KarteOs.Mm.pages, hself]
    next hne => rw [KarteOs.Mm.pages, hother m hm hne, KarteOs.Mm.pages]
  · intro m hm
    by_cases heq : m = n
    · rw [heq, inHugePage, inHugePage, hself, lookup_of_bottom _ hbottom, hugeOf_zero, hugeOf_zero]
      rfl
    · rw [inHugePage, hother m hm heq, inHugePage]
      simp

lemma AddressSpace.map_spec {paddr : Nat} {flags : PTEFlags arch}
    (hmap : map arch s root vaddr paddr flags = some s₁) :
    ∃ pos₁, Updates arch pos pos₁ s s₁ root (pageNumber arch vaddr)
      (leafOf arch (0, .new arch (paddr / pageSize) flags) (pageNumber arch vaddr)) true := by
  obtain ⟨⟨s₀, target⟩, hdescend, hleaf⟩ := map_eq_some_iff.mp hmap
  have hn := pageNumber_lt arch vaddr
  obtain ⟨pos₀, leaf, rfl, hkeeps, hbottom⟩ :=
    hspace.mapDescend_spec le_rfl (hspace.root_at hn) hdescend
  have hspace₀ : AddressSpace arch pos₀ s₀ root :=
    ⟨hkeeps.sound, by
      rw [hkeeps.descent.extend root (by rw [hspace.root_pos]; simp), hspace.root_pos]⟩
  have hwrite := hspace₀.setEntry_updates hn hbottom (.new arch (paddr / pageSize) flags)
  rw [index_pageNumber (Nat.zero_le _)] at hwrite
  obtain rfl := hleaf
  refine ⟨pos₀, hwrite.space, hkeeps.descent.trans hwrite.descent, ?_, ?_⟩
  · intro m hm
    rw [hwrite.pages m hm]
    split
    · rfl
    · exact hkeeps.leaves m (cell_root_eq hm hn)
  · intro m hm
    rw [hwrite.huge m hm, Bool.false_and, Bool.not_false, Bool.and_true]
    exact hkeeps.huge m (cell_root_eq hm hn)

end

/-! ## Unmapping and protecting a page -/

lemma AddressSpace.updates_same (hspace : AddressSpace arch pos s root)
    {leaf : Option (Nat × PTEFlags arch)} (hleaf : pages arch s.mem root n = leaf) :
    Updates arch pos pos s s root n leaf false := by
  subst hleaf
  exact .refl hspace n

lemma pages_of_bottom_none (hbottom : (format arch).bottom mem (rootLevel arch) root n = none)
    (hhuge : inHugePage arch mem root n = false) : pages arch mem root n = none := by
  obtain ⟨habove, _⟩ := lookup_of_bottom_none _ hbottom
  simp only [inHugePage, hugeOf, decide_eq_true habove, Bool.true_and] at hhuge
  simp only [pages, leafOf, if_neg habove]
  split
  next hvalid =>
    rw [if_neg]
    simpa [hvalid] using hhuge
  · rfl

lemma inHugePage_of_bottom
    (hbottom : (format arch).bottom mem (rootLevel arch) root n = some leaf) :
    inHugePage arch mem root n = false := by
  rw [inHugePage, lookup_of_bottom _ hbottom, hugeOf_zero]

lemma AddressSpace.unmapUser_spec (hspace : AddressSpace arch pos s root) (vaddr : Nat) :
    Updates arch pos pos s (unmapUser arch s root vaddr).1 root (pageNumber arch vaddr)
      (if inHugePage arch s.mem root (pageNumber arch vaddr) then
        pages arch s.mem root (pageNumber arch vaddr) else none) false := by
  have hn := pageNumber_lt arch vaddr
  have hindex : (format arch).index 0 (pageNumber arch vaddr) = vpn vaddr 0 :=
    index_pageNumber (Nat.zero_le _) vaddr
  rw [unmapUser, show arch.ptLevels - 1 = rootLevel arch from rfl, walkToPt_eq_bottom le_rfl]
  cases hbottom : (format arch).bottom s.mem (rootLevel arch) root (pageNumber arch vaddr) with
  | none =>
    refine hspace.updates_same ?_
    split
    · rfl
    next hhuge => exact pages_of_bottom_none hbottom (by simpa using hhuge)
  | some leaf =>
    simp only [inHugePage_of_bottom hbottom, Bool.false_eq_true, if_false, ← hindex]
    split
    next hvalid =>
      refine hspace.updates_same ?_
      rw [pages, lookup_of_bottom _ hbottom, leafOf_invalid (by simpa using hvalid)]
    · have hwrite := hspace.setEntry_updates hn hbottom 0
      rwa [leafOf_invalid (isValid_zero arch)] at hwrite

lemma Sound.mprotectDescend_eq (hs : Sound arch pos s) {level table : Nat} (flags : PTEFlags arch)
    (hlevel : level ≤ rootLevel arch)
    (hat : (format arch).At pos table level (pageNumber arch vaddr)) :
    mprotectDescend arch vaddr flags level table s =
      (s, (format arch).bottom s.mem level table (pageNumber arch vaddr)) := by
  induction level generalizing table with
  | zero => rfl
  | succ level ih =>
    have hok := hs.entryOk_at hat
    have hindex := index_pageNumber hlevel vaddr
    simp only [mprotectDescend, bottom, ← hindex]
    cases hvalid : (s.mem table
        ((format arch).index (level + 1) (pageNumber arch vaddr))).isValid arch with
    | false => simp [child_eq_none_of_invalid hvalid]
    | true =>
      cases hhuge : (s.mem table
          ((format arch).index (level + 1) (pageNumber arch vaddr))).isHuge arch with
      | true => simp [child_eq_none_of_huge hhuge]
      | false =>
        have hchild := hok.child hvalid hhuge
        obtain ⟨hppn, hpermissive⟩ := hok.table hvalid hhuge
        rw [patchNonleaf_of_permissive hpermissive, setEntry_self, hchild,
          bind_some, ← ih (by omega) (hs.typed.child_at hat hchild)]
        simp [hppn]

lemma AddressSpace.mprotectUser_spec (hspace : AddressSpace arch pos s root) (vaddr : Nat)
    {flags : PTEFlags arch} (hflags : flags.contains (.valid arch)) :
    Updates arch pos pos s (mprotectUser arch s root vaddr flags).1 root (pageNumber arch vaddr)
      (if inHugePage arch s.mem root (pageNumber arch vaddr) then
        pages arch s.mem root (pageNumber arch vaddr)
      else (pages arch s.mem root (pageNumber arch vaddr)).map fun leaf => (leaf.1, flags))
      false := by
  have hn := pageNumber_lt arch vaddr
  have hindex : (format arch).index 0 (pageNumber arch vaddr) = vpn vaddr 0 :=
    index_pageNumber (Nat.zero_le _) vaddr
  rw [mprotectUser, show arch.ptLevels - 1 = rootLevel arch from rfl,
    hspace.mprotectDescend_eq flags le_rfl (hspace.root_at hn)]
  cases hbottom : (format arch).bottom s.mem (rootLevel arch) root (pageNumber arch vaddr) with
  | none =>
    refine hspace.updates_same ?_
    split
    · rfl
    next hhuge => rw [pages_of_bottom_none hbottom (by simpa using hhuge)]; rfl
  | some leaf =>
    simp only [inHugePage_of_bottom hbottom, Bool.false_eq_true, if_false, ← hindex, pages,
      lookup_of_bottom _ hbottom]
    split
    next hvalid =>
      refine hspace.updates_same ?_
      rw [pages, lookup_of_bottom _ hbottom, leafOf_invalid (by simpa using hvalid)]
      rfl
    next hvalid =>
      have hvalid' : (s.mem leaf ((format arch).index 0 (pageNumber arch vaddr))).isValid arch =
          true := by simpa using hvalid
      have hppn := ppn_lt arch (s.mem leaf ((format arch).index 0 (pageNumber arch vaddr)))
      have hwrite := hspace.setEntry_updates hn hbottom
        (.new arch ((s.mem leaf ((format arch).index 0 (pageNumber arch vaddr))).ppn arch) flags)
      rw [leafOf_new hflags hppn] at hwrite
      rw [leafOf_zero hvalid']
      exact hwrite

end KarteOs.Mm

import KarteOs.Mm.Vmm

/-! # The two walkers

`translate_user` and `walk_mapping` read the same entries. They differ at one
place: a valid leaf in the last table that refers to frame 0 is an address to
`translate_user` and `Invalid` to `walk_mapping`.
-/

namespace KarteOs.Mm

open WalkResult

variable {arch : Arch} {mem : Memory} {root vaddr table : Nat}

def WalkResult.frame? : WalkResult arch → Option Nat
  | .notMapped => none
  | .mapped4K frame _ => some frame
  | .mappedHuge frame _ _ _ => some frame
  | .invalid => none

namespace WalkResult

variable {result : WalkResult arch}

lemma frame?_eq_some {frame : Nat} :
    result.frame? = some frame ↔ (∃ flags, result = .mapped4K frame flags) ∨
      ∃ level size flags, result = .mappedHuge frame level size flags := by
  cases result <;> simp [frame?]

lemma frame?_eq_none : result.frame? = none ↔ result = .notMapped ∨ result = .invalid := by
  cases result <;> simp [frame?]

end WalkResult

lemma walkToPt_succ_eq_some {level last : Nat} :
    walkToPt arch mem vaddr (level + 1) table = some last ↔
      (mem table (vpn vaddr (level + 1))).isValid arch ∧
        (mem table (vpn vaddr (level + 1))).isHuge arch = false ∧
        (mem table (vpn vaddr (level + 1))).ppn arch ≠ 0 ∧
        walkToPt arch mem vaddr level ((mem table (vpn vaddr (level + 1))).ppn arch) =
          some last := by
  generalize hentry : mem table (vpn vaddr (level + 1)) = entry
  simp only [walkToPt, hentry]
  by_cases hvalid : entry.isValid arch
  · by_cases hhuge : entry.isHuge arch
    · simp [hvalid, hhuge]
    · by_cases hppn : entry.ppn arch = 0
      · simp [hvalid, hhuge, hppn]
      · simp [hvalid, hhuge, hppn]
  · simp [hvalid]

/-- The last table on the way from a table at `level` maps the address to frame 0. -/
def NullLeafFrom (arch : Arch) (mem : Memory) (vaddr level table : Nat) : Prop :=
  ∃ last, walkToPt arch mem vaddr level table = some last ∧
    (mem last (vpn vaddr 0)).isValid arch = true ∧ (mem last (vpn vaddr 0)).ppn arch = 0

def NullLeaf (arch : Arch) (mem : Memory) (root vaddr : Nat) : Prop :=
  NullLeafFrom arch mem vaddr (arch.ptLevels - 1) root

lemma nullLeafFrom_zero : NullLeafFrom arch mem vaddr 0 table ↔
    (mem table (vpn vaddr 0)).isValid arch ∧ (mem table (vpn vaddr 0)).ppn arch = 0 := by
  simp [NullLeafFrom, walkToPt]

variable {level table : Nat}

lemma nullLeafFrom_succ : NullLeafFrom arch mem vaddr (level + 1) table ↔
    (mem table (vpn vaddr (level + 1))).isValid arch ∧
      (mem table (vpn vaddr (level + 1))).isHuge arch = false ∧
      (mem table (vpn vaddr (level + 1))).ppn arch ≠ 0 ∧
      NullLeafFrom arch mem vaddr level ((mem table (vpn vaddr (level + 1))).ppn arch) := by
  simp [NullLeafFrom, walkToPt_succ_eq_some, and_assoc]

lemma translateFrom_eq_frame? (hleaf : ¬NullLeafFrom arch mem vaddr level table) :
    translateFrom arch mem vaddr level table = (walkFrom arch mem vaddr level table).frame? := by
  induction level generalizing table with
  | zero =>
    rw [nullLeafFrom_zero] at hleaf
    simp only [translateFrom, walkFrom]
    by_cases hvalid : (mem table (vpn vaddr 0)).isValid arch
    · have hppn : (mem table (vpn vaddr 0)).ppn arch ≠ 0 := fun hzero => hleaf ⟨hvalid, hzero⟩
      simp [hvalid, hppn, frame?]
    · simp [hvalid, frame?]
  | succ level ih =>
    rw [nullLeafFrom_succ] at hleaf
    simp only [translateFrom, walkFrom]
    split
    · rfl
    next hvalid =>
      split
      · rfl
      next hhuge =>
        split
        · rfl
        next hppn =>
          exact ih fun hnull => hleaf ⟨by simpa using hvalid, by simpa using hhuge, hppn, hnull⟩

lemma disagree_of_nullLeafFrom (hleaf : NullLeafFrom arch mem vaddr level table) :
    translateFrom arch mem vaddr level table = some (vaddr % pageSize) ∧
      walkFrom arch mem vaddr level table = .invalid := by
  induction level generalizing table with
  | zero =>
    obtain ⟨hvalid, hppn⟩ := nullLeafFrom_zero.mp hleaf
    simp [translateFrom, walkFrom, hvalid, hppn]
  | succ level ih =>
    obtain ⟨hvalid, hhuge, hppn, hnext⟩ := nullLeafFrom_succ.mp hleaf
    simpa [translateFrom, walkFrom, hvalid, hhuge, hppn] using ih hnext

/-- `translate_user` finds an address exactly when `walk_mapping` does, and the same one. -/
structure WalkersAgree (arch : Arch) (mem : Memory) (root vaddr : Nat) : Prop where
  found : ∀ frame, translateUser arch mem root vaddr = some frame ↔
    (∃ flags, walkMapping arch mem root vaddr = .mapped4K frame flags) ∨
      ∃ level size flags, walkMapping arch mem root vaddr = .mappedHuge frame level size flags
  missing : translateUser arch mem root vaddr = none ↔
    walkMapping arch mem root vaddr = .notMapped ∨ walkMapping arch mem root vaddr = .invalid

lemma walkersAgree_of_eq
    (heq : translateUser arch mem root vaddr = (walkMapping arch mem root vaddr).frame?) :
    WalkersAgree arch mem root vaddr := by
  constructor
  · intro frame
    rw [heq, frame?_eq_some]
  · rw [heq, frame?_eq_none]

lemma not_walkersAgree_of_invalid {frame : Nat}
    (htranslate : translateUser arch mem root vaddr = some frame)
    (hwalk : walkMapping arch mem root vaddr = .invalid) : ¬WalkersAgree arch mem root vaddr := by
  intro hagree
  have hnone := hagree.missing.mpr (.inr hwalk)
  rw [htranslate] at hnone
  cases hnone

/-- The walkers agree on an address exactly when it has no leaf with frame 0. -/
theorem walkersAgree_iff (arch : Arch) (mem : Memory) (root vaddr : Nat) :
    WalkersAgree arch mem root vaddr ↔ ¬ NullLeaf arch mem root vaddr := by
  constructor
  · intro hagree hleaf
    obtain ⟨htranslate, hwalk⟩ := disagree_of_nullLeafFrom hleaf
    exact not_walkersAgree_of_invalid htranslate hwalk hagree
  · intro hleaf
    exact walkersAgree_of_eq (translateFrom_eq_frame? hleaf)

def nullLeafTables : Memory
  | 1, _ => .newNonleaf .riscv64 2
  | 2, _ => .newNonleaf .riscv64 3
  | _, _ => .new .riscv64 0 (.urw .riscv64)

theorem not_walkersAgree_nullLeafTables : ¬ WalkersAgree .riscv64 nullLeafTables 1 0 :=
  not_walkersAgree_of_invalid
    (show translateUser .riscv64 nullLeafTables 1 0 = some 0 by decide) (by decide)

end KarteOs.Mm

import Mathlib.Algebra.Order.Ring.Nat

/-! # Radix trees kept in a store of tables

A table is an array of entries in a word-addressed store; an entry may refer
to a table one level further down. Every number is looked up along the path of
its digits. A layout records, for each table of the tree, its level and the
part of the number range it is responsible for. A layout makes the tree
separated: an entry is consulted for the numbers of one cell only, so a write
is invisible to the lookups of every other cell.
-/

namespace RadixTree

open Function Option Nat

universe u

variable {W : Type u}

/-- A store of tables: table number, then entry index. -/
abbrev Store (W : Type u) := Nat → Nat → W

variable (mem : Store W)

/-- Replace one entry. -/
def Store.set (table i : Nat) (entry : W) : Store W :=
  update mem table (update (mem table) i entry)

lemma Store.set_same (table i : Nat) (entry : W) : mem.set table i entry table i = entry := by
  simp [Store.set]

lemma Store.set_of_table_ne {table other : Nat} (i j : Nat) (entry : W) (hne : other ≠ table) :
    mem.set table i entry other j = mem other j := by
  simp [Store.set, update_of_ne hne]

lemma Store.set_of_index_ne (table : Nat) {i j : Nat} (entry : W) (hne : j ≠ i) :
    mem.set table i entry table j = mem table j := by
  simp [Store.set, update_of_ne hne]

/-- How entries are arranged: the number of entries of a table, and the table
an entry refers to. -/
structure Format (W : Type u) where
  fanout : Nat
  fanout_pos : 0 < fanout
  child : W → Option Nat

/-- The level of a table and the cell of that level's parent it refines. -/
abbrev Layout := Nat → Option (Nat × Nat)

namespace Format

variable (F : Format W) {level coarse m n table next leaf upto : Nat}

/-- The cell of a number at a level: the entry position counted over all
tables of that level. -/
def cell (level n : Nat) : Nat := n / F.fanout ^ level

/-- The entry of a table that is consulted for a number. -/
def index (level n : Nat) : Nat := F.cell level n % F.fanout

lemma cell_zero (n : Nat) : F.cell 0 n = n := by simp [cell]

lemma cell_succ (level n : Nat) : F.cell (level + 1) n = F.cell level n / F.fanout := by
  rw [cell, cell, Nat.pow_succ, Nat.div_div_eq_div_mul]

lemma cell_add (level extra n : Nat) :
    F.cell (level + extra) n = F.cell level n / F.fanout ^ extra := by
  rw [cell, cell, Nat.pow_add, Nat.div_div_eq_div_mul]

lemma index_lt (level n : Nat) : F.index level n < F.fanout := mod_lt _ F.fanout_pos

lemma cell_succ_mul_add_index (level n : Nat) :
    F.cell (level + 1) n * F.fanout + F.index level n = F.cell level n := by
  rw [cell_succ, index, Nat.mul_comm, div_add_mod]

lemma cell_eq_of_le (hle : level ≤ coarse) (hcell : F.cell level m = F.cell level n) :
    F.cell coarse m = F.cell coarse n := by
  obtain ⟨extra, rfl⟩ := Nat.exists_eq_add_of_le hle
  rw [cell_add, cell_add, hcell]

lemma cell_eq_of_index_eq (hcell : F.cell (level + 1) m = F.cell (level + 1) n)
    (hindex : F.index level m = F.index level n) : F.cell level m = F.cell level n := by
  rw [← cell_succ_mul_add_index, hcell, hindex, cell_succ_mul_add_index]

/-- Follow the digits of `n` down from a table. The result is the last entry
consulted and its level. -/
def lookup (mem : Store W) : Nat → Nat → Nat → Nat × W
  | 0, table, n => (0, mem table (F.index 0 n))
  | level + 1, table, n =>
    match F.child (mem table (F.index (level + 1) n)) with
    | some next => lookup mem level next n
    | none => (level + 1, mem table (F.index (level + 1) n))

/-- The bottom table on the path of `n`, if the path gets there. -/
def bottom (mem : Store W) : Nat → Nat → Nat → Option Nat
  | 0, table, _ => some table
  | level + 1, table, n =>
    (F.child (mem table (F.index (level + 1) n))).bind fun next => bottom mem level next n

variable {mem : Store W}

lemma lookup_of_child (hchild : F.child (mem table (F.index (level + 1) n)) = some next) :
    F.lookup mem (level + 1) table n = F.lookup mem level next n := by
  simp [lookup, hchild]

lemma lookup_of_stop (hchild : F.child (mem table (F.index (level + 1) n)) = none) :
    F.lookup mem (level + 1) table n = (level + 1, mem table (F.index (level + 1) n)) := by
  simp [lookup, hchild]

lemma lookup_of_bottom (hbottom : F.bottom mem level table n = some leaf) :
    F.lookup mem level table n = (0, mem leaf (F.index 0 n)) := by
  induction level generalizing table with
  | zero =>
    cases hbottom
    rfl
  | succ level ih =>
    obtain ⟨next, hchild, hnext⟩ := bind_eq_some_iff.mp hbottom
    rw [F.lookup_of_child hchild, ih hnext]

lemma lookup_of_bottom_none (hbottom : F.bottom mem level table n = none) :
    (F.lookup mem level table n).1 ≠ 0 ∧ F.child (F.lookup mem level table n).2 = none := by
  induction level generalizing table with
  | zero => cases hbottom
  | succ level ih =>
    cases hchild : F.child (mem table (F.index (level + 1) n)) with
    | none =>
      rw [F.lookup_of_stop hchild]
      exact ⟨succ_ne_zero level, hchild⟩
    | some next =>
      rw [F.lookup_of_child hchild]
      simp only [bottom, hchild, bind_some] at hbottom
      exact ih hbottom

lemma bottom_congr (mem : Store W) (hcell : F.cell 1 m = F.cell 1 n) (level table : Nat) :
    F.bottom mem level table m = F.bottom mem level table n := by
  induction level generalizing table with
  | zero => rfl
  | succ level ih =>
    have hindex : F.index (level + 1) m = F.index (level + 1) n :=
      congrArg (· % F.fanout) (F.cell_eq_of_le (Nat.le_add_left 1 level) hcell)
    simp [bottom, hindex, ih]

/-- The layout puts `table` on the path of `n`, at `level`. -/
def At (pos : Layout) (table level n : Nat) : Prop :=
  pos table = some (level, F.cell (level + 1) n)

/-- Every entry of a laid out table refers to the table laid out for its cell. -/
def Typed (pos : Layout) (mem : Store W) : Prop :=
  ∀ table level region, pos table = some (level + 1, region) →
    ∀ i < F.fanout, ∀ next, F.child (mem table i) = some next →
      pos next = some (level, region * F.fanout + i)

variable {F} {pos : Layout} {mem' : Store W}

lemma At.cell_eq {level' : Nat} (hm : F.At pos table level m) (hn : F.At pos table level' n) :
    level = level' ∧ F.cell (level + 1) m = F.cell (level' + 1) n := by
  have heq := hm.symm.trans hn
  simpa using heq

lemma At.congr (hm : F.At pos table level m)
    (hcell : F.cell (level + 1) m = F.cell (level + 1) n) : F.At pos table level n := by
  rw [At, ← hcell]
  exact hm

section
variable (hmem : F.Typed pos mem)
include hmem

lemma Typed.child_at (hat : F.At pos table (level + 1) n)
    (hchild : F.child (mem table (F.index (level + 1) n)) = some next) : F.At pos next level n := by
  have hnext := hmem table level _ hat _ (F.index_lt ..) next hchild
  rw [F.cell_succ_mul_add_index] at hnext
  exact hnext

lemma Typed.bottom_at (hat : F.At pos table level n)
    (hbottom : F.bottom mem level table n = some leaf) : F.At pos leaf 0 n := by
  induction level generalizing table with
  | zero =>
    cases hbottom
    exact hat
  | succ level ih =>
    obtain ⟨next, hchild, hnext⟩ := bind_eq_some_iff.mp hbottom
    exact ih (hmem.child_at hat hchild) hnext

lemma Typed.lookup_congr (hat : F.At pos table level n)
    (hspine : ∀ l ≤ level, ∀ t, F.At pos t l n → mem' t (F.index l n) = mem t (F.index l n)) :
    F.lookup mem' level table n = F.lookup mem level table n := by
  induction level generalizing table with
  | zero =>
    simp only [lookup]
    rw [hspine 0 le_rfl table hat]
  | succ level ih =>
    have hhead := hspine (level + 1) le_rfl table hat
    cases hchild : F.child (mem table (F.index (level + 1) n)) with
    | none => rw [F.lookup_of_stop hchild, F.lookup_of_stop (by rw [hhead, hchild]), hhead]
    | some next =>
      rw [F.lookup_of_child hchild, F.lookup_of_child (by rw [hhead, hchild])]
      exact ih (hmem.child_at hat hchild) fun l hl => hspine l (le_succ_of_le hl)

end

/-! ## Writes along one path -/

/-- Laid out tables differ in the two stores at most at the entries consulted
for `n`, up to `level`. -/
def ChangesPath (F : Format W) (pos : Layout) (mem mem' : Store W) (level n : Nat) : Prop :=
  ∀ table i, pos table ≠ none → mem' table i ≠ mem table i →
    ∃ l ≤ level, F.At pos table l n ∧ i = F.index l n

lemma ChangesPath.mono (hpath : F.ChangesPath pos mem mem' level n) (hle : level ≤ coarse) :
    F.ChangesPath pos mem mem' coarse n := by
  intro table i hpos hchange
  obtain ⟨l, hl, hat, hi⟩ := hpath table i hpos hchange
  exact ⟨l, hl.trans hle, hat, hi⟩

lemma ChangesPath.entry_eq (hpath : F.ChangesPath pos mem mem' upto n)
    (hat : F.At pos table level m) (hcell : F.cell level m ≠ F.cell level n) :
    mem' table (F.index level m) = mem table (F.index level m) := by
  by_contra hchange
  obtain ⟨l, _, hat', hindex⟩ := hpath table _ (by rw [hat]; simp) hchange
  obtain ⟨rfl, hregion⟩ := hat.cell_eq hat'
  exact hcell (F.cell_eq_of_index_eq hregion hindex)

lemma Typed.lookup_off_path (hmem : F.Typed pos mem) (hat : F.At pos table level m)
    (hcell : F.cell level m ≠ F.cell level n) (hpath : F.ChangesPath pos mem mem' upto n) :
    F.lookup mem' level table m = F.lookup mem level table m := by
  refine hmem.lookup_congr hat fun l hl t ht => hpath.entry_eq ht fun hsame => ?_
  exact hcell (F.cell_eq_of_le hl hsame)

/-! ## Writing one entry -/

/-- A write to the entry consulted for `n` at some level is invisible to the
numbers of other cells of that level. -/
lemma Typed.lookup_set_of_cell_ne (hmem : F.Typed pos mem) {target l : Nat}
    (hat : F.At pos table level m) (htarget : F.At pos target l n) (hcell : F.cell l m ≠ F.cell l n)
    (entry : W) :
    F.lookup (mem.set target (F.index l n) entry) level table m = F.lookup mem level table m := by
  refine hmem.lookup_congr hat ?_
  intro l' _ t ht
  by_cases htable : t = target
  · subst htable
    obtain ⟨rfl, hregion⟩ := ht.cell_eq htarget
    exact Store.set_of_index_ne _ _ _ fun hindex => hcell (F.cell_eq_of_index_eq hregion hindex)
  · exact Store.set_of_table_ne _ _ _ _ htable

lemma Typed.bottom_set_bottom (hmem : F.Typed pos mem) (hat : F.At pos table level n)
    (hleaf : F.At pos leaf 0 n) (entry : W) :
    F.bottom (mem.set leaf (F.index 0 n) entry) level table n = F.bottom mem level table n := by
  induction level generalizing table with
  | zero => rfl
  | succ level ih =>
    have hne : table ≠ leaf := by
      rintro rfl
      exact absurd (hat.cell_eq hleaf).1 (succ_ne_zero level)
    simp only [bottom, Store.set_of_table_ne _ _ _ _ hne]
    cases hchild : F.child (mem table (F.index (level + 1) n)) with
    | none => rfl
    | some next => exact ih (hmem.child_at hat hchild)

end Format

end RadixTree

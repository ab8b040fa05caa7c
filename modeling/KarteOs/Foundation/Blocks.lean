import Mathlib.Algebra.Order.Ring.Nat

/-! # Flat arrays held in blocks

A store of equal blocks is read and written at arbitrary positions. Writing a
part of one block is a write to the flat array, and a long write is a sequence of
writes that begin where the previous one ended.
-/

namespace Blocks

open Function Option Nat

universe u

variable {α : Type u}

/-- A flat array after `data` was written from `start` on. -/
def patch (flat : Nat → α) (start : Nat) (data : List α) : Nat → α :=
  fun i => if start ≤ i then data[i - start]?.getD (flat i) else flat i

@[simp]
lemma patch_nil (flat : Nat → α) (start : Nat) : patch flat start [] = flat := by
  funext i
  simp [patch]

lemma patch_append (flat : Nat → α) (start : Nat) (first second : List α) :
    patch flat start (first ++ second) =
      patch (patch flat start first) (start + first.length) second := by
  funext i
  unfold patch
  by_cases hstart : start ≤ i
  · by_cases hfirst : i - start < first.length
    · have hbefore : ¬start + first.length ≤ i := by omega
      rw [if_pos hstart, if_neg hbefore, if_pos hstart, List.getElem?_append_left hfirst]
    · have hafter : start + first.length ≤ i := by omega
      have hnone : first[i - start]? = none := List.getElem?_eq_none (by omega)
      rw [if_pos hstart, if_pos hafter, if_pos hstart, hnone, getD_none,
        List.getElem?_append_right (by omega), Nat.sub_sub]
  · have hbefore : ¬start + first.length ≤ i := by omega
    rw [if_neg hstart, if_neg hbefore, if_neg hstart]

variable {data : List α} {flat : Nat → α} {start i len place : Nat}

lemma patch_of_getElem? {value : α} (hstart : start ≤ i)
    (hvalue : data[i - start]? = some value) : patch flat start data i = value := by
  rw [patch, if_pos hstart, hvalue, getD_some]

lemma patch_of_outside (houtside : i < start ∨ start + data.length ≤ i) :
    patch flat start data i = flat i := by
  unfold patch
  split
  next hstart => rw [List.getElem?_eq_none (by omega), getD_none]
  · rfl

/-- The `len` entries of a flat array from `start` on. -/
def window (flat : Nat → α) (start len : Nat) : List α :=
  (List.range len).map fun i => flat (start + i)

@[simp]
lemma length_window (flat : Nat → α) (start len : Nat) : (window flat start len).length = len := by
  simp [window]

lemma getElem?_window (flat : Nat → α) (start : Nat) (hi : i < len) :
    (window flat start len)[i]? = some (flat (start + i)) := by
  simp [window, hi]

lemma window_eq_iff {other : Nat → α} : window flat start len = window other place len ↔
    ∀ i < len, flat (start + i) = other (place + i) := by
  simp [window]

lemma drop_window (flat : Nat → α) (start len count : Nat) :
    (window flat start len).drop count = window flat (start + count) (len - count) := by
  refine List.ext_getElem (by simp) fun i _ _ => ?_
  simp [window, Nat.add_assoc]

lemma window_patch_self (flat : Nat → α) (start : Nat) (data : List α) :
    window (patch flat start data) start data.length = data := by
  refine List.ext_getElem? fun i => ?_
  by_cases hi : i < data.length
  · rw [getElem?_window _ _ hi, List.getElem?_eq_getElem hi]
    refine congrArg some (patch_of_getElem? (Nat.le_add_right start i) ?_)
    rw [Nat.add_sub_cancel_left, List.getElem?_eq_getElem hi]
  · rw [List.getElem?_eq_none (by simpa using hi), List.getElem?_eq_none (by simpa using hi)]

lemma window_patch_of_disjoint (hdisjoint : place + len ≤ start ∨ start + data.length ≤ place) :
    window (patch flat start data) place len = window flat place len :=
  window_eq_iff.mpr fun i hi => patch_of_outside (by omega)

variable {size : Nat}

section
variable (block : Vector α size)

/-- A block with `data` copied to the positions from `start` on. -/
def splice (start : Nat) (data : List α) : Vector α size :=
  Vector.ofFn fun i => patch (fun _ => block.get i) start data i

/-- The `len` entries of a block from `start` on. -/
def slice (start len : Nat) : List α :=
  (block.toList.drop start).take len

lemma get_splice (start : Nat) (data : List α) (i : Fin size) :
    (splice block start data).get i = patch (fun _ => block.get i) start data i := by
  change (Vector.ofFn fun i => patch (fun _ => block.get i) start data i)[i] = _
  exact Vector.getElem_ofFn i.isLt

lemma splice_full (other : Vector α size) (hdata : data.length = size) :
    splice block 0 data = splice other 0 data := by
  refine congrArg Vector.ofFn (funext fun i => ?_)
  have hindex : (i : Nat) - 0 < data.length := by omega
  rw [patch, patch, if_pos (Nat.zero_le _), if_pos (Nat.zero_le _),
    List.getElem?_eq_getElem hindex, getD_some, getD_some]

end

lemma getElem?_slice {block : Vector α size} {j : Nat} (hj : j < len) (hsize : start + j < size) :
    (slice block start len)[j]? = some (block.get ⟨start + j, hsize⟩) := by
  have hbound : start + j < block.toList.length := by simpa using hsize
  rw [slice, List.getElem?_take_of_lt hj, List.getElem?_drop, List.getElem?_eq_getElem hbound]
  simp [Vector.get]

variable [NeZero size] (blocks : Nat → Vector α size)

/-- The entries of all blocks, one block after the other. -/
def flatten : Nat → α :=
  fun i => (blocks (i / size)).get ⟨i % size, Nat.mod_lt i (Nat.pos_of_neZero size)⟩

lemma flatten_apply (k : Nat) {j : Nat} (hj : j < size) :
    flatten blocks (k * size + j) = (blocks k).get ⟨j, hj⟩ := by
  have hblock : (k * size + j) / size = k := by
    rw [Nat.mul_comm, mul_add_div (pos_of_neZero size), div_eq_of_lt hj, Nat.add_zero]
  have hplace : (k * size + j) % size = j := by rw [Nat.mul_comm, mul_add_mod, mod_eq_of_lt hj]
  simp [flatten, hblock, hplace]

lemma flatten_update (k : Nat) (hfits : start + data.length ≤ size) :
    flatten (update blocks k (splice (blocks k) start data)) =
      patch (flatten blocks) (k * size + start) data := by
  funext i
  have hsplit : i / size * size + i % size = i := div_add_mod' i size
  have hplace : i % size < size := mod_lt i (pos_of_neZero size)
  by_cases hblock : i / size = k
  · subst hblock
    have hentry : flatten blocks i = (blocks (i / size)).get ⟨i % size, hplace⟩ := rfl
    rw [flatten, update_self, get_splice, patch, patch, hentry]
    by_cases hstart : start ≤ i % size
    · have hflat : i / size * size + start ≤ i := by omega
      have hindex : i - (i / size * size + start) = i % size - start := by omega
      rw [if_pos hstart, if_pos hflat, hindex]
    · have hflat : ¬i / size * size + start ≤ i := by omega
      rw [if_neg hstart, if_neg hflat]
  · rw [flatten, update_of_ne hblock, patch]
    split
    next hflat =>
      -- A later block begins after the end of the data.
      have hlater : k + 1 ≤ i / size := by
        have hle : k ≤ i / size := (Nat.le_div_iff_mul_le (pos_of_neZero size)).mpr (by omega)
        omega
      have hnext : (k + 1) * size ≤ i / size * size := Nat.mul_le_mul_right size hlater
      rw [succ_mul] at hnext
      rw [List.getElem?_eq_none (by omega), getD_none, flatten]
    · rfl

end Blocks

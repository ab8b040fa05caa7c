import Mathlib.Data.BitVec

/-! # Bit-packed sets of naturals

A set of indices below `64 * words.size` packed into 64-bit words: index `i`
is bit `i % 64` of word `i / 64`. The update lemmas say that setting or
clearing one index leaves every other index alone.
-/

namespace Bitmap

open Array

section
variable (words : Array (BitVec 64))

/-- Whether index `i` is absent. -/
def isClear (i : Nat) : Bool :=
  words.getD (i / 64) 0#64 &&& (1#64 <<< (i % 64)) == 0#64

/-- Insert index `i`. -/
def set (i : Nat) : Array (BitVec 64) :=
  words.modify (i / 64) (· ||| (1#64 <<< (i % 64)))

/-- Remove index `i`. -/
def clear (i : Nat) : Array (BitVec 64) :=
  words.modify (i / 64) (· &&& ~~~(1#64 <<< (i % 64)))

/-- Insert every index of a list. -/
def setAll (indices : List Nat) : Array (BitVec 64) :=
  indices.foldl set words

@[simp] lemma size_set (i : Nat) : (set words i).size = words.size := size_modify

@[simp] lemma size_clear (i : Nat) : (clear words i).size = words.size := size_modify

end

lemma and_shiftLeft_one_beq_zero (word : BitVec 64) {k : Nat} (hk : k < 64) :
    (word &&& (1#64 <<< k) == 0#64) = !word.getLsbD k := by
  have htwoPow : 1#64 <<< k = BitVec.twoPow 64 k := rfl
  have hne : BitVec.twoPow 64 k ≠ 0#64 := by
    intro heq
    have hbit := congrArg (fun word => BitVec.getLsbD word k) heq
    simp [hk] at hbit
  rw [htwoPow, BitVec.and_twoPow]
  split
  next hbit => simp [hbit, hne]
  next hbit => simp [hbit]

lemma isClear_eq (words : Array (BitVec 64)) (i : Nat) :
    isClear words i = !(words.getD (i / 64) 0#64).getLsbD (i % 64) :=
  and_shiftLeft_one_beq_zero _ (Nat.mod_lt _ (by decide))

lemma getD_modify (words : Array (BitVec 64)) (i j : Nat) (f : BitVec 64 → BitVec 64)
    (hi : i < words.size) : (words.modify i f).getD j 0#64 =
      if i = j then f (words.getD j 0#64) else words.getD j 0#64 := by
  simp only [getD_eq_getD_getElem?, getElem?_modify]
  split
  next heq =>
    subst heq
    simp [hi]
  · rfl

variable {words : Array (BitVec 64)} {i : Nat}

lemma isClear_set (hi : i < 64 * words.size) (j : Nat) :
    isClear (set words i) j = (isClear words j && decide (j ≠ i)) := by
  have hmod : ∀ k, k % 64 < 64 := fun k => Nat.mod_lt k (by decide)
  simp only [isClear_eq, set]
  rw [getD_modify _ _ _ _ (by omega)]
  split
  next hword =>
    by_cases hij : j = i
    · subst hij
      simp [hmod]
    · simp only [BitVec.getLsbD_or, BitVec.getLsbD_shiftLeft, BitVec.getLsbD_one]
      simp [hij]
      omega
  next hword =>
    have hij : j ≠ i := fun heq => hword (by rw [heq])
    simp [hij]

lemma isClear_clear (hi : i < 64 * words.size) (j : Nat) :
    isClear (clear words i) j = (isClear words j || decide (j = i)) := by
  have hmod : ∀ k, k % 64 < 64 := fun k => Nat.mod_lt k (by decide)
  simp only [isClear_eq, clear]
  rw [getD_modify _ _ _ _ (by omega)]
  split
  next hword =>
    by_cases hij : j = i
    · subst hij
      simp [hmod]
    · simp only [BitVec.getLsbD_and, BitVec.getLsbD_not, BitVec.getLsbD_shiftLeft,
        BitVec.getLsbD_one]
      simp [hij, hmod]
      omega
  next hword =>
    have hij : j ≠ i := fun heq => hword (by rw [heq])
    simp [hij]

@[simp] lemma size_setAll (words : Array (BitVec 64)) (indices : List Nat) :
    (setAll words indices).size = words.size := by
  induction indices generalizing words with
  | nil => rfl
  | cons i rest ih =>
    have htail := ih (set words i)
    rw [size_set] at htail
    exact htail

lemma isClear_setAll {indices : List Nat} (hindices : ∀ i ∈ indices, i < 64 * words.size)
    (j : Nat) : isClear (setAll words indices) j = (isClear words j && decide (j ∉ indices)) := by
  induction indices generalizing words with
  | nil => simp [setAll]
  | cons i rest ih =>
    have hrest : ∀ k ∈ rest, k < 64 * (set words i).size := by
      intro k hk
      rw [size_set]
      exact hindices k (.tail _ hk)
    have htail := ih hrest
    have hhead := isClear_set (hindices i (.head _)) j
    change isClear (setAll (set words i) rest) j = _
    rw [htail, hhead, Bool.and_assoc]
    simp [not_or]

@[simp] lemma isClear_replicate_zero (size i : Nat) : isClear (replicate size 0#64) i := by
  rw [isClear_eq, getD_eq_getD_getElem?, getElem?_replicate]
  split <;> simp

end Bitmap

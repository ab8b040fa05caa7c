import Mathlib.Data.Nat.ModEq

/-! # A queue in a ring of cells

The queue takes up consecutive cells from a start on, around the end of the ring.
It grows at its end and shrinks at its start.
-/

namespace Ring

open Function List Nat

universe u

variable {α : Type u} {size start len : Nat} {cells : Nat → α}

/-- The contents of `len` cells from `start` on. -/
def contents (size : Nat) (cells : Nat → α) (start len : Nat) : List α :=
  (List.range len).map fun i => cells ((start + i) % size)

lemma length_contents : (contents size cells start len).length = len := by simp [contents]

lemma contents_add (size : Nat) (cells : Nat → α) (start first len : Nat) :
    contents size cells start (first + len) =
      contents size cells start first ++ contents size cells ((start + first) % size) len := by
  simp only [contents, range_add, map_append, List.map_map, mod_add_mod]
  refine congrArg (_ ++ ·) (map_congr_left fun i _ => ?_)
  rw [Function.comp_apply, Nat.add_assoc]

lemma contents_mod (size : Nat) (cells : Nat → α) (start len : Nat) :
    contents size cells (start % size) len = contents size cells start len := by
  simp [contents]

lemma contents_one (size : Nat) (cells : Nat → α) (start : Nat) :
    contents size cells start 1 = [cells (start % size)] := rfl

lemma contents_succ (size : Nat) (cells : Nat → α) (start len : Nat) :
    contents size cells start (len + 1) =
      cells (start % size) :: contents size cells ((start + 1) % size) len := by
  rw [Nat.add_comm len, contents_add, contents_one, singleton_append]

variable (count : Nat)

lemma take_contents :
    (contents size cells start len).take count = contents size cells start (min count len) := by
  rw [contents, ← map_take, take_range, contents]

lemma drop_contents : (contents size cells start len).drop count =
    contents size cells ((start + count) % size) (len - count) := by
  by_cases hcount : count ≤ len
  · nth_rewrite 1 [← Nat.add_sub_cancel' hcount]
    rw [contents_add, drop_left' length_contents]
  · rw [drop_eq_nil_of_le (by rw [length_contents]; omega), Nat.sub_eq_zero_of_le (by omega)]
    rfl

/-- Cells that do not go around the end of the ring are a slice of it. -/
lemma contents_eq_slice (hfit : start % size + len ≤ size) :
    contents size cells start len = (range' (start % size) len).map cells := by
  rw [contents, range'_eq_map_range, List.map_map]
  refine map_congr_left fun i hi => congrArg cells ?_
  have hi : i < len := mem_range.mp hi
  rw [← mod_add_mod, mod_eq_of_lt (by omega)]

lemma contents_update (hlen : len < size) (value : α) :
    contents size (update cells ((start + len) % size) value) start len =
      contents size cells start len := by
  refine map_congr_left fun i hi => update_of_ne (fun heq => ?_) _ _
  have hi : i < len := mem_range.mp hi
  have hsame : i ≡ len [MOD size] := ModEq.add_left_cancel' start heq
  exact hi.ne (hsame.eq_of_lt_of_lt (hi.trans hlen) hlen)

lemma contents_push (hlen : len < size) (value : α) :
    contents size (update cells ((start + len) % size) value) start (len + 1) =
      contents size cells start len ++ [value] := by
  rw [contents_add, contents_update hlen, contents_one, mod_mod, update_self]

/-- A ring of `size` cells for a queue of at most `capacity` values, where the positions run
over more numbers than the queue has lengths. -/
structure Shape where
  size : Nat
  period : Nat
  capacity : Nat
  dvd : size ∣ period
  pos : 0 < capacity
  le_size : capacity ≤ size
  lt_period : capacity < period

/-- The queue lies between the positions. -/
structure Holds (shape : Shape) (cells : Nat → α) (tail head : Nat) (queue : List α) : Prop where
  bounded : queue.length ≤ shape.capacity
  tail_lt : tail < shape.period
  head_eq : head = (tail + queue.length) % shape.period
  queue_eq : contents shape.size cells tail queue.length = queue

/-- A queue that keeps the newest values: where it is full, the oldest makes room. -/
def keepNewest (capacity : Nat) (queue : List α) (value : α) : List α :=
  (if queue.length = capacity then queue.tail else queue) ++ [value]

namespace Holds

variable {shape : Shape} {tail head : Nat} {queue : List α}

lemma empty (shape : Shape) (cells : Nat → α) : Holds shape cells 0 0 [] :=
  ⟨Nat.zero_le _, shape.pos.trans shape.lt_period, (zero_mod _).symm, rfl⟩

variable (h : Holds shape cells tail head queue)
include h

lemma take_eq : queue.take count = contents shape.size cells tail (min count queue.length) := by
  conv_lhs => rw [← h.queue_eq, take_contents]

lemma drop_eq : queue.drop count =
    contents shape.size cells ((tail + count) % shape.size) (queue.length - count) := by
  conv_lhs => rw [← h.queue_eq, drop_contents]

lemma drop {count : Nat} (hcount : count ≤ queue.length) :
    Holds shape cells ((tail + count) % shape.period) head (queue.drop count) where
  bounded := by
    rw [length_drop]
    exact (Nat.sub_le ..).trans h.bounded
  tail_lt := Nat.mod_lt _ (shape.pos.trans shape.lt_period)
  head_eq := by
    rw [length_drop, Nat.mod_add_mod, Nat.add_assoc, Nat.add_sub_cancel' hcount, h.head_eq]
  queue_eq := by rw [length_drop, h.drop_eq, ← contents_mod, Nat.mod_mod_of_dvd _ shape.dvd]

lemma push (hroom : queue.length < shape.capacity)
    (value : α) : Holds shape (update cells (head % shape.size) value) tail
      ((head + 1) % shape.period) (queue ++ [value]) where
  bounded := by
    rw [length_append, length_singleton]
    exact hroom
  tail_lt := h.tail_lt
  head_eq := by rw [h.head_eq, mod_add_mod, length_append, length_singleton, Nat.add_assoc]
  queue_eq := by
    rw [h.head_eq, mod_mod_of_dvd _ shape.dvd, length_append, length_singleton,
      contents_push (hroom.trans_le shape.le_size), h.queue_eq]

lemma keepNewest (value : α) : Holds shape (update cells (head % shape.size) value)
    (if queue.length = shape.capacity then (tail + 1) % shape.period else tail)
    ((head + 1) % shape.period) (Ring.keepNewest shape.capacity queue value) := by
  have hpos := shape.pos
  rw [Ring.keepNewest]
  split
  · next hfull =>
    rw [← drop_one]
    exact (h.drop (by omega)).push (by rw [length_drop]; omega) value
  · next hroom => exact h.push (Nat.lt_of_le_of_ne h.bounded hroom) value

end Holds

end Ring

import Mathlib.Data.Nat.ModEq

/-! # Rings with wrapping indices

One side pushes entries at its index, the other reads them at a cursor of its own;
both count modulo a bound and use the remainder modulo the size as the slot. While no
more entries are outstanding than there are slots, the ring holds a queue.
-/

/-- The number of slots and the bound of the indices. -/
structure RingGeometry where
  size : Nat
  bound : Nat
  dvd : size ∣ bound
  lt : size < bound

structure SplitRing (Entry : Type*) where
  idx : Nat
  slots : Nat → Entry

namespace SplitRing

open Function List Nat

variable {Entry : Type*} (g : RingGeometry) (ring : SplitRing Entry)

def push (entry : Entry) : SplitRing Entry :=
  ⟨(ring.idx + 1) % g.bound, update ring.slots (ring.idx % g.size) entry⟩

def read (cursor : Nat) : Entry :=
  ring.slots (cursor % g.size)

def advance (cursor : Nat) : Nat :=
  (cursor + 1) % g.bound

/-- The number of entries between the cursor and the index. -/
def outstanding (cursor : Nat) : Nat :=
  (ring.idx + (g.bound - cursor)) % g.bound

/-- The entries between the cursor and the index. -/
def entries (cursor : Nat) : List Entry :=
  (List.range (ring.outstanding g cursor)).map fun position =>
    ring.slots ((cursor + position) % g.size)

/-- Read from the cursor on, the ring holds the queue. -/
structure Holds (ring : SplitRing Entry) (cursor : Nat) (queue : List Entry) : Prop where
  length_le : queue.length ≤ g.size
  cursor_lt : cursor < g.bound
  idx_eq : ring.idx = (cursor + queue.length) % g.bound
  slots_eq : ∀ position entry, queue[position]? = some entry →
    ring.slots ((cursor + position) % g.size) = entry

variable {g} {ring : SplitRing Entry} {cursor : Nat} {queue : List Entry} {entry : Entry}

section
variable (hring : ring.Holds g cursor queue)
include hring

lemma Holds.outstanding_eq : ring.outstanding g cursor = queue.length := by
  have hlt := lt_of_le_of_lt hring.length_le g.lt
  have hcursor := hring.cursor_lt
  rw [outstanding, hring.idx_eq, mod_add_mod,
    show cursor + queue.length + (g.bound - cursor) = queue.length + g.bound by omega,
    add_mod_right, mod_eq_of_lt hlt]

lemma Holds.entries_eq : ring.entries g cursor = queue := by
  rw [entries, hring.outstanding_eq]
  refine ext_getElem (by simp) fun position _ hposition => ?_
  simpa using hring.slots_eq position _ (getElem?_eq_getElem hposition)

lemma Holds.idx_eq_cursor_iff : ring.idx = cursor ↔ queue = [] := by
  have hbound := g.lt
  have hlength := hring.length_le
  have hcursor := hring.cursor_lt
  rw [hring.idx_eq, ← length_eq_zero_iff]
  constructor
  · intro heq
    by_contra hne
    rcases Nat.lt_or_ge (cursor + queue.length) g.bound with hlt | hge
    · rw [mod_eq_of_lt hlt] at heq
      omega
    · rw [mod_eq_sub_mod hge, mod_eq_of_lt (by omega)] at heq
      omega
  · intro hzero
    rw [hzero, Nat.add_zero, mod_eq_of_lt hcursor]

end

lemma slot_ne {position length : Nat} (hposition : position < length)
    (hlength : length < g.size) : (cursor + position) % g.size ≠ (cursor + length) % g.size := by
  intro heq
  have hmod : position ≡ length [MOD g.size] := ModEq.add_left_cancel' cursor heq
  rw [ModEq, mod_eq_of_lt (by omega), mod_eq_of_lt hlength] at hmod
  omega

lemma Holds.push (hring : ring.Holds g cursor queue) (hroom : queue.length < g.size)
    (entry : Entry) : (ring.push g entry).Holds g cursor (queue ++ [entry]) := by
  have hslot : ring.idx % g.size = (cursor + queue.length) % g.size := by
    rw [hring.idx_eq, mod_mod_of_dvd _ g.dvd]
  refine ⟨by simpa using succ_le_of_lt hroom, hring.cursor_lt, ?_, fun position found hfound => ?_⟩
  · rw [SplitRing.push, hring.idx_eq, mod_add_mod, length_append, length_singleton, Nat.add_assoc]
  · simp only [SplitRing.push, hslot]
    rcases Nat.lt_trichotomy position queue.length with hlt | rfl | hgt
    · rw [update_of_ne (slot_ne hlt hroom)]
      refine hring.slots_eq position found ?_
      rwa [getElem?_append_left hlt] at hfound
    · rw [update_self]
      simpa using hfound
    · have hlength : position < (queue ++ [entry]).length := (List.getElem?_eq_some_iff.mp hfound).1
      rw [length_append, length_singleton] at hlength
      omega

lemma Holds.read (hring : ring.Holds g cursor (entry :: queue)) : ring.read g cursor = entry := by
  simpa [SplitRing.read] using hring.slots_eq 0 entry rfl

lemma Holds.advance (hring : ring.Holds g cursor (entry :: queue)) :
    ring.Holds g (advance g cursor) queue := by
  have hpos : 0 < g.bound := Nat.lt_of_le_of_lt (Nat.zero_le _) g.lt
  have hlength := hring.length_le
  rw [length_cons] at hlength
  refine ⟨by omega, mod_lt _ hpos, ?_, fun position found hfound => ?_⟩
  · rw [hring.idx_eq, SplitRing.advance, mod_add_mod, length_cons]
    congr 1
    omega
  · have hslots := hring.slots_eq (position + 1) found (by simpa using hfound)
    rw [SplitRing.advance, ← hslots, add_mod, mod_mod_of_dvd _ g.dvd, ← add_mod]
    congr 2
    omega

end SplitRing

import Mathlib.Algebra.Order.BigOperators.Group.Finset
import Mathlib.Data.Fintype.BigOperators

/-! # Counting the entries of tables

A table is a finite family of optional entries. `occupied` counts those of its
entries that satisfy a predicate, `total` those of several tables; both change
by the entry that is replaced.
-/

namespace Occupancy

open Function Finset

universe uSlot uEntry uTable

variable {Slot : Type uSlot} {Entry : Type uEntry} {Table : Type uTable} [Fintype Slot]

/-- One for an entry that satisfies the predicate. -/
def weight (good : Entry → Bool) (entry : Option Entry) : Nat :=
  if entry.any good then 1 else 0

def occupied (table : Slot → Option Entry) (good : Entry → Bool) : Nat :=
  ∑ slot, weight good (table slot)

def total (tables : Table → Slot → Option Entry) (live : Finset Table) (good : Entry → Bool) :
    Nat :=
  ∑ table ∈ live, occupied (tables table) good

variable {table : Slot → Option Entry} {good : Entry → Bool}

@[simp]
lemma weight_none : weight good none = 0 := rfl

lemma weight_some (entry : Entry) : weight good (some entry) = if good entry then 1 else 0 := rfl

lemma occupied_update [DecidableEq Slot] (slot : Slot) (entry : Option Entry) :
    occupied (update table slot entry) good + weight good (table slot) =
      occupied table good + weight good entry := by
  have hrest : ∀ other ∈ univ.erase slot,
      weight good (update table slot entry other) = weight good (table other) := by
    intro other hother
    rw [update_of_ne (ne_of_mem_erase hother)]
  unfold occupied
  rw [← add_sum_erase _ _ (mem_univ slot),
    ← add_sum_erase _ (fun other => weight good (table other)) (mem_univ slot),
    sum_congr rfl hrest, update_self]
  omega

lemma occupied_eq_zero_iff :
    occupied table good = 0 ↔ ∀ slot entry, table slot = some entry → good entry = false := by
  simp only [occupied, Finset.sum_eq_zero_iff, mem_univ, true_implies]
  refine forall_congr' fun slot => ?_
  cases table slot <;> simp [weight]

lemma occupied_pos {slot : Slot} {entry : Entry} (hslot : table slot = some entry)
    (hgood : good entry) : 0 < occupied table good := by
  rw [Nat.pos_iff_ne_zero, ne_eq, occupied_eq_zero_iff]
  intro hnone
  rw [hnone slot entry hslot] at hgood
  cases hgood

variable {tables : Table → Slot → Option Entry} {live : Finset Table}

lemma occupied_le_total (tables : Table → Slot → Option Entry) (good : Entry → Bool)
    {id : Table} (hid : id ∈ live) : occupied (tables id) good ≤ total tables live good :=
  Finset.single_le_sum (f := fun table => occupied (tables table) good)
    (fun _ _ => Nat.zero_le _) hid

lemma total_update [DecidableEq Table] {id : Table} (hid : id ∈ live) (next : Slot → Option Entry) :
    total (update tables id next) live good + occupied (tables id) good =
      total tables live good + occupied next good := by
  have hrest : ∀ other ∈ live.erase id,
      occupied (update tables id next other) good = occupied (tables other) good := by
    intro other hother
    rw [update_of_ne (ne_of_mem_erase hother)]
  unfold total
  rw [← add_sum_erase _ _ hid,
    ← add_sum_erase _ (fun other => occupied (tables other) good) hid,
    sum_congr rfl hrest, update_self]
  omega

lemma total_insert [DecidableEq Table] {id : Table} (hid : id ∉ live) (next : Slot → Option Entry) :
    total (update tables id next) (insert id live) good =
      occupied next good + total tables live good := by
  unfold total
  rw [sum_insert hid, update_self]
  refine congrArg _ (sum_congr rfl fun other hother => ?_)
  rw [update_of_ne]
  rintro rfl
  exact hid hother

end Occupancy

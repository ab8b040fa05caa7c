import Mathlib.Tactic.NormNum

/-! # Addresses and page arithmetic

Addresses and lengths are `usize` words of a 64-bit target. The kernel is
built in release mode, so an overflowing addition wraps; the definitions that
a caller can drive to the top of the address space wrap explicitly.
-/

namespace KarteOs.Mm

def pageSize : Nat := 4096

def usizeRange : Nat := 2 ^ 64

def wrappingAdd (a b : Nat) : Nat := (a + b) % usizeRange

def checkedAdd (a b : Nat) : Option Nat :=
  if a + b < usizeRange then some (a + b) else none

def alignDown (addr : Nat) : Nat := addr / pageSize * pageSize

/-- `(addr + PAGE_SIZE - 1) & !(PAGE_SIZE - 1)` where the sum does not overflow. -/
def alignUp (addr : Nat) : Nat := alignDown (addr + (pageSize - 1))

def wrappingAlignUp (addr : Nat) : Nat := alignDown (wrappingAdd addr (pageSize - 1))

variable (addr : Nat)

@[simp] lemma alignDown_mod : alignDown addr % pageSize = 0 := Nat.mul_mod_left _ _

lemma alignDown_le : alignDown addr ≤ addr := Nat.div_mul_le_self _ _

lemma lt_alignDown_add : addr < alignDown addr + pageSize := by
  simp only [alignDown, pageSize]
  omega

@[simp] lemma alignUp_mod : alignUp addr % pageSize = 0 := alignDown_mod _

lemma le_alignUp : addr ≤ alignUp addr := by
  simp only [alignUp, alignDown, pageSize]
  omega

@[simp] lemma wrappingAlignUp_mod : wrappingAlignUp addr % pageSize = 0 := alignDown_mod _

lemma wrappingAdd_mod {a b : Nat} (ha : a % pageSize = 0) (hb : b % pageSize = 0) :
    wrappingAdd a b % pageSize = 0 := by
  simp only [wrappingAdd, usizeRange, pageSize] at *
  omega

lemma wrappingAlignUp_eq_self {addr : Nat} (haddr : addr % pageSize = 0)
    (hlt : addr < usizeRange) : wrappingAlignUp addr = addr := by
  simp only [wrappingAlignUp, wrappingAdd, alignDown, usizeRange, pageSize] at *
  omega

lemma wrappingAlignUp_lt (addr : Nat) : wrappingAlignUp addr < usizeRange :=
  (alignDown_le _).trans_lt (Nat.mod_lt _ (by norm_num [usizeRange]))

end KarteOs.Mm

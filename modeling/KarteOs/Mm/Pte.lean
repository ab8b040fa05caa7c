import Mathlib.Data.BitVec
import KarteOs.Mm.Addr

/-! # Page table entries

The flag bits and the packing of entries differ between the two targets, the
names of the operations do not. An entry is a raw 64-bit word; everything the
page table code reads from it goes through `flags` and `ppn`.
-/

namespace KarteOs.Mm

open BitVec Nat

inductive Arch where
  | riscv64
  | x86_64
deriving DecidableEq

namespace Arch

def ptLevels : Arch → Nat
  | riscv64 => 3
  | x86_64 => 4

def flagMask : Arch → BitVec 64
  | riscv64 => 0x00000000000000FF
  | x86_64 => 0x80000000000001FF

def ppnShift : Arch → Nat
  | riscv64 => 10
  | x86_64 => 12

def ppnWidth : Arch → Nat
  | riscv64 => 54
  | x86_64 => 40

end Arch

structure PTEFlags (arch : Arch) where
  bits : BitVec 64
  declared : bits &&& arch.flagMask = bits
deriving DecidableEq

namespace PTEFlags

variable {arch : Arch} {i : Nat}

def fromBitsTruncate (arch : Arch) (raw : BitVec 64) : PTEFlags arch where
  bits := raw &&& arch.flagMask
  declared := by rw [BitVec.and_assoc, BitVec.and_self]

variable (flags : PTEFlags arch)

def contains (other : PTEFlags arch) : Bool := flags.bits &&& other.bits == other.bits

def union (other : PTEFlags arch) : PTEFlags arch where
  bits := flags.bits ||| other.bits
  declared := by rw [BitVec.and_or_distrib_right, flags.declared, other.declared]

def difference (other : PTEFlags arch) : PTEFlags arch :=
  fromBitsTruncate arch (flags.bits &&& ~~~ other.bits)

instance : OrOp (PTEFlags arch) := ⟨union⟩

def single (arch : Arch) (i : Nat) : PTEFlags arch := fromBitsTruncate arch (BitVec.twoPow 64 i)

def v : PTEFlags .riscv64 := single .riscv64 0
def r : PTEFlags .riscv64 := single .riscv64 1
def w : PTEFlags .riscv64 := single .riscv64 2
def x : PTEFlags .riscv64 := single .riscv64 3
def u : PTEFlags .riscv64 := single .riscv64 4

def present : PTEFlags .x86_64 := single .x86_64 0
def writable : PTEFlags .x86_64 := single .x86_64 1
def user : PTEFlags .x86_64 := single .x86_64 2
def ps : PTEFlags .x86_64 := single .x86_64 7
def nx : PTEFlags .x86_64 := single .x86_64 63

def valid : (arch : Arch) → PTEFlags arch
  | .riscv64 => v
  | .x86_64 => present

def userBit : (arch : Arch) → PTEFlags arch
  | .riscv64 => u
  | .x86_64 => user

def krwx : (arch : Arch) → PTEFlags arch
  | .riscv64 => v ||| r ||| w ||| x
  | .x86_64 => present ||| writable

def krw : (arch : Arch) → PTEFlags arch
  | .riscv64 => v ||| r ||| w
  | .x86_64 => present ||| writable

def urw : (arch : Arch) → PTEFlags arch
  | .riscv64 => v ||| r ||| w ||| u
  | .x86_64 => present ||| writable ||| user

/-- `NON_LEAF_FLAGS` on x86_64; riscv64 marks non-leaf entries with `V` alone. -/
def nonLeaf : (arch : Arch) → PTEFlags arch
  | .riscv64 => v
  | .x86_64 => present ||| writable ||| user

def isUser : Bool := flags.contains (userBit arch)

def isWritable : {arch : Arch} → PTEFlags arch → Bool
  | .riscv64, flags => flags.contains w
  | .x86_64, flags => flags.contains writable

def isExecutable : {arch : Arch} → PTEFlags arch → Bool
  | .riscv64, flags => flags.contains x
  | .x86_64, flags => !flags.contains nx

@[ext] lemma ext {flags other : PTEFlags arch} (h : flags.bits = other.bits) : flags = other := by
  cases flags
  cases other
  simpa using h

lemma getLsbD_of_not_declared (hi : arch.flagMask.getLsbD i = false) :
    flags.bits.getLsbD i = false := by
  rw [← flags.declared, getLsbD_and, hi, Bool.and_false]

lemma bits_fromBitsTruncate (raw : BitVec 64) :
    (fromBitsTruncate arch raw).bits = raw &&& arch.flagMask := rfl

lemma bits_or (other : PTEFlags arch) : (flags ||| other).bits = flags.bits ||| other.bits := rfl

lemma bits_single (hi : arch.flagMask.getLsbD i) : (single arch i).bits = twoPow 64 i := by
  rw [single, bits_fromBitsTruncate, twoPow_and, hi, if_pos rfl]

lemma contains_single (hi : arch.flagMask.getLsbD i) (flags : PTEFlags arch) :
    flags.contains (single arch i) = flags.bits.getLsbD i := by
  have hlt : i < 64 := lt_of_getLsbD hi
  rw [contains, bits_single hi, and_twoPow]
  cases hbit : flags.bits.getLsbD i with
  | true => simp
  | false =>
    have hne : (0#64 == twoPow 64 i) = false := by
      rw [beq_eq_false_iff_ne]
      intro heq
      have hget := congrArg (getLsbD · i) heq
      simp [hlt] at hget
    simpa using hne

lemma contains_or_of_right {flags other part : PTEFlags arch}
    (hpart : other.contains part = true) : (flags ||| other).contains part = true := by
  rw [contains, beq_iff_eq] at hpart ⊢
  rw [bits_or, BitVec.and_or_distrib_right, hpart]
  ext i hi
  simp only [getElem_or, getElem_and]
  cases part.bits[i] <;> simp

end PTEFlags

abbrev PTE := BitVec 64

namespace PTE

def flags (arch : Arch) (pte : PTE) : PTEFlags arch := .fromBitsTruncate arch pte

def ppn : Arch → PTE → Nat
  | .riscv64, pte => (pte >>> 10).toNat
  | .x86_64, pte => ((pte >>> 12) &&& 0xFFFFFFFFFF#64).toNat

def new (arch : Arch) (ppn : Nat) (flags : PTEFlags arch) : PTE :=
  (BitVec.ofNat 64 ppn <<< arch.ppnShift) ||| flags.bits

/-- The entry `map` installs for a lower table: `PTE::new_nonleaf` on x86_64,
`PTE::new(ppn, V)` on riscv64. -/
def newNonleaf (arch : Arch) (ppn : Nat) : PTE := new arch ppn (.nonLeaf arch)

def isValid (arch : Arch) (pte : PTE) : Bool := (pte.flags arch).contains (.valid arch)

def isHuge : Arch → PTE → Bool
  | .riscv64, _ => false
  | .x86_64, pte => (pte.flags .x86_64).contains .ps

/-- Entry `i` of the table that replaces a huge page entry, for the next
smaller page size. -/
def splitEntry (pte : PTE) (subPageSize i : Nat) : PTE :=
  let subPaddr := pte.ppn .x86_64 * pageSize + i * subPageSize
  let subFlags := if pageSize < subPageSize then
      (PTEFlags.present ||| .writable ||| .user ||| .ps).bits
    else pte &&& ~~~ PTEFlags.ps.bits
  (BitVec.ofNat 64 (subPaddr / pageSize) <<< 12) ||| subFlags

lemma isValid_eq (arch : Arch) (pte : PTE) : pte.isValid arch = pte.getLsbD 0 := by
  have hmask : arch.flagMask.getLsbD 0 := by cases arch <;> decide
  have hvalid : PTEFlags.valid arch = .single arch 0 := by cases arch <;> rfl
  rw [isValid, hvalid, PTEFlags.contains_single hmask, flags, PTEFlags.bits_fromBitsTruncate,
    getLsbD_and, hmask, Bool.and_true]

lemma isHuge_x86_64 (pte : PTE) : pte.isHuge .x86_64 = pte.getLsbD 7 := by
  have hmask : Arch.x86_64.flagMask.getLsbD 7 := by decide
  rw [isHuge, PTEFlags.ps, PTEFlags.contains_single hmask, flags, PTEFlags.bits_fromBitsTruncate,
    getLsbD_and, hmask, Bool.and_true]

@[simp] lemma isValid_zero (arch : Arch) : isValid arch 0 = false := by
  rw [isValid_eq]
  rfl

lemma testBit_ppn (arch : Arch) (pte : PTE) (j : Nat) :
    (pte.ppn arch).testBit j = (decide (j < arch.ppnWidth) && pte.getLsbD (j + arch.ppnShift)) := by
  cases arch with
  | riscv64 =>
    rw [ppn, testBit_toNat, getLsbD_ushiftRight, Nat.add_comm]
    by_cases hj : j < 54
    · simp [Arch.ppnShift, Arch.ppnWidth, hj]
    · rw [getLsbD_of_ge _ _ (by omega)]
      simp [Arch.ppnWidth, hj]
  | x86_64 =>
    have hmask : (0xFFFFFFFFFF#64 : BitVec 64) = BitVec.ofNat 64 (2 ^ 40 - 1) := by decide
    rw [ppn, testBit_toNat, getLsbD_and, getLsbD_ushiftRight, hmask,
      getLsbD_ofNat, testBit_two_pow_sub_one, Nat.add_comm, Bool.and_comm]
    by_cases hj : j < 40
    · simp [Arch.ppnShift, Arch.ppnWidth, hj, show j < 64 by omega]
    · simp [Arch.ppnWidth, hj]

lemma ppn_lt (arch : Arch) (pte : PTE) : pte.ppn arch < 2 ^ arch.ppnWidth := by
  apply lt_pow_two_of_testBit
  intro j hj
  rw [testBit_ppn]
  simp [Nat.not_lt.mpr hj]

lemma getLsbD_new (arch : Arch) (ppn : Nat) (flags : PTEFlags arch) (i : Nat) :
    (new arch ppn flags).getLsbD i =
      (decide (i < 64) && decide (arch.ppnShift ≤ i) && ppn.testBit (i - arch.ppnShift) ||
        flags.bits.getLsbD i) := by
  rw [new, getLsbD_or, getLsbD_shiftLeft, getLsbD_ofNat]
  congr 1
  by_cases hi : i < 64
  · by_cases hshift : arch.ppnShift ≤ i
    · simp [hi, hshift, show ¬i < arch.ppnShift by omega, show i - arch.ppnShift < 64 by omega]
    · simp [hshift, show i < arch.ppnShift by omega]
  · simp [hi]

variable {i : Nat}

lemma getLsbD_new_low (arch : Arch) (ppn : Nat) (flags : PTEFlags arch) (hi : i < arch.ppnShift) :
    (new arch ppn flags).getLsbD i = flags.bits.getLsbD i := by
  rw [getLsbD_new]
  simp [Nat.not_le.mpr hi]

variable {arch : Arch}

lemma flagMask_eq_false {j : Nat} (hj : j < arch.ppnWidth) :
    arch.flagMask.getLsbD (j + arch.ppnShift) = false := by
  cases arch with
  | riscv64 =>
    have hmask : Arch.riscv64.flagMask = BitVec.ofNat 64 (2 ^ 8 - 1) := by decide
    have hlow : ¬j + 10 < 8 := by omega
    rw [hmask, getLsbD_ofNat, testBit_two_pow_sub_one]
    simp [Arch.ppnShift, hlow]
  | x86_64 =>
    have hmask : Arch.x86_64.flagMask = BitVec.ofNat 64 (2 ^ 9 - 1) ||| twoPow 64 63 := by decide
    simp only [Arch.ppnWidth] at hj
    have hlow : ¬j + 12 < 9 := by omega
    have hhigh : ¬63 = j + 12 := by omega
    rw [hmask, getLsbD_or, getLsbD_ofNat, testBit_two_pow_sub_one, getLsbD_twoPow]
    simp [Arch.ppnShift, hlow, hhigh]

lemma ppn_new_mod (arch : Arch) (ppn : Nat) (flags : PTEFlags arch) :
    (new arch ppn flags).ppn arch = ppn % 2 ^ arch.ppnWidth := by
  apply eq_of_testBit_eq
  intro j
  rw [testBit_ppn, testBit_mod_two_pow]
  by_cases hj : j < arch.ppnWidth
  · have hlt : j + arch.ppnShift < 64 := by
      cases arch <;> simp only [Arch.ppnWidth, Arch.ppnShift] at hj ⊢ <;> omega
    rw [getLsbD_new, flags.getLsbD_of_not_declared (flagMask_eq_false hj)]
    simp [hlt]
  · simp [hj]

variable {ppn : Nat} {pte : PTE} (flags : PTEFlags arch)

lemma ppn_new (hppn : ppn < 2 ^ arch.ppnWidth) : (new arch ppn flags).ppn arch = ppn := by
  rw [ppn_new_mod, mod_eq_of_lt hppn]

lemma flags_new (hppn : ppn < 2 ^ arch.ppnWidth) : (new arch ppn flags).flags arch = flags := by
  ext1
  rw [PTE.flags, PTEFlags.bits_fromBitsTruncate, new, BitVec.and_or_distrib_right, flags.declared]
  suffices hzero : BitVec.ofNat 64 ppn <<< arch.ppnShift &&& arch.flagMask = 0#64 by
    rw [hzero, BitVec.zero_or]
  apply eq_of_getLsbD_eq
  intro i hi
  rw [getLsbD_and, getLsbD_shiftLeft, getLsbD_ofNat]
  rcases Nat.lt_or_ge i arch.ppnShift with hlow | hhigh
  · simp [hlow]
  · obtain ⟨j, rfl⟩ := Nat.exists_eq_add_of_le' hhigh
    by_cases hj : j < arch.ppnWidth
    · simp [flagMask_eq_false hj]
    · have hbit : ppn.testBit j = false := Nat.testBit_lt_two_pow
        (hppn.trans_le (Nat.pow_le_pow_right (by decide) (not_lt.mp hj)))
      simp [hbit]

lemma isValid_new (arch : Arch) (ppn : Nat) (flags : PTEFlags arch) :
    (new arch ppn flags).isValid arch = flags.contains (.valid arch) := by
  have hmask : arch.flagMask.getLsbD 0 := by cases arch <;> decide
  have hvalid : PTEFlags.valid arch = .single arch 0 := by cases arch <;> rfl
  have hshift : 0 < arch.ppnShift := by cases arch <;> decide
  rw [isValid_eq, getLsbD_new_low arch ppn flags hshift, hvalid, PTEFlags.contains_single hmask]

lemma isValid_newNonleaf (arch : Arch) (ppn : Nat) : (newNonleaf arch ppn).isValid arch := by
  rw [newNonleaf, isValid_new]
  cases arch <;> decide

lemma isHuge_newNonleaf (arch : Arch) (ppn : Nat) : (newNonleaf arch ppn).isHuge arch = false := by
  cases arch with
  | riscv64 => rfl
  | x86_64 =>
    rw [isHuge_x86_64, newNonleaf, getLsbD_new_low _ _ _ (by decide)]
    decide

lemma ppn_newNonleaf (hppn : ppn < 2 ^ arch.ppnWidth) : (newNonleaf arch ppn).ppn arch = ppn :=
  ppn_new _ hppn

def Permissive : Arch → PTE → Prop
  | .riscv64, pte => pte.getLsbD 1 = false ∧ pte.getLsbD 2 = false ∧ pte.getLsbD 3 = false
  | .x86_64, pte => pte.getLsbD 1 = true ∧ pte.getLsbD 2 = true ∧ pte.getLsbD 63 = false

lemma permissive_newNonleaf (hppn : ppn < 2 ^ 40) : Permissive arch (newNonleaf arch ppn) := by
  cases arch with
  | riscv64 =>
    simp only [Permissive, newNonleaf]
    rw [getLsbD_new_low _ _ _ (by decide), getLsbD_new_low _ _ _ (by decide),
      getLsbD_new_low _ _ _ (by decide)]
    decide
  | x86_64 =>
    have hbit : ppn.testBit 51 = false :=
      Nat.testBit_lt_two_pow (hppn.trans_le (Nat.pow_le_pow_right (by decide) (by decide)))
    simp only [Permissive, newNonleaf]
    rw [getLsbD_new_low _ _ _ (by decide), getLsbD_new_low _ _ _ (by decide), getLsbD_new]
    simp only [Arch.ppnShift, show 63 - 12 = 51 from rfl, hbit]
    decide

def ensureNonleafUserBit (entry : PTE) (leafFlags : PTEFlags .x86_64) : PTE :=
  if entry &&& PTEFlags.user.bits == 0 && leafFlags.contains .user then
    entry ||| PTEFlags.user.bits
  else entry

lemma ensureNonleafUserBit_of_permissive {entry : PTE} (hentry : Permissive .x86_64 entry)
    (leafFlags : PTEFlags .x86_64) : ensureNonleafUserBit entry leafFlags = entry := by
  have huser : (entry &&& PTEFlags.user.bits == 0#64) = false := by
    rw [beq_eq_false_iff_ne, PTEFlags.user, PTEFlags.bits_single (by decide), and_twoPow,
      hentry.2.1]
    decide
  rw [ensureNonleafUserBit]
  simp [huser]

/-! ## Splitting a 2 MiB page -/

lemma getLsbD_splitEntry (pte : PTE) {k : Nat} (hk : k < 64) :
    (splitEntry pte pageSize i).getLsbD k =
      (decide (12 ≤ k) && (pte.ppn .x86_64 + i).testBit (k - 12) ||
        pte.getLsbD k && decide (k ≠ 7)) := by
  have hdiv : (pte.ppn .x86_64 * pageSize + i * pageSize) / pageSize = pte.ppn .x86_64 + i := by
    rw [← Nat.add_mul, Nat.mul_div_cancel _ (by decide)]
  rw [splitEntry, if_neg (by decide), hdiv, getLsbD_or, getLsbD_shiftLeft,
    getLsbD_ofNat, getLsbD_and, getLsbD_not, PTEFlags.ps,
    PTEFlags.bits_single (by decide), getLsbD_twoPow]
  by_cases hlow : 12 ≤ k
  · simp [hk, hlow, show ¬k < 12 by omega, show k - 12 < 64 by omega, eq_comm]
  · simp [hk, hlow, show k < 12 by omega, eq_comm]

lemma ppn_splitEntry (haligned : 512 ∣ pte.ppn .x86_64) (hi : i < 512) :
    (splitEntry pte pageSize i).ppn .x86_64 = pte.ppn .x86_64 + i := by
  obtain ⟨q, hq⟩ := haligned
  have hlt : pte.ppn .x86_64 + i < 2 ^ 40 := by
    have hppn : pte.ppn .x86_64 < 2 ^ 40 := ppn_lt .x86_64 pte
    omega
  have hsum : pte.ppn .x86_64 + i = 2 ^ 9 * q + i := congrArg (· + i) hq
  apply Nat.eq_of_testBit_eq
  intro j
  by_cases hj : j < 40
  · -- the frame bits of the huge entry are already bits of the sum
    have hold : pte.getLsbD (j + 12) = (2 ^ 9 * q).testBit j := by
      have hbit := testBit_ppn .x86_64 pte j
      rw [hq, decide_eq_true (show j < Arch.x86_64.ppnWidth from hj), Bool.true_and] at hbit
      exact hbit.symm
    have hnew : (splitEntry pte pageSize i).getLsbD (j + 12) = (2 ^ 9 * q + i).testBit j := by
      rw [getLsbD_splitEntry pte (by omega), hold, hsum, Nat.add_sub_cancel,
        Nat.testBit_two_pow_mul_add q (show i < 2 ^ 9 from hi), Nat.testBit_two_pow_mul]
      by_cases hlow : j < 9
      · simp [hlow, show ¬9 ≤ j by omega]
      · simp [hlow, show 9 ≤ j by omega]
    rw [testBit_ppn, decide_eq_true (show j < Arch.x86_64.ppnWidth from hj), Bool.true_and, hsum]
    exact hnew
  · rw [testBit_ppn, decide_eq_false (show ¬j < Arch.x86_64.ppnWidth from hj), Bool.false_and,
      Nat.testBit_lt_two_pow (hlt.trans_le (Nat.pow_le_pow_right (by decide) (not_lt.mp hj)))]

lemma flags_splitEntry (haligned : 512 ∣ pte.ppn .x86_64) (hi : i < 512) :
    (splitEntry pte pageSize i).flags .x86_64 = (pte.flags .x86_64).difference .ps := by
  obtain ⟨q, hq⟩ := haligned
  have hlt : pte.ppn .x86_64 + i < 2 ^ 40 := by
    have hppn : pte.ppn .x86_64 < 2 ^ 40 := ppn_lt .x86_64 pte
    omega
  ext1
  rw [PTE.flags, PTEFlags.difference, PTEFlags.bits_fromBitsTruncate,
    PTEFlags.bits_fromBitsTruncate, PTE.flags, PTEFlags.bits_fromBitsTruncate, PTEFlags.ps,
    PTEFlags.bits_single (by decide)]
  apply eq_of_getLsbD_eq
  intro k hk
  rw [getLsbD_and, getLsbD_and, getLsbD_and, getLsbD_and,
    getLsbD_not, getLsbD_twoPow, getLsbD_splitEntry pte hk]
  by_cases hlow : 12 ≤ k
  · obtain ⟨j, rfl⟩ := Nat.exists_eq_add_of_le' hlow
    by_cases hj : j < 40
    · have hmask : Arch.x86_64.flagMask.getLsbD (j + 12) = false :=
        flagMask_eq_false (by simpa [Arch.ppnWidth] using hj)
      simp [hmask]
    · have hbit : (pte.ppn .x86_64 + i).testBit j = false := Nat.testBit_lt_two_pow
        (hlt.trans_le (Nat.pow_le_pow_right (by decide) (not_lt.mp hj)))
      cases hmask : Arch.x86_64.flagMask.getLsbD (j + 12) <;>
        simp [hbit, hk]
  · cases hmask : Arch.x86_64.flagMask.getLsbD k <;> simp [hlow, hk, eq_comm]

lemma isValid_splitEntry (pte : PTE) (i : Nat) :
    (splitEntry pte pageSize i).isValid .x86_64 = pte.isValid .x86_64 := by
  rw [isValid_eq, isValid_eq, getLsbD_splitEntry pte (by decide)]
  simp

end PTE

end KarteOs.Mm

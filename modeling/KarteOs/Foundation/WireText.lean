import Mathlib.Data.UInt

/-! # Decimal numbers in lines of bytes

Text protocols write numbers as ASCII digits. A number below the limit of its
type is read back from its digits, and ASCII bytes are valid UTF-8.
-/

namespace WireText

open List

/-- The bytes of ASCII characters. -/
def ascii (text : List Char) : List UInt8 := text.map fun c => UInt8.ofNat c.toNat

/-- The byte of a decimal digit. -/
def digit (d : Nat) : UInt8 := UInt8.ofNat (48 + d)

/-- The digits of a number, the most significant one first. -/
def decimal (n : Nat) : List UInt8 := ascii (Nat.toDigits 10 n)

/-- Digits are read into an accumulator that stays below the limit. -/
def readDigits (limit : Nat) : Nat → List UInt8 → Option Nat
  | value, [] => some value
  | value, b :: rest =>
    if 48 ≤ b.toNat ∧ b.toNat ≤ 57 ∧ value * 10 + (b.toNat - 48) < limit then
      readDigits limit (value * 10 + (b.toNat - 48)) rest
    else none

/-- A number has at least one digit. -/
def readDecimal (limit : Nat) (text : List UInt8) : Option Nat :=
  if text = [] then none else readDigits limit 0 text

variable {limit n d : Nat} {b : UInt8} {text : List UInt8}

lemma toNat_digit (hd : d < 10) : (digit d).toNat = 48 + d := by
  rw [digit, UInt8.toNat_ofNat_of_lt']
  exact lt_of_lt_of_le (Nat.add_lt_add_left hd 48) (by decide)

lemma ascii_digitChar (hd : d < 10) : ascii [d.digitChar] = [digit d] := by
  rw [ascii, map_singleton, Nat.toNat_digitChar_of_lt_ten hd, digit]

lemma decimal_eq (n : Nat) :
    decimal n = if n < 10 then [digit n] else decimal (n / 10) ++ [digit (n % 10)] := by
  rw [decimal, Nat.toDigits_eq_if (by decide)]
  split
  next hlt => exact ascii_digitChar hlt
  · have hmod := ascii_digitChar (Nat.mod_lt n (by decide : 10 > 0))
    rw [ascii, map_append]
    exact congrArg (_ ++ ·) hmod

lemma decimal_ne_nil (n : Nat) : decimal n ≠ [] := by
  rw [decimal_eq]
  split <;> simp

lemma mem_decimal (hb : b ∈ decimal n) : 48 ≤ b.toNat ∧ b.toNat ≤ 57 := by
  induction n using Nat.strongRecOn with
  | ind n ih =>
    have hdigit : ∀ d < 10, b = digit d → 48 ≤ b.toNat ∧ b.toNat ≤ 57 := by
      rintro d hd rfl
      rw [toNat_digit hd]
      omega
    rw [decimal_eq] at hb
    split at hb
    next hlt => exact hdigit n hlt (mem_singleton.mp hb)
    · rcases mem_append.mp hb with hinit | hlast
      · exact ih (n / 10) (by omega) hinit
      · exact hdigit (n % 10) (Nat.mod_lt n (by decide)) (mem_singleton.mp hlast)

lemma readDigits_append (value : Nat) (first second : List UInt8) :
    readDigits limit value (first ++ second) =
      (readDigits limit value first).bind (readDigits limit · second) := by
  induction first generalizing value with
  | nil => rfl
  | cons b first ih =>
    rw [cons_append, readDigits, readDigits]
    split
    · exact ih _
    · rfl

lemma readDigits_digit (hd : d < 10) {value : Nat} (hlimit : value * 10 + d < limit) :
    readDigits limit value [digit d] = some (value * 10 + d) := by
  have hvalue : (digit d).toNat - 48 = d := by rw [toNat_digit hd, Nat.add_sub_cancel_left]
  rw [readDigits, hvalue, if_pos ⟨by rw [toNat_digit hd]; omega, by rw [toNat_digit hd]; omega,
    hlimit⟩, readDigits]

lemma digits_of_readDigits {value : Nat} (hread : (readDigits limit value text).isSome) :
    ∀ b ∈ text, 48 ≤ b.toNat ∧ b.toNat ≤ 57 := by
  induction text generalizing value with
  | nil => nofun
  | cons b text ih =>
    rw [readDigits] at hread
    split at hread
    next hdigit => exact forall_mem_cons.mpr ⟨⟨hdigit.1, hdigit.2.1⟩, ih hread⟩
    · cases hread

lemma readDigits_decimal (hn : n < limit) : readDigits limit 0 (decimal n) = some n := by
  induction n using Nat.strongRecOn with
  | ind n ih =>
    rw [decimal_eq]
    split
    next hlt =>
      have hzero : 0 * 10 + n < limit := by omega
      simpa using readDigits_digit hlt hzero
    · -- the last digit is read onto the value of the others
      rw [readDigits_append, ih (n / 10) (by omega) (by omega), Option.bind_some,
        readDigits_digit (Nat.mod_lt n (by decide)) (by omega)]
      exact congrArg some (by omega)

lemma readDecimal_decimal (hn : n < limit) : readDecimal limit (decimal n) = some n := by
  rw [readDecimal, if_neg (decimal_ne_nil n), readDigits_decimal hn]

lemma utf8_of_ascii (htext : ∀ b ∈ text, b.toNat < 128) : text.toByteArray.IsValidUTF8 := by
  induction text with
  | nil => exact ⟨[], rfl⟩
  | cons b text ih =>
    have hb := htext b (.head _)
    have hchar : (Char.ofNat b.toNat).val.toNat = b.toNat := by
      have hvalid : b.toNat.isValidChar := .inl (by omega)
      rw [Char.ofNat, dif_pos hvalid]
      rfl
    have hfirst : [b].toByteArray.IsValidUTF8 := by
      refine ⟨[Char.ofNat b.toNat], ?_⟩
      rw [utf8Encode_singleton, String.utf8EncodeChar, hchar, if_pos (by omega), UInt8.ofNat_toNat]
    have happend := hfirst.append (ih fun b hb => htext b (.tail _ hb))
    rwa [← toByteArray_append] at happend

lemma utf8_append {first second : List UInt8} (hfirst : first.toByteArray.IsValidUTF8)
    (hsecond : second.toByteArray.IsValidUTF8) : (first ++ second).toByteArray.IsValidUTF8 := by
  rw [toByteArray_append]
  exact hfirst.append hsecond

end WireText

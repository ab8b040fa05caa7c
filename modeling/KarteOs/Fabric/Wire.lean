import KarteOs.Foundation.LineStream
import KarteOs.Foundation.WireText

/-! # The discovery wire

`drt.rs` exchanges lines `KRT1|<verb>|<device_id>|<seq>`. Parsing accepts
exactly the lines of four fields with a known verb and a sequence number of 64
bits, and reads back what `make_wire` writes.
-/

namespace KarteOs.Fabric

open WireText List Option

inductive DrtVerb where
  | announce
  | heartbeat
  | bye
deriving DecidableEq

def bar : UInt8 := 0x7c

def magic : List UInt8 := ascii ['K', 'R', 'T', '1']

def DrtVerb.field : DrtVerb → List UInt8
  | .announce => ascii ['A']
  | .heartbeat => ascii ['H']
  | .bye => ascii ['B']

def parseVerb (field : List UInt8) : Option DrtVerb :=
  if field = DrtVerb.announce.field then some .announce
  else if field = DrtVerb.heartbeat.field then some .heartbeat
  else if field = DrtVerb.bye.field then some .bye
  else none

def parseU64 : List UInt8 → Option Nat
  | 0x2b :: rest => readDecimal (2 ^ 64) rest
  | text => readDecimal (2 ^ 64) text

def parseWire (msg : List UInt8) : Option (DrtVerb × List UInt8) :=
  if ¬ msg.toByteArray.IsValidUTF8 then none
  else
    match msg.splitOn bar with
    | [first, verb, id, seq] =>
      if first ≠ magic then none
      else (parseVerb verb).bind fun verb => (parseU64 seq).map fun _ => (verb, id)
    | _ => none

def makeWire (verb : DrtVerb) (deviceId : List UInt8) (seq : Nat) : List UInt8 :=
  [bar].intercalate [magic, verb.field, deviceId, decimal seq]

variable {msg deviceId : List UInt8} {verb : DrtVerb} {seq : Nat}

lemma parseVerb_eq_some_iff {field : List UInt8} :
    parseVerb field = some verb ↔ field = verb.field := by
  constructor
  · intro hverb
    rw [parseVerb] at hverb
    split at hverb
    next hfield => cases hverb; exact hfield
    · split at hverb
      next hfield => cases hverb; exact hfield
      · split at hverb
        next hfield => cases hverb; exact hfield
        · cases hverb
  · rintro rfl
    cases verb <;> rfl

lemma parseWire_eq_some_iff : parseWire msg = some (verb, deviceId) ↔ msg.toByteArray.IsValidUTF8 ∧
      ∃ seq, msg.splitOn bar = [magic, verb.field, deviceId, seq] ∧ (parseU64 seq).isSome := by
  constructor
  · intro hparse
    rw [parseWire] at hparse
    split at hparse
    · cases hparse
    next hvalid =>
      refine ⟨not_not.mp hvalid, ?_⟩
      split at hparse
      next first verb' id seq hfields =>
        split at hparse
        · cases hparse
        next hfirst =>
          obtain ⟨found, hverb, hparse⟩ := bind_eq_some_iff.mp hparse
          obtain ⟨value, hseq, heq⟩ := map_eq_some_iff.mp hparse
          cases heq
          rw [parseVerb_eq_some_iff] at hverb
          exact ⟨seq, by rw [hfields, not_not.mp hfirst, hverb], isSome_of_eq_some hseq⟩
      · cases hparse
  · rintro ⟨hvalid, seq, hfields, hseq⟩
    obtain ⟨value, hseq⟩ := isSome_iff_exists.mp hseq
    rw [parseWire, if_neg (not_not.mpr hvalid), hfields]
    simp [parseVerb_eq_some_iff.mpr rfl, hseq]

lemma parseU64_decimal (hseq : seq < 2 ^ 64) : parseU64 (decimal seq) = some seq := by
  rw [parseU64]
  · exact readDecimal_decimal hseq
  · -- a plus is not a digit
    intro rest hplus
    have hmem : 0x2b ∈ decimal seq := by
      rw [hplus]
      exact .head _
    exact absurd (mem_decimal hmem).1 (by decide)

lemma utf8_makeWire (hid : deviceId.toByteArray.IsValidUTF8) :
    (makeWire verb deviceId seq).toByteArray.IsValidUTF8 := by
  have hbar : ([bar] : List UInt8).toByteArray.IsValidUTF8 := by decide
  have hmagic : magic.toByteArray.IsValidUTF8 := by decide
  have hverb : verb.field.toByteArray.IsValidUTF8 := by cases verb <;> decide
  have hline : makeWire verb deviceId seq =
      magic ++ ([bar] ++ (verb.field ++ ([bar] ++ (deviceId ++ ([bar] ++ decimal seq))))) := by
    simp [makeWire, intercalate, intersperse]
  rw [hline]
  exact utf8_append hmagic (utf8_append hbar (utf8_append hverb (utf8_append hbar
    (utf8_append hid (utf8_append hbar (utf8_of_ascii fun _ hb =>
      lt_of_le_of_lt (mem_decimal hb).2 (by decide)))))))

lemma splitOn_line {seq : List UInt8} (hid : bar ∉ deviceId) (hseq : bar ∉ seq) :
    ([bar].intercalate [magic, verb.field, deviceId, seq]).splitOn bar =
      [magic, verb.field, deviceId, seq] := by
  refine splitOn_intercalate bar ?_ (by simp)
  simp only [mem_cons, not_mem_nil, or_false]
  rintro field (rfl | rfl | rfl | rfl)
  · decide
  · cases verb <;> decide
  · exact hid
  · exact hseq

lemma parseWire_makeWire (hvalid : deviceId.toByteArray.IsValidUTF8) (hbar : bar ∉ deviceId)
    (hseq : seq < 2 ^ 64) : parseWire (makeWire verb deviceId seq) = some (verb, deviceId) := by
  refine parseWire_eq_some_iff.mpr ⟨utf8_makeWire hvalid, decimal seq,
    splitOn_line hbar fun hdigit => absurd (mem_decimal hdigit).2 (by decide), ?_⟩
  rw [parseU64_decimal hseq]
  rfl

lemma bar_notMem_of_parseU64 {text : List UInt8} (htext : (parseU64 text).isSome) : bar ∉ text := by
  have hdigits : ∀ {digits}, (readDecimal (2 ^ 64) digits).isSome → bar ∉ digits := by
    intro digits hread hbar
    rw [readDecimal] at hread
    split at hread
    · cases hread
    · exact absurd (digits_of_readDigits hread bar hbar).2 (by decide)
  rw [parseU64.eq_def] at htext
  split at htext
  · simpa using ⟨by decide, hdigits htext⟩
  · exact hdigits htext

/-- The lines that are accepted are those of the grammar, and `make_wire` writes such lines. -/
theorem parseWire_iff_grammar (msg deviceId : List UInt8) (verb : DrtVerb) :
    (parseWire msg = some (verb, deviceId) ↔ msg.toByteArray.IsValidUTF8 ∧ bar ∉ deviceId ∧
      ∃ seq, (parseU64 seq).isSome ∧ msg = [bar].intercalate [magic, verb.field, deviceId, seq]) ∧
    (deviceId.toByteArray.IsValidUTF8 → bar ∉ deviceId → ∀ seq < 2 ^ 64,
      parseWire (makeWire verb deviceId seq) = some (verb, deviceId)) := by
  refine ⟨parseWire_eq_some_iff.trans (and_congr_right fun _ => ?_),
    fun hvalid hbar seq hseq => parseWire_makeWire hvalid hbar hseq⟩
  constructor
  · rintro ⟨seq, hfields, hseq⟩
    have hid : deviceId ∈ msg.splitOn bar := by simp [hfields]
    refine ⟨LineStream.notMem_of_mem_splitOn hid, seq, hseq, ?_⟩
    rw [← hfields, intercalate_splitOn]
  · rintro ⟨hid, seq, hseq, rfl⟩
    exact ⟨seq, splitOn_line hid (bar_notMem_of_parseU64 hseq), hseq⟩

end KarteOs.Fabric

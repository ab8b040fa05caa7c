import KarteOs.Fabric.Wire

/-! # Frames that the devices write

The firmware of the microcontroller and of the aarch64 node builds its frames
byte by byte in arrays of fixed size. An announcement carries the device's
tools in a fifth field, which the parser of the kernel does not accept.
-/

namespace KarteOs.Device

open WireText Fabric List Option

/-- `append_str` into an array of `capacity` bytes, of which `out` are written. Writing past
its end panics. -/
def appendStr (capacity : Nat) (out s : List UInt8) : Option (List UInt8) :=
  if out.length + s.length ≤ capacity then some (out ++ s) else none

/-- The digits that `append_u32` gathers, the least significant one first, with `room` left
in its array. -/
def lowDigits : Nat → Nat → List UInt8
  | 0, _ => []
  | room + 1, v => if 0 < v then digit (v % 10) :: lowDigits room (v / 10) else []

def u32Digits (v : Nat) : List UInt8 := if v = 0 then [digit 0] else (lowDigits 10 v).reverse

def build (capacity : Nat) (parts : List (List UInt8)) : Option (List UInt8) :=
  parts.foldlM (appendStr capacity) []

def newline : UInt8 := 0x0a

/-- The roles that the microcontroller's firmware is built for. -/
inductive McuRole where
  | sensor
  | relay
  | other
deriving DecidableEq

def McuRole.tools : McuRole → List UInt8
  | .sensor => ascii "sensor.temp,sensor.humidity,mqtt.ping".toList
  | .relay => ascii "actuator.on,actuator.off,actuator.status".toList
  | .other => ascii "echo".toList

def defaultId : List UInt8 := ascii "esp32-1".toList

def frameParts (verb : Char) (deviceId : List UInt8) (seq : Nat) (last : List UInt8) :
    List (List UInt8) :=
  [ascii ['K', 'R', 'T', '1', '|', verb, '|'], deviceId, [bar], u32Digits seq, [bar], last]

def fmtAnnounce (deviceId tools : List UInt8) (seq : Nat) : Option (List UInt8) :=
  build 128 (frameParts 'A' deviceId seq tools)

/-- The announcement of the aarch64 node, which has its terminator in the array. -/
def nodeAnnounce (deviceId tools : List UInt8) (seq : Nat) : Option (List UInt8) :=
  build 128 (frameParts 'A' deviceId seq tools ++ [[newline]])

variable {capacity seq : Nat} {deviceId tools frame : List UInt8} {parts : List (List UInt8)}

lemma lowDigits_reverse (room : Nat) {v : Nat} (hpos : 0 < v) (hlt : v < 10 ^ room) :
    (lowDigits room v).reverse = decimal v := by
  induction room generalizing v with
  | zero => omega
  | succ room ih =>
    rw [lowDigits, if_pos hpos, reverse_cons, decimal_eq]
    split
    next hdigit =>
      rw [Nat.div_eq_of_lt hdigit, Nat.mod_eq_of_lt hdigit]
      cases room <;> rfl
    · rw [pow_succ] at hlt
      rw [ih (by omega) (by omega)]

lemma u32Digits_eq (hseq : seq < 2 ^ 32) : u32Digits seq = decimal seq := by
  rw [u32Digits]
  split
  next hzero =>
    rw [hzero]
    rfl
  next hpos => exact lowDigits_reverse 10 (Nat.pos_of_ne_zero hpos) (by omega)

lemma foldlM_appendStr (out : List UInt8) : parts.foldlM (appendStr capacity) out = some frame →
    frame = out ++ parts.flatten := by
  induction parts generalizing out with
  | nil =>
    intro hframe
    rw [← some.inj hframe, flatten_nil, append_nil]
  | cons part parts ih =>
    intro hframe
    rw [foldlM_cons] at hframe
    obtain ⟨next, hnext, hframe⟩ := bind_eq_some_iff.mp hframe
    rw [appendStr] at hnext
    split at hnext
    · cases hnext
      rw [ih _ hframe, flatten_cons, append_assoc]
    · cases hnext

lemma eq_of_build (hframe : build capacity parts = some frame) : frame = parts.flatten :=
  foldlM_appendStr [] hframe

def Understood (deviceId frame : List UInt8) : Prop :=
  parseWire frame = some (.announce, deviceId)

lemma parseWire_frameParts (verb : Char) (deviceId : List UInt8) (seq : Nat) (last : List UInt8) :
    parseWire (frameParts verb deviceId seq last).flatten = none := by
  refine eq_none_iff_forall_ne_some.mpr fun ⟨found, id⟩ hparse => ?_
  obtain ⟨-, value, hfields, -⟩ := parseWire_eq_some_iff.mp hparse
  have hline : (frameParts verb deviceId seq last).flatten = magic ++ bar :: (ascii [verb] ++ bar ::
        (deviceId ++ bar :: (u32Digits seq ++ bar :: last))) := by
    simp [frameParts, magic, ascii, bar]
  rw [hline] at hfields
  simp only [splitOn_append_cons_self] at hfields
  -- each of the five parts has a field at least
  have hlength := congrArg length hfields
  simp only [length_append, length_cons, length_nil] at hlength
  have hsome : ∀ text : List UInt8, 0 < (text.splitOn bar).length :=
    fun text => length_pos_iff.mpr (splitOn_ne_nil bar text)
  have h₁ := hsome magic
  have h₂ := hsome (ascii [verb])
  have h₃ := hsome deviceId
  have h₄ := hsome (u32Digits seq)
  have h₅ := hsome last
  omega

/-- No announcement of a device is understood, by the microcontroller's firmware or by the
node's with its terminator removed. -/
theorem announce_not_understood (hframe : fmtAnnounce deviceId tools seq = some frame ∨
      nodeAnnounce deviceId tools seq = some (frame ++ [newline])) :
    ¬ Understood deviceId frame := by
  have hparts : frame = (frameParts 'A' deviceId seq tools).flatten := by
    rcases hframe with hmcu | hnode
    · exact eq_of_build hmcu
    · have hline := eq_of_build hnode
      rw [flatten_append] at hline
      exact append_cancel_right hline
  rw [Understood, hparts, parseWire_frameParts]
  exact some_ne_none _ ∘ Eq.symm

def defaultAnnounce : List UInt8 :=
  ascii ['K', 'R', 'T', '1', '|', 'A', '|', 'e', 's', 'p', '3', '2', '-', '1', '|', '0', '|'] ++
    McuRole.sensor.tools

theorem announce_not_understood_default :
    fmtAnnounce defaultId McuRole.sensor.tools 0 = some defaultAnnounce ∧
      ¬ Understood defaultId defaultAnnounce :=
  have hframe : fmtAnnounce defaultId McuRole.sensor.tools 0 = some defaultAnnounce := by decide
  ⟨hframe, announce_not_understood (.inl hframe)⟩

/-- The first announcement of the default device has five fields. -/
theorem default_announce_rejected : ¬ ∀ deviceId tools seq frame, seq < 2 ^ 32 → bar ∉ deviceId →
    fmtAnnounce deviceId tools seq = some frame ∨
      nodeAnnounce deviceId tools seq = some (frame ++ [newline]) →
    Understood deviceId frame := by
  intro hunderstood
  have hframe : Understood defaultId defaultAnnounce :=
    hunderstood defaultId McuRole.sensor.tools 0 _ (by decide) (by decide) (.inl (by decide))
  exact absurd hframe (by rw [Understood]; decide)

end KarteOs.Device

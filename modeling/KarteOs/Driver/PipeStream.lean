import KarteOs.Driver.Pipe
import KarteOs.Foundation.Ring
import Mathlib.Data.List.Induction

/-! # A pipe as a stream of bytes

What the reads have delivered and what is in the ring is what the writes have accepted,
in order. The ring never holds more than it has room for.
-/

namespace KarteOs.Driver

open Ring List Nat

/-- A transfer with a buffer that is not null and a length that is not zero, or the close of
an end. -/
inductive PipeCall
  | transfer (side : PipeEnd) (buf len : {n : Nat // n ≠ 0}) (input : Nat → UInt8)
  | close (side : PipeEnd)

namespace Pipe

def perform (p : Pipe) : PipeCall → PipeSection
  | .transfer side buf len input => p.attempt side buf len input
  | .close side => p.close side

/-- The bytes of the caller that a call has accepted: a write returns their number. -/
def accepts (p : Pipe) : PipeCall → List UInt8
  | .transfer .write buf len input =>
    (List.range (p.write buf len input).result.toNat).map input
  | .transfer .read .. | .close _ => []

def buffered (p : Pipe) : List UInt8 := contents pipeBufSize p.buffer p.readPos p.dataLen

/-- The positions fit the number of bytes in the ring, for which there is room. -/
structure Sound (p : Pipe) : Prop where
  bounded : p.dataLen ≤ pipeBufSize
  readPos_lt : p.readPos < pipeBufSize
  positions : p.writePos = (p.readPos + p.dataLen) % pipeBufSize

variable {p : Pipe}

lemma readLoop_eq (count : Nat) (hpos : p.readPos < pipeBufSize) :
    readLoop count p = (contents pipeBufSize p.buffer p.readPos count,
      { p with readPos := (p.readPos + count) % pipeBufSize }) := by
  induction count generalizing p with
  | zero =>
    rw [readLoop, Nat.add_zero, mod_eq_of_lt hpos]
    rfl
  | succ count ih =>
    have hnext : (p.readPos + 1) % pipeBufSize < pipeBufSize := mod_lt _ (by decide)
    rw [readLoop, ih hnext, Nat.add_comm count, contents_add, contents_one,
      mod_eq_of_lt hpos, mod_add_mod, Nat.add_assoc]
    rfl

lemma writeLoop_eq (input : Nat → UInt8) (i : Nat) {start len count : Nat}
    (hpos : p.writePos = (start + len) % pipeBufSize) (hroom : len + count ≤ pipeBufSize) :
    ∃ buffer, writeLoop input i count p =
        { p with buffer, writePos := (start + (len + count)) % pipeBufSize } ∧
      contents pipeBufSize buffer start (len + count) =
        contents pipeBufSize p.buffer start len ++ (range' i count).map input := by
  induction count generalizing i len p with
  | zero =>
    refine ⟨p.buffer, ?_, by simp⟩
    rw [writeLoop, Nat.add_zero, ← hpos]
  | succ count ih =>
    have hlen : len < pipeBufSize := by omega
    have hnext : (p.writePos + 1) % pipeBufSize = (start + (len + 1)) % pipeBufSize := by
      rw [hpos, mod_add_mod, Nat.add_assoc]
    obtain ⟨buffer, hloop, hcontents⟩ := ih (p := { p with
      buffer := Function.update p.buffer p.writePos (input i)
      writePos := (p.writePos + 1) % pipeBufSize }) (i + 1) hnext (by omega)
    refine ⟨buffer, ?_, ?_⟩
    · rw [writeLoop, hloop, Nat.add_assoc len, Nat.add_comm 1]
    · rw [← Nat.add_assoc, Nat.add_right_comm, hcontents, hpos, contents_push hlen, append_assoc]
      rfl

section
variable (buf len : {n : Nat // n ≠ 0}) (input : Nat → UInt8)

lemma not_null : ¬(len.1 = 0 ∨ buf.1 = 0) := not_or.mpr ⟨len.2, buf.2⟩

lemma read_of_empty (hempty : p.dataLen = 0) :
    p.read buf len = ⟨p, if p.writeClosed then 0 else -1, [], none⟩ := by
  rw [read, if_neg (not_null buf len), if_pos hempty]
  split <;> rfl

lemma read_of_pos (hp : p.Sound) (hdata : 0 < p.dataLen) : ∃ count, 0 < count ∧
    count ≤ p.dataLen ∧ p.read buf len = ⟨{ p with
      readPos := (p.readPos + count) % pipeBufSize, dataLen := p.dataLen - count,
      writerBlocked := none }, count, contents pipeBufSize p.buffer p.readPos count,
      p.writerBlocked⟩ := by
  have hpos : 0 < min len.1 p.dataLen := Nat.lt_min.mpr ⟨Nat.pos_of_ne_zero len.2, hdata⟩
  refine ⟨min len.1 p.dataLen, hpos, Nat.min_le_right .., ?_⟩
  simp only [read, if_neg (not_null buf len), if_neg hdata.ne', readLoop_eq _ hp.readPos_lt,
    if_pos hpos]

lemma write_of_refused (hrefused : p.readClosed ∨ p.dataLen = pipeBufSize) :
    p.write buf len input = ⟨p, if p.readClosed then epipe else -1, [], none⟩ := by
  rw [write, if_neg (not_null buf len)]
  cases hclosed : p.readClosed with
  | true => rfl
  | false =>
    have hfull : p.dataLen = pipeBufSize := by simpa [hclosed] using hrefused
    simp [hfull]

lemma write_of_space (hp : p.Sound) (hopen : p.readClosed = false)
    (hspace : p.dataLen < pipeBufSize) : ∃ buffer count, 0 < count ∧
    p.dataLen + count ≤ pipeBufSize ∧ p.write buf len input = ⟨{ p with
      buffer, writePos := (p.readPos + (p.dataLen + count)) % pipeBufSize,
      dataLen := p.dataLen + count, readerBlocked := none }, count, [], p.readerBlocked⟩ ∧
    contents pipeBufSize buffer p.readPos (p.dataLen + count) =
      p.buffered ++ (range count).map input := by
  have hpos : 0 < min len.1 (pipeBufSize - p.dataLen) :=
    Nat.lt_min.mpr ⟨Nat.pos_of_ne_zero len.2, Nat.sub_pos_of_lt hspace⟩
  have hroom : p.dataLen + min len.1 (pipeBufSize - p.dataLen) ≤ pipeBufSize := by omega
  obtain ⟨buffer, hloop, hcontents⟩ := writeLoop_eq input 0 hp.positions hroom
  refine ⟨buffer, _, hpos, hroom, ?_, by rw [hcontents, range_eq_range', buffered]⟩
  simp only [write, if_neg (not_null buf len), hopen, Bool.false_eq_true, if_false,
    if_neg (Nat.sub_pos_of_lt hspace).ne', hloop, if_pos hpos]

end

/-- What a call does to a sound pipe: the bytes it delivers come from the start of the ring,
those it accepts go to its end, and an end is closed by its own close alone. -/
@[mk_iff]
structure Streams (p : Pipe) (call : PipeCall) : Prop where
  sound : (p.perform call).pipe.Sound
  stream : (p.perform call).stored ++ (p.perform call).pipe.buffered = p.buffered ++ p.accepts call
  closed : ∀ side, (p.perform call).pipe.closedAt side ↔ p.closedAt side ∨ call = .close side

variable (hp : p.Sound)
include hp

lemma Sound.read_streams (buf len : {n : Nat // n ≠ 0}) (input : Nat → UInt8) :
    p.Streams (.transfer .read buf len input) := by
  rcases Nat.eq_zero_or_pos p.dataLen with hempty | hdata
  · have hread := read_of_empty buf len hempty
    constructor <;> simp [perform, attempt, hread, hp, accepts]
  · obtain ⟨count, -, hle, hread⟩ := read_of_pos buf len hp hdata
    simp only [streams_iff, perform, attempt, hread, accepts, append_nil]
    refine ⟨⟨(Nat.sub_le ..).trans hp.bounded, Nat.mod_lt _ (by decide), ?_⟩, ?_, ?_⟩
    · rw [Nat.mod_add_mod, Nat.add_assoc, Nat.add_sub_cancel' hle]
      exact hp.positions
    · rw [buffered, buffered, ← contents_add, Nat.add_sub_cancel' hle]
    · rintro (_ | _) <;> simp [closedAt]

lemma Sound.write_streams (buf len : {n : Nat // n ≠ 0})
    (input : Nat → UInt8) : p.Streams (.transfer .write buf len input) := by
  by_cases hrefused : p.readClosed ∨ p.dataLen = pipeBufSize
  · have hwrite := write_of_refused buf len input hrefused
    have hnone : (if p.readClosed then epipe else -1 : Int).toNat = 0 := by split <;> rfl
    constructor <;> simp [perform, attempt, hwrite, hp, accepts, hnone]
  · obtain ⟨hopen, hspace⟩ := not_or.mp hrefused
    obtain ⟨buffer, count, -, hroom, hwrite, hcontents⟩ := write_of_space buf len input hp
      (Bool.eq_false_iff.mpr hopen) (Nat.lt_of_le_of_ne hp.bounded hspace)
    simp only [streams_iff, perform, attempt, hwrite, accepts, nil_append, Int.toNat_natCast]
    exact ⟨⟨hroom, hp.readPos_lt, rfl⟩, hcontents, by rintro (_ | _) <;> simp [closedAt]⟩

lemma Sound.streams (call : PipeCall) : p.Streams call := by
  cases call with
  | transfer side buf len input =>
    cases side with
    | read => exact hp.read_streams buf len input
    | write => exact hp.write_streams buf len input
  | close side =>
    cases side with
    | read | write =>
      refine ⟨⟨hp.bounded, hp.readPos_lt, hp.positions⟩, (append_nil _).symm, ?_⟩
      rintro (_ | _) <;> simp [perform, close, closeRead, closeWrite, closedAt]

lemma Sound.read_eq_zero_iff (buf len : {n : Nat // n ≠ 0}) :
    (p.read buf len).result = 0 ↔ p.dataLen = 0 ∧ p.writeClosed := by
  rcases Nat.eq_zero_or_pos p.dataLen with hempty | hdata
  · rw [read_of_empty buf len hempty]
    simp [hempty]
  · obtain ⟨count, hpos, -, hread⟩ := read_of_pos buf len hp hdata
    rw [hread]
    exact iff_of_false (fun hzero => hpos.ne' (Int.natCast_eq_zero.mp hzero)) fun h => hdata.ne' h.1

lemma Sound.write_eq_epipe_iff (buf len : {n : Nat // n ≠ 0})
    (input : Nat → UInt8) : (p.write buf len input).result = epipe ↔ p.readClosed := by
  by_cases hrefused : p.readClosed ∨ p.dataLen = pipeBufSize
  · rw [write_of_refused buf len input hrefused]
    cases p.readClosed <;> simp [epipe]
  · obtain ⟨hopen, hspace⟩ := not_or.mp hrefused
    obtain ⟨_, count, -, -, hwrite, -⟩ := write_of_space buf len input hp
      (Bool.eq_false_iff.mpr hopen) (Nat.lt_of_le_of_ne hp.bounded hspace)
    rw [hwrite]
    exact iff_of_false (fun heq => absurd heq (by simp only [epipe]; omega)) hopen

end Pipe

/-- A pipe with the bytes that its reads have delivered and its writes have accepted so far. -/
structure PipeHistory where
  pipe : Pipe
  delivered : List UInt8
  accepted : List UInt8

namespace PipeHistory

def new : PipeHistory := ⟨.new, [], []⟩

def apply (h : PipeHistory) (call : PipeCall) : PipeHistory :=
  ⟨(h.pipe.perform call).pipe, h.delivered ++ (h.pipe.perform call).stored,
    h.accepted ++ h.pipe.accepts call⟩

/-- The stream is what was accepted: first what was delivered, then what is in the ring; and
the closed ends are those that the calls have closed. -/
structure Fifo (calls : List PipeCall) (h : PipeHistory) : Prop where
  sound : h.pipe.Sound
  stream : h.delivered ++ h.pipe.buffered = h.accepted
  closed : ∀ side, h.pipe.closedAt side ↔ .close side ∈ calls

lemma Fifo.apply {calls : List PipeCall} {h : PipeHistory} (hh : h.Fifo calls)
    (call : PipeCall) : (h.apply call).Fifo (calls ++ [call]) := by
  obtain ⟨hsound, hstream, hclosed⟩ := hh.sound.streams call
  refine ⟨hsound, ?_, fun side => ?_⟩
  · change (h.delivered ++ _) ++ (h.pipe.perform call).pipe.buffered = h.accepted ++ _
    rw [append_assoc, hstream, ← append_assoc, hh.stream]
  · rw [mem_append, mem_singleton, ← hh.closed, eq_comm (b := call)]
    exact hclosed side

lemma fifo_run (calls : List PipeCall) : (calls.foldl apply new).Fifo calls := by
  induction calls using List.reverseRecOn with
  | nil =>
    refine ⟨⟨Nat.zero_le _, by decide, rfl⟩, rfl, ?_⟩
    rintro (_ | _) <;> simp [new, Pipe.new, Pipe.closedAt]
  | append_singleton calls call ih =>
    rw [foldl_append]
    exact ih.apply call

/-- After any calls a pipe is a bounded queue of bytes, and the next call reports the end of the
file, or a broken pipe, just when it should: when the other end has been closed. -/
theorem run_fifo (calls : List PipeCall) :
    (calls.foldl apply new).Fifo calls ∧ ∀ (buf len : {n : Nat // n ≠ 0}) (input : Nat → UInt8),
      (((calls.foldl apply new).pipe.read buf len).result = 0 ↔
        (calls.foldl apply new).pipe.buffered = [] ∧ .close .write ∈ calls) ∧
      (((calls.foldl apply new).pipe.write buf len input).result = epipe ↔
        .close .read ∈ calls) := by
  have hfifo := fifo_run calls
  refine ⟨hfifo, fun buf len input => ⟨?_, ?_⟩⟩
  · rw [hfifo.sound.read_eq_zero_iff, Pipe.buffered, ← length_eq_zero_iff, length_contents,
      ← hfifo.closed]
    rfl
  · rw [hfifo.sound.write_eq_epipe_iff, ← hfifo.closed]
    rfl

end PipeHistory

end KarteOs.Driver

import Mathlib.Logic.Function.Basic

/-! # Anonymous pipes

The ring buffer of one pipe with the four sections that run under the pipe
table's lock: `read`, `write`, `close_read` and `close_write`. A section that
frees a waiter takes it out of its registration; the caller wakes it.
-/

namespace KarteOs.Driver

open Function

def pipeBufSize : Nat := 4096

def epipe : Int := -32

inductive PipeEnd
  | read
  | write
deriving DecidableEq

def PipeEnd.other : PipeEnd → PipeEnd
  | .read => .write
  | .write => .read

lemma PipeEnd.eq_or_other (waiters side : PipeEnd) : waiters = side ∨ waiters = side.other := by
  cases waiters <;> cases side <;> simp [PipeEnd.other]

lemma PipeEnd.both_iff (good : PipeEnd → Prop) (side : PipeEnd) :
    good .read ∧ good .write ↔ good side ∧ good side.other := by
  cases side with
  | read => rfl
  | write => exact and_comm

lemma PipeEnd.other_ne (side : PipeEnd) : side.other ≠ side := by
  cases side <;> simp [PipeEnd.other]

structure Pipe where
  buffer : Nat → UInt8
  readPos : Nat
  writePos : Nat
  dataLen : Nat
  readClosed : Bool
  writeClosed : Bool
  readerBlocked : Option Nat
  writerBlocked : Option Nat

/-- What one section leaves behind: the pipe, its return value, the bytes it
stores at the user's buffer and the process it has to wake. -/
structure PipeSection where
  pipe : Pipe
  result : Int
  stored : List UInt8
  woken : Option Nat

namespace Pipe

def new : Pipe :=
  { buffer := fun _ => 0, readPos := 0, writePos := 0, dataLen := 0, readClosed := false,
    writeClosed := false, readerBlocked := none, writerBlocked := none }

def readLoop : Nat → Pipe → List UInt8 × Pipe
  | 0, p => ([], p)
  | count + 1, p =>
    let (rest, next) := readLoop count { p with readPos := (p.readPos + 1) % pipeBufSize }
    (p.buffer p.readPos :: rest, next)

def writeLoop (input : Nat → UInt8) : Nat → Nat → Pipe → Pipe
  | _, 0, p => p
  | i, count + 1, p =>
    writeLoop input (i + 1) count
      { p with
        buffer := update p.buffer p.writePos (input i)
        writePos := (p.writePos + 1) % pipeBufSize }

variable (p : Pipe)

def read (buf len : Nat) : PipeSection :=
  if len = 0 ∨ buf = 0 then ⟨p, 0, [], none⟩
  else if p.dataLen = 0 then
    if p.writeClosed then ⟨p, 0, [], none⟩ else ⟨p, -1, [], none⟩
  else
    let toRead := min len p.dataLen
    let (stored, p) := readLoop toRead p
    let p := { p with dataLen := p.dataLen - toRead }
    if 0 < toRead then ⟨{ p with writerBlocked := none }, toRead, stored, p.writerBlocked⟩
    else ⟨p, toRead, stored, none⟩

def write (buf len : Nat) (input : Nat → UInt8) : PipeSection :=
  if len = 0 ∨ buf = 0 then ⟨p, 0, [], none⟩
  else if p.readClosed then ⟨p, epipe, [], none⟩
  else
    let available := pipeBufSize - p.dataLen
    if available = 0 then ⟨p, -1, [], none⟩
    else
      let toWrite := min len available
      let p := writeLoop input 0 toWrite p
      let p := { p with dataLen := p.dataLen + toWrite }
      if 0 < toWrite then ⟨{ p with readerBlocked := none }, toWrite, [], p.readerBlocked⟩
      else ⟨p, toWrite, [], none⟩

def closeRead : PipeSection :=
  ⟨{ p with readClosed := true, writerBlocked := none }, 0, [], p.writerBlocked⟩

def closeWrite : PipeSection :=
  ⟨{ p with writeClosed := true, readerBlocked := none }, 0, [], p.readerBlocked⟩

def setReaderBlocked (procIdx : Nat) : Pipe :=
  { p with readerBlocked := some procIdx }

def setWriterBlocked (procIdx : Nat) : Pipe :=
  { p with writerBlocked := some procIdx }

def isFullyClosed : Bool :=
  p.readClosed && p.writeClosed

def attempt (side : PipeEnd) (buf len : Nat) (input : Nat → UInt8) : PipeSection :=
  match side with
  | .read => p.read buf len
  | .write => p.write buf len input

def close : PipeEnd → PipeSection
  | .read => p.closeRead
  | .write => p.closeWrite

def setBlocked (side : PipeEnd) (procIdx : Nat) : Pipe :=
  match side with
  | .read => p.setReaderBlocked procIdx
  | .write => p.setWriterBlocked procIdx

def closedAt : PipeEnd → Bool
  | .read => p.readClosed
  | .write => p.writeClosed

def blocked : PipeEnd → Option Nat
  | .read => p.readerBlocked
  | .write => p.writerBlocked

/-- A reader has data or the end of file, a writer has space or a broken pipe. -/
def Satisfied : PipeEnd → Prop
  | .read => 0 < p.dataLen ∨ p.writeClosed = true
  | .write => p.dataLen < pipeBufSize ∨ p.readClosed = true

instance (p : Pipe) (side : PipeEnd) : Decidable (p.Satisfied side) := by
  unfold Satisfied
  split <;> infer_instance

def Transfers (p : Pipe) (buf len : Nat) : PipeEnd → Prop
  | .read => len ≠ 0 ∧ buf ≠ 0 ∧ 0 < p.dataLen
  | .write => len ≠ 0 ∧ buf ≠ 0 ∧ p.readClosed = false ∧ p.dataLen < pipeBufSize

instance (p : Pipe) (buf len : Nat) (side : PipeEnd) : Decidable (p.Transfers buf len side) := by
  unfold Transfers
  split <;> infer_instance

end Pipe

namespace PipeSection

/-- Toward the waiters of one end a section either takes their registration, to
wake who it names, or leaves it and satisfies nobody who was not satisfied. -/
def Serves (p : Pipe) (step : PipeSection) (side : PipeEnd) : Prop :=
  step.pipe.blocked side = none ∧ step.woken = p.blocked side ∨
    step.pipe.blocked side = p.blocked side ∧ (step.pipe.Satisfied side → p.Satisfied side)

end PipeSection

namespace Pipe

variable {p : Pipe} {buf len : Nat} {input : Nat → UInt8}

lemma readLoop_frame (count : Nat) (p : Pipe) :
    ∃ readPos, (readLoop count p).2 = { p with readPos } := by
  induction count generalizing p with
  | zero => exact ⟨p.readPos, rfl⟩
  | succ count ih => exact ih _

lemma writeLoop_frame (input : Nat → UInt8) (i count : Nat) (p : Pipe) :
    ∃ buffer writePos, writeLoop input i count p = { p with buffer, writePos } := by
  induction count generalizing i p with
  | zero => exact ⟨p.buffer, p.writePos, rfl⟩
  | succ count ih => exact ih _ _

lemma not_transfers_of_null (hnull : len = 0 ∨ buf = 0)
    (side : PipeEnd) : ¬p.Transfers buf len side := by
  rcases hnull with rfl | rfl
  all_goals cases side <;> simp [Transfers]

lemma read_cases (p : Pipe) (buf len : Nat) :
    (¬p.Transfers buf len .read ∧ (p.read buf len).pipe = p ∧ (p.read buf len).woken = none ∧
      ((p.read buf len).result = -1 → ¬p.Satisfied .read)) ∨
    (p.Transfers buf len .read ∧ (p.read buf len).result ≠ -1 ∧
      (p.read buf len).woken = p.writerBlocked ∧ ∃ readPos, (p.read buf len).pipe =
        { p with readPos, dataLen := p.dataLen - min len p.dataLen, writerBlocked := none }) := by
  unfold read
  split
  next hnull => exact .inl ⟨not_transfers_of_null hnull _, rfl, rfl, by simp⟩
  next hnull =>
    rw [not_or] at hnull
    split
    next hempty =>
      have hnone : ¬p.Transfers buf len .read := fun h => absurd h.2.2 (by omega)
      split
      · exact .inl ⟨hnone, rfl, rfl, by simp⟩
      next hopen => exact .inl ⟨hnone, rfl, rfl, fun _ => by simp [Satisfied, hempty, hopen]⟩
    next hdata =>
      have hpos : 0 < min len p.dataLen := by omega
      obtain ⟨readPos, hloop⟩ := readLoop_frame (min len p.dataLen) p
      refine .inr ⟨⟨hnull.1, hnull.2, by omega⟩, ?_⟩
      simp only [hloop, if_pos hpos]
      exact ⟨by omega, trivial, readPos, rfl⟩

lemma write_cases (p : Pipe) (buf len : Nat) (input : Nat → UInt8) :
    (¬p.Transfers buf len .write ∧ (p.write buf len input).pipe = p ∧
      (p.write buf len input).woken = none ∧
      ((p.write buf len input).result = -1 → ¬p.Satisfied .write)) ∨
    (p.Transfers buf len .write ∧ (p.write buf len input).result ≠ -1 ∧
      (p.write buf len input).woken = p.readerBlocked ∧
      ∃ buffer writePos, (p.write buf len input).pipe = { p with
          buffer
          writePos
          dataLen := p.dataLen + min len (pipeBufSize - p.dataLen)
          readerBlocked := none }) := by
  unfold write
  split
  next hnull => exact .inl ⟨not_transfers_of_null hnull _, rfl, rfl, by simp⟩
  next hnull =>
    rw [not_or] at hnull
    split
    next hclosed =>
      refine .inl ⟨fun h => ?_, rfl, rfl, by simp [epipe]⟩
      exact Bool.false_ne_true (h.2.2.1.symm.trans hclosed)
    next hopen =>
      rw [Bool.not_eq_true] at hopen
      simp only
      split
      next hfull =>
        have hlen : ¬p.dataLen < pipeBufSize := by omega
        exact .inl ⟨fun h => hlen h.2.2.2, rfl, rfl, fun _ => by simp [Satisfied, hlen, hopen]⟩
      next hspace =>
        have hpos : 0 < min len (pipeBufSize - p.dataLen) := by omega
        obtain ⟨buffer, writePos, hloop⟩ :=
          writeLoop_frame input 0 (min len (pipeBufSize - p.dataLen)) p
        refine .inr ⟨⟨hnull.1, hnull.2, hopen, by omega⟩, ?_⟩
        simp only [hloop, if_pos hpos]
        exact ⟨by omega, trivial, buffer, writePos, rfl⟩

lemma attempt_cases (p : Pipe) (side : PipeEnd) (buf len : Nat) (input : Nat → UInt8) :
    (¬p.Transfers buf len side ∧ (p.attempt side buf len input).pipe = p ∧
      (p.attempt side buf len input).woken = none ∧
      ((p.attempt side buf len input).result = -1 → ¬p.Satisfied side)) ∨
    (p.Transfers buf len side ∧ (p.attempt side buf len input).result ≠ -1 ∧
      (p.attempt side buf len input).woken = p.blocked side.other ∧
      (p.attempt side buf len input).pipe.blocked side.other = none ∧
      (p.attempt side buf len input).pipe.blocked side = p.blocked side ∧
      ((p.attempt side buf len input).pipe.Satisfied side → p.Satisfied side)) := by
  cases side with
  | read =>
    refine (p.read_cases buf len).imp_right fun ⟨hmoves, hresult, hwoken, readPos, hpipe⟩ => ?_
    refine ⟨hmoves, hresult, hwoken, ?_⟩
    simp only [attempt, hpipe]
    exact ⟨rfl, rfl, Or.imp_left fun hdata => Nat.lt_of_lt_of_le hdata (Nat.sub_le ..)⟩
  | write =>
    refine (p.write_cases buf len input).imp_right
      fun ⟨hmoves, hresult, hwoken, buffer, writePos, hpipe⟩ => ?_
    refine ⟨hmoves, hresult, hwoken, ?_⟩
    simp only [attempt, hpipe]
    exact ⟨rfl, rfl, Or.imp_left fun hspace => Nat.lt_of_le_of_lt (Nat.le_add_right ..) hspace⟩

lemma attempt_serves (p : Pipe) (side : PipeEnd) (buf len : Nat) (input : Nat → UInt8)
    (waiters : PipeEnd) : PipeSection.Serves p (p.attempt side buf len input) waiters := by
  obtain ⟨_, hpipe, _⟩ | ⟨_, _, hwoken, hother, hself, hsatisfied⟩ :=
    p.attempt_cases side buf len input
  · exact .inr ⟨by rw [hpipe], by rw [hpipe]; exact id⟩
  · rcases waiters.eq_or_other side with rfl | rfl
    · exact .inr ⟨hself, hsatisfied⟩
    · exact .inl ⟨hother, hwoken⟩

lemma close_serves (p : Pipe) (side waiters : PipeEnd) :
    PipeSection.Serves p (p.close side) waiters := by
  cases side <;> cases waiters
  case read.write | write.read => exact .inl ⟨rfl, rfl⟩
  case read.read | write.write => exact .inr ⟨rfl, id⟩

variable {side waiters : PipeEnd}

lemma satisfied_attempt (hsatisfied : (p.attempt side buf len input).pipe.Satisfied waiters) :
    p.Satisfied waiters ∨ p.Transfers buf len side ∧ waiters = side.other := by
  obtain ⟨_, hpipe, _⟩ | ⟨hmoves, _, _, _, _, hself⟩ := p.attempt_cases side buf len input
  · exact .inl (hpipe ▸ hsatisfied)
  · rcases waiters.eq_or_other side with rfl | rfl
    · exact .inl (hself hsatisfied)
    · exact .inr ⟨hmoves, rfl⟩

lemma satisfied_close (hsatisfied : (p.close side).pipe.Satisfied waiters) :
    p.Satisfied waiters ∨ waiters = side.other := by
  cases side <;> cases waiters
  case read.write | write.read => exact .inr rfl
  case read.read | write.write => exact .inl hsatisfied

@[simp]
lemma satisfied_setBlocked {procIdx : Nat} :
    (p.setBlocked side procIdx).Satisfied waiters ↔ p.Satisfied waiters := by
  cases side <;> cases waiters <;> rfl

lemma blocked_setBlocked (side : PipeEnd) (procIdx : Nat) :
    (p.setBlocked side procIdx).blocked = update p.blocked side (some procIdx) := by
  funext waiters
  cases side <;> cases waiters <;> rfl

lemma satisfied_of_isFullyClosed (hclosed : p.isFullyClosed) (side : PipeEnd) :
    p.Satisfied side := by
  obtain ⟨hread, hwrite⟩ := Bool.and_eq_true_iff.mp hclosed
  cases side with
  | read => exact .inr hwrite
  | write => exact .inr hread

end Pipe

end KarteOs.Driver

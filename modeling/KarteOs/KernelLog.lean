import KarteOs.Foundation.Ring

/-! # The kernel log ring

One byte of the ring is never in use, so that a full ring and an empty one have different
positions. A write to a full ring gives up the oldest byte.
-/

namespace KarteOs

open Function Ring Nat

abbrev klogBufSize : Nat := 32768

structure LogBuffer where
  data : Nat → UInt8
  head : Nat
  tail : Nat

namespace LogBuffer

def new : LogBuffer := ⟨fun _ => 0, 0, 0⟩

variable (l : LogBuffer)

def available : Nat :=
  if l.tail ≤ l.head then l.head - l.tail else klogBufSize - l.tail + l.head

def writeByte (byte : UInt8) : LogBuffer :=
  let nextHead := (l.head + 1) % klogBufSize
  { data := update l.data l.head byte
    head := nextHead
    tail := if nextHead = l.tail then (l.tail + 1) % klogBufSize else l.tail }

/-- The loop of `read` and `peek`: the bytes stored to the buffer from `pos` on. -/
def copyOut (l : LogBuffer) : Nat → Nat → List UInt8
  | 0, _ => []
  | count + 1, pos => l.data pos :: l.copyOut count ((pos + 1) % klogBufSize)

/-- The bytes stored to a buffer of `len` bytes, whose number is returned. -/
def read (len : Nat) : List UInt8 × LogBuffer :=
  let toRead := min l.available len
  (l.copyOut toRead l.tail, { l with tail := (l.tail + toRead) % klogBufSize })

def peek (len offset : Nat) : List UInt8 :=
  if l.available ≤ offset then []
  else l.copyOut (min (l.available - offset) len) ((l.tail + offset) % klogBufSize)

def clear : LogBuffer := { l with tail := l.head }

end LogBuffer

inductive LogCall
  | writeByte (byte : UInt8)
  | read (len : Nat)
  | peek (len offset : Nat)
  | clear

/-- What a call stores and leaves, on a queue of bytes. -/
def logQueue (queue : List UInt8) : LogCall → List UInt8 × List UInt8
  | .writeByte byte => ([], keepNewest 32767 queue byte)
  | .read len => (queue.take len, queue.drop len)
  | .peek len offset => ((queue.drop offset).take len, queue)
  | .clear => ([], [])

namespace LogBuffer

def perform (l : LogBuffer) : LogCall → List UInt8 × LogBuffer
  | .writeByte byte => ([], l.writeByte byte)
  | .read len => l.read len
  | .peek len offset => (l.peek len offset, l)
  | .clear => ([], l.clear)

def shape : Shape where
  size := klogBufSize
  period := klogBufSize
  capacity := 32767
  dvd := dvd_rfl
  pos := by decide
  le_size := by decide
  lt_period := by decide

def Holds (l : LogBuffer) (queue : List UInt8) : Prop :=
  Ring.Holds shape l.data l.tail l.head queue

variable {l : LogBuffer} {queue : List UInt8}

lemma copyOut_eq {count pos : Nat} (hpos : pos < klogBufSize) :
    l.copyOut count pos = contents klogBufSize l.data pos count := by
  induction count generalizing pos with
  | zero => rfl
  | succ count ih => rw [copyOut, ih (mod_lt _ (by decide)), contents_succ, mod_eq_of_lt hpos]

namespace Holds

variable (h : l.Holds queue)
include h

lemma head_lt : l.head < klogBufSize := h.head_eq ▸ mod_lt _ (by decide)

lemma positions : l.tail < 32768 ∧ l.head = (l.tail + queue.length) % 32768 ∧
    queue.length ≤ 32767 :=
  ⟨h.tail_lt, h.head_eq, h.bounded⟩

lemma available_eq : l.available = queue.length := by
  obtain ⟨htail, hhead, hlen⟩ := h.positions
  simp only [available, klogBufSize]
  split <;> omega

lemma full_iff : (l.head + 1) % klogBufSize = l.tail ↔ queue.length = 32767 := by
  obtain ⟨htail, hhead, hlen⟩ := h.positions
  simp only [klogBufSize]
  omega

lemma writeByte (byte : UInt8) : (l.writeByte byte).Holds (Ring.keepNewest 32767 queue byte) := by
  have hnext : Ring.Holds shape (update l.data (l.head % klogBufSize) byte)
      (if queue.length = 32767 then _ else _) _ _ := .keepNewest h byte
  rw [mod_eq_of_lt h.head_lt] at hnext
  simp only [LogBuffer.writeByte, LogBuffer.Holds, h.full_iff]
  exact hnext

lemma read (len : Nat) :
    (l.read len).1 = queue.take len ∧ (l.read len).2.Holds (queue.drop len) := by
  rw [LogBuffer.read, h.available_eq, copyOut_eq h.tail_lt, Nat.min_comm]
  have hdrop : queue.drop len = queue.drop (min len queue.length) :=
    List.drop_eq_drop_iff.mpr (by omega)
  rw [hdrop]
  exact ⟨(h.take_eq len).symm, h.drop (Nat.min_le_right ..)⟩

lemma peek (len offset : Nat) : l.peek len offset = (queue.drop offset).take len := by
  rw [LogBuffer.peek, h.available_eq, copyOut_eq (mod_lt _ (by decide)), Nat.min_comm]
  split
  · next hle => rw [List.drop_eq_nil_of_le hle, List.take_nil]
  · rw [h.drop_eq, take_contents]
    rfl

lemma clear : l.clear.Holds [] := ⟨Nat.zero_le _, h.head_lt, (mod_eq_of_lt h.head_lt).symm, rfl⟩

lemma perform (call : LogCall) : (l.perform call).1 = (logQueue queue call).1 ∧
    (l.perform call).2.Holds (logQueue queue call).2 := by
  cases call with
  | writeByte byte => exact ⟨rfl, h.writeByte byte⟩
  | read len => exact h.read len
  | peek len offset => exact ⟨h.peek len offset, h⟩
  | clear => exact ⟨rfl, h.clear⟩

end Holds

/-- After any calls the ring holds what the queue holds, and the next call stores the same. -/
theorem run_isByteQueue (calls : List LogCall) :
    ∃ l queue, l = calls.foldl (fun l call => (l.perform call).2) new ∧
      queue = calls.foldl (fun queue call => (logQueue queue call).2) [] ∧
      l.available = queue.length ∧ queue.length ≤ 32767 ∧
      ∀ call, (l.perform call).1 = (logQueue queue call).1 := by
  have hrun : ∀ {l queue}, Holds l queue → (calls.foldl (fun l call => (l.perform call).2) l).Holds
        (calls.foldl (fun queue call => (logQueue queue call).2) queue) := by
    induction calls with
    | nil => exact id
    | cons call calls ih => exact fun h => ih (h.perform call).2
  have h := hrun (Ring.Holds.empty shape new.data)
  exact ⟨_, _, rfl, rfl, h.available_eq, h.bounded, fun call => (h.perform call).1⟩

end LogBuffer

end KarteOs

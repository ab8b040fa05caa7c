import Mathlib.Algebra.Order.Ring.Nat
import KarteOs.Foundation.RangeLock
import KarteOs.Foundation.Run

/-! # Byte-range file locks

The table behind the lock commands of `fcntl`. The kernel only appends entries
and removes whole ones, so a table read as the POSIX map from owners and bytes
to locks is not always changed the way the call asks; the theorems say when it is.
-/

namespace KarteOs.Driver.FileLocks

open RangeLock Transition List

def fRdlck : UInt16 := 0

def fWrlck : UInt16 := 1

def fUnlck : UInt16 := 2

def fGetlk : Nat := 5

def fSetlk : Nat := 6

def fSetlkw : Nat := 7

def i64Max : Int := 2 ^ 63 - 1

/-- `struct flock`; `lType` has the bits of the `i16` that user space passes. -/
structure Flock where
  lType : UInt16
  lWhence : Int
  lStart : Int
  lLen : Int
  lPid : Int
deriving DecidableEq

namespace Flock

def absStart (flock : Flock) : Int := flock.lStart

def absEnd (flock : Flock) : Int :=
  if flock.lLen = 0 then i64Max else (flock.absStart + flock.lLen).bmod (2 ^ 64)

end Flock

structure FileLock where
  ownerFd : Nat
  inode : Nat
  lockType : UInt16
  start : Int
  stop : Int
deriving DecidableEq

def rangesOverlap (aStart aEnd bStart bEnd : Int) : Bool := aStart < bEnd && bStart < aEnd

/-- The first lock of another descriptor on the inode that overlaps the range
and is not compatible with the type. -/
def findConflict (locks : List FileLock) (inode ownerFd : Nat) (lockType : UInt16)
    (start stop : Int) : Option FileLock :=
  locks.find? fun lock =>
    lock.inode = inode && lock.ownerFd ≠ ownerFd &&
      rangesOverlap lock.start lock.stop start stop &&
      (lock.lockType = fWrlck || lockType = fWrlck)

/-- Whether an unlock of the range keeps the lock; one that overlaps goes as a whole. -/
def keptByUnlock (inode ownerFd : Nat) (start stop : Int) (lock : FileLock) : Bool :=
  (lock.inode ≠ inode || lock.ownerFd ≠ ownerFd) || !rangesOverlap lock.start lock.stop start stop

variable (locks : List FileLock)

def removeLocksInRange (inode ownerFd : Nat) (start stop : Int) : List FileLock :=
  locks.filter (keptByUnlock inode ownerFd start stop)

def addLock (inode ownerFd : Nat) (lockType : UInt16) (start stop : Int) : List FileLock :=
  locks ++ [⟨ownerFd, inode, lockType, start, stop⟩]

/-- Closing a descriptor drops every lock with its number, on every inode. -/
def releaseFdLocks (fd : Nat) : List FileLock :=
  locks.filter fun lock => lock.ownerFd ≠ fd

/-- The table after a lock command, its return value and the `flock` to write back.
`schedule` is what other tasks do to the table while the caller yields. -/
def fcntlLockOp (schedule : List FileLock → List FileLock) (cmd fd inode : Nat) (flock : Flock)
    (locks : List FileLock) : List FileLock × Int × Option Flock :=
  let lockType := flock.lType
  let start := flock.absStart
  let stop := flock.absEnd
  if cmd = fGetlk then
    match findConflict locks inode fd lockType start stop with
    | some conflict =>
      (locks, 0, some {
        lType := conflict.lockType
        lWhence := 0
        lStart := conflict.start
        lLen := if conflict.stop = i64Max then 0
          else (conflict.stop - conflict.start).bmod (2 ^ 64)
        lPid := 0 })
    | none => (locks, 0, some { flock with lType := fUnlck })
  else if cmd = fSetlk ∨ cmd = fSetlkw then
    if lockType = fUnlck then (removeLocksInRange locks inode fd start stop, 0, none)
    else
      match findConflict locks inode fd lockType start stop with
      | some _ =>
        if cmd = fSetlk then (locks, -1, none)
        else
          let locks := schedule locks
          match findConflict locks inode fd lockType start stop with
          | some _ => (locks, -1, none)
          | none => (addLock locks inode fd lockType start stop, 0, none)
      | none => (addLock locks inode fd lockType start stop, 0, none)
  else (locks, -1, none)

/-! ## The map of locks -/

def kindOf (lockType : UInt16) : Kind := if lockType = fWrlck then .exclusive else .shared

lemma kindOf_eq_exclusive {lockType : UInt16} :
    kindOf lockType = .exclusive ↔ lockType = fWrlck := by
  unfold kindOf
  split <;> simp [*]

variable (lock : FileLock)

def FileLock.entry : Entry Nat Int :=
  ⟨lock.ownerFd, kindOf lock.lockType, lock.start, lock.stop⟩

def entriesOf (inode : Nat) (locks : List FileLock) : List (Entry Nat Int) :=
  (locks.filter (·.inode = inode)).map FileLock.entry

def lockMap (inode : Nat) (locks : List FileLock) : LockMap Nat Int :=
  held (entriesOf inode locks)

lemma mem_entriesOf {inode : Nat} {locks : List FileLock} {entry : Entry Nat Int} :
    entry ∈ entriesOf inode locks ↔ ∃ lock ∈ locks, lock.inode = inode ∧ lock.entry = entry := by
  simp [entriesOf, and_assoc]

lemma rangesOverlap_iff (start stop : Int) :
    rangesOverlap lock.start lock.stop start stop ↔ lock.entry.Overlaps start stop := by
  simp [rangesOverlap, Entry.Overlaps, FileLock.entry]

lemma entriesOf_addLock (inode fd : Nat) (lockType : UInt16) (start stop : Int)
    (locks : List FileLock) : entriesOf inode (addLock locks inode fd lockType start stop) =
      entriesOf inode locks ++ [⟨fd, kindOf lockType, start, stop⟩] := by
  simp [entriesOf, addLock, FileLock.entry]

lemma entriesOf_removeLocksInRange (inode fd : Nat) (start stop : Int) (locks : List FileLock) :
    entriesOf inode (removeLocksInRange locks inode fd start stop) =
      dropOverlapping (entriesOf inode locks) fd start stop := by
  unfold entriesOf removeLocksInRange dropOverlapping
  rw [List.filter_map, List.filter_filter, List.filter_filter]
  congr 1
  refine filter_congr fun lock _ => ?_
  rw [Bool.eq_iff_iff]
  simp only [keptByUnlock, Bool.and_eq_true, Bool.or_eq_true, decide_eq_true_eq, Bool.not_eq_true',
    Function.comp_apply, ← Bool.not_eq_true, rangesOverlap_iff]
  have howner : lock.entry.owner = lock.ownerFd := rfl
  grind

/-! ## What a call asks for -/

/-- A lock command as the POSIX map describes it: a query or a request that does not
wait, on a range whose end is representable. -/
structure LockCall where
  cmd : Nat
  fd : Nat
  flock : Flock
  command : cmd = fGetlk ∨ cmd = fSetlk
  startNonneg : 0 ≤ flock.lStart
  lenNonneg : 0 ≤ flock.lLen
  endRepresentable : flock.lStart + flock.lLen ≤ i64Max

namespace LockCall

variable (call : LockCall)

/-- The bytes of a file the call is about; a file has at most `i64Max` bytes. -/
def Requested (byte : Int) : Prop :=
  (0 ≤ byte ∧ byte < i64Max) ∧ call.flock.lStart ≤ byte ∧
    (call.flock.lLen = 0 ∨ byte < call.flock.lStart + call.flock.lLen)
deriving Decidable

def kind : Kind := kindOf call.flock.lType

/-- What POSIX says of the call: the map before and after, the return value and
the `flock` that is written back. -/
def Conforms (before after : LockMap Nat Int) (result : Int) (out : Option Flock) : Prop :=
  if call.cmd = fGetlk then
    after = before ∧ result = 0 ∧ ∃ reported, out = some reported ∧
      (reported.lType = fUnlck ↔ ¬Blocked before call.fd call.kind call.Requested)
  else if call.flock.lType = fUnlck then
    after = assign before call.fd none call.Requested ∧ result = 0
  else
    (Blocked before call.fd call.kind call.Requested → after = before ∧ result = -1) ∧
      (¬Blocked before call.fd call.kind call.Requested →
        after = assign before call.fd (some call.kind) call.Requested ∧ result = 0)

/-- The call needs no lock of its owner to be split or weakened: an unlock finds what it
removes beyond its range backed by other locks, and a lock that is granted as a read lock
asks for no byte that the owner has locked for writing. -/
def KeepsWhole (inode : Nat) (locks : List FileLock) : Prop :=
  call.cmd = fSetlk →
    if call.flock.lType = fUnlck then
      Backed (entriesOf inode locks) call.fd call.flock.absStart call.flock.absEnd
    else
      findConflict locks inode call.fd call.flock.lType call.flock.absStart
        call.flock.absEnd = none →
      call.flock.lType = fWrlck ∨
        ∀ byte, call.Requested byte → lockMap inode locks call.fd byte ≠ some .exclusive

lemma absEnd_le : call.flock.absEnd ≤ i64Max ∧
    (call.flock.absStart < call.flock.absEnd ∨ call.flock.absStart = i64Max) := by
  have hstart := call.startNonneg
  have hlen := call.lenNonneg
  have hend := call.endRepresentable
  unfold i64Max at *
  unfold Flock.absEnd Flock.absStart i64Max
  split
  · omega
  next hlen' =>
    rw [Int.bmod_eq_of_le (by omega) (by omega)]
    omega

lemma requested_iff (byte : Int) :
    call.Requested byte ↔ Within call.flock.absStart call.flock.absEnd byte := by
  have hstart := call.startNonneg
  have hlen := call.lenNonneg
  have hend := call.endRepresentable
  unfold Requested Within Flock.absEnd Flock.absStart
  split
  next hzero => simp only [hzero, true_or, and_true]; omega
  next hlen' =>
    unfold i64Max at *
    rw [Int.bmod_eq_of_le (by omega) (by omega)]
    omega

end LockCall

/-- A lock that `fcntl` can have granted to a call: not an unlock, and a range that is
not empty or lies past the last byte of every file. -/
def FileLock.Granted : Prop :=
  lock.lockType ≠ fUnlck ∧ lock.stop ≤ i64Max ∧ (lock.start < lock.stop ∨ lock.start = i64Max)

def Sound (locks : List FileLock) : Prop := ∀ lock ∈ locks, lock.Granted

lemma sound_nil : Sound [] := by
  intro lock hmem
  cases hmem

variable {locks : List FileLock} {inode : Nat}

lemma overlaps_iff_shares_byte {lock : FileLock} (hlock : lock.Granted) (call : LockCall) :
    lock.entry.Overlaps call.flock.absStart call.flock.absEnd ↔
      ∃ byte, lock.entry.Covers byte ∧ call.Requested byte := by
  obtain ⟨_, hstop, hrange⟩ := hlock
  obtain ⟨hend, hrange'⟩ := call.absEnd_le
  simp only [call.requested_iff]
  by_cases hempty : lock.start < lock.stop ∧ call.flock.absStart < call.flock.absEnd
  · exact Entry.overlaps_iff_exists hempty.1 hempty.2
  · simp only [Entry.Overlaps, Entry.Covers, Within, FileLock.entry]
    refine iff_of_false (by omega) ?_
    rintro ⟨byte, hbyte⟩
    omega

lemma clash_kindOf (first second : UInt16) :
    Clash (kindOf first) (kindOf second) ↔ first = fWrlck ∨ second = fWrlck :=
  or_congr kindOf_eq_exclusive kindOf_eq_exclusive

lemma findConflict_eq_none_iff (inode : Nat) (hsound : Sound locks) (call : LockCall) :
    findConflict locks inode call.fd call.flock.lType call.flock.absStart call.flock.absEnd = none ↔
      ¬Blocked (lockMap inode locks) call.fd call.kind call.Requested := by
  unfold findConflict lockMap
  rw [find?_eq_none, blocked_held_iff, not_exists]
  simp only [mem_entriesOf]
  constructor
  · rintro hnone entry ⟨⟨lock, hmem, hinode, rfl⟩, howner, hshares, hclash⟩
    refine hnone lock hmem ?_
    have hoverlap := (overlaps_iff_shares_byte (hsound lock hmem) call).mpr hshares
    have htypes := (clash_kindOf ..).mp hclash
    simp only [Bool.and_eq_true, decide_eq_true_eq, Bool.or_eq_true, rangesOverlap_iff]
    exact ⟨⟨⟨hinode, howner⟩, hoverlap⟩, htypes⟩
  · intro hfree lock hmem htest
    simp only [Bool.and_eq_true, decide_eq_true_eq, Bool.or_eq_true, rangesOverlap_iff] at htest
    obtain ⟨⟨⟨hinode, howner⟩, hoverlap⟩, htypes⟩ := htest
    exact hfree lock.entry ⟨⟨lock, hmem, hinode, rfl⟩, howner,
      (overlaps_iff_shares_byte (hsound lock hmem) call).mp hoverlap,
      (clash_kindOf ..).mpr htypes⟩

variable (call : LockCall)

lemma requested_eq : call.Requested = Within call.flock.absStart call.flock.absEnd :=
  funext fun byte => propext (call.requested_iff byte)

lemma lockMap_addLock_eq_iff :
    lockMap inode (addLock locks inode call.fd call.flock.lType call.flock.absStart
        call.flock.absEnd) = assign (lockMap inode locks) call.fd (some call.kind) call.Requested ↔
      call.flock.lType = fWrlck ∨
        ∀ byte, call.Requested byte → lockMap inode locks call.fd byte ≠ some .exclusive := by
  unfold lockMap
  rw [entriesOf_addLock, requested_eq]
  refine held_append_eq_assign_iff.trans (or_congr_left ?_)
  exact kindOf_eq_exclusive

lemma lockMap_removeLocksInRange_eq_iff :
    lockMap inode (removeLocksInRange locks inode call.fd call.flock.absStart call.flock.absEnd) =
        assign (lockMap inode locks) call.fd none call.Requested ↔
      Backed (entriesOf inode locks) call.fd call.flock.absStart call.flock.absEnd := by
  unfold lockMap
  rw [entriesOf_removeLocksInRange, requested_eq]
  exact held_dropOverlapping_eq_assign_iff

variable (schedule : List FileLock → List FileLock) {call : LockCall}

def after (inode : Nat) (locks : List FileLock) (call : LockCall) : List FileLock :=
  (fcntlLockOp schedule call.cmd call.fd inode call.flock locks).1

def CallConforms (inode : Nat) (locks : List FileLock) (call : LockCall) : Prop :=
  call.Conforms (lockMap inode locks) (lockMap inode (after schedule inode locks call))
    (fcntlLockOp schedule call.cmd call.fd inode call.flock locks).2.1
    (fcntlLockOp schedule call.cmd call.fd inode call.flock locks).2.2

lemma getlk_conforms (hsound : Sound locks) (hcmd : call.cmd = fGetlk) :
    CallConforms schedule inode locks call := by
  have hnone := findConflict_eq_none_iff inode hsound call
  simp only [CallConforms, after, LockCall.Conforms, fcntlLockOp, hcmd, if_true]
  split
  next conflict hconflict =>
    refine ⟨rfl, rfl, _, rfl, ?_⟩
    have hmem := mem_of_find?_eq_some hconflict
    rw [hconflict] at hnone
    exact iff_of_false (hsound conflict hmem).1 fun hfree => by simpa using hnone.mpr hfree
  next hconflict => exact ⟨rfl, rfl, _, rfl, iff_of_true rfl (hnone.mp hconflict)⟩

lemma setlk_conforms_iff (hsound : Sound locks) (hcmd : call.cmd = fSetlk) :
    CallConforms schedule inode locks call ↔ call.KeepsWhole inode locks := by
  have hnone := findConflict_eq_none_iff inode hsound call
  have hget : ¬fSetlk = fGetlk := by decide
  simp only [CallConforms, after, LockCall.Conforms, LockCall.KeepsWhole, fcntlLockOp, hcmd, hget,
    if_false, true_or, if_true, forall_const]
  by_cases hunlock : call.flock.lType = fUnlck
  · simp only [hunlock, if_true, and_true]
    exact lockMap_removeLocksInRange_eq_iff call
  · simp only [hunlock, if_false]
    cases hconflict : findConflict locks inode call.fd call.flock.lType call.flock.absStart
        call.flock.absEnd with
    | some conflict =>
      have hblocked : Blocked (lockMap inode locks) call.fd call.kind call.Requested := by
        by_contra hfree
        rw [hnone.mpr hfree] at hconflict
        cases hconflict
      simp [hblocked]
    | none =>
      have hfree := hnone.mp hconflict
      simp only [hfree, false_imp_iff, not_false_eq_true, forall_const, true_and, and_true]
      exact lockMap_addLock_eq_iff call

lemma callConforms_iff (hsound : Sound locks) (call : LockCall) :
    CallConforms schedule inode locks call ↔ call.KeepsWhole inode locks := by
  rcases call.command with hcmd | hcmd
  · refine iff_of_true (getlk_conforms schedule hsound hcmd) ?_
    intro hset
    rw [hcmd] at hset
    cases hset
  · exact setlk_conforms_iff schedule hsound hcmd

lemma sound_after (inode : Nat) (hsound : Sound locks) (call : LockCall) :
    Sound (after schedule inode locks call) := by
  have hadd : call.flock.lType ≠ fUnlck →
      Sound (addLock locks inode call.fd call.flock.lType call.flock.absStart
        call.flock.absEnd) := by
    intro htype lock hmem
    rcases mem_append.mp hmem with hmem | hmem
    · exact hsound lock hmem
    · obtain rfl := mem_singleton.mp hmem
      exact ⟨htype, call.absEnd_le⟩
  rcases call.command with hcmd | hcmd <;> simp only [after, fcntlLockOp, hcmd]
  · simp only [if_true]
    split <;> exact hsound
  · rw [if_neg (by decide), if_pos (.inl trivial)]
    split
    · exact fun lock hmem => hsound lock (mem_filter.mp hmem).1
    next htype =>
      split
      · simpa using hsound
      · exact hadd htype

/-! ## Sequences of calls -/

/-- In every sequence of calls on one inode, all calls do what POSIX says exactly when
none of them needs a lock of its owner split or weakened. -/
theorem calls_conform_iff (inode : Nat) (calls : List LockCall) :
    Allowed (CallConforms schedule inode) (after schedule inode) [] calls ↔
      Allowed (fun locks call => call.KeepsWhole inode locks) (after schedule inode) [] calls := by
  have hiff : ∀ locks call, Sound locks →
      (CallConforms schedule inode locks call ↔ call.KeepsWhole inode locks) :=
    fun _ call hsound => callConforms_iff schedule hsound call
  have hkeep : ∀ locks call, Sound locks → CallConforms schedule inode locks call →
      Sound (after schedule inode locks call) :=
    fun _ call hsound _ => sound_after schedule inode hsound call
  exact Allowed.iff_of_invariant hiff hkeep sound_nil calls

def setlkCall (lockType : UInt16) (start len : Nat) (hend : start + len ≤ i64Max) : LockCall :=
  ⟨fSetlk, 3, ⟨lockType, 0, start, len, 0⟩, .inr rfl, Int.natCast_nonneg _, Int.natCast_nonneg _,
    hend⟩

/-- Weakening a write lock is reported as done while the write lock stays, and
unlocking the first half of a locked range drops the lock on the second half. -/
theorem downgrade_and_partial_unlock_diverge : ¬Allowed (CallConforms id 1) (after id 1) []
      [setlkCall fWrlck 0 10 (by decide), setlkCall fRdlck 0 10 (by decide)] ∧
    ¬Allowed (CallConforms id 1) (after id 1) []
      [setlkCall fWrlck 0 10 (by decide), setlkCall fUnlck 0 5 (by decide)] := by
  have hsound := sound_after id 1 sound_nil (setlkCall fWrlck 0 10 (by decide))
  constructor
  · rintro ⟨_, hread, _⟩
    rcases (callConforms_iff id hsound _).mp hread rfl (by decide) with hwrite | hweak
    · exact absurd hwrite (by decide)
    · exact hweak 0 (by decide) (by decide)
  · rintro ⟨_, hunlock, _⟩
    obtain ⟨other, hmem, _, hapart, _⟩ :=
      (callConforms_iff id hsound _).mp hunlock rfl _ (mem_singleton_self _) rfl (by decide)
        7 (by decide) (by decide)
    obtain rfl := mem_singleton.mp hmem
    exact hapart (by decide)

end KarteOs.Driver.FileLocks

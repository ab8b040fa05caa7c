import KarteOs.Foundation.TotalMap
import KarteOs.Driver.Pipe
import KarteOs.Sched.Blocking
import KarteOs.Syscall.Memory

/-! # The blocking protocol of a pipe under interleaving

`pipe_read` and `pipe_write` try the operation, register the process as blocked
and block, in three separate sections, and start over when they are resumed.
A section that frees a waiter wakes it while it still holds the lock of the pipe
table. Closing an end drops a reference, marks the end closed when it was the
last one, and frees the pipe when both ends have none left.
-/

namespace KarteOs.Syscall

open Sched Driver Function SchedState Transition

/-- Where a process stands in `pipe_read`, `pipe_write` or a close. -/
inductive PipePhase
  | idle
  | trying (side : PipeEnd) (buf len : Nat)
  | refused (side : PipeEnd) (buf len : Nat)
  | registered (side : PipeEnd) (buf len : Nat)
  /-- Holding the lock, about to wake a process. -/
  | waking (target : Nat) (closing : Bool)
  | closing (side : PipeEnd)
  | checking
  | freeing
deriving DecidableEq

instance : Inhabited PipePhase := ⟨.idle⟩

def PipePhase.afterWake (closing : Bool) : PipePhase :=
  if closing then .checking else .idle

def PipePhase.holdsLock : PipePhase → Bool
  | .waking _ _ => true
  | _ => false

def PipePhase.refusedAt (side : PipeEnd) : PipePhase → Bool
  | .refused at_ _ _ => at_ = side
  | _ => false

def PipePhase.isRegistered : PipePhase → Bool
  | .registered .. => true
  | _ => false

def Counts (os : SchedState) (procIdx : Nat) (side : PipeEnd) : PipePhase → Prop
  | .registered at_ _ _ => at_ = side
  | .trying at_ _ _ => at_ = side ∧ os.TaskBlocked procIdx
  | _ => False

instance (os : SchedState) (procIdx : Nat) (side : PipeEnd) (phase : PipePhase) :
    Decidable (Counts os procIdx side phase) := by
  unfold Counts
  split <;> infer_instance

def Settled (os : SchedState) (procIdx : Nat) : PipePhase → Prop
  | .idle => True
  | .trying .. => os.TaskBlocked procIdx
  | _ => False

instance (os : SchedState) (procIdx : Nat) (phase : PipePhase) :
    Decidable (Settled os procIdx phase) := by
  unfold Settled
  split <;> infer_instance

structure PipeSystem where
  os : SchedState
  /-- The slot of the pipe table, empty once the pipe is freed. -/
  pipe : Option Pipe
  refs : PipeEnd → Nat
  phases : TotalMap Nat PipePhase
  result : Nat → Int

inductive PipeEvent
  | start (side : PipeEnd) (buf len : Nat)
  | attempt (input : Nat → UInt8)
  | wake
  | register
  | block
  | dup (side : PipeEnd)
  | close (side : PipeEnd)
  | markClosed
  | checkFree
  | free
  | tick (now : Nat)
  | wakeTask (procIdx : Nat)
  | schedule
  | allocateUserSlot (procIdx : Nat)
  | setTaskClass (procIdx : Nat) (schedClass : SchedClass)
  | exit

namespace PipeSystem

def boot : PipeSystem :=
  { os := .init, pipe := some .new, refs := fun _ => 1, phases := .empty, result := fun _ => 0 }

variable (s : PipeSystem)

def phase : Nat → PipePhase :=
  s.phases.get

def setPhase (procIdx : Nat) (phase : PipePhase) : PipeSystem :=
  { s with phases := s.phases.set procIdx phase }

def setResult (procIdx : Nat) (result : Int) : PipeSystem :=
  { s with result := update s.result procIdx result }

lemma setPhase_phase (procIdx : Nat) (phase : PipePhase) :
    (s.setPhase procIdx phase).phase = update s.phase procIdx phase :=
  s.phases.set_get procIdx phase

/-- The phase after a section: it wakes whom it freed, still under the lock. -/
def afterSection (step : PipeSection) (closing : Bool) (next : PipePhase) : PipePhase :=
  match step.woken with
  | some target => .waking target closing
  | none => next

def tryOnce (procIdx : Nat) (side : PipeEnd) (buf len : Nat) (input : Nat → UInt8) : PipeSystem :=
  match s.pipe with
  | none => (s.setPhase procIdx .idle).setResult procIdx errInval
  | some p =>
    let step := p.attempt side buf len input
    if step.result = -1 then
      { s with pipe := some step.pipe }.setPhase procIdx
        (afterSection step false (.refused side buf len))
    else
      ({ s with pipe := some step.pipe }.setPhase procIdx (afterSection step false .idle)
        ).setResult procIdx step.result

def markClosed (procIdx : Nat) (side : PipeEnd) : PipeSystem :=
  match s.pipe with
  | none => s.setPhase procIdx .checking
  | some p =>
    { s with pipe := some (p.close side).pipe }.setPhase procIdx
      (afterSection (p.close side) true .checking)

def dropRef (procIdx : Nat) (side : PipeEnd) : PipeSystem :=
  { s with refs := update s.refs side (s.refs side - 1) }.setPhase procIdx
    (if s.refs side - 1 = 0 then .closing side else .idle)

/-- An event that does not fit the phase of the current process has no effect. -/
def apply : PipeEvent → PipeSystem
  | .start side buf len => s.os.onCurrent s fun procIdx =>
    match s.phase procIdx with
    | .idle => some (s.setPhase procIdx (.trying side buf len))
    | _ => none
  | .attempt input => s.os.onCurrent s fun procIdx =>
    match s.phase procIdx with
    | .trying side buf len => some (s.tryOnce procIdx side buf len input)
    | _ => none
  | .wake => s.os.onCurrent s fun procIdx =>
    match s.phase procIdx with
    | .waking target closing =>
      some ({ s with os := (s.os.wakeTask target).1 }.setPhase procIdx (.afterWake closing))
    | _ => none
  | .register => s.os.onCurrent s fun procIdx =>
    match s.phase procIdx with
    | .refused side buf len =>
      some ({ s with
        pipe := s.pipe.map fun p : Pipe => p.setBlocked side procIdx }.setPhase procIdx
        (.registered side buf len))
    | _ => none
  | .block => s.os.onCurrent s fun procIdx =>
    match s.phase procIdx with
    | .registered side buf len =>
      some ({ s with os := s.os.scheduleBlock }.setPhase procIdx (.trying side buf len))
    | _ => none
  | .dup side => s.os.onCurrent s fun procIdx =>
    match s.phase procIdx with
    | .idle => some { s with refs := update s.refs side (s.refs side + 1) }
    | _ => none
  | .close side => s.os.onCurrent s fun procIdx =>
    match s.phase procIdx with
    | .idle => some (s.dropRef procIdx side)
    | _ => none
  | .markClosed => s.os.onCurrent s fun procIdx =>
    match s.phase procIdx with
    | .closing side => some (s.markClosed procIdx side)
    | _ => none
  | .checkFree => s.os.onCurrent s fun procIdx =>
    match s.phase procIdx with
    | .checking =>
      some (s.setPhase procIdx (if s.refs .read = 0 ∧ s.refs .write = 0 then .freeing else .idle))
    | _ => none
  | .free => s.os.onCurrent s fun procIdx =>
    match s.phase procIdx with
    | .freeing => some ({ s with pipe := none }.setPhase procIdx .idle)
    | _ => none
  | .tick now => { s with os := s.os.tickSleepQueue now }
  | .wakeTask procIdx => { s with os := (s.os.wakeTask procIdx).1 }
  | .schedule => { s with os := s.os.schedule }
  | .allocateUserSlot procIdx => { s with os := (s.os.allocateUserSlot procIdx).1 }
  | .setTaskClass procIdx schedClass => { s with os := (s.os.setTaskClass procIdx schedClass).1 }
  | .exit => s.os.onCurrent s fun procIdx =>
    match s.phase procIdx with
    | .idle => some { s with os := s.os.scheduleExit }
    | _ => none

def NoneRefused (side : PipeEnd) : Prop :=
  ∀ procIdx, (s.phase procIdx).refusedAt side = false

def Unlocked : Prop :=
  ∀ procIdx, (s.phase procIdx).holdsLock = false

instance (s : PipeSystem) (side : PipeEnd) : Decidable (s.NoneRefused side) :=
  decidable_of_iff (∀ procIdx ∈ s.phases.keys, (s.phase procIdx).refusedAt side = false)
    (TotalMap.forall_get_iff (fun _ phase => PipePhase.refusedAt side phase = false) fun _ => rfl)

instance (s : PipeSystem) : Decidable s.Unlocked :=
  decidable_of_iff (∀ procIdx ∈ s.phases.keys, (s.phase procIdx).holdsLock = false)
    (TotalMap.forall_get_iff (fun _ phase => PipePhase.holdsLock phase = false) fun _ => rfl)

/-- Sections of the pipe table wait for its lock, and tasks are created for
fresh processes. -/
def Legal (s : PipeSystem) : PipeEvent → Prop
  | .attempt _ | .register | .markClosed | .free => s.Unlocked
  | .allocateUserSlot procIdx => s.os.Fresh procIdx
  | _ => True

instance (s : PipeSystem) (event : PipeEvent) : Decidable (s.Legal event) := by
  unfold Legal
  split <;> infer_instance

/-- What a step of a process must leave alone for no waiter to be forgotten: a
waiter that was told to block and has not registered, a waiter that has
registered and not blocked, the registration of another waiter, and a pipe that
is not closed at both ends. -/
def keepsAt (s : PipeSystem) (procIdx : Nat) : PipeEvent → PipePhase → Bool
  | .attempt _, .trying side buf len =>
    decide ((∃ p ∈ s.pipe, p.Transfers buf len side) → s.NoneRefused side.other)
  | .markClosed, .closing side => decide (s.NoneRefused side.other)
  | .wake, .waking target _ => !(s.phase target).isRegistered
  | .register, .refused side _ _ =>
    decide (∀ p ∈ s.pipe, ∀ other ∈ p.blocked side, other ≠ procIdx →
      ¬Counts s.os other side (s.phase other))
  | .free, .freeing => decide (∀ p ∈ s.pipe, p.isFullyClosed = true)
  | _, _ => true

def Keeps (s : PipeSystem) (event : PipeEvent) : Prop :=
  ∀ procIdx ∈ s.os.sched.currentProc, s.keepsAt procIdx event (s.phase procIdx) = true
deriving Decidable

end PipeSystem

/-- Nobody who still counts on a wake-up has been forgotten: it is registered
and has nothing to proceed with, or its wake-up is on the way. -/
structure WaitersServed (os : SchedState) (pipe : Option Pipe) (phase : Nat → PipePhase) :
    Prop where
  inv : os.Inv
  refused : ∀ procIdx side buf len, phase procIdx = .refused side buf len →
    ∃ p ∈ pipe, ¬p.Satisfied side
  counted : ∀ procIdx side, Counts os procIdx side (phase procIdx) →
    (∃ p ∈ pipe, p.blocked side = some procIdx ∧ ¬p.Satisfied side) ∨
      ∃ waker closing, phase waker = .waking procIdx closing

lemma Counts.mono {os next : SchedState} {procIdx : Nat} {side : PipeEnd} {phase : PipePhase}
    (hblocked : next.TaskBlocked procIdx → os.TaskBlocked procIdx)
    (hcounts : Counts next procIdx side phase) : Counts os procIdx side phase := by
  cases phase with
  | trying _ _ _ => exact ⟨hcounts.1, hblocked hcounts.2⟩
  | idle | refused _ _ _ | registered _ _ _ | waking _ _ | closing _ | checking | freeing =>
    exact hcounts

namespace WaitersServed

variable {os : SchedState} {pipe : Option Pipe} {phase : Nat → PipePhase} {procIdx : Nat}
  {next : PipePhase} {closing : Bool} {side : PipeEnd}

lemma withOs (h : WaitersServed os pipe phase) {next : SchedState} (hnext : next.Inv)
    (hblocked : ∀ procIdx, next.TaskBlocked procIdx → os.TaskBlocked procIdx) :
    WaitersServed next pipe phase where
  inv := hnext
  refused := h.refused
  counted := fun procIdx side hcounts => h.counted procIdx side (hcounts.mono (hblocked procIdx))

lemma waking_update {target waker : Nat} (hlock : (phase procIdx).holdsLock = false)
    (hwaker : phase waker = .waking target closing) :
    update phase procIdx next waker = .waking target closing := by
  rw [update_of_ne, hwaker]
  rintro rfl
  simp [hwaker, PipePhase.holdsLock] at hlock

lemma move (h : WaitersServed os pipe phase) (hlock : (phase procIdx).holdsLock = false)
    (hrefused : ∀ side buf len, next = .refused side buf len → ∃ p ∈ pipe, ¬p.Satisfied side)
    (hcounted : ∀ side, Counts os procIdx side next →
      ∃ p ∈ pipe, p.blocked side = some procIdx ∧ ¬p.Satisfied side) :
    WaitersServed os pipe (update phase procIdx next) where
  inv := h.inv
  refused := by
    intro other side buf len hphase
    rcases eq_or_ne other procIdx with rfl | hne
    · rw [update_self] at hphase
      exact hrefused side buf len hphase
    · rw [update_of_ne hne] at hphase
      exact h.refused other side buf len hphase
  counted := by
    intro other side hcounts
    rcases eq_or_ne other procIdx with rfl | hne
    · rw [update_self] at hcounts
      exact .inl (hcounted side hcounts)
    · rw [update_of_ne hne] at hcounts
      exact (h.counted other side hcounts).imp_right
        fun ⟨waker, closing, hwaker⟩ => ⟨waker, closing, waking_update hlock hwaker⟩

lemma serve {p : Pipe} (h : WaitersServed os (some p) phase) {step : PipeSection}
    (hserves : ∀ side, step.Serves p side) (hlock : (phase procIdx).holdsLock = false)
    (hsatisfied : ∀ side, step.pipe.Satisfied side →
      p.Satisfied side ∨ ∀ other, (phase other).refusedAt side = false)
    (hrefused : ∀ side buf len, next = .refused side buf len → ¬step.pipe.Satisfied side)
    (hcounts : ∀ side, ¬Counts os procIdx side next) (closing : Bool) :
    WaitersServed os (some step.pipe)
      (update phase procIdx (PipeSystem.afterSection step closing next)) where
  inv := h.inv
  refused := by
    intro other side buf len hphase
    refine ⟨step.pipe, rfl, ?_⟩
    rcases eq_or_ne other procIdx with rfl | hne
    · rw [update_self] at hphase
      unfold PipeSystem.afterSection at hphase
      split at hphase
      · cases hphase
      · exact hrefused side buf len hphase
    · rw [update_of_ne hne] at hphase
      obtain ⟨_, ⟨⟩, hnot⟩ := h.refused other side buf len hphase
      intro hnow
      have hnone := (hsatisfied side hnow).resolve_left hnot other
      simp [hphase, PipePhase.refusedAt] at hnone
  counted := by
    intro other side hother
    rcases eq_or_ne other procIdx with rfl | hne
    · rw [update_self] at hother
      unfold PipeSystem.afterSection at hother
      split at hother
      · exact hother.elim
      · exact (hcounts side hother).elim
    · rw [update_of_ne hne] at hother
      rcases h.counted other side hother with ⟨_, ⟨⟩, hblocked, hnot⟩ | ⟨waker, owes, hwaker⟩
      · rcases hserves side with ⟨_, hwoken⟩ | ⟨hsame, hstill⟩
        · refine .inr ⟨procIdx, closing, ?_⟩
          rw [update_self, PipeSystem.afterSection, hwoken, hblocked]
        · exact .inl ⟨step.pipe, rfl, hsame.trans hblocked, fun hnow => hnot (hstill hnow)⟩
      · exact .inr ⟨waker, owes, waking_update hlock hwaker⟩

variable (h : WaitersServed os pipe phase)
include h

lemma wake {target : Nat} (hphase : phase procIdx = .waking target closing)
    (hregistered : (phase target).isRegistered = false) :
    WaitersServed (os.wakeTask target).1 pipe (update phase procIdx (.afterWake closing)) where
  inv := wakeTask_inv h.inv target
  refused := by
    intro other side buf len hother
    rcases eq_or_ne other procIdx with rfl | hne
    · cases closing <;> simp [PipePhase.afterWake] at hother
    · rw [update_of_ne hne] at hother
      exact h.refused other side buf len hother
  counted := by
    intro other side hcounts
    rcases eq_or_ne other procIdx with rfl | hne
    · cases closing <;> simp [PipePhase.afterWake, Counts] at hcounts
    · rw [update_of_ne hne] at hcounts
      have hother : other ≠ target := by
        rintro rfl
        cases hwas : phase other with
        | registered at_ buf len => simp [hwas, PipePhase.isRegistered] at hregistered
        | trying at_ buf len =>
          rw [hwas] at hcounts
          exact (h.inv.taskBlocked_wakeTask hcounts.2).2 rfl
        | idle | refused _ _ _ | waking _ _ | closing _ | checking | freeing =>
          rw [hwas] at hcounts
          exact hcounts
      have hbefore := hcounts.mono fun hblocked => (h.inv.taskBlocked_wakeTask hblocked).1
      refine (h.counted other side hbefore).imp_right fun ⟨waker, owes, hwaker⟩ => ?_
      refine ⟨waker, owes, ?_⟩
      rw [update_of_ne, hwaker]
      rintro rfl
      rw [hphase] at hwaker
      exact hother (PipePhase.waking.inj hwaker).1.symm

lemma register {buf len : Nat} (hphase : phase procIdx = .refused side buf len)
    (hkeeps : ∀ p ∈ pipe, ∀ other ∈ p.blocked side, other ≠ procIdx →
      ¬Counts os other side (phase other)) :
    WaitersServed os (pipe.map fun p => p.setBlocked side procIdx)
      (update phase procIdx (.registered side buf len)) := by
  obtain ⟨p, rfl, hnot⟩ := h.refused procIdx side buf len hphase
  have hregistered : WaitersServed os (some (p.setBlocked side procIdx)) phase := by
    refine ⟨h.inv, fun other waiters buf len hother => ?_, fun other waiters hcounts => ?_⟩
    · obtain ⟨_, ⟨⟩, hstill⟩ := h.refused other waiters buf len hother
      exact ⟨_, rfl, by simpa using hstill⟩
    · refine (h.counted other waiters hcounts).imp_left ?_
      rintro ⟨_, ⟨⟩, hblocked, hstill⟩
      refine ⟨_, rfl, ?_, by simpa using hstill⟩
      rcases eq_or_ne waiters side with rfl | hside
      · rcases eq_or_ne other procIdx with rfl | hne
        · simp [Pipe.blocked_setBlocked]
        · exact absurd hcounts (hkeeps p rfl other hblocked hne)
      · rwa [Pipe.blocked_setBlocked, update_of_ne hside]
  refine hregistered.move (by rw [hphase]; rfl) nofun ?_
  rintro _ rfl
  exact ⟨_, rfl, by simp [Pipe.blocked_setBlocked], by simpa using hnot⟩

lemma block {buf len : Nat} (hphase : phase procIdx = .registered side buf len)
    {next : SchedState} (hnext : next.Inv)
    (hblocked : ∀ other, next.TaskBlocked other → os.TaskBlocked other ∨ other = procIdx) :
    WaitersServed next pipe (update phase procIdx (.trying side buf len)) where
  inv := hnext
  refused := by
    intro other waiters buf len hother
    rcases eq_or_ne other procIdx with rfl | hne
    · simp at hother
    · rw [update_of_ne hne] at hother
      exact h.refused other waiters buf len hother
  counted := by
    intro other waiters hcounts
    have hbefore : Counts os other waiters (phase other) := by
      rcases eq_or_ne other procIdx with rfl | hne
      · rw [update_self] at hcounts
        rw [hphase]
        exact hcounts.1
      · rw [update_of_ne hne] at hcounts
        exact hcounts.mono fun hb => (hblocked other hb).resolve_right hne
    refine (h.counted other waiters hbefore).imp_right fun ⟨waker, owes, hwaker⟩ => ?_
    exact ⟨waker, owes, waking_update (by rw [hphase]; rfl) hwaker⟩

lemma free (hunlocked : ∀ procIdx, (phase procIdx).holdsLock = false)
    (hclosed : ∀ p ∈ pipe, p.isFullyClosed) : WaitersServed os none phase where
  inv := h.inv
  refused := by
    intro procIdx side buf len hphase
    obtain ⟨p, hp, hnot⟩ := h.refused procIdx side buf len hphase
    exact absurd (Pipe.satisfied_of_isFullyClosed (hclosed p hp) side) hnot
  counted := by
    intro procIdx side hcounts
    rcases h.counted procIdx side hcounts with ⟨p, hp, _, hnot⟩ | ⟨waker, owes, hwaker⟩
    · exact absurd (Pipe.satisfied_of_isFullyClosed (hclosed p hp) side) hnot
    · have hlock := hunlocked waker
      simp [hwaker, PipePhase.holdsLock] at hlock

end WaitersServed

namespace PipeSystem

def Inv (s : PipeSystem) : Prop :=
  WaitersServed s.os s.pipe s.phase

lemma boot_inv : boot.Inv where
  inv := init_inv
  refused := fun _ _ _ _ hphase => by cases hphase
  counted := fun _ _ hcounts => hcounts.elim

variable {s : PipeSystem} {procIdx : Nat} {side : PipeEnd}

lemma inv_setPhase {next : PipePhase} :
    (s.setPhase procIdx next).Inv ↔ WaitersServed s.os s.pipe (update s.phase procIdx next) := by
  rw [Inv, setPhase_phase]
  rfl

lemma Inv.setPhase (hs : s.Inv) (hlock : (s.phase procIdx).holdsLock = false) {next : PipePhase}
    (hrefused : ∀ side buf len, next ≠ .refused side buf len)
    (hcounts : ∀ side, ¬Counts s.os procIdx side next) : (s.setPhase procIdx next).Inv :=
  inv_setPhase.mpr <| hs.move hlock
    (fun side buf len h => absurd h (hrefused side buf len)) fun side h => absurd h (hcounts side)

lemma Inv.tryOnce (hs : s.Inv) {buf len : Nat} (hphase : s.phase procIdx = .trying side buf len)
    (hkeeps : (∃ p ∈ s.pipe, p.Transfers buf len side) → s.NoneRefused side.other)
    (input : Nat → UInt8) : (s.tryOnce procIdx side buf len input).Inv := by
  have hlock : (s.phase procIdx).holdsLock = false := by rw [hphase]; rfl
  unfold PipeSystem.tryOnce
  split
  · exact hs.setPhase hlock (by simp) fun _ h => h
  next p hpipe =>
    rw [Inv, hpipe] at hs
    have hserves := p.attempt_serves side buf len input
    have hsatisfied : ∀ waiters, (p.attempt side buf len input).pipe.Satisfied waiters →
        p.Satisfied waiters ∨ ∀ other, (s.phase other).refusedAt waiters = false := by
      intro waiters hnow
      refine (Pipe.satisfied_attempt hnow).imp_right ?_
      rintro ⟨hmoves, rfl⟩
      exact hkeeps ⟨p, hpipe, hmoves⟩
    have hrefused : (p.attempt side buf len input).result = -1 →
        ¬(p.attempt side buf len input).pipe.Satisfied side := by
      intro hresult
      obtain ⟨_, hsame, _, hnot⟩ | ⟨_, hmoved, _⟩ := p.attempt_cases side buf len input
      · exact hsame.symm ▸ hnot hresult
      · exact absurd hresult hmoved
    simp only
    split
    next hresult =>
      refine inv_setPhase.mpr (hs.serve hserves hlock hsatisfied ?_ (by simp [Counts]) false)
      rintro _ _ _ ⟨⟩
      exact hrefused hresult
    · show WaitersServed _ _ (PipeSystem.setPhase _ procIdx _).phase
      rw [setPhase_phase]
      exact hs.serve hserves hlock hsatisfied (by simp) (by simp [Counts]) false

lemma Inv.markClosed (hs : s.Inv) (hphase : s.phase procIdx = .closing side)
    (hkeeps : s.NoneRefused side.other) : (s.markClosed procIdx side).Inv := by
  have hlock : (s.phase procIdx).holdsLock = false := by rw [hphase]; rfl
  unfold PipeSystem.markClosed
  split
  · exact hs.setPhase hlock (by simp) fun _ h => h
  next p hpipe =>
    rw [Inv, hpipe] at hs
    refine inv_setPhase.mpr (hs.serve (p.close_serves side) hlock (fun waiters hnow => ?_)
      (by simp) (by simp [Counts]) true)
    refine (Pipe.satisfied_close hnow).imp_right ?_
    rintro rfl
    exact hkeeps

def Step : PipeSystem → PipeEvent → PipeSystem → Prop :=
  Guarded (fun s event => s.Legal event ∧ s.Keeps event) apply

lemma Step.inv {next : PipeSystem} {event : PipeEvent} (hs : s.Inv) (hstep : Step s event next) :
    next.Inv := by
  obtain ⟨⟨hlegal, hkeeps⟩, rfl⟩ := hstep
  cases event
  case' start | attempt | wake | register | block | dup | close | markClosed | checkFree | free
      | exit =>
    -- the current process is in the phase that the event is a step of, or nothing happens
    refine onCurrent_of hs fun procIdx hcurrent => ?_
    have hkeep := hkeeps procIdx hcurrent
    split
    on_goal 2 => trivial
    rename_i hphase
    rw [hphase] at hkeep
  case start =>
    refine hs.setPhase (by rw [hphase]; rfl) (by simp) fun _ hcounts => ?_
    exact hs.inv.not_taskBlocked_current hcurrent hcounts.2
  case attempt => exact hs.tryOnce hphase (of_decide_eq_true hkeep) _
  case wake => exact inv_setPhase.mpr (hs.wake hphase (by simpa [keepsAt] using hkeep))
  case register => exact inv_setPhase.mpr (hs.register hphase (of_decide_eq_true hkeep))
  case block =>
    refine inv_setPhase.mpr (hs.block hphase (scheduleBlock_inv hs.inv) ?_)
    intro other hb
    refine (hs.inv.taskBlocked_scheduleBlock hb).imp_right fun hother => ?_
    exact Option.some.inj (hother.symm.trans hcurrent)
  case dup => exact hs
  case close side _ =>
    have hdropped : { s with refs := update s.refs side (s.refs side - 1) }.Inv := hs
    have hlock : (s.phase procIdx).holdsLock = false := by rw [hphase]; rfl
    refine hdropped.setPhase hlock ?_ ?_
    all_goals split <;> simp [Counts]
  case markClosed => exact hs.markClosed hphase (of_decide_eq_true hkeep)
  case checkFree =>
    refine hs.setPhase (by rw [hphase]; rfl) ?_ ?_
    all_goals split <;> simp [Counts]
  case free =>
    have hfreed : { s with pipe := none }.Inv := hs.free hlegal (of_decide_eq_true hkeep)
    exact hfreed.setPhase (hlegal procIdx) (by simp) fun _ h => h
  case exit =>
    have huser : s.os.sched.currentProc.isSome := by simp [hcurrent]
    exact hs.withOs (scheduleExit_inv hs.inv huser) fun _ => hs.inv.taskBlocked_scheduleExit huser
  case tick now =>
    exact hs.withOs (tickSleepQueue_inv hs.inv now) fun _ => hs.inv.taskBlocked_tickSleepQueue
  case wakeTask procIdx =>
    exact hs.withOs (wakeTask_inv hs.inv procIdx)
      fun _ hblocked => (hs.inv.taskBlocked_wakeTask hblocked).1
  case schedule => exact hs.withOs (schedule_inv hs.inv) fun _ => hs.inv.taskBlocked_schedule
  case allocateUserSlot =>
    exact hs.withOs (allocateUserSlot_inv hs.inv hlegal)
      fun _ => hs.inv.taskBlocked_allocateUserSlot
  case setTaskClass procIdx schedClass =>
    exact hs.withOs (setTaskClass_inv hs.inv procIdx schedClass)
      fun _ => hs.inv.taskBlocked_setTaskClass

def Quiescent (s : PipeSystem) : Prop :=
  ∀ procIdx, Settled s.os procIdx (s.phase procIdx)

instance (s : PipeSystem) : Decidable s.Quiescent :=
  decidable_of_iff (∀ procIdx ∈ s.phases.keys, Settled s.os procIdx (s.phase procIdx))
    (TotalMap.forall_get_iff (Settled s.os) fun _ => trivial)

def BlockingSound (s : PipeSystem) : Prop :=
  s.Quiescent → ∀ procIdx side buf len, s.phase procIdx = .trying side buf len →
    s.os.TaskBlocked procIdx → ∃ p, s.pipe = some p ∧ ¬p.Satisfied side

lemma Inv.blockingSound (hs : s.Inv) : s.BlockingSound := by
  intro hquiet procIdx side buf len hphase hblocked
  rcases hs.counted procIdx side (by rw [hphase]; exact ⟨rfl, hblocked⟩) with
    ⟨p, hp, _, hnot⟩ | ⟨waker, closing, hwaker⟩
  · exact ⟨p, hp, hnot⟩
  · have hsettled := hquiet waker
    rw [hwaker] at hsettled
    exact hsettled.elim

/-- In every run that forgets no waiter, nobody stays blocked for nothing. -/
theorem run_blockingSound {events : List PipeEvent} {s : PipeSystem}
    (hrun : Transition.Run Step boot events s) : s.BlockingSound :=
  (hrun.invariant (fun _ _ _ hs hstep => hstep.inv hs) boot_inv).blockingSound

def after (events : List PipeEvent) : PipeSystem :=
  events.foldl apply boot

/-- Process 7 blocks on an empty pipe, process 8 writes two bytes, and 7 reads
them and blocks again. -/
def readerServed : List PipeEvent :=
  [.allocateUserSlot 7, .allocateUserSlot 8, .schedule, .start .read 64 1, .attempt fun _ => 0,
    .register, .block, .start .write 64 2, .attempt fun _ => 5, .wake, .schedule, .schedule,
    .schedule, .attempt fun _ => 0, .start .read 64 3, .attempt fun _ => 0, .start .read 64 3,
    .attempt fun _ => 0, .register, .block]

theorem run_blockingSound_readerServed :
    (after readerServed).os.TaskBlocked 7 ∧ (after readerServed).Quiescent ∧
      (after readerServed).BlockingSound := by
  have hrun : Run Step boot readerServed (after readerServed) :=
    Run.of_allowed (by decide)
  exact ⟨by decide, by decide, run_blockingSound hrun⟩

def AnyStep : PipeSystem → PipeEvent → PipeSystem → Prop :=
  Guarded Legal apply

def ReaderForgotten (s : PipeSystem) (procIdx : Nat) : Prop :=
  s.Quiescent ∧ s.os.TaskBlocked procIdx ∧ s.phase procIdx = .trying .read 64 1 ∧
    ∃ p ∈ s.pipe, p.Satisfied .read
deriving Decidable

/-- Process 8 writes after process 7 found the pipe empty and before it registers. -/
def writeBeforeRegister : List PipeEvent :=
  [.allocateUserSlot 7, .allocateUserSlot 8, .schedule, .start .read 64 1, .attempt fun _ => 0,
    .schedule, .schedule, .schedule, .start .write 64 1, .attempt fun _ => 5, .schedule, .schedule,
    .schedule, .register, .block]

/-- Two readers block, and the one that registered first is not woken when the
write end is closed. -/
def secondReaderRegisters : List PipeEvent :=
  [.allocateUserSlot 7, .allocateUserSlot 9, .allocateUserSlot 8, .schedule, .start .read 64 1,
    .attempt fun _ => 0, .register, .block, .start .read 64 1, .attempt fun _ => 0, .register,
    .block, .close .write, .markClosed, .wake, .checkFree, .schedule, .schedule, .schedule,
    .attempt fun _ => 0]

theorem reader_forgotten :
    (Transition.Run AnyStep boot writeBeforeRegister (after writeBeforeRegister) ∧
      (after writeBeforeRegister).ReaderForgotten 7) ∧
    Transition.Run AnyStep boot secondReaderRegisters (after secondReaderRegisters) ∧
      (after secondReaderRegisters).ReaderForgotten 7 := by
  refine ⟨⟨Run.of_allowed (by decide), by decide⟩,
    Run.of_allowed (by decide), by decide⟩

end PipeSystem

end KarteOs.Syscall

import KarteOs.Sched.Sleep

/-! # The timer interrupt on riscv64

`handle_timer` of `arch/riscv64/trap.rs` advances the uptime counter, programs
the next timer interrupt and calls the scheduler. The tickless mode reads the
nearest deadline of the sleep queue, but nothing on this architecture drains
that queue. Console input, which may wake the task that waits for it, is a step
of its own.
-/

namespace KarteOs.Riscv

open Sched SchedState Transition

structure TimerSystem where
  os : SchedState
  /-- `UPTIME_MS`. -/
  clock : Nat
  /-- Milliseconds until the next timer interrupt. -/
  delay : Nat

def tickMs : Nat := 10

variable (s : SchedState)

def nextSleepDeadline : Option Nat :=
  (s.sleepq.map Prod.snd).min?

def noReadyTasks : Bool :=
  s.sched.ready.bitmap == 0#32

/-- `set_next_timer`: with nothing ready and the nearest deadline more than a
tick away, one merged tick of at most a second. -/
def timerDelay (now : Nat) : Nat :=
  match nextSleepDeadline s with
  | some deadline =>
    if noReadyTasks s ∧ now + tickMs < deadline then min (deadline - now) 1000 else tickMs
  | none => tickMs

inductive TimerEvent
  | timer
  | sleepUntil (wakeTick : Nat)
  | scheduleBlock
  | schedule
  | wakeTask (procIdx : Nat)
  | allocateUserSlot (procIdx : Nat)
  | setTaskClass (procIdx : Nat) (schedClass : SchedClass)
  | scheduleExit

namespace TimerSystem

def boot : TimerSystem :=
  { os := .init, clock := 0, delay := tickMs }

variable (s : TimerSystem)

def handleTimer : TimerSystem :=
  { os := s.os.schedule
    clock := s.clock + tickMs
    delay := timerDelay s.os (s.clock + tickMs) }

def apply : TimerEvent → TimerSystem
  | .timer => s.handleTimer
  | .sleepUntil wakeTick => { s with os := s.os.sleepUntil s.clock wakeTick }
  | .scheduleBlock => { s with os := s.os.scheduleBlock }
  | .schedule => { s with os := s.os.schedule }
  | .wakeTask procIdx => { s with os := (s.os.wakeTask procIdx).1 }
  | .allocateUserSlot procIdx => { s with os := (s.os.allocateUserSlot procIdx).1 }
  | .setTaskClass procIdx schedClass => { s with os := (s.os.setTaskClass procIdx schedClass).1 }
  | .scheduleExit => { s with os := s.os.scheduleExit }

def Legal : TimerEvent → Prop
  | .allocateUserSlot procIdx => s.os.Fresh procIdx
  | .scheduleExit => s.os.sched.currentProc.isSome = true
  | _ => True

def Step (event : TimerEvent) (next : TimerSystem) : Prop :=
  s.Legal event ∧ next = s.apply event

variable {s next : TimerSystem} {event : TimerEvent} {slot : Nat}

lemma Step.inv (hs : s.os.Inv) (hstep : s.Step event next) : next.os.Inv := by
  obtain ⟨hlegal, rfl⟩ := hstep
  cases event with
  | timer | schedule => exact schedule_inv hs
  | sleepUntil wakeTick => exact sleepUntil_inv hs s.clock wakeTick
  | scheduleBlock => exact scheduleBlock_inv hs
  | wakeTask procIdx => exact wakeTask_inv hs procIdx
  | allocateUserSlot procIdx => exact allocateUserSlot_inv hs hlegal
  | setTaskClass procIdx schedClass => exact setTaskClass_inv hs procIdx schedClass
  | scheduleExit => exact scheduleExit_inv hs hlegal

def Wakes (s : TimerSystem) (slot : Nat) (event : TimerEvent) : Prop :=
  ∃ procIdx, event = .wakeTask procIdx ∧ s.os.procSlotGet procIdx = some slot

lemma Step.blocked (hs : s.os.Inv) (hstep : s.Step event next) (hblocked : s.os.Blocked slot)
    (hwakes : ¬s.Wakes slot event) : next.os.Blocked slot := by
  obtain ⟨hlegal, rfl⟩ := hstep
  cases event with
  | timer | schedule => exact (hs.blocked_schedule slot).mpr hblocked
  | sleepUntil wakeTick => exact hs.blocked_sleepUntil hblocked s.clock wakeTick
  | scheduleBlock => exact hs.blocked_scheduleBlock_of_blocked hblocked
  | wakeTask procIdx =>
    refine hs.blocked_wakeTask hblocked fun hslot => hwakes ⟨procIdx, rfl, hslot⟩
  | allocateUserSlot procIdx => exact (hs.blocked_allocateUserSlot procIdx slot).mpr hblocked
  | setTaskClass procIdx schedClass =>
    exact (hs.blocked_setTaskClass procIdx schedClass slot).mpr hblocked
  | scheduleExit => exact (hs.blocked_scheduleExit hlegal slot).mpr hblocked

lemma not_ready_of_blocked {os : SchedState} (hblocked : os.Blocked slot) : ¬os.Ready slot := by
  rintro ⟨n, hnode, hready⟩
  have hstate := (Scheduler.blocked_of_node hnode).mp hblocked
  simp [hready] at hstate

/-- At `start` the user task of `slot` calls `sleep_until` for a later time. -/
structure Entered (trace : Trace Step) (start slot wakeTick : Nat) : Prop where
  label : trace.label start = .sleepUntil wakeTick
  later : (trace.state start).clock < wakeTick
  user : (trace.state start).os.sched.currentProc.isSome = true
  slot : slot = (trace.state start).os.running

/-- Some timer interrupt after the clock has passed `wakeTick` makes the
sleeping task ready. -/
def WokenByTimer (trace : Trace Step) (start slot wakeTick : Nat) : Prop :=
  ∃ time, start < time ∧ trace.label time = .timer ∧ wakeTick ≤ (trace.state (time + 1)).clock ∧
    (trace.state time).os.Blocked slot ∧ (trace.state (time + 1)).os.Ready slot

variable {trace : Trace Step}

lemma trace_inv (hboot : trace.state 0 = boot) (time : Nat) : (trace.state time).os.Inv := by
  have hstart : (trace.state 0).os.Inv := hboot ▸ init_inv
  exact trace.invariant_from (fun s => s.os.Inv) hstart
    (fun _ _ hs => (trace.steps _).inv hs) (Nat.zero_le time)

lemma Entered.blocked_forever (hboot : trace.state 0 = boot) {start wakeTick : Nat}
    (hentered : Entered trace start slot wakeTick)
    (hwakes : ∀ time, start < time → ¬(trace.state time).Wakes slot (trace.label time)) {time : Nat}
    (htime : start < time) : (trace.state time).os.Blocked slot := by
  have hfirst : (trace.state (start + 1)).os.Blocked slot := by
    obtain ⟨_, hnext⟩ := trace.steps start
    rw [hnext, hentered.label, hentered.slot]
    exact (trace_inv hboot start).blocked_sleepUntil_self hentered.later hentered.user
  exact trace.invariant_from (fun s => s.os.Blocked slot) hfirst
    (fun later hlater hblocked =>
      (trace.steps later).blocked (trace_inv hboot later) hblocked (hwakes later hlater)) htime

/-- No timer interrupt of any run wakes a sleeping task, and without an
explicit wake-up it never becomes ready. -/
theorem sleeper_never_woken (hboot : trace.state 0 = boot) {start slot wakeTick : Nat}
    (hentered : Entered trace start slot wakeTick) :
    ¬WokenByTimer trace start slot wakeTick ∧
      ((∀ time, start < time → ¬(trace.state time).Wakes slot (trace.label time)) →
        ∀ time, start < time → ¬(trace.state time).os.Ready slot) := by
  constructor
  · rintro ⟨time, _, htimer, _, hblocked, hready⟩
    have hwakes : ¬(trace.state time).Wakes slot (trace.label time) := by
      rintro ⟨procIdx, hlabel, _⟩
      rw [htimer] at hlabel
      cases hlabel
    exact not_ready_of_blocked
      ((trace.steps time).blocked (trace_inv hboot time) hblocked hwakes) hready
  · intro hwakes time htime
    exact not_ready_of_blocked (hentered.blocked_forever hboot hwakes htime)

/-- One task is created, dispatched and put to sleep; then only the timer runs. -/
def sleeperLabel : Nat → TimerEvent
  | 0 => .allocateUserSlot 7
  | 1 => .schedule
  | 2 => .sleepUntil 1000
  | _ + 3 => .timer

def sleeperState : Nat → TimerSystem
  | 0 => boot
  | time + 1 => (sleeperState time).apply (sleeperLabel time)

def sleeperTrace : Trace Step where
  state := sleeperState
  label := sleeperLabel
  steps := by
    intro time
    refine ⟨?_, rfl⟩
    match time with
    | 0 => exact init_fresh 7
    | 1 => trivial
    | 2 => trivial
    | _ + 3 => trivial

lemma sleeperTrace_entered : Entered sleeperTrace 2 1 1000 where
  label := rfl
  later := by decide
  user := by decide
  slot := by decide

theorem sleeper_never_woken_sleeperTrace :
    Entered sleeperTrace 2 1 1000 ∧ ¬WokenByTimer sleeperTrace 2 1 1000 :=
  ⟨sleeperTrace_entered, (sleeper_never_woken rfl sleeperTrace_entered).1⟩

lemma sleeperState_clock (time : Nat) : (sleeperState (time + 3)).clock = time * tickMs := by
  induction time with
  | zero => decide
  | succ time ih =>
    show (sleeperState (time + 3)).clock + tickMs = _
    rw [ih, Nat.succ_mul]

/-- Timer interrupts arrive at every step and the clock passes every time, yet
the task that asked for 1000 ms is blocked at every moment. -/
theorem timer_leaves_sleeper_blocked : (∀ time, 3 ≤ time → sleeperTrace.label time = .timer) ∧
    (∀ bound, ∃ time, bound ≤ (sleeperTrace.state time).clock) ∧
    Entered sleeperTrace 2 1 1000 ∧
    ∀ time, 2 < time → (sleeperTrace.state time).os.Blocked 1 := by
  have htimer : ∀ time, 3 ≤ time → sleeperTrace.label time = .timer := by
    intro time htime
    obtain ⟨rest, rfl⟩ := Nat.exists_eq_add_of_le' htime
    rfl
  refine ⟨htimer, fun bound => ⟨bound + 3, ?_⟩, sleeperTrace_entered, fun time htime => ?_⟩
  · show bound ≤ (sleeperState (bound + 3)).clock
    rw [sleeperState_clock]
    exact Nat.le_mul_of_pos_right bound (by decide)
  · refine sleeperTrace_entered.blocked_forever rfl (fun later hlater => ?_) htime
    rintro ⟨procIdx, hlabel, _⟩
    rw [htimer later hlater] at hlabel
    cases hlabel

end TimerSystem

end KarteOs.Riscv

import KarteOs.Foundation.FirstMatch
import KarteOs.Sched.ReadyQueue

/-! # The task scheduler

`sched/mod.rs`: the task table, the ready queue, the process-to-slot map and
the sleep queue, with every operation that moves a task between them. Slot 0 is
the idle task, the fallback when no user task is runnable. What the context
switch itself saves and restores (stack pointers, the FS base, page-table
registers) is not part of the state.
-/

namespace KarteOs.Sched

open List Option

inductive TaskKind
  | empty
  | idle
  | user (procIdx : Nat)
deriving DecidableEq

inductive TaskState
  | ready
  | running
  | blocked
  | exited
deriving DecidableEq

structure TaskNode where
  kind : TaskKind
  state : TaskState
  schedClass : SchedClass
  /-- Ticks left before this task must requeue. -/
  quantumLeft : Nat
deriving DecidableEq

namespace TaskNode

def newIdle : TaskNode :=
  { kind := .idle, state := .running, schedClass := .normal, quantumLeft := 2 ^ 64 - 1 }

def newUser (procIdx : Nat) (schedClass : SchedClass) : TaskNode :=
  { kind := .user procIdx, state := .ready, schedClass, quantumLeft := schedClass.quantum }

def proc (n : TaskNode) : Option Nat :=
  match n.kind with
  | .user procIdx => some procIdx
  | .empty | .idle => none

lemma proc_eq_some {n : TaskNode} {procIdx : Nat} :
    n.proc = some procIdx ↔ n.kind = .user procIdx := by
  unfold proc
  split <;> simp_all

end TaskNode

/-- What the scheduler lock protects. Every entry of the table is allocated;
the free list has the slot to be reused next in front. -/
structure Scheduler where
  nodes : List TaskNode
  free : List Nat
  ready : ReadyQueue
  current : Nat

def idleSlot : Nat := 0

namespace Scheduler

variable (s : Scheduler)

def node (slot : Nat) : Option TaskNode :=
  s.nodes[slot]?

def modifyNode (slot : Nat) (f : TaskNode → TaskNode) : Scheduler :=
  { s with nodes := s.nodes.modify slot f }

def setState (slot : Nat) (state : TaskState) : Scheduler :=
  s.modifyNode slot fun n => { n with state }

def currentProc : Option Nat :=
  (s.node s.current).bind TaskNode.proc

def userRunning : Bool :=
  match s.node s.current with
  | some n => n.proc.isSome && n.state == .running
  | none => false

def enqueue (slot : Nat) (n : TaskNode) : Scheduler :=
  { s with ready := s.ready.push slot n.schedClass.priority }

def dispatch (next : Nat) : Scheduler :=
  { s.setState next .running with current := next }

def dispatchNext : Scheduler :=
  { s with ready := s.ready.popNext.2 }.dispatch (s.ready.popNext.1.getD idleSlot)

/-- A task that still runs goes to the back of its level with a new quantum. -/
def requeueCurrent : Scheduler :=
  match s.node s.current with
  | some n =>
    if s.userRunning then
      (s.modifyNode s.current fun n =>
        { n with state := .ready, quantumLeft := n.schedClass.quantum }).enqueue s.current n
    else s
  | none => s

def resumeCurrent : Scheduler :=
  s.modifyNode s.current fun n => if n.state = .ready then { n with state := .running } else n

def blockCurrent : Scheduler :=
  { s.setState s.current .blocked with ready := s.ready.remove s.current }

def exitSlot (slot : Nat) : Scheduler :=
  match s.node slot with
  | some _ =>
    { s.modifyNode slot fun n => { n with state := .exited, kind := .empty } with
      ready := s.ready.remove slot
      free := slot :: s.free }
  | none => s

def wakeSlot (slot : Nat) : Scheduler × Bool :=
  match s.node slot with
  | some n =>
    if n.state = .blocked then ((s.setState slot .ready).enqueue slot n, true) else (s, false)
  | none => (s, false)

/-- Change a task's class; a ready task is queued again at its new priority. -/
def setClass (slot : Nat) (n : TaskNode) (schedClass : SchedClass) : Scheduler :=
  { s.modifyNode slot fun n => { n with schedClass, quantumLeft := schedClass.quantum } with
    ready :=
      if n.state = .ready then (s.ready.remove slot).push slot schedClass.priority else s.ready }

lemma node_modifyNode (slot other : Nat) (f : TaskNode → TaskNode) :
    (s.modifyNode slot f).node other =
      if slot = other then (s.node other).map f else s.node other := by
  unfold node modifyNode
  rw [getElem?_modify]
  split <;> simp_all

variable {s : Scheduler} {slot : Nat}

lemma node_modifyNode_self {n : TaskNode} (hnode : s.node slot = some n)
    (f : TaskNode → TaskNode) : (s.modifyNode slot f).node slot = some (f n) := by
  simp [node_modifyNode, hnode]

lemma node_modifyNode_of_ne (s : Scheduler) {other : Nat} (hne : other ≠ slot)
    (f : TaskNode → TaskNode) : (s.modifyNode slot f).node other = s.node other := by
  simp [node_modifyNode, hne.symm]

lemma userRunning_iff : s.userRunning ↔
    ∃ n procIdx, s.node s.current = some n ∧ n.kind = .user procIdx ∧ n.state = .running := by
  unfold userRunning
  split
  next n hnode =>
    simp only [hnode, Bool.and_eq_true, isSome_iff_exists, beq_iff_eq,
      TaskNode.proc_eq_some, some.injEq]
    constructor
    · rintro ⟨⟨procIdx, hkind⟩, hstate⟩
      exact ⟨n, procIdx, rfl, hkind, hstate⟩
    · rintro ⟨_, procIdx, rfl, hkind, hstate⟩
      exact ⟨⟨procIdx, hkind⟩, hstate⟩
  next hnode => simp [hnode]

lemma currentProc_eq_some {procIdx : Nat} :
    s.currentProc = some procIdx ↔ ∃ n, s.node s.current = some n ∧ n.kind = .user procIdx := by
  simp [currentProc, bind_eq_some_iff, TaskNode.proc_eq_some]

end Scheduler

structure SchedState where
  sched : Scheduler
  /-- `CURRENT_RUNNING`. -/
  running : Nat
  /-- `PROC_TO_SLOT`; no entry and `NO_SLOT` are both `none`. -/
  procToSlot : List (Option Nat)
  /-- `SLEEPQ`: slots with the uptime at which to wake them. -/
  sleepq : List (Nat × Nat)

namespace SchedState

def init : SchedState :=
  { sched :=
      { nodes := [.newIdle], free := [], ready := .new, current := idleSlot }
    running := idleSlot
    procToSlot := []
    sleepq := [] }

variable (s : SchedState)

def procSlotGet (procIdx : Nat) : Option Nat :=
  s.procToSlot[procIdx]?.join

def procSlotSet (procIdx : Nat) (slot : Option Nat) : SchedState :=
  let map := s.procToSlot ++ List.replicate (procIdx + 1 - s.procToSlot.length) none
  { s with procToSlot := map.set procIdx slot }

lemma procSlotGet_procSlotSet (procIdx other : Nat) (slot : Option Nat) :
    (s.procSlotSet procIdx slot).procSlotGet other =
      if other = procIdx then slot else s.procSlotGet other := by
  simp only [procSlotGet, procSlotSet]
  rw [getElem?_set]
  split
  next heq =>
    subst heq
    have hlen : procIdx < (s.procToSlot ++
        replicate (procIdx + 1 - s.procToSlot.length) (none : Option Nat)).length := by
      simp only [length_append, length_replicate]
      omega
    rw [if_pos hlen, if_pos rfl]
    rfl
  next hne =>
    rw [if_neg (Ne.symm hne), getElem?_append]
    split
    · rfl
    next hlen =>
      rw [getElem?_eq_none (not_lt.mp hlen), getElem?_replicate]
      split <;> rfl

def removeSleep (slot : Nat) : SchedState :=
  { s with sleepq := s.sleepq.filter fun entry => entry.1 != slot }

def queueSleep (slot wakeTick : Nat) : SchedState :=
  { s with
    sleepq := (FirstMatch.updateFirst (fun entry => entry.1 == slot)
      (fun entry => (entry.1, wakeTick)) s.sleepq).getD (s.sleepq ++ [(slot, wakeTick)]) }

def switchTo (sched : Scheduler) : SchedState :=
  { s with sched, running := sched.current }

/-- Requeue the current task and run the best ready one; with none ready the
current task keeps running. -/
def reschedule : SchedState :=
  let sched := s.sched.requeueCurrent
  match sched.ready.popNext with
  | (some next, ready) => s.switchTo ({ sched with ready }.dispatch next)
  | (none, ready) => { s with sched := { sched with ready }.resumeCurrent }

def schedule : SchedState :=
  match s.sched.node s.sched.current with
  | some n =>
    if s.sched.userRunning ∧ 0 < n.quantumLeft then
      { s with sched := s.sched.modifyNode s.sched.current fun n =>
          { n with quantumLeft := n.quantumLeft - 1 } }
    else s.reschedule
  | none => s.reschedule

def scheduleBlock : SchedState :=
  if s.sched.currentProc.isSome then s.switchTo s.sched.blockCurrent.dispatchNext else s

def scheduleExit : SchedState :=
  let s := s.removeSleep s.running
  let next := s.switchTo (s.sched.exitSlot s.sched.current).dispatchNext
  match s.sched.currentProc with
  | some procIdx => next.procSlotSet procIdx none
  | none => next

def markCurrentExited : SchedState :=
  let s := s.removeSleep s.running
  { s with sched := s.sched.setState s.sched.current .exited }

def markTaskExitedByProc (procIdx : Nat) : SchedState :=
  match s.procSlotGet procIdx with
  | none => s
  | some slot =>
    let s := s.removeSleep slot
    { s with sched := s.sched.exitSlot slot }.procSlotSet procIdx none

/-- The scheduler section of `wake_task` and one turn of the loop of
`tick_sleep_queue`. -/
def wakeSlot (slot : Nat) : SchedState :=
  { s with sched := (s.sched.wakeSlot slot).1 }

def wakeTask (procIdx : Nat) : SchedState × Bool :=
  match s.procSlotGet procIdx with
  | none => (s, false)
  | some slot =>
    let s := s.removeSleep slot
    (s.wakeSlot slot, (s.sched.wakeSlot slot).2)

def isSlotActive (slot : Nat) : Bool :=
  match s.sched.node slot with
  | some n => n.kind != .empty
  | none => false

def sleepUntil (now wakeTick : Nat) : SchedState :=
  if wakeTick ≤ now then s
  else if s.isSlotActive s.running then (s.queueSleep s.running wakeTick).scheduleBlock
  else s

def dueSlots (now : Nat) : List Nat :=
  (s.sleepq.filter fun entry => decide (entry.2 ≤ now)).map Prod.fst

def drainSleepers (now : Nat) : SchedState :=
  { s with sleepq := s.sleepq.filter fun entry => !decide (entry.2 ≤ now) }

def wakeSlots (slots : List Nat) : SchedState :=
  slots.foldl wakeSlot s

def tickSleepQueue (now : Nat) : SchedState :=
  (s.drainSleepers now).wakeSlots (s.dueSlots now)

def takeSlot (s : Scheduler) : Nat × Scheduler :=
  match s.free with
  | slot :: free => (slot, { s with free })
  | [] => (s.nodes.length, { s with nodes := s.nodes ++ [.newIdle] })

def allocateUserSlot (s : SchedState) (procIdx : Nat) : SchedState × Option Nat :=
  let (slot, sched) := takeSlot s.sched
  match sched.node slot with
  | none => ({ s with sched }, none)
  | some _ =>
    let n := TaskNode.newUser procIdx .normal
    let sched := sched.modifyNode slot fun _ => n
    ({ s with sched := sched.enqueue slot n }.procSlotSet procIdx (some slot), some slot)

def setTaskClass (s : SchedState) (procIdx : Nat) (schedClass : SchedClass) : SchedState × Bool :=
  match s.procSlotGet procIdx with
  | none => (s, false)
  | some slot =>
    match s.sched.node slot with
    | none => (s, false)
    | some n =>
      if n.kind = .empty then (s, false)
      else ({ s with sched := s.sched.setClass slot n schedClass }, true)

end SchedState

end KarteOs.Sched

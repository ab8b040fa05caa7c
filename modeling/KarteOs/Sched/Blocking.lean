import KarteOs.Sched.RunState

/-! # Which tasks are blocked

Sleeping, futex and pipe protocols see the scheduler through the set of
blocked slots. Only the current task can join it and only a wake-up of the slot
itself takes a task out; every other operation leaves it as it is.
-/

namespace KarteOs.Sched

open Scheduler List Option

namespace Scheduler

def Blocked (s : Scheduler) (slot : Nat) : Prop :=
  ∃ n, s.node slot = some n ∧ n.state = .blocked

instance (s : Scheduler) (slot : Nat) : Decidable (s.Blocked slot) :=
  decidable_of_iff ((s.node slot).map TaskNode.state = some .blocked) (by simp [Blocked])

variable {s next : Scheduler} {slot : Nat} {n m : TaskNode}

lemma blocked_of_node (hnode : s.node slot = some n) : s.Blocked slot ↔ n.state = .blocked := by
  simp [Blocked, hnode]

section
variable (hrw : s.Rewrites slot m next)
include hrw

lemma Rewrites.blocked_self : next.Blocked slot ↔ m.state = .blocked :=
  blocked_of_node hrw.node_self

lemma Rewrites.blocked_other {other : Nat} (hne : other ≠ slot) :
    next.Blocked other ↔ s.Blocked other := by
  simp [Blocked, hrw.node_other other hne]

lemma Rewrites.blocked_iff (hslot : ¬s.Blocked slot) (hstate : m.state ≠ .blocked) (other : Nat) :
    next.Blocked other ↔ s.Blocked other := by
  rcases eq_or_ne other slot with rfl | hne
  · simp [hrw.blocked_self, hstate, hslot]
  · exact hrw.blocked_other hne

end

lemma Coherent.not_blocked_idle (hs : s.Coherent) : ¬s.Blocked idleSlot := by
  rintro ⟨n, hnode, hstate⟩
  obtain ⟨procIdx, hkind⟩ := hs.user _ n hnode (.inr hstate)
  exact hs.ne_idle hnode (by simp [hkind]) rfl

lemma Coherent.blocked_dispatchNext (hs : s.Coherent) (slot : Nat) :
    s.dispatchNext.Blocked slot ↔ s.Blocked slot := by
  obtain ⟨next, n, hnode, hnext, _, hrw⟩ := hs.dispatchNext_rewrites
  refine hrw.blocked_iff ?_ (by simp) slot
  rcases hnext with hready | rfl
  · simp [blocked_of_node hnode, hready]
  · exact hs.not_blocked_idle

end Scheduler

namespace SchedState

def Blocked (s : SchedState) (slot : Nat) : Prop :=
  s.sched.Blocked slot
deriving Decidable

variable {s : SchedState}

lemma Inv.not_blocked_current (hs : s.Inv) : ¬s.Blocked s.sched.current := by
  rcases hs.dispatched.current with hidle | hrunning
  · rw [hidle]
    exact hs.coherent.not_blocked_idle
  · obtain ⟨n, _, hnode, _, hstate⟩ := userRunning_iff.mp hrunning
    simp [Blocked, blocked_of_node hnode, hstate]

lemma Inv.blocked_schedule (hs : s.Inv) (slot : Nat) :
    s.schedule.Blocked slot ↔ s.Blocked slot := by
  have hreschedule : s.reschedule.Blocked slot ↔ s.Blocked slot := by
    obtain hnext | ⟨ready, _, _, _, hnext⟩ := reschedule_cases hs.coherent
    · rw [hnext]
      obtain ⟨hcoherent, _⟩ := hs.coherent.requeueCurrent hs.dispatched
      refine (hcoherent.blocked_dispatchNext slot).trans ?_
      obtain ⟨_, hsame⟩ | ⟨n, hnode, hstate, hrw⟩ := hs.coherent.requeueCurrent_cases
      · rw [hsame]
        rfl
      · exact hrw.blocked_iff hs.not_blocked_current (by simp) slot
    · rw [hnext]
      rfl
  unfold schedule
  split
  next n hnode =>
    split
    · exact (hs.coherent.modifyNode_rewrites hnode
        (f := fun n => { n with quantumLeft := n.quantumLeft - 1 }) rfl Iff.rfl
        (fun hblocked => hs.coherent.user _ n hnode (.inr hblocked))).blocked_iff
        hs.not_blocked_current ((blocked_of_node hnode).not.mp hs.not_blocked_current)
        slot
    · exact hreschedule
  · exact hreschedule

lemma Inv.blocked_scheduleBlock (hs : s.Inv) (huser : s.sched.currentProc.isSome)
    (slot : Nat) : s.scheduleBlock.Blocked slot ↔ s.Blocked slot ∨ slot = s.sched.current := by
  obtain ⟨procIdx, hproc⟩ := isSome_iff_exists.mp huser
  obtain ⟨n, hnode, hkind⟩ := currentProc_eq_some.mp hproc
  have hrw := hs.blockCurrent_rewrites hnode hkind
  simp only [scheduleBlock, huser, if_true]
  refine ((hrw.coherent hs.coherent).blocked_dispatchNext slot).trans ?_
  rcases eq_or_ne slot s.sched.current with rfl | hne
  · simp [hrw.blocked_self]
  · simp [hrw.blocked_other hne, hne, Blocked]

lemma Inv.blocked_wakeSlot (hs : s.Inv) (slot other : Nat) :
    (s.wakeSlot slot).Blocked other ↔ s.Blocked other ∧ other ≠ slot := by
  obtain ⟨hnot, hsame⟩ | ⟨n, hnode, hstate, hrw, _⟩ := wakeSlot_cases hs.coherent slot
  · rw [hsame]
    refine ⟨fun hblocked => ⟨hblocked, ?_⟩, And.left⟩
    rintro rfl
    exact hnot hblocked
  · rcases eq_or_ne other slot with rfl | hne
    · simp [Blocked, hrw.blocked_self]
    · simp [Blocked, hrw.blocked_other hne, hne]

def Ready (s : SchedState) (slot : Nat) : Prop :=
  ∃ n, s.sched.node slot = some n ∧ n.state = .ready

variable {slot : Nat} (hs : s.Inv)
include hs

lemma Inv.ready_wakeSlot_self (hblocked : s.Blocked slot) : (s.wakeSlot slot).Ready slot := by
  obtain ⟨hnot, _⟩ | ⟨n, _, _, hrw, _⟩ := wakeSlot_cases hs.coherent slot
  · exact absurd hblocked hnot
  · exact ⟨_, hrw.node_self, rfl⟩

lemma Inv.ready_wakeSlot (hready : s.Ready slot) (other : Nat) : (s.wakeSlot other).Ready slot := by
  obtain ⟨_, hsame⟩ | ⟨n, hnode, hstate, hrw, _⟩ := wakeSlot_cases hs.coherent other
  · exact hsame.symm ▸ hready
  · obtain ⟨m, hm, hmstate⟩ := hready
    have hne : slot ≠ other := by
      rintro rfl
      cases hnode.symm.trans hm
      simp [hstate] at hmstate
    exact ⟨m, (hrw.node_other slot hne).trans hm, hmstate⟩

lemma Inv.ready_wakeSlots {slots : List Nat}
    (hslot : s.Ready slot ∨ s.Blocked slot ∧ slot ∈ slots) : (s.wakeSlots slots).Ready slot := by
  induction slots generalizing s with
  | nil => simpa [wakeSlots] using hslot
  | cons first rest ih =>
    refine ih (wakeSlot_inv hs first) ?_
    rcases hslot with hready | ⟨hblocked, hmem⟩
    · exact .inl (hs.ready_wakeSlot hready first)
    · rcases eq_or_ne slot first with rfl | hne
      · exact .inl (hs.ready_wakeSlot_self hblocked)
      · exact .inr ⟨(hs.blocked_wakeSlot first slot).mpr ⟨hblocked, hne⟩,
          (mem_cons.mp hmem).resolve_left hne⟩

lemma Inv.blocked_wakeSlots (slots : List Nat) (other : Nat) :
    (s.wakeSlots slots).Blocked other ↔ s.Blocked other ∧ other ∉ slots := by
  induction slots generalizing s with
  | nil => simp [wakeSlots]
  | cons slot slots ih =>
    rw [show s.wakeSlots (slot :: slots) = (s.wakeSlot slot).wakeSlots slots from rfl,
      ih (wakeSlot_inv hs slot), hs.blocked_wakeSlot, mem_cons, not_or, and_assoc]

lemma Inv.blocked_allocateUserSlot (procIdx slot : Nat) :
    (s.allocateUserSlot procIdx).1.Blocked slot ↔ s.Blocked slot := by
  rcases htake : takeSlot s.sched with ⟨fresh, sched⟩
  obtain ⟨_, _, _, _, _, hother, n, _, hkind, hold⟩ := takeSlot_spec hs.coherent htake
  obtain ⟨hrw, halloc⟩ := allocateUserSlot_spec hs.coherent procIdx htake
  have hfresh : ¬s.Blocked fresh := by
    rintro ⟨m, hm, hstate⟩
    obtain ⟨q, hq⟩ := hs.coherent.user fresh m hm (.inr hstate)
    exact hkind q (hold m hm ▸ hq)
  rw [halloc]
  rcases eq_or_ne slot fresh with rfl | hne
  · refine iff_of_false (fun hblocked => ?_) hfresh
    simpa [TaskNode.newUser] using hrw.blocked_self.mp hblocked
  · refine (hrw.blocked_other hne).trans ?_
    simp [Blocked, Scheduler.Blocked, hother slot hne]

lemma Inv.blocked_setTaskClass (procIdx : Nat) (schedClass : SchedClass) (slot : Nat) :
    (s.setTaskClass procIdx schedClass).1.Blocked slot ↔ s.Blocked slot := by
  obtain hsame | ⟨changed, n, hnode, hrw, hnext⟩ :=
    setTaskClass_cases hs.coherent procIdx schedClass
  · rw [hsame]
  · rw [hnext]
    rcases eq_or_ne slot changed with rfl | hne
    · exact hrw.blocked_self.trans (blocked_of_node hnode).symm
    · exact hrw.blocked_other hne

lemma Inv.blocked_scheduleExit (huser : s.sched.currentProc.isSome) (slot : Nat) :
    s.scheduleExit.Blocked slot ↔ s.Blocked slot := by
  obtain ⟨procIdx, hproc⟩ := isSome_iff_exists.mp huser
  obtain ⟨n, hnode, hkind⟩ := currentProc_eq_some.mp hproc
  have hrw := hs.coherent.exitSlot_rewrites hnode hkind
  rw [Blocked, scheduleExit_sched hproc]
  refine ((hrw.coherent hs.coherent).blocked_dispatchNext slot).trans ?_
  exact hrw.blocked_iff hs.not_blocked_current (by simp) slot

lemma Inv.blocked_scheduleBlock_of_blocked (hblocked : s.Blocked slot) :
    s.scheduleBlock.Blocked slot := by
  by_cases huser : s.sched.currentProc.isSome
  · exact (hs.blocked_scheduleBlock huser slot).mpr (.inl hblocked)
  · simpa [scheduleBlock, huser] using hblocked

lemma Inv.blocked_sleepUntil (hblocked : s.Blocked slot) (now wakeTick : Nat) :
    (s.sleepUntil now wakeTick).Blocked slot := by
  unfold sleepUntil
  split
  · exact hblocked
  · split
    · exact (hs.withSleepq _).blocked_scheduleBlock_of_blocked hblocked
    · exact hblocked

lemma Inv.blocked_wakeTask {procIdx : Nat} (hblocked : s.Blocked slot)
    (hother : s.procSlotGet procIdx ≠ some slot) : (s.wakeTask procIdx).1.Blocked slot := by
  unfold wakeTask
  split
  · exact hblocked
  next woken hslot =>
    refine ((hs.withSleepq _).blocked_wakeSlot woken slot).mpr ⟨hblocked, ?_⟩
    rintro rfl
    exact hother hslot

lemma Inv.blocked_sleepUntil_self {now wakeTick : Nat} (hlater : now < wakeTick)
    (huser : s.sched.currentProc.isSome) : (s.sleepUntil now wakeTick).Blocked s.running := by
  obtain ⟨procIdx, hproc⟩ := isSome_iff_exists.mp huser
  obtain ⟨n, hnode, hkind⟩ := currentProc_eq_some.mp hproc
  have hactive : s.isSlotActive s.running := by simp [isSlotActive, hs.running, hnode, hkind]
  simp only [sleepUntil, Nat.not_le.mpr hlater, if_false, hactive, if_true]
  have hqueued : (s.queueSleep s.running wakeTick).Inv := hs.withSleepq _
  exact (hqueued.blocked_scheduleBlock huser s.running).mpr (.inr hs.running)

end SchedState

namespace Scheduler

def TaskBlocked (s : Scheduler) (procIdx : Nat) : Prop :=
  ∃ slot n, s.node slot = some n ∧ n.kind = .user procIdx ∧ n.state = .blocked

instance (s : Scheduler) (procIdx : Nat) : Decidable (s.TaskBlocked procIdx) :=
  decidable_of_iff (∃ n ∈ s.nodes, n.kind = .user procIdx ∧ n.state = .blocked)
    ⟨fun ⟨n, hn, hblocked⟩ =>
      let ⟨slot, hslot⟩ := List.mem_iff_getElem?.mp hn
      ⟨slot, n, hslot, hblocked⟩,
    fun ⟨_, n, hnode, hblocked⟩ => ⟨n, List.mem_of_getElem? hnode, hblocked⟩⟩

variable {s next : Scheduler} {slot procIdx : Nat} {n m : TaskNode}

lemma Rewrites.taskBlocked (hrw : s.Rewrites slot m next)
    (hblocked : next.TaskBlocked procIdx) :
    s.TaskBlocked procIdx ∨ m.kind = .user procIdx ∧ m.state = .blocked := by
  obtain ⟨other, k, hk, hkind, hstate⟩ := hblocked
  rcases eq_or_ne other slot with rfl | hne
  · rw [hrw.node_self] at hk
    cases hk
    exact .inr ⟨hkind, hstate⟩
  · rw [hrw.node_other other hne] at hk
    exact .inl ⟨other, k, hk, hkind, hstate⟩

lemma Rewrites.taskBlocked_of_ne (hrw : s.Rewrites slot m next)
    (hstate : m.state ≠ .blocked) (hblocked : next.TaskBlocked procIdx) : s.TaskBlocked procIdx :=
  (hrw.taskBlocked hblocked).resolve_right fun h => hstate h.2

lemma Coherent.taskBlocked_dispatchNext (hs : s.Coherent)
    (hblocked : s.dispatchNext.TaskBlocked procIdx) : s.TaskBlocked procIdx := by
  obtain ⟨next, n, _, _, _, hrw⟩ := hs.dispatchNext_rewrites
  exact hrw.taskBlocked_of_ne (by simp) hblocked

end Scheduler

namespace SchedState

def TaskBlocked (s : SchedState) (procIdx : Nat) : Prop :=
  s.sched.TaskBlocked procIdx
deriving Decidable

variable {s : SchedState} {procIdx now : Nat}

section
variable (hs : s.Inv)
include hs

lemma Inv.taskBlocked_schedule (hblocked : s.schedule.TaskBlocked procIdx) :
    s.TaskBlocked procIdx := by
  have hreschedule : s.reschedule.TaskBlocked procIdx → s.TaskBlocked procIdx := by
    intro hblocked
    obtain hnext | ⟨ready, _, _, _, hnext⟩ := reschedule_cases hs.coherent
    · rw [hnext] at hblocked
      obtain ⟨hcoherent, _⟩ := hs.coherent.requeueCurrent hs.dispatched
      replace hblocked := hcoherent.taskBlocked_dispatchNext hblocked
      obtain ⟨_, hsame⟩ | ⟨n, _, _, hrw⟩ := hs.coherent.requeueCurrent_cases
      · rwa [hsame] at hblocked
      · exact hrw.taskBlocked_of_ne (by simp) hblocked
    · rw [hnext] at hblocked
      exact hblocked
  unfold schedule at hblocked
  split at hblocked
  next n hnode =>
    split at hblocked
    · refine ((hs.coherent.modifyNode_rewrites hnode
        (f := fun n => { n with quantumLeft := n.quantumLeft - 1 }) rfl Iff.rfl
        (fun hblocked =>
          hs.coherent.user _ n hnode (.inr hblocked))).taskBlocked hblocked).elim id ?_
      exact fun ⟨hkind, hstate⟩ => ⟨_, n, hnode, hkind, hstate⟩
    · exact hreschedule hblocked
  · exact hreschedule hblocked

lemma Inv.taskBlocked_scheduleBlock (hblocked : s.scheduleBlock.TaskBlocked procIdx) :
    s.TaskBlocked procIdx ∨ s.sched.currentProc = some procIdx := by
  unfold scheduleBlock at hblocked
  split at hblocked
  next huser =>
    obtain ⟨current, hproc⟩ := isSome_iff_exists.mp huser
    obtain ⟨n, hnode, hkind⟩ := currentProc_eq_some.mp hproc
    have hrw := hs.blockCurrent_rewrites hnode hkind
    have hbefore := (hrw.coherent hs.coherent).taskBlocked_dispatchNext hblocked
    refine (hrw.taskBlocked hbefore).imp id fun ⟨hprocIdx, _⟩ => ?_
    exact currentProc_eq_some.mpr ⟨n, hnode, hprocIdx⟩
  · exact .inl hblocked

lemma Inv.taskBlocked_sleepUntil {wakeTick : Nat}
    (hblocked : (s.sleepUntil now wakeTick).TaskBlocked procIdx) :
    s.TaskBlocked procIdx ∨ s.sched.currentProc = some procIdx := by
  unfold sleepUntil at hblocked
  split at hblocked
  · exact .inl hblocked
  · split at hblocked
    · have hqueued : (s.queueSleep s.running wakeTick).Inv := hs.withSleepq _
      exact hqueued.taskBlocked_scheduleBlock hblocked
    · exact .inl hblocked

lemma Inv.taskBlocked_wakeSlot {slot : Nat} (hblocked : (s.wakeSlot slot).TaskBlocked procIdx) :
    s.TaskBlocked procIdx := by
  obtain ⟨_, hsame⟩ | ⟨n, _, _, hrw, _⟩ := wakeSlot_cases hs.coherent slot
  · exact hsame ▸ hblocked
  · exact hrw.taskBlocked_of_ne (by simp) hblocked

lemma Inv.taskBlocked_wakeSlots {slots : List Nat}
    (hblocked : (s.wakeSlots slots).TaskBlocked procIdx) : s.TaskBlocked procIdx := by
  induction slots generalizing s with
  | nil => exact hblocked
  | cons slot slots ih => exact hs.taskBlocked_wakeSlot (ih (wakeSlot_inv hs slot) hblocked)

lemma Inv.taskBlocked_wakeTask {woken : Nat} (hblocked : (s.wakeTask woken).1.TaskBlocked procIdx) :
    s.TaskBlocked procIdx ∧ procIdx ≠ woken := by
  unfold wakeTask at hblocked
  split at hblocked
  next hnone =>
    refine ⟨hblocked, ?_⟩
    rintro rfl
    obtain ⟨slot, n, hnode, hkind, _⟩ := hblocked
    rw [hs.mapped slot n procIdx hnode hkind] at hnone
    cases hnone
  next target htarget =>
    have hremoved : (s.removeSleep target).Inv := hs.withSleepq _
    have hbefore := hremoved.taskBlocked_wakeSlot hblocked
    refine ⟨hbefore, ?_⟩
    rintro rfl
    obtain ⟨slot, n, hnode, hkind, hstate⟩ := hblocked
    have hslot : ((s.removeSleep target).wakeSlot target).Blocked slot := ⟨n, hnode, hstate⟩
    obtain ⟨_, hne⟩ := (hremoved.blocked_wakeSlot target slot).mp hslot
    have hmapped := (wakeSlot_inv hremoved target).mapped slot n procIdx hnode hkind
    exact hne (some.inj (hmapped.symm.trans htarget))

end

def wakeTasks (s : SchedState) (procIdxs : List Nat) : SchedState :=
  procIdxs.foldl (fun s procIdx => (s.wakeTask procIdx).1) s

variable (hs : s.Inv)
include hs

lemma wakeTasks_inv (procIdxs : List Nat) : (s.wakeTasks procIdxs).Inv := by
  induction procIdxs generalizing s with
  | nil => exact hs
  | cons first rest ih => exact ih (wakeTask_inv hs first)

lemma Inv.taskBlocked_wakeTasks {procIdxs : List Nat}
    (hblocked : (s.wakeTasks procIdxs).TaskBlocked procIdx) :
    s.TaskBlocked procIdx ∧ procIdx ∉ procIdxs := by
  induction procIdxs generalizing s with
  | nil => exact ⟨hblocked, not_mem_nil⟩
  | cons first rest ih =>
    obtain ⟨hbefore, hrest⟩ := ih (wakeTask_inv hs first) hblocked
    obtain ⟨hbefore, hfirst⟩ := hs.taskBlocked_wakeTask hbefore
    exact ⟨hbefore, not_mem_cons_of_ne_of_not_mem hfirst hrest⟩

lemma Inv.taskBlocked_tickSleepQueue (hblocked : (s.tickSleepQueue now).TaskBlocked procIdx) :
    s.TaskBlocked procIdx := by
  have hdrained : (s.drainSleepers now).Inv := hs.withSleepq _
  exact hdrained.taskBlocked_wakeSlots hblocked

lemma Inv.taskBlocked_allocateUserSlot {created : Nat}
    (hblocked : (s.allocateUserSlot created).1.TaskBlocked procIdx) : s.TaskBlocked procIdx := by
  obtain ⟨slot, n, hnode, hkind, hstate⟩ := hblocked
  rcases htake : takeSlot s.sched with ⟨fresh, sched⟩
  obtain ⟨_, _, _, _, _, hother, _⟩ := takeSlot_spec hs.coherent htake
  obtain ⟨hrw, halloc⟩ := allocateUserSlot_spec hs.coherent created htake
  rw [halloc] at hnode
  have hne : slot ≠ fresh := by
    rintro rfl
    cases hrw.node_self.symm.trans hnode
    cases hstate
  exact ⟨slot, n, ((hrw.node_other slot hne).trans (hother slot hne)).symm.trans hnode,
    hkind, hstate⟩

lemma Inv.taskBlocked_setTaskClass {changed : Nat} {schedClass : SchedClass}
    (hblocked : (s.setTaskClass changed schedClass).1.TaskBlocked procIdx) :
    s.TaskBlocked procIdx := by
  obtain hsame | ⟨slot, n, hnode, hrw, hnext⟩ :=
    setTaskClass_cases hs.coherent changed schedClass
  · exact hsame ▸ hblocked
  · rw [hnext] at hblocked
    refine (hrw.taskBlocked hblocked).elim id fun ⟨hkind, hstate⟩ => ?_
    exact ⟨slot, n, hnode, hkind, hstate⟩

lemma Inv.taskBlocked_scheduleExit (huser : s.sched.currentProc.isSome)
    (hblocked : s.scheduleExit.TaskBlocked procIdx) : s.TaskBlocked procIdx := by
  obtain ⟨current, hproc⟩ := isSome_iff_exists.mp huser
  obtain ⟨n, hnode, hkind⟩ := currentProc_eq_some.mp hproc
  have hrw := hs.coherent.exitSlot_rewrites hnode hkind
  rw [TaskBlocked, scheduleExit_sched hproc] at hblocked
  exact hrw.taskBlocked_of_ne (by simp)
    ((hrw.coherent hs.coherent).taskBlocked_dispatchNext hblocked)

lemma Inv.not_taskBlocked_current (hcurrent : s.sched.currentProc = some procIdx) :
    ¬s.TaskBlocked procIdx := by
  rintro ⟨slot, m, hslot, hkind, hblocked⟩
  obtain ⟨n, hnode, huser⟩ := currentProc_eq_some.mp hcurrent
  obtain rfl : s.sched.current = slot :=
    some.inj ((hs.mapped _ n procIdx hnode huser).symm.trans (hs.mapped slot m procIdx hslot hkind))
  cases hnode.symm.trans hslot
  rcases hs.dispatched.current with hidle | hrunning
  · obtain ⟨k, hk, hkidle⟩ := hs.coherent.idle
    rw [← hidle, hnode] at hk
    cases hk
    simp [huser] at hkidle
  · obtain ⟨k, other, hk, _, hstate⟩ := userRunning_iff.mp hrunning
    cases hnode.symm.trans hk
    simp [hblocked] at hstate

end SchedState

/-- The operations by which the current task gives up the processor until it is woken. -/
def SchedOp.gives : SchedOp → Bool
  | .scheduleBlock | .sleepUntil .. | .scheduleExit => true
  | _ => false

namespace SchedState

variable {s : SchedState} {procIdx : Nat}

lemma Step.taskBlocked {next : SchedState} {op : SchedOp} (hs : s.Inv) (hstep : s.Step op next)
    (hblocked : next.TaskBlocked procIdx) :
    s.TaskBlocked procIdx ∨ op.gives ∧ s.sched.currentProc = some procIdx := by
  obtain ⟨hlegal, rfl⟩ := hstep
  cases op with
  | allocateUserSlot created => exact .inl (hs.taskBlocked_allocateUserSlot hblocked)
  | schedule => exact .inl (hs.taskBlocked_schedule hblocked)
  | scheduleBlock => exact (hs.taskBlocked_scheduleBlock hblocked).imp_right (⟨rfl, ·⟩)
  | wakeTask woken => exact .inl (hs.taskBlocked_wakeTask hblocked).1
  | sleepUntil now wakeTick => exact (hs.taskBlocked_sleepUntil hblocked).imp_right (⟨rfl, ·⟩)
  | tickSleepQueue now => exact .inl (hs.taskBlocked_tickSleepQueue hblocked)
  | setTaskClass changed schedClass => exact .inl (hs.taskBlocked_setTaskClass hblocked)
  | scheduleExit => exact .inl (hs.taskBlocked_scheduleExit hlegal hblocked)

instance (s : SchedState) (op : SchedOp) : Decidable (s.Legal op) := by
  unfold Legal
  split <;> infer_instance

variable {State : Type*}

def onCurrent (os : SchedState) (state : State) (step : Nat → Option State) : State :=
  (os.sched.currentProc.bind step).getD state

lemma onCurrent_of {os : SchedState} {state : State} {step : Nat → Option State}
    {good : State → Prop} (hstate : good state)
    (hstep : ∀ procIdx, os.sched.currentProc = some procIdx → (step procIdx).elim True good) :
    good (os.onCurrent state step) := by
  unfold onCurrent
  cases hcurrent : os.sched.currentProc with
  | none => exact hstate
  | some procIdx =>
    have hnext := hstep procIdx hcurrent
    cases hproc : step procIdx with
    | none => simpa [hproc] using hstate
    | some next => simpa [hproc] using hnext

end SchedState

end KarteOs.Sched

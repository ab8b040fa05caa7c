import KarteOs.Foundation.Run
import KarteOs.Sched.Coherence

/-! # The run-state invariant

At most one user task has the processor and it is the current one, a task is
queued exactly when it is ready, and the process map points at live slots. Each
operation of the scheduler keeps the invariant, so it holds after every run.
-/

namespace KarteOs.Sched

namespace SchedState

open Scheduler (Coherent Dispatched Mapped)

structure Inv (s : SchedState) : Prop where
  coherent : s.sched.Coherent
  dispatched : s.sched.Dispatched
  mapped : s.sched.Mapped s.procSlotGet
  running : s.running = s.sched.current

lemma init_inv : init.Inv where
  coherent :=
    { wellFormed := ReadyQueue.new_wellFormed
      nodup := by simp [init]
      queued := by
        intro slot
        simp only [init, ReadyQueue.tokens_new, Multiset.notMem_zero, false_iff]
        rintro ⟨n, hnode, hstate⟩
        cases slot with
        | zero =>
          cases hnode
          cases hstate
        | succ slot => cases hnode
      user := by
        intro slot n hnode hstate
        cases slot with
        | zero =>
          cases hnode
          simp [TaskNode.newIdle] at hstate
        | succ slot => cases hnode
      idle := ⟨.newIdle, rfl, rfl⟩
      free_nodup := List.nodup_nil
      free_empty := by simp [init] }
  dispatched :=
    { current := .inl rfl
      only := by
        intro slot n procIdx hnode hkind _
        cases slot with
        | zero =>
          cases hnode
          cases hkind
        | succ slot => cases hnode }
  mapped := by
    intro slot n procIdx hnode hkind
    cases slot with
    | zero =>
      cases hnode
      cases hkind
    | succ slot => cases hnode
  running := rfl

variable {s : SchedState} {next : Scheduler}

lemma Inv.withSleepq (hs : s.Inv) (sleepq : List (Nat × Nat)) : { s with sleepq }.Inv :=
  ⟨hs.coherent, hs.dispatched, hs.mapped, hs.running⟩

lemma Inv.switchTo (hcoherent : next.Coherent) (hdispatched : next.Dispatched)
    (hmapped : next.Mapped s.procSlotGet) : (s.switchTo next).Inv :=
  ⟨hcoherent, hdispatched, hmapped, rfl⟩

variable {slot procIdx : Nat}

lemma Inv.of_rewrites (hs : s.Inv) {n m : TaskNode}
    (hrw : s.sched.Rewrites slot m next) (hnode : s.sched.node slot = some n)
    (hcurrent : next.current = s.sched.current) (hkind : m.kind = n.kind)
    (hrunning : m.state = .running ↔ n.state = .running) : { s with sched := next }.Inv where
  coherent := hrw.coherent hs.coherent
  dispatched := hrw.dispatched hnode hcurrent (by simp [hkind, hrunning]) hs.dispatched
  mapped := hrw.mapped hnode (by simp [hkind]) hs.mapped
  running := hs.running.trans hcurrent.symm

lemma Inv.withReady (hs : s.Inv) {ready : ReadyQueue} (hready : ready.WellFormed)
    (htokens : ready.tokens = s.sched.ready.tokens) :
    { s with sched := { s.sched with ready } }.Inv :=
  ⟨hs.coherent.withReady hready htokens, ⟨hs.dispatched.current, hs.dispatched.only⟩,
    hs.mapped, hs.running⟩

lemma reschedule_cases (hs : s.sched.Coherent) :
    s.reschedule = s.switchTo s.sched.requeueCurrent.dispatchNext ∨
      ∃ ready : ReadyQueue, ready.WellFormed ∧ s.sched.ready.tokens = 0 ∧ ready.tokens = 0 ∧
        s.reschedule = { s with sched := { s.sched with ready } } := by
  obtain ⟨hnot, hsame⟩ | ⟨n, _, _, hrw⟩ := hs.requeueCurrent_cases
  · unfold reschedule
    simp only [hsame]
    obtain ⟨hwf, ⟨hpick, hempty, hrest⟩ | ⟨next, hpick, -⟩⟩ := ReadyQueue.popNext_spec hs.wellFormed
    · refine .inr ⟨_, hwf, hempty, hrest, ?_⟩
      split
      next hpop => simp [hpop] at hpick
      next ready hpop =>
        rw [hpop] at hwf hrest ⊢
        rw [(hs.withReady hwf (hrest.trans hempty.symm)).resumeCurrent_eq hrest]
    · left
      split
      next hpop => simp [Scheduler.dispatchNext, hpop]
      next hpop => simp [hpop] at hpick
  · -- A requeued task is ready, so something is found.
    obtain ⟨-, ⟨-, hempty, -⟩ | ⟨next, hpick, -⟩⟩ :=
      ReadyQueue.popNext_spec (hrw.coherent hs).wellFormed
    · have hqueued := hrw.queued_self.mpr rfl
      simp [hempty] at hqueued
    · left
      unfold reschedule
      dsimp only
      split
      next hpop => simp [Scheduler.dispatchNext, hpop]
      next hpop => simp [hpop] at hpick

lemma schedule_inv (hs : s.Inv) : s.schedule.Inv := by
  have hreschedule : s.reschedule.Inv := by
    obtain hnext | ⟨ready, hwf, hempty, hrest, hnext⟩ := reschedule_cases hs.coherent
    · rw [hnext]
      obtain ⟨hcoherent, hparked⟩ := hs.coherent.requeueCurrent hs.dispatched
      obtain ⟨hcoherent', hdispatched'⟩ := hcoherent.dispatchNext hparked
      exact .switchTo hcoherent' hdispatched'
        ((hs.mapped.requeueCurrent hs.coherent).dispatchNext hcoherent)
    · rw [hnext]
      exact hs.withReady hwf (hrest.trans hempty.symm)
  unfold schedule
  split
  next n hnode =>
    split
    · exact hs.of_rewrites (hs.coherent.modifyNode_rewrites hnode
        (f := fun n => { n with quantumLeft := n.quantumLeft - 1 }) rfl Iff.rfl
        (fun hblocked => hs.coherent.user _ n hnode (.inr hblocked))) hnode rfl rfl Iff.rfl
    · exact hreschedule
  · exact hreschedule

lemma Inv.blockCurrent_rewrites (hs : s.Inv) {n : TaskNode}
    (hnode : s.sched.node s.sched.current = some n) (hkind : n.kind = .user procIdx) :
    s.sched.Rewrites s.sched.current { n with state := .blocked } s.sched.blockCurrent :=
  hs.coherent.withdraw_rewrites hnode hkind (f := fun n => { n with state := .blocked }) hkind
    (by simp)

lemma scheduleBlock_inv (hs : s.Inv) : s.scheduleBlock.Inv := by
  unfold scheduleBlock
  split
  next huser =>
    obtain ⟨procIdx, hproc⟩ := Option.isSome_iff_exists.mp huser
    obtain ⟨n, hnode, hkind⟩ := Scheduler.currentProc_eq_some.mp hproc
    have hrw := hs.blockCurrent_rewrites hnode hkind
    have hcoherent := hrw.coherent hs.coherent
    obtain ⟨hcoherent', hdispatched'⟩ := hcoherent.dispatchNext
      (hs.dispatched.parked_of_rewrites hrw (by simp))
    exact .switchTo hcoherent' hdispatched'
      ((hrw.mapped hnode (fun _ => id) hs.mapped).dispatchNext hcoherent)
  · exact hs

lemma wakeSlot_cases (hs : s.sched.Coherent) (slot : Nat) :
    (¬(∃ n, s.sched.node slot = some n ∧ n.state = .blocked) ∧ s.wakeSlot slot = s) ∨
      ∃ n, s.sched.node slot = some n ∧ n.state = .blocked ∧
        s.sched.Rewrites slot { n with state := .ready } (s.wakeSlot slot).sched ∧
        (s.wakeSlot slot).sched = (s.sched.setState slot .ready).enqueue slot n := by
  unfold SchedState.wakeSlot Scheduler.wakeSlot
  cases hnode : s.sched.node slot with
  | none => exact .inl ⟨by simp, rfl⟩
  | some n =>
    by_cases hstate : n.state = .blocked
    · obtain ⟨procIdx, hkind⟩ := hs.user slot n hnode (.inr hstate)
      refine .inr ⟨n, rfl, hstate, ?_, ?_⟩
      · simp only [hstate, if_true]
        exact hs.enqueue_user_rewrites hnode (by simp [hstate]) hkind
          (f := fun n => { n with state := .ready }) rfl rfl n
      · simp [hstate]
    · refine .inl ⟨?_, by simp [hstate]⟩
      rintro ⟨m, hm, hblocked⟩
      cases hm
      exact hstate hblocked

section
variable (hs : s.Inv)
include hs

lemma wakeSlot_inv (slot : Nat) : (s.wakeSlot slot).Inv := by
  obtain ⟨_, hsame⟩ | ⟨n, hnode, hstate, hrw, hnext⟩ := wakeSlot_cases hs.coherent slot
  · exact hsame.symm ▸ hs
  · have hcurrent : (s.wakeSlot slot).sched.current = s.sched.current := by
      rw [hnext]
      rfl
    exact hs.of_rewrites hrw hnode hcurrent rfl (by simp [hstate])

lemma wakeSlots_inv (slots : List Nat) : (s.wakeSlots slots).Inv := by
  induction slots generalizing s with
  | nil => exact hs
  | cons slot slots ih => exact ih (wakeSlot_inv hs slot)

lemma wakeTask_inv (procIdx : Nat) : (s.wakeTask procIdx).1.Inv := by
  unfold wakeTask
  split
  · exact hs
  next slot _ => exact wakeSlot_inv (hs.withSleepq _) slot

lemma sleepUntil_inv (now wakeTick : Nat) : (s.sleepUntil now wakeTick).Inv := by
  unfold sleepUntil
  split
  · exact hs
  · split
    · exact scheduleBlock_inv (hs.withSleepq _)
    · exact hs

lemma tickSleepQueue_inv (now : Nat) : (s.tickSleepQueue now).Inv :=
  wakeSlots_inv (hs.withSleepq _) _

end

lemma takeSlot_spec {s sched : Scheduler} (hs : s.Coherent) (htake : takeSlot s = (slot, sched)) :
    sched.Coherent ∧ sched.ready = s.ready ∧ sched.current = s.current ∧ slot ≠ idleSlot ∧
      slot ∉ sched.free ∧ (∀ other ≠ slot, sched.node other = s.node other) ∧
      ∃ n, sched.node slot = some n ∧ (∀ procIdx, n.kind ≠ .user procIdx) ∧
        ∀ m, s.node slot = some m → m = n := by
  unfold takeSlot at htake
  split at htake
  next freed free hfree =>
    obtain ⟨rfl, rfl⟩ := Prod.mk.inj htake
    obtain ⟨n, hnode, hempty⟩ := hs.free_empty freed (by simp [hfree])
    have hnodup := hs.free_nodup
    rw [hfree, List.nodup_cons] at hnodup
    refine ⟨?_, rfl, rfl, hs.ne_idle hnode (by simp [hempty]), hnodup.1, fun _ _ => rfl, n, hnode,
      by simp [hempty], fun m hm => Option.some.inj (hm.symm.trans hnode)⟩
    exact { hs with
      free_nodup := hnodup.2
      free_empty := fun other hother => hs.free_empty other (by simp [hfree, hother]) }
  next hfree =>
    cases htake
    have hother : ∀ other, other ≠ s.nodes.length →
        (s.nodes ++ [TaskNode.newIdle])[other]? = s.node other := by
      intro other hne
      rw [Scheduler.node, List.getElem?_append]
      split
      · rfl
      next hlen =>
        rw [List.getElem?_eq_none (not_lt.mp hlen)]
        exact List.getElem?_eq_none (by simp only [List.length_singleton]; omega)
    have hself : (s.nodes ++ [TaskNode.newIdle])[s.nodes.length]? = some .newIdle := by simp
    have hold : ∀ other n, s.node other = some n → other ≠ s.nodes.length := by
      rintro other n hnode rfl
      simp [Scheduler.node] at hnode
    -- The appended node is neither ready, blocked nor a user task.
    have hcases : ∀ other n, (s.nodes ++ [TaskNode.newIdle])[other]? = some n →
        s.node other = some n ∨ n = .newIdle := by
      intro other n hnode
      rcases eq_or_ne other s.nodes.length with rfl | hne
      · exact .inr (Option.some.inj (hself.symm.trans hnode)).symm
      · exact .inl ((hother other hne).symm.trans hnode)
    have hgrown : ∀ other n, s.node other = some n →
        (s.nodes ++ [TaskNode.newIdle])[other]? = some n :=
      fun other n hnode => (hother other (hold other n hnode)).trans hnode
    obtain ⟨idle, hidle, hidleKind⟩ := hs.idle
    refine ⟨?_, rfl, rfl, (hold _ _ hidle).symm, by simp [hfree], hother,
      .newIdle, hself, by simp [TaskNode.newIdle], fun m hm => absurd rfl (hold _ m hm)⟩
    exact
      { wellFormed := hs.wellFormed
        nodup := hs.nodup
        queued := by
          intro other
          rw [hs.queued other]
          refine ⟨fun ⟨n, hnode, hstate⟩ => ⟨n, hgrown other n hnode, hstate⟩, ?_⟩
          rintro ⟨n, hnode, hstate⟩
          rcases hcases other n hnode with hnode | rfl
          · exact ⟨n, hnode, hstate⟩
          · cases hstate
        user := by
          intro other n hnode hstate
          rcases hcases other n hnode with hnode | rfl
          · exact hs.user other n hnode hstate
          · simp [TaskNode.newIdle] at hstate
        idle := ⟨idle, hgrown _ idle hidle, hidleKind⟩
        free_nodup := hs.free_nodup
        free_empty := by
          intro other hmem
          obtain ⟨n, hnode, hkind⟩ := hs.free_empty other hmem
          exact ⟨n, hgrown other n hnode, hkind⟩ }

lemma Inv.of_takeSlot (hs : s.Inv) {sched : Scheduler}
    (htake : takeSlot s.sched = (slot, sched)) : { s with sched }.Inv := by
  obtain ⟨hcoherent, _, hcurrent, _, _, hother, n, hnode, hkind, hold⟩ :=
    takeSlot_spec hs.coherent htake
  have huser : ∀ other m procIdx, m.kind = .user procIdx →
      (sched.node other = some m ↔ s.sched.node other = some m) := by
    intro other m procIdx hm
    rcases eq_or_ne other slot with rfl | hne
    · constructor
      · intro hnew
        cases hnode.symm.trans hnew
        exact absurd hm (hkind procIdx)
      · intro hprevious
        obtain rfl := hold m hprevious
        exact absurd hm (hkind procIdx)
    · rw [hother other hne]
  refine ⟨hcoherent, ⟨?_, ?_⟩, ?_, hs.running.trans hcurrent.symm⟩
  · show sched.current = idleSlot ∨ sched.userRunning
    rw [hcurrent]
    refine hs.dispatched.current.imp_right fun hrunning => ?_
    obtain ⟨m, procIdx, hm, hmkind, hstate⟩ := Scheduler.userRunning_iff.mp hrunning
    refine Scheduler.userRunning_iff.mpr ⟨m, procIdx, ?_, hmkind, hstate⟩
    rw [hcurrent]
    exact (huser _ m procIdx hmkind).mpr hm
  · intro other m procIdx hm hmkind hstate
    exact (hs.dispatched.only other m procIdx ((huser other m procIdx hmkind).mp hm) hmkind
      hstate).trans hcurrent.symm
  · intro other m procIdx hm hmkind
    exact hs.mapped other m procIdx ((huser other m procIdx hmkind).mp hm) hmkind

def Fresh (s : SchedState) (procIdx : Nat) : Prop :=
  ∀ slot n, s.sched.node slot = some n → n.kind ≠ .user procIdx

instance (s : SchedState) (procIdx : Nat) : Decidable (s.Fresh procIdx) :=
  decidable_of_iff (∀ n ∈ s.sched.nodes, n.kind ≠ .user procIdx)
    ⟨fun h _ _ hnode => h _ (List.mem_of_getElem? hnode), fun h _ hn =>
      let ⟨slot, hslot⟩ := List.mem_iff_getElem?.mp hn
      h slot _ hslot⟩

def seatUser (sched : Scheduler) (slot procIdx : Nat) : Scheduler :=
  (sched.modifyNode slot fun _ => .newUser procIdx .normal).enqueue slot (.newUser procIdx .normal)

lemma allocateUserSlot_spec (hs : s.sched.Coherent) (procIdx : Nat)
    {sched : Scheduler} (htake : takeSlot s.sched = (slot, sched)) :
    sched.Rewrites slot (.newUser procIdx .normal) (seatUser sched slot procIdx) ∧
      s.allocateUserSlot procIdx =
        ({ s with sched := seatUser sched slot procIdx }.procSlotSet procIdx (some slot),
          some slot) := by
  obtain ⟨hcoherent, _, _, hidle, hfree, _, n, hnode, hkind, _⟩ := takeSlot_spec hs htake
  have hstate : n.state ≠ .ready := by
    intro hready
    obtain ⟨procIdx, huser⟩ := hcoherent.user slot n hnode (.inl hready)
    exact hkind procIdx huser
  refine ⟨hcoherent.enqueue_rewrites hnode hstate hidle hfree
    (f := fun _ => .newUser procIdx .normal) rfl rfl (.newUser procIdx .normal), ?_⟩
  simp only [allocateUserSlot, htake, hnode]
  rfl

lemma allocateUserSlot_inv (hs : s.Inv) (hfresh : s.Fresh procIdx) :
    (s.allocateUserSlot procIdx).1.Inv := by
  rcases htake : takeSlot s.sched with ⟨slot, sched⟩
  have hinv := hs.of_takeSlot htake
  obtain ⟨_, _, _, _, _, hother, n, hnode, hkind, _⟩ := takeSlot_spec hs.coherent htake
  obtain ⟨hrw, halloc⟩ := allocateUserSlot_spec hs.coherent procIdx htake
  rw [halloc]
  refine ⟨hrw.coherent hinv.coherent, ?_, ?_, hinv.running⟩
  · refine hrw.dispatched hnode rfl (fun other => ?_) hinv.dispatched
    simp [TaskNode.newUser, hkind other]
  · intro other m q hm hq
    rw [procSlotGet_procSlotSet]
    rcases eq_or_ne other slot with rfl | hne
    · cases hrw.node_self.symm.trans hm
      obtain rfl := TaskKind.user.inj hq
      simp
    · have hold : s.sched.node other = some m :=
        ((hrw.node_other other hne).trans (hother other hne)).symm.trans hm
      rw [if_neg (by rintro rfl; exact hfresh other m hold hq)]
      exact hs.mapped other m q hold hq

lemma setTaskClass_cases (hs : s.sched.Coherent) (procIdx : Nat) (schedClass : SchedClass) :
    (s.setTaskClass procIdx schedClass).1 = s ∨ ∃ slot n, s.sched.node slot = some n ∧
        s.sched.Rewrites slot { n with schedClass, quantumLeft := schedClass.quantum }
          (s.sched.setClass slot n schedClass) ∧ (s.setTaskClass procIdx schedClass).1 =
          { s with sched := s.sched.setClass slot n schedClass } := by
  unfold setTaskClass
  split
  · exact .inl rfl
  next slot _ =>
    split
    · exact .inl rfl
    next n hnode =>
      split
      · exact .inl rfl
      · exact .inr ⟨slot, n, hnode, hs.setClass_rewrites hnode schedClass, rfl⟩

lemma setTaskClass_inv (hs : s.Inv) (procIdx : Nat) (schedClass : SchedClass) :
    (s.setTaskClass procIdx schedClass).1.Inv := by
  obtain hsame | ⟨slot, n, hnode, hrw, hnext⟩ :=
    setTaskClass_cases hs.coherent procIdx schedClass
  · exact hsame.symm ▸ hs
  · exact hnext.symm ▸ hs.of_rewrites hrw hnode rfl rfl Iff.rfl

lemma scheduleExit_sched (hproc : s.sched.currentProc = some procIdx) :
    s.scheduleExit.sched = (s.sched.exitSlot s.sched.current).dispatchNext := by
  simp only [scheduleExit, removeSleep, hproc]
  rfl

lemma scheduleExit_inv (hs : s.Inv) (huser : s.sched.currentProc.isSome) : s.scheduleExit.Inv := by
  obtain ⟨procIdx, hproc⟩ := Option.isSome_iff_exists.mp huser
  obtain ⟨n, hnode, hkind⟩ := Scheduler.currentProc_eq_some.mp hproc
  have hrw := hs.coherent.exitSlot_rewrites hnode hkind
  have hcoherent := hrw.coherent hs.coherent
  have hmapped : (s.sched.exitSlot s.sched.current).Mapped
      (fun other => if other = procIdx then none else s.procSlotGet other) := by
    intro slot m other hm hother
    have hne : slot ≠ s.sched.current := by
      rintro rfl
      rw [hrw.node_self] at hm
      cases hm
      cases hother
    rw [hrw.node_other slot hne] at hm
    -- The map is injective on live tasks, so no other slot carries this process.
    have hdifferent : other ≠ procIdx := by
      rintro rfl
      have hslot := hs.mapped slot m other hm hother
      rw [hs.mapped _ n other hnode hkind] at hslot
      exact hne (Option.some.inj hslot).symm
    simpa [hdifferent] using hs.mapped slot m other hm hother
  obtain ⟨hcoherent', hdispatched'⟩ := hcoherent.dispatchNext
    (hs.dispatched.parked_of_rewrites hrw (by simp))
  unfold scheduleExit
  simp only [removeSleep, hproc]
  refine ⟨hcoherent', hdispatched', ?_, rfl⟩
  have hget : ({ s with sleepq := s.sleepq.filter fun entry => entry.1 != s.running }.switchTo
      (s.sched.exitSlot s.sched.current).dispatchNext |>.procSlotSet procIdx none).procSlotGet =
      fun other => if other = procIdx then none else s.procSlotGet other := by
    funext other
    rw [procSlotGet_procSlotSet]
    rfl
  rw [hget]
  exact hmapped.dispatchNext hcoherent

end SchedState

inductive SchedOp
  | allocateUserSlot (procIdx : Nat)
  | schedule
  | scheduleBlock
  | wakeTask (procIdx : Nat)
  | sleepUntil (now wakeTick : Nat)
  | tickSleepQueue (now : Nat)
  | setTaskClass (procIdx : Nat) (schedClass : SchedClass)
  | scheduleExit

namespace SchedState

def apply (s : SchedState) : SchedOp → SchedState
  | .allocateUserSlot procIdx => (s.allocateUserSlot procIdx).1
  | .schedule => s.schedule
  | .scheduleBlock => s.scheduleBlock
  | .wakeTask procIdx => (s.wakeTask procIdx).1
  | .sleepUntil now wakeTick => s.sleepUntil now wakeTick
  | .tickSleepQueue now => s.tickSleepQueue now
  | .setTaskClass procIdx schedClass => (s.setTaskClass procIdx schedClass).1
  | .scheduleExit => s.scheduleExit

/-- Tasks are created for fresh processes, and only a running user task exits. -/
def Legal (s : SchedState) : SchedOp → Prop
  | .allocateUserSlot procIdx => s.Fresh procIdx
  | .scheduleExit => s.sched.currentProc.isSome = true
  | _ => True

def Step (s : SchedState) (op : SchedOp) (next : SchedState) : Prop :=
  s.Legal op ∧ next = s.apply op

variable {s : SchedState}

lemma Step.inv {next : SchedState} {op : SchedOp} (hs : s.Inv) (hstep : s.Step op next) :
    next.Inv := by
  obtain ⟨hlegal, rfl⟩ := hstep
  cases op with
  | allocateUserSlot procIdx => exact allocateUserSlot_inv hs hlegal
  | schedule => exact schedule_inv hs
  | scheduleBlock => exact scheduleBlock_inv hs
  | wakeTask procIdx => exact wakeTask_inv hs procIdx
  | sleepUntil now wakeTick => exact sleepUntil_inv hs now wakeTick
  | tickSleepQueue now => exact tickSleepQueue_inv hs now
  | setTaskClass procIdx schedClass => exact setTaskClass_inv hs procIdx schedClass
  | scheduleExit => exact scheduleExit_inv hs hlegal

/-- What callers of the scheduler rely on between operations. -/
structure RunState (s : SchedState) : Prop where
  ready_iff_queued : ∀ slot n procIdx, s.sched.node slot = some n → n.kind = .user procIdx →
    (n.state = .ready ↔ slot ∈ s.sched.ready.tokens)
  queued_once : ∀ slot ∈ s.sched.ready.tokens, s.sched.ready.tokens.count slot = 1
  running_not_queued : s.running ∉ s.sched.ready.tokens
  running_current : s.running = s.sched.current
  only_current_runs : ∀ slot n procIdx, s.sched.node slot = some n → n.kind = .user procIdx →
    n.state = .running → slot = s.sched.current
  free_nodup : s.sched.free.Nodup
  idle_not_free : idleSlot ∉ s.sched.free
  current_not_free : s.sched.current ∉ s.sched.free
  free_empty : ∀ slot ∈ s.sched.free, ∃ n, s.sched.node slot = some n ∧ n.kind = .empty
  mapped : ∀ slot n procIdx, s.sched.node slot = some n → n.kind = .user procIdx →
    s.procSlotGet procIdx = some slot

lemma Inv.current_node (hs : s.Inv) :
    ∃ n, s.sched.node s.sched.current = some n ∧ n.kind ≠ .empty ∧ n.state ≠ .ready := by
  rcases hs.dispatched.current with hidle | hrunning
  · obtain ⟨n, hnode, hkind⟩ := hs.coherent.idle
    refine ⟨n, hidle ▸ hnode, by simp [hkind], fun hstate => ?_⟩
    obtain ⟨procIdx, huser⟩ := hs.coherent.user _ n hnode (.inl hstate)
    simp [hkind] at huser
  · obtain ⟨n, procIdx, hnode, hkind, hstate⟩ := Scheduler.userRunning_iff.mp hrunning
    exact ⟨n, hnode, by simp [hkind], by simp [hstate]⟩

lemma Inv.runState (hs : s.Inv) : s.RunState := by
  obtain ⟨n, hnode, hkind, hstate⟩ := hs.current_node
  obtain ⟨idle, hidle, hidleKind⟩ := hs.coherent.idle
  exact
    { ready_iff_queued := by
        intro slot m procIdx hm _
        simp [hs.coherent.queued, hm]
      queued_once := fun slot => Multiset.count_eq_one_of_mem hs.coherent.nodup
      running_not_queued := hs.running.symm ▸ hs.coherent.not_queued hnode hstate
      running_current := hs.running
      only_current_runs := hs.dispatched.only
      free_nodup := hs.coherent.free_nodup
      idle_not_free := hs.coherent.not_mem_free hidle (by simp [hidleKind])
      current_not_free := hs.coherent.not_mem_free hnode hkind
      free_empty := hs.coherent.free_empty
      mapped := hs.mapped }

/-- Every run of scheduler operations from boot keeps the run state. -/
theorem run_runState {ops : List SchedOp} {s : SchedState}
    (hrun : Transition.Run Step init ops s) : s.RunState :=
  (hrun.invariant (fun _ _ _ hs hstep => hstep.inv hs) init_inv).runState

lemma init_fresh (procIdx : Nat) : init.Fresh procIdx := by
  intro slot n hnode
  cases slot with
  | zero =>
    cases hnode
    simp [TaskNode.newIdle]
  | succ slot => cases hnode

/-- A task that sleeps, wakes, becomes a batch task and exits. -/
theorem run_runState_sleeper :
    ((((((init.allocateUserSlot 7).1.schedule.sleepUntil 0 10).tickSleepQueue 10).schedule
      ).setTaskClass 7 .aiBatch).1.scheduleExit).RunState := by
  have hrun : Transition.Run Step init
      [.allocateUserSlot 7, .schedule, .sleepUntil 0 10, .tickSleepQueue 10, .schedule,
        .setTaskClass 7 .aiBatch, .scheduleExit]
      ((((((init.allocateUserSlot 7).1.schedule.sleepUntil 0 10).tickSleepQueue 10).schedule
        ).setTaskClass 7 .aiBatch).1.scheduleExit) := by
    refine .cons ⟨init_fresh 7, rfl⟩ (.cons ⟨trivial, rfl⟩ (.cons ⟨trivial, rfl⟩
      (.cons ⟨trivial, rfl⟩ (.cons ⟨trivial, rfl⟩ (.cons ⟨trivial, rfl⟩
        (.cons ⟨?_, rfl⟩ (.nil _)))))))
    simp only [Legal]
    decide
  exact run_runState hrun

end SchedState

end KarteOs.Sched

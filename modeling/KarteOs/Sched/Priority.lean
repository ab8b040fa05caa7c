import KarteOs.Sched.RunState
import KarteOs.Sched.Starvation

/-! # Priorities at a scheduling point

A ready task is queued at the level of its class, or in the normal band if it
is a promoted batch task, after every run of scheduler operations and exits.
A pick therefore returns a task of the highest ready class. `schedule` only
gets to the pick once the quantum of the running task is used up, whatever is
waiting.
-/

namespace KarteOs.Sched

open Function Transition List Option

namespace ReadyQueue

variable {q : ReadyQueue} {token other prio : Nat} {level : Fin 32}

lemma mem_queues_push (hmem : other ∈ (q.push token prio).queues level) :
    other ∈ q.queues level ∨ other = token ∧ level = ReadyQueue.level prio := by
  simp only [push] at hmem
  split at hmem
  · exact .inl hmem
  · by_cases hlevel : level = ReadyQueue.level prio
    · subst hlevel
      rw [update_self, mem_append, mem_singleton] at hmem
      exact hmem.imp_right fun heq => ⟨heq, rfl⟩
    · rw [update_of_ne hlevel] at hmem
      exact .inl hmem

lemma mem_queues_remove (hmem : other ∈ (q.remove token).queues level) :
    other ∈ q.queues level := by
  rcases q.remove_queues token level with heq | heq
  · exact heq ▸ hmem
  · rw [heq] at hmem
    exact mem_of_mem_erase hmem

lemma popNext_queues_subset (q : ReadyQueue) (level : Fin 32) :
    q.popNext.2.queues level ⊆ q.promote.queues level := by
  simp only [popNext]
  split
  · exact Subset.refl _
  next lowest _ =>
    obtain ⟨-, hpick⟩ | ⟨token, rest, hfront, hpick⟩ := q.promote.pickFrom_cases lowest
    · rw [hpick]
      exact Subset.refl _
    · rw [hpick]
      by_cases hlevel : level = lowest
      · subst hlevel
        simp only [update_self, hfront]
        exact subset_cons_self _ _
      · simp only [update_of_ne hlevel]
        exact Subset.refl _

lemma mem_queues_popNext (hmem : other ∈ q.popNext.2.queues level) :
    other ∈ q.queues level ∨ level = boostedLevel ∧ other ∈ q.queues batchLevel := by
  replace hmem := q.popNext_queues_subset level hmem
  obtain hsame | ⟨batch, rest, hbatch, hqueues⟩ := q.promote_cases
  · rw [hsame] at hmem
    exact .inl hmem
  · rw [hqueues] at hmem
    by_cases hboosted : level = boostedLevel
    · subst hboosted
      rw [update_self, mem_append, mem_singleton] at hmem
      refine hmem.imp_right fun heq => ⟨rfl, ?_⟩
      rw [hbatch, heq]
      exact .head _
    · rw [update_of_ne hboosted] at hmem
      by_cases hlevel : level = batchLevel
      · subst hlevel
        rw [update_self] at hmem
        exact .inl (hbatch ▸ mem_cons_of_mem _ hmem)
      · rw [update_of_ne hlevel] at hmem
        exact .inl hmem

end ReadyQueue

open ReadyQueue (batchLevel boostedLevel)

namespace SchedClass

def isRealtime : SchedClass → Bool
  | rtFifo _ | rtRoundRobin _ => true
  | normal | aiBatch => false

def queueLevel (c : SchedClass) : Fin 32 :=
  ReadyQueue.level c.priority

lemma priority_le (c : SchedClass) : c.priority ≤ 31 := by
  cases c <;> simp only [priority, rtLevels, normalPrio, aiBatchPrio] <;> omega

@[simp] lemma queueLevel_val (c : SchedClass) : c.queueLevel.val = c.priority :=
  Nat.min_eq_left c.priority_le

variable {c : SchedClass}

lemma eq_aiBatch_of_queueLevel (hlevel : c.queueLevel = batchLevel) : c = .aiBatch := by
  have hval : c.priority = 31 := by
    rw [← queueLevel_val, hlevel]
    rfl
  cases c with
  | rtFifo level | rtRoundRobin level => simp only [priority, rtLevels] at hval; omega
  | normal => cases hval
  | aiBatch => rfl

lemma priority_lt_of_isRealtime (hrt : c.isRealtime) : c.priority < rtLevels := by
  cases c with
  | rtFifo level | rtRoundRobin level => simp only [priority, rtLevels]; omega
  | normal => cases hrt
  | aiBatch => cases hrt

end SchedClass

def SchedClass.QueuedAt (c : SchedClass) (level : Fin 32) : Prop :=
  level = c.queueLevel ∨ c = .aiBatch ∧ level = boostedLevel

variable {c : SchedClass}

lemma SchedClass.QueuedAt.boost (hc : c.QueuedAt batchLevel) : c.QueuedAt boostedLevel := by
  rcases hc with hlevel | ⟨hbatch, -⟩
  · exact .inr ⟨eq_aiBatch_of_queueLevel hlevel.symm, rfl⟩
  · exact .inr ⟨hbatch, rfl⟩

lemma SchedClass.QueuedAt.priority_le {level : Fin 32} (hc : c.QueuedAt level) :
    level.val ≤ c.priority := by
  rcases hc with rfl | ⟨rfl, rfl⟩
  · exact le_of_eq c.queueLevel_val
  · decide

namespace Scheduler

def Levelled (s : Scheduler) : Prop :=
  ∀ level slot n, slot ∈ s.ready.queues level → s.node slot = some n → n.schedClass.QueuedAt level

variable {s next : Scheduler} {slot procIdx : Nat} {n m : TaskNode}

lemma mem_tokens {q : ReadyQueue} : slot ∈ q.tokens ↔ ∃ level, slot ∈ q.queues level :=
  LevelQueue.mem_tokens

lemma Levelled.of_rewrites (hs : s.Levelled) (hrw : s.Rewrites slot n next)
    (hmoves : ∀ level other, other ≠ slot → other ∈ next.ready.queues level →
      other ∈ s.ready.queues level ∨ level = boostedLevel ∧ other ∈ s.ready.queues batchLevel)
    (hself : ∀ level, slot ∈ next.ready.queues level → n.schedClass.QueuedAt level) :
    next.Levelled := by
  intro level other m hmem hm
  rcases eq_or_ne other slot with rfl | hne
  · cases hrw.node_self.symm.trans hm
    exact hself level hmem
  · rw [hrw.node_other other hne] at hm
    rcases hmoves level other hne hmem with hold | ⟨rfl, hbatch⟩
    · exact hs level other m hold hm
    · exact (hs batchLevel other m hbatch hm).boost

lemma Rewrites.not_mem_queues (hrw : s.Rewrites slot n next) (hstate : n.state ≠ .ready)
    (level : Fin 32) : slot ∉ next.ready.queues level :=
  fun hmem => hstate (hrw.queued_self.mp (mem_tokens.mpr ⟨level, hmem⟩))

variable (hs : s.Levelled)
include hs

lemma Levelled.enqueue (hcoherent : s.Coherent) (hnode : s.node slot = some n)
    (hstate : n.state ≠ .ready) {f : TaskNode → TaskNode}
    (hrw : s.Rewrites slot (f n) ((s.modifyNode slot f).enqueue slot m))
    (hclass : (f n).schedClass = m.schedClass) :
    ((s.modifyNode slot f).enqueue slot m).Levelled := by
  refine hs.of_rewrites hrw ?_ ?_
  · intro level other hne hmem
    rcases ReadyQueue.mem_queues_push hmem with hold | ⟨heq, -⟩
    · exact .inl hold
    · exact absurd heq hne
  · intro level hmem
    rcases ReadyQueue.mem_queues_push hmem with hold | ⟨-, hlevel⟩
    · exact absurd (mem_tokens.mpr ⟨level, hold⟩) (hcoherent.not_queued hnode hstate)
    · exact .inl (hclass ▸ hlevel)

lemma Levelled.withdraw (hrw : s.Rewrites slot n next)
    (hready : next.ready = s.ready.remove slot) (hstate : n.state ≠ .ready) : next.Levelled := by
  refine hs.of_rewrites hrw ?_ fun level hmem =>
    absurd hmem (hrw.not_mem_queues hstate level)
  intro level other _ hmem
  rw [hready] at hmem
  exact .inl (ReadyQueue.mem_queues_remove hmem)

lemma Levelled.modifyNode (hrw : s.Rewrites slot n next) (hready : next.ready = s.ready)
    (hnode : s.node slot = some m) (hclass : n.schedClass = m.schedClass) : next.Levelled := by
  refine hs.of_rewrites hrw ?_ ?_
  · intro level other _ hmem
    rw [hready] at hmem
    exact .inl hmem
  · intro level hmem
    rw [hready] at hmem
    exact hclass ▸ hs level slot m hmem hnode

variable (hcoherent : s.Coherent)
include hcoherent

lemma Levelled.dispatchNext : s.dispatchNext.Levelled := by
  obtain ⟨next, n, _, _, _, hrw⟩ := hcoherent.dispatchNext_rewrites
  refine hs.of_rewrites hrw ?_ fun level hmem =>
    absurd hmem (hrw.not_mem_queues (by simp) level)
  exact fun level other _ hmem => ReadyQueue.mem_queues_popNext hmem

lemma Levelled.requeueCurrent : s.requeueCurrent.Levelled := by
  by_cases hrunning : s.userRunning
  · obtain ⟨n, procIdx, hnode, hkind, hstate⟩ := userRunning_iff.mp hrunning
    have hnot : n.state ≠ .ready := by simp [hstate]
    rw [requeueCurrent_of_running hnode hrunning]
    exact hs.enqueue hcoherent hnode hnot (hcoherent.enqueue_user_rewrites hnode hnot hkind
      (f := fun n => { n with state := .ready, quantumLeft := n.schedClass.quantum }) rfl rfl n) rfl
  · rw [requeueCurrent_of_not_running hrunning]
    exact hs

lemma Levelled.setClass (hnode : s.node slot = some n) (schedClass : SchedClass) :
    (s.setClass slot n schedClass).Levelled := by
  have hrw := hcoherent.setClass_rewrites hnode schedClass
  by_cases hready : n.state = .ready
  · have hqueue : (s.setClass slot n schedClass).ready =
        (s.ready.remove slot).push slot schedClass.priority := by
      simp [Scheduler.setClass, hready]
    refine hs.of_rewrites hrw ?_ ?_
    · intro level other hne hmem
      rw [hqueue] at hmem
      rcases ReadyQueue.mem_queues_push hmem with hold | ⟨heq, -⟩
      · exact .inl (ReadyQueue.mem_queues_remove hold)
      · exact absurd heq hne
    · intro level hmem
      rw [hqueue] at hmem
      rcases ReadyQueue.mem_queues_push hmem with hold | ⟨-, hlevel⟩
      · -- The slot was queued once, and that entry is removed.
        have hremoved := (mem_tokens_remove_iff hcoherent slot).mp (mem_tokens.mpr ⟨level, hold⟩)
        exact absurd rfl hremoved.1
      · exact .inl hlevel
  · have hqueue : (s.setClass slot n schedClass).ready = s.ready := by
      simp [Scheduler.setClass, hready]
    refine hs.of_rewrites hrw ?_ fun level hmem =>
      absurd hmem (hrw.not_mem_queues hready level)
    intro level other _ hmem
    rw [hqueue] at hmem
    exact .inl hmem

lemma Levelled.popNext_best (hnode : s.node slot = some m) (hready : m.state = .ready)
    (hrt : m.schedClass.isRealtime) :
    ∃ next n, s.ready.popNext.1 = some next ∧ s.node next = some n ∧ n.state = .ready ∧
      ∀ other k, s.node other = some k → k.state = .ready →
        n.schedClass.priority ≤ k.schedClass.priority := by
  have hqueued : ∀ other k, s.node other = some k → k.state = .ready →
      ∃ level, other ∈ s.ready.queues level := by
    intro other k hk hstate
    exact mem_tokens.mp ((hcoherent.queued other).mpr ⟨k, hk, hstate⟩)
  obtain ⟨rtLevel, hrtLevel⟩ := hqueued slot m hnode hready
  have habove : rtLevel < boostedLevel := by
    have hle := (hs rtLevel slot m hrtLevel hnode).priority_le
    have hlt := SchedClass.priority_lt_of_isRealtime hrt
    have hband : rtLevels < boostedLevel.val := by decide
    exact Fin.lt_def.mpr (lt_of_le_of_lt hle (hlt.trans hband))
  have hpromoted : s.ready.promote.queues rtLevel ≠ [] := by
    rw [s.ready.promote_queues_above habove]
    exact ne_nil_of_mem hrtLevel
  obtain ⟨level, next, rest, hpicks⟩ := ReadyQueue.popNext_picks hcoherent.wellFormed hpromoted
  -- No task is queued above the level of the pick.
  have hlowest : ∀ other ∈ Finset.Iio boostedLevel, s.ready.queues other ≠ [] → level ≤ other := by
    intro other hother hne
    by_contra hlt
    rw [← s.ready.promote_queues_above (Finset.mem_Iio.mp hother)] at hne
    exact hne (hpicks.above other (not_le.mp hlt))
  have hlevel : level < boostedLevel := lt_of_le_of_lt
    (hlowest rtLevel (Finset.mem_Iio.mpr habove) (ne_nil_of_mem hrtLevel)) habove
  have hmem : next ∈ s.ready.queues level := by
    rw [← s.ready.promote_queues_above hlevel, hpicks.front]
    exact .head _
  obtain ⟨n, hnext, hstate⟩ := (hcoherent.queued next).mp (mem_tokens.mpr ⟨level, hmem⟩)
  have hpriority : n.schedClass.priority = level.val := by
    rcases hs level next n hmem hnext with heq | ⟨-, heq⟩
    · rw [heq, SchedClass.queueLevel_val]
    · exact absurd heq hlevel.ne
  refine ⟨next, n, hpicks.token, hnext, hstate, ?_⟩
  intro other k hk hkstate
  obtain ⟨otherLevel, hother⟩ := hqueued other k hk hkstate
  refine hpriority.trans_le (le_trans ?_ (hs otherLevel other k hother hk).priority_le)
  by_cases hband : otherLevel < boostedLevel
  · exact hlowest otherLevel (Finset.mem_Iio.mpr hband) (ne_nil_of_mem hother)
  · exact (hlevel.trans_le (not_lt.mp hband)).le

end Scheduler

namespace SchedState

open Scheduler (Levelled)

/-- The table is coherent and levelled, and the process map points at the
slots that carry the processes. -/
structure Placed (s : SchedState) : Prop where
  coherent : s.sched.Coherent
  levelled : s.sched.Levelled
  owned : ∀ procIdx slot, s.procSlotGet procIdx = some slot →
    ∃ n, s.sched.node slot = some n ∧ n.kind = .user procIdx

lemma init_placed : init.Placed where
  coherent := init_inv.coherent
  levelled := fun _ _ _ hmem => absurd hmem not_mem_nil
  owned := fun _ _ hslot => by cases hslot

variable {s : SchedState} {slot : Nat} {n m : TaskNode}

section
variable (hs : s.Placed)
include hs

lemma Placed.of_rewrites {next : Scheduler} (hrw : s.sched.Rewrites slot m next)
    (hnode : s.sched.node slot = some n) (hkind : m.kind = n.kind) (hlevelled : next.Levelled) :
    { s with sched := next }.Placed where
  coherent := hrw.coherent hs.coherent
  levelled := hlevelled
  owned := by
    intro procIdx other hother
    obtain ⟨k, hk, hkkind⟩ := hs.owned procIdx other hother
    rcases eq_or_ne other slot with rfl | hne
    · cases hnode.symm.trans hk
      exact ⟨m, hrw.node_self, hkind.trans hkkind⟩
    · exact ⟨k, (hrw.node_other other hne).trans hk, hkkind⟩

lemma Placed.congr {next : SchedState} (hsched : next.sched = s.sched)
    (hmap : next.procToSlot = s.procToSlot) : next.Placed where
  coherent := hsched ▸ hs.coherent
  levelled := hsched ▸ hs.levelled
  owned := by
    intro procIdx slot hslot
    rw [hsched]
    exact hs.owned procIdx slot (by simpa only [procSlotGet, hmap] using hslot)

lemma Placed.dispatchNext : (s.switchTo s.sched.dispatchNext).Placed := by
  obtain ⟨next, n, hnode, _, _, hrw⟩ := hs.coherent.dispatchNext_rewrites
  exact (hs.of_rewrites hrw hnode rfl (hs.levelled.dispatchNext hs.coherent)).congr rfl rfl

lemma Placed.requeueCurrent : { s with sched := s.sched.requeueCurrent }.Placed := by
  obtain ⟨_, hsame⟩ | ⟨n, hnode, _, hrw⟩ := hs.coherent.requeueCurrent_cases
  · exact hs.congr hsame rfl
  · exact hs.of_rewrites hrw hnode rfl (hs.levelled.requeueCurrent hs.coherent)

lemma Placed.schedule : s.schedule.Placed := by
  have hreschedule : s.reschedule.Placed := by
    obtain hnext | ⟨ready, hwf, hempty, hrest, hnext⟩ := reschedule_cases hs.coherent
    · rw [hnext]
      exact hs.requeueCurrent.dispatchNext.congr rfl rfl
    · rw [hnext]
      refine ⟨hs.coherent.withReady hwf (hrest.trans hempty.symm), ?_, hs.owned⟩
      -- Nothing is queued.
      intro level slot n hmem _
      have htoken : slot ∈ ready.tokens := Scheduler.mem_tokens.mpr ⟨level, hmem⟩
      simp [hrest] at htoken
  unfold SchedState.schedule
  split
  next n hnode =>
    split
    · have hrw := hs.coherent.modifyNode_rewrites hnode
        (f := fun n => { n with quantumLeft := n.quantumLeft - 1 }) rfl Iff.rfl
        (fun hblocked => hs.coherent.user _ n hnode (.inr hblocked))
      exact hs.of_rewrites hrw hnode rfl (hs.levelled.modifyNode hrw rfl hnode rfl)
    · exact hreschedule
  · exact hreschedule

lemma Placed.scheduleBlock : s.scheduleBlock.Placed := by
  unfold SchedState.scheduleBlock
  split
  next huser =>
    obtain ⟨procIdx, hproc⟩ := isSome_iff_exists.mp huser
    obtain ⟨n, hnode, hkind⟩ := Scheduler.currentProc_eq_some.mp hproc
    have hrw := hs.coherent.withdraw_rewrites hnode hkind
      (f := fun n => { n with state := .blocked }) hkind (by simp)
    have hblocked : { s with sched := s.sched.blockCurrent }.Placed :=
      hs.of_rewrites hrw hnode rfl (hs.levelled.withdraw hrw rfl (by simp))
    exact hblocked.dispatchNext.congr rfl rfl
  · exact hs

lemma Placed.wakeSlot (slot : Nat) : (s.wakeSlot slot).Placed := by
  obtain ⟨_, hsame⟩ | ⟨n, hnode, hstate, hrw, hnext⟩ := wakeSlot_cases hs.coherent slot
  · exact hsame.symm ▸ hs
  · rw [hnext] at hrw
    have hlevelled := hs.levelled.enqueue hs.coherent hnode (by simp [hstate])
      (f := fun n => { n with state := .ready }) hrw rfl
    exact (hs.of_rewrites hrw hnode rfl hlevelled).congr hnext rfl

lemma Placed.wakeSlots (slots : List Nat) : (s.wakeSlots slots).Placed := by
  induction slots generalizing s with
  | nil => exact hs
  | cons slot slots ih => exact ih (hs.wakeSlot slot)

variable (procIdx : Nat)

lemma Placed.wakeTask : (s.wakeTask procIdx).1.Placed := by
  unfold SchedState.wakeTask
  split
  · exact hs
  next slot _ =>
    have hremoved : (s.removeSleep slot).Placed := hs.congr rfl rfl
    exact hremoved.wakeSlot slot

lemma Placed.sleepUntil (now wakeTick : Nat) : (s.sleepUntil now wakeTick).Placed := by
  unfold SchedState.sleepUntil
  split
  · exact hs
  · split
    · have hqueued : (s.queueSleep s.running wakeTick).Placed := hs.congr rfl rfl
      exact hqueued.scheduleBlock
    · exact hs

lemma Placed.setTaskClass (schedClass : SchedClass) :
    (s.setTaskClass procIdx schedClass).1.Placed := by
  obtain hsame | ⟨slot, n, hnode, hrw, hnext⟩ :=
    setTaskClass_cases hs.coherent procIdx schedClass
  · exact hsame.symm ▸ hs
  · rw [hnext]
    exact hs.of_rewrites hrw hnode rfl (hs.levelled.setClass hs.coherent hnode schedClass)

lemma Placed.allocateUserSlot : (s.allocateUserSlot procIdx).1.Placed := by
  rcases htake : takeSlot s.sched with ⟨slot, sched⟩
  obtain ⟨hcoherent, hready, _, _, _, hother, n, hnode, hkind, hold⟩ :=
    takeSlot_spec hs.coherent htake
  obtain ⟨hrw, halloc⟩ := allocateUserSlot_spec hs.coherent procIdx htake
  have hstate : n.state ≠ .ready := by
    intro hready
    obtain ⟨user, huser⟩ := hcoherent.user slot n hnode (.inl hready)
    exact hkind user huser
  have hlevelled : sched.Levelled := by
    intro level other m hmem hm
    rcases eq_or_ne other slot with rfl | hne
    · exact absurd (Scheduler.mem_tokens.mpr ⟨level, hmem⟩) (hcoherent.not_queued hnode hstate)
    · rw [hready] at hmem
      exact hs.levelled level other m hmem ((hother other hne).symm.trans hm)
  rw [halloc]
  refine ⟨hrw.coherent hcoherent, ?_, ?_⟩
  · exact hlevelled.enqueue hcoherent hnode hstate (f := fun _ => .newUser procIdx .normal)
      hrw rfl
  · intro owner other hget
    rw [procSlotGet_procSlotSet] at hget
    split at hget
    next heq =>
      cases hget
      exact ⟨_, hrw.node_self, heq ▸ rfl⟩
    · obtain ⟨m, hm, hmkind⟩ := hs.owned owner other hget
      have hne : other ≠ slot := by
        rintro rfl
        exact hkind owner (hold m hm ▸ hmkind)
      exact ⟨m, ((hrw.node_other other hne).trans (hother other hne)).trans hm, hmkind⟩

lemma Placed.exitSlot {procIdx : Nat} (hnode : s.sched.node slot = some n)
    (hkind : n.kind = .user procIdx) :
    ({ s with sched := s.sched.exitSlot slot }.procSlotSet procIdx none).Placed := by
  have hrw := hs.coherent.exitSlot_rewrites hnode hkind
  have hready : (s.sched.exitSlot slot).ready = s.sched.ready.remove slot := by
    simp [Scheduler.exitSlot, hnode]
  refine ⟨hrw.coherent hs.coherent, hs.levelled.withdraw hrw hready (by simp), ?_⟩
  intro owner other hget
  rw [procSlotGet_procSlotSet] at hget
  split at hget
  · cases hget
  next hne =>
    obtain ⟨m, hm, hmkind⟩ := hs.owned owner other hget
    have hslot : other ≠ slot := by
      rintro rfl
      cases hnode.symm.trans hm
      exact hne (TaskKind.user.inj (hmkind.symm.trans hkind))
    exact ⟨m, (hrw.node_other other hslot).trans hm, hmkind⟩

lemma Placed.scheduleExit (huser : s.sched.currentProc.isSome) : s.scheduleExit.Placed := by
  obtain ⟨procIdx, hproc⟩ := isSome_iff_exists.mp huser
  obtain ⟨n, hnode, hkind⟩ := Scheduler.currentProc_eq_some.mp hproc
  have hexited := (hs.exitSlot hnode hkind).dispatchNext
  refine hexited.congr (scheduleExit_sched hproc) ?_
  simp only [SchedState.scheduleExit, removeSleep, hproc]
  rfl

lemma Placed.markTaskExitedByProc : (s.markTaskExitedByProc procIdx).Placed := by
  unfold SchedState.markTaskExitedByProc
  split
  · exact hs
  next slot hslot =>
    obtain ⟨n, hnode, hkind⟩ := hs.owned procIdx slot hslot
    exact (hs.exitSlot hnode hkind).congr rfl rfl

lemma Placed.markCurrentExited (hrunning : s.sched.userRunning) : s.markCurrentExited.Placed := by
  obtain ⟨n, procIdx, hnode, hkind, hstate⟩ := Scheduler.userRunning_iff.mp hrunning
  have hrw := hs.coherent.modifyNode_rewrites hnode
    (f := fun n => { n with state := .exited }) rfl (by simp [hstate]) (by simp)
  exact (hs.of_rewrites hrw hnode rfl
    (hs.levelled.modifyNode hrw rfl hnode rfl)).congr rfl rfl

end

/-- `schedule` hands the processor to a ready task of the highest class. -/
def SwitchesToBest (s : SchedState) : Prop :=
  ∃ next n, s.sched.node next = some n ∧ n.state = .ready ∧
    (∀ slot m, s.sched.node slot = some m → m.state = .ready →
      n.schedClass.priority ≤ m.schedClass.priority) ∧
    s.schedule.sched.current = next ∧ s.schedule.running = next ∧
    s.schedule.sched.node next = some { n with state := .running }

lemma Placed.reschedule_best (hs : s.Placed) (hcurrent : s.sched.node s.sched.current = some n)
    (hrunning : n.state = .running) (hnode : s.sched.node slot = some m) (hready : m.state = .ready)
    (hrt : m.schedClass.isRealtime) (hpriority : m.schedClass.priority < n.schedClass.priority) :
    ∃ next k, s.sched.node next = some k ∧ k.state = .ready ∧
      (∀ other o, s.sched.node other = some o → o.state = .ready →
        k.schedClass.priority ≤ o.schedClass.priority) ∧
      s.reschedule.sched.current = next ∧ s.reschedule.running = next ∧
      s.reschedule.sched.node next = some { k with state := .running } := by
  have hkept : ∀ other, other ≠ s.sched.current →
      s.sched.requeueCurrent.node other = s.sched.node other := by
    intro other hne
    obtain ⟨_, hsame⟩ | ⟨_, _, _, hrw⟩ := hs.coherent.requeueCurrent_cases
    · rw [hsame]
    · exact hrw.node_other other hne
  have hnotCurrent : ∀ other o, s.sched.node other = some o → o.state = .ready →
      other ≠ s.sched.current := by
    rintro other o ho hstate rfl
    cases hcurrent.symm.trans ho
    simp [hrunning] at hstate
  have hrequeued := hs.requeueCurrent
  obtain ⟨next, k, hpick, hk, hkstate, hbest⟩ := hrequeued.levelled.popNext_best hrequeued.coherent
    ((hkept slot (hnotCurrent slot m hnode hready)).trans hnode) hready hrt
  have hne : next ≠ s.sched.current := by
    rintro rfl
    have hle := hbest slot m ((hkept slot (hnotCurrent slot m hnode hready)).trans hnode) hready
    obtain ⟨_, hsame⟩ | ⟨old, hold, _, hrw⟩ := hs.coherent.requeueCurrent_cases
    · simp only [hsame, hcurrent, some.injEq] at hk
      simp [← hk, hrunning] at hkstate
    · cases hcurrent.symm.trans hold
      cases hrw.node_self.symm.trans hk
      exact absurd hle (not_le.mpr hpriority)
  have hdispatch : s.reschedule = s.switchTo s.sched.requeueCurrent.dispatchNext := by
    obtain hnext | ⟨_, _, hempty, _⟩ := reschedule_cases hs.coherent
    · exact hnext
    · have hqueued := (hs.coherent.queued slot).mpr ⟨m, hnode, hready⟩
      simp [hempty] at hqueued
  have hcurrent' : s.sched.requeueCurrent.dispatchNext.current = next := by
    simp [Scheduler.dispatchNext, Scheduler.dispatch, hpick, getD_some]
  refine ⟨next, k, (hkept next hne).symm.trans hk, hkstate, ?_, ?_, ?_, ?_⟩
  · intro other o ho hstate
    exact hbest other o ((hkept other (hnotCurrent other o ho hstate)).trans ho) hstate
  · rw [hdispatch]
    exact hcurrent'
  · rw [hdispatch]
    exact hcurrent'
  · rw [hdispatch]
    simp only [switchTo, Scheduler.dispatchNext, hpick, getD_some]
    exact Scheduler.node_modifyNode_self
      (s := { s.sched.requeueCurrent with ready := s.sched.requeueCurrent.ready.popNext.2 }) hk _

lemma Placed.switchesToBest_iff (hs : s.Placed) (hcurrent : s.sched.node s.sched.current = some n)
    (hrunning : n.state = .running) (hnode : s.sched.node slot = some m) (hready : m.state = .ready)
    (hrt : m.schedClass.isRealtime) (hpriority : m.schedClass.priority < n.schedClass.priority) :
    s.SwitchesToBest ↔ n.proc = none ∨ n.quantumLeft = 0 := by
  by_cases hgate : s.sched.userRunning ∧ 0 < n.quantumLeft
  · -- The current task keeps the processor, and it is not a ready one.
    have huser : n.proc ≠ none := by
      obtain ⟨k, procIdx, hk, hkind, _⟩ := Scheduler.userRunning_iff.mp hgate.1
      cases hcurrent.symm.trans hk
      simp [TaskNode.proc_eq_some.mpr hkind]
    refine iff_of_false ?_ (not_or.mpr ⟨huser, hgate.2.ne'⟩)
    rintro ⟨next, k, hk, hkstate, -, hnext, -⟩
    simp only [SchedState.schedule, hcurrent, if_pos hgate] at hnext
    obtain rfl : s.sched.current = next := hnext
    cases hcurrent.symm.trans hk
    simp [hrunning] at hkstate
  · have hschedule : s.schedule = s.reschedule := by
      simp [SchedState.schedule, hcurrent, if_neg hgate]
    refine iff_of_true ?_ ?_
    · unfold SwitchesToBest
      rw [hschedule]
      exact hs.reschedule_best hcurrent hrunning hnode hready hrt hpriority
    · by_contra hcondition
      obtain ⟨huser, hquantum⟩ := not_or.mp hcondition
      obtain ⟨procIdx, hproc⟩ := ne_none_iff_exists'.mp huser
      exact hgate ⟨Scheduler.userRunning_iff.mpr
        ⟨n, procIdx, hcurrent, TaskNode.proc_eq_some.mp hproc, hrunning⟩,
        Nat.pos_of_ne_zero hquantum⟩

end SchedState

/-- The scheduler operations with the two that take a task out of the table. -/
inductive TaskOp
  | sched (op : SchedOp)
  | markTaskExitedByProc (procIdx : Nat)
  | markCurrentExited

namespace SchedState

def applyTask (s : SchedState) : TaskOp → SchedState
  | .sched op => s.apply op
  | .markTaskExitedByProc procIdx => s.markTaskExitedByProc procIdx
  | .markCurrentExited => s.markCurrentExited

def LegalTask (s : SchedState) : TaskOp → Prop
  | .sched .scheduleExit => s.sched.currentProc.isSome = true
  | .markCurrentExited => s.sched.userRunning = true
  | _ => True

def TaskStep : SchedState → TaskOp → SchedState → Prop :=
  Guarded LegalTask applyTask

lemma TaskStep.placed {s next : SchedState} {op : TaskOp} (hs : s.Placed)
    (hstep : TaskStep s op next) : next.Placed := by
  obtain ⟨hlegal, rfl⟩ := hstep
  cases op with
  | sched op =>
    cases op with
    | allocateUserSlot procIdx => exact hs.allocateUserSlot procIdx
    | schedule => exact hs.schedule
    | scheduleBlock => exact hs.scheduleBlock
    | wakeTask procIdx => exact hs.wakeTask procIdx
    | sleepUntil now wakeTick => exact hs.sleepUntil now wakeTick
    | tickSleepQueue now =>
      have hdrained : (s.drainSleepers now).Placed := hs.congr rfl rfl
      exact hdrained.wakeSlots _
    | setTaskClass procIdx schedClass => exact hs.setTaskClass procIdx schedClass
    | scheduleExit => exact hs.scheduleExit hlegal
  | markTaskExitedByProc procIdx => exact hs.markTaskExitedByProc procIdx
  | markCurrentExited => exact hs.markCurrentExited hlegal

/-- In every state of every run in which a real-time task of a higher class
than the running one is ready, `schedule` switches to a task of the highest
ready class exactly if the quantum gate is open. -/
theorem run_switchesToBest_iff {ops : List TaskOp} {s : SchedState}
    (hrun : Transition.Run TaskStep init ops s) {n m : TaskNode} {slot : Nat}
    (hcurrent : s.sched.node s.sched.current = some n) (hrunning : n.state = .running)
    (hnode : s.sched.node slot = some m) (hready : m.state = .ready)
    (hrt : m.schedClass.isRealtime = true)
    (hpriority : m.schedClass.priority < n.schedClass.priority) :
    s.SwitchesToBest ↔ n.proc = none ∨ n.quantumLeft = 0 := by
  have hplaced : s.Placed :=
    hrun.invariant (fun _ _ _ hs hstep => TaskStep.placed hs hstep) init_placed
  exact hplaced.switchesToBest_iff hcurrent hrunning hnode hready hrt hpriority

/-- Task 1 of the given class gets the processor, then a real-time task of the
highest level becomes ready. -/
def rtArrival (schedClass : SchedClass) : List TaskOp :=
  [.sched (.allocateUserSlot 1), .sched (.setTaskClass 1 schedClass), .sched .schedule,
    .sched (.allocateUserSlot 2), .sched (.setTaskClass 2 (.rtFifo 1))]

def rtArrivalAfterQuantum : List TaskOp :=
  rtArrival .normal ++ [.sched .schedule, .sched .schedule]

def after (ops : List TaskOp) : SchedState :=
  ops.foldl applyTask init

theorem run_switchesToBest_iff_normal :
    Transition.Run TaskStep init rtArrivalAfterQuantum (after rtArrivalAfterQuantum) ∧
      (after rtArrivalAfterQuantum).SwitchesToBest := by
  have hrun : Run TaskStep init rtArrivalAfterQuantum (after rtArrivalAfterQuantum) :=
    Run.of_allowed
      ⟨trivial, trivial, trivial, trivial, trivial, trivial, trivial, trivial⟩
  have hcurrent : (after rtArrivalAfterQuantum).sched.node
      (after rtArrivalAfterQuantum).sched.current = some ⟨.user 1, .running, .normal, 0⟩ := by
    decide
  have hready : (after rtArrivalAfterQuantum).sched.node 2 =
      some ⟨.user 2, .ready, .rtFifo 1, 2 ^ 64 - 1⟩ := by
    decide
  exact ⟨hrun, (run_switchesToBest_iff hrun hcurrent rfl hready rfl rfl (by decide)).mpr (.inr rfl)⟩

/-- A first-in first-out task of level 2 is never preempted by one of level 1. -/
theorem rtFifo_not_preempted :
    Transition.Run TaskStep init (rtArrival (.rtFifo 2)) (after (rtArrival (.rtFifo 2))) ∧
      (∃ n, (after (rtArrival (.rtFifo 2))).sched.node
          (after (rtArrival (.rtFifo 2))).sched.current = some n ∧
        n.state = .running ∧ n.schedClass = .rtFifo 2) ∧
      (∃ m, (after (rtArrival (.rtFifo 2))).sched.node 2 = some m ∧
        m.state = .ready ∧ m.schedClass = .rtFifo 1) ∧
      ¬ (after (rtArrival (.rtFifo 2))).SwitchesToBest := by
  refine ⟨Run.of_allowed ⟨trivial, trivial, trivial, trivial, trivial, trivial⟩,
    ⟨⟨.user 1, .running, .rtFifo 2, 2 ^ 64 - 1⟩, by decide, rfl, rfl⟩,
    ⟨⟨.user 2, .ready, .rtFifo 1, 2 ^ 64 - 1⟩, by decide, rfl, rfl⟩, ?_⟩
  rintro ⟨next, n, hnode, hstate, -, hcurrent, -⟩
  have hkept : (after (rtArrival (.rtFifo 2))).schedule.sched.current = 1 := by decide
  obtain rfl : 1 = next := hkept.symm.trans hcurrent
  have hrunning : (after (rtArrival (.rtFifo 2))).sched.node 1 =
      some ⟨.user 1, .running, .rtFifo 2, 2 ^ 64 - 1⟩ := by decide
  cases hrunning.symm.trans hnode
  cases hstate

end SchedState

end KarteOs.Sched

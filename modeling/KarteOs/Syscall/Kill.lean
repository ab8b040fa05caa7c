import KarteOs.Syscall.Futex
import KarteOs.Syscall.PipeRefs

/-! # `sys_kill`

The call tears its target down across the process table, the scheduler and the
memory of the process. The page tables and kernel stacks that it gives back are
listed by root and by top; the frames behind them are not followed here.
-/

namespace KarteOs.Syscall

open Driver Sched Occupancy Function SchedState ProcessTable FdSystem Option

universe u

structure KillSystem (fs : Type u) where
  fds : FdSystem fs
  os : SchedState
  queues : FutexKey → List FutexWaiter

structure Released where
  roots : List Nat
  kernelStacks : List Nat

def Released.of (proc : Process) : Released where
  roots :=
    if proc.pageTableRoot ≠ 0 ∧ proc.sharedPageTable = false then [proc.pageTableRoot] else []
  kernelStacks := [proc.kernelStackTop]

def waitAgain : Int := -1

def waitErr : Int := -2

namespace KillSystem

variable {fs : Type u} (s : KillSystem fs)

def setProcs (procs : ProcessTable) : KillSystem fs :=
  { s with fds := { s.fds with procs } }

def reclaimProcess (idx : Nat) : KillSystem fs × Released :=
  (s.setProcs (s.fds.procs.setSlot idx none),
    match s.fds.procs.get idx with
    | none => ⟨[], []⟩
    | some proc => .of proc)

def wakeWaitingParent (idx : Nat) : KillSystem fs :=
  match s.fds.procs.findWaitingParent idx with
  | some parent =>
    { s.setProcs (s.fds.procs.setWaitChild parent none) with os := (s.os.wakeTask parent).1 }
  | none => s

def removeTask (idx : Nat) : KillSystem fs :=
  { s with os := s.os.markTaskExitedByProc idx }

def terminating : List Nat := [2, 9, 15]

/-- `set_exit_code`, which is the caller's, and `set_state` of the target. -/
def markKilled (idx sig : Nat) : KillSystem fs :=
  s.setProcs ((s.fds.procs.setExitCodeByIndex s.fds.current sig).setState idx .exited)

def killIndex (idx sig : Nat) : KillSystem fs × Released :=
  (((s.markKilled idx sig).wakeWaitingParent idx).removeTask idx).reclaimProcess idx

def sysKill (pid sig : Nat) : KillSystem fs × Int × Released :=
  if sig ∉ terminating then (s, errInval, ⟨[], []⟩)
  else
    match s.fds.procs.findProcessByPid pid with
    | none => (s, errNoent, ⟨[], []⟩)
    | some idx => ((s.killIndex idx sig).1, 0, (s.killIndex idx sig).2)

def sysWaitpid (myPid pid : Nat) : KillSystem fs × Int :=
  match s.fds.procs.findProcessByPid pid with
  | none => (s, waitErr)
  | some child =>
    match s.fds.procs.get child with
    | none => (s, waitErr)
    | some proc =>
      if proc.ppid ≠ myPid then (s, waitErr)
      else if proc.state = .exited then
        ((s.reclaimProcess child).1.removeTask child, asIsize proc.exitCode)
      else ({ s with os := s.os.schedule }, waitAgain)

/-- The caller after a call: its entry, its task and its resources are as before. -/
structure CallerKept (s next : KillSystem fs) (released : Released) (caller : Process) :
    Prop where
  entry : ∃ after, next.fds.procs.get s.fds.current = some after ∧
    after.state = caller.state ∧ after.exitCode = caller.exitCode
  task : next.os.sched.node s.os.sched.current = s.os.sched.node s.os.sched.current
  slot : s.os.sched.current ∈ next.os.sched.free → s.os.sched.current ∈ s.os.sched.free
  space : caller.pageTableRoot ∉ released.roots
  stack : caller.kernelStackTop ∉ released.kernelStacks
  files : next.fds.tables caller.fdTable = s.fds.tables caller.fdTable

def ParentOf (s : KillSystem fs) (idx target : Nat) (parent victim : Process) : Prop :=
  s.fds.procs.get idx = some parent ∧ idx ≠ target ∧ parent.state ≠ .exited ∧
    parent.pid = victim.ppid

def OwnTable (s : KillSystem fs) (target : Nat) (victim : Process) : Prop :=
  ∀ idx, s.fds.procs.Holds idx victim.fdTable → idx = target

/-- The status that a process which was sent a signal leaves: a zombie keeps its own. -/
def statusAfter (victim : Process) (sig : Nat) : Nat :=
  if victim.state = .exited then victim.exitCode else sig

/-- The victim after a call: the first `sys_waitpid` of its parent fetches the
status and removes the entry, its pipe ends are given up, and it is on no queue. -/
structure VictimReleased (s next : KillSystem fs) (pid sig target : Nat) (victim : Process) :
    Prop where
  status : ∀ idx parent, s.ParentOf idx target parent victim →
    (next.fds.procs.get target).isSome = true ∧
      (next.sysWaitpid parent.pid pid).2 = asIsize (statusAfter victim sig) ∧
      (next.sysWaitpid parent.pid pid).1.fds.procs.get target = none
  pipes : s.OwnTable target victim → ∀ pipeId side,
    next.fds.pipes.refs pipeId side + occupied (s.fds.tables victim.fdTable).fds
      (fun desc => desc.RefersTo pipeId side) = s.fds.pipes.refs pipeId side
  futex : ∀ key, ∀ waiter ∈ next.queues key, waiter.procIdx ≠ target

structure RunningKept (s next : KillSystem fs) (released : Released) (caller : Process) :
    Prop where
  space : caller.pageTableRoot ∉ released.roots
  stack : caller.kernelStackTop ∉ released.kernelStacks
  slot : s.os.sched.current ∈ next.os.sched.free → s.os.sched.current ∈ s.os.sched.free

/-- A terminating signal leaves the caller alone and releases the victim. -/
def KillSound (s : KillSystem fs) (caller : Process) (pid sig : Nat) : Prop :=
  ∀ target victim, sig ∈ terminating → s.fds.procs.findProcessByPid pid = some target →
    s.fds.procs.get target = some victim →
    (target ≠ s.fds.current →
      CallerKept s (s.sysKill pid sig).1 (s.sysKill pid sig).2.2 caller ∧
        VictimReleased s (s.sysKill pid sig).1 pid sig target victim) ∧
      (target = s.fds.current → RunningKept s (s.sysKill pid sig).1 (s.sysKill pid sig).2.2 caller)

/-- The caller is marked like the victim already, shares nothing with it that is
freed, and the victim has no parent, no pipe end and no place on a queue. -/
structure Unharmed (s : KillSystem fs) (caller : Process) (sig target : Nat)
    (victim : Process) : Prop where
  marked : caller.state = .exited ∧ caller.exitCode = sig
  slot : s.os.procSlotGet target ≠ some s.os.sched.current
  space : victim.pageTableRoot ≠ 0 → victim.sharedPageTable = false →
    victim.pageTableRoot ≠ caller.pageTableRoot
  stack : victim.kernelStackTop ≠ caller.kernelStackTop
  orphan : ∀ idx parent, ¬ s.ParentOf idx target parent victim
  pipes : s.OwnTable target victim → NoPipes (s.fds.tables victim.fdTable)
  futex : ∀ key, ∀ waiter ∈ s.queues key, waiter.procIdx ≠ target

/-- The target is another process, and the caller is unharmed. -/
def KillHarmless (s : KillSystem fs) (caller : Process) (pid sig : Nat) : Prop :=
  ∀ target victim, sig ∈ terminating → s.fds.procs.findProcessByPid pid = some target →
    s.fds.procs.get target = some victim →
    target ≠ s.fds.current ∧ s.Unharmed caller sig target victim

variable {s : KillSystem fs} {caller victim : Process} {target sig : Nat}

/-- The task that runs is the caller's. -/
def Runs (s : KillSystem fs) : Prop :=
  ∃ n, s.os.sched.node s.os.sched.current = some n ∧ n.kind = .user s.fds.current ∧
    n.state = .running

section
variable {os : SchedState} {n : TaskNode} {current : Nat}

lemma wakeTask_current (hnode : os.sched.node os.sched.current = some n)
    (hrunning : n.state = .running) (procIdx : Nat) :
    (os.wakeTask procIdx).1.sched.node os.sched.current = os.sched.node os.sched.current ∧
      (os.wakeTask procIdx).1.sched.free = os.sched.free ∧
      (os.wakeTask procIdx).1.procSlotGet = os.procSlotGet := by
  unfold wakeTask
  split
  · exact ⟨rfl, rfl, rfl⟩
  next slot _ =>
    simp only [removeSleep, wakeSlot, Scheduler.wakeSlot]
    cases hslot : os.sched.node slot with
    | none => exact ⟨rfl, rfl, rfl⟩
    | some m =>
      by_cases hblocked : m.state = .blocked
      · have hne : os.sched.current ≠ slot := by
          rintro rfl
          rw [hnode] at hslot
          cases hslot
          rw [hrunning] at hblocked
          cases hblocked
        simp only [hblocked, if_true]
        exact ⟨Scheduler.node_modifyNode_of_ne _ hne _, rfl, rfl⟩
      · simp only [hblocked, if_false]
        exact ⟨trivial, trivial, rfl⟩

lemma markTaskExitedByProc_current (hnode : os.sched.node current = some n)
    (hrunning : n.state = .running) (procIdx : Nat) :
    (os.markTaskExitedByProc procIdx).sched.node current = os.sched.node current ↔
      os.procSlotGet procIdx ≠ some current := by
  unfold markTaskExitedByProc
  cases hslot : os.procSlotGet procIdx with
  | none => simp
  | some slot =>
    simp only [procSlotSet, removeSleep, Scheduler.exitSlot, ne_eq, some.injEq]
    rcases eq_or_ne slot current with rfl | hne
    · have hgone : ∀ f : TaskNode → TaskNode, (f n).state = .exited →
          (os.sched.modifyNode slot f).node slot ≠ os.sched.node slot := by
        intro f hstate hsame
        rw [Scheduler.node_modifyNode_self hnode, hnode] at hsame
        rw [some.inj hsame, hrunning] at hstate
        cases hstate
      simp only [hnode, not_true_eq_false, iff_false]
      rw [← hnode]
      exact hgone _ rfl
    · refine iff_of_true ?_ hne
      cases os.sched.node slot with
      | none => rfl
      | some m => exact Scheduler.node_modifyNode_of_ne _ hne.symm _

lemma mem_free_markTaskExitedByProc {procIdx : Nat} (hslot : os.procSlotGet procIdx ≠ some current)
    (hfree : current ∈ (os.markTaskExitedByProc procIdx).sched.free) : current ∈ os.sched.free := by
  unfold markTaskExitedByProc at hfree
  split at hfree
  · exact hfree
  next slot hmapped =>
    simp only [procSlotSet, removeSleep, Scheduler.exitSlot] at hfree
    split at hfree
    · rcases List.mem_cons.mp hfree with rfl | hold
      · exact absurd hmapped hslot
      · exact hold
    · exact hfree

end

lemma wakeWaitingParent_get {idx : Nat} {proc : Process} (hget : s.fds.procs.get idx = some proc)
    (child : Nat) : ∃ waitChildIdx,
      (s.wakeWaitingParent child).fds.procs.get idx = some { proc with waitChildIdx } := by
  unfold wakeWaitingParent
  split
  next parent _ =>
    simp only [setProcs, setWaitChild, get_modify]
    rcases eq_or_ne idx parent with rfl | hne
    · exact ⟨none, by simp [hget]⟩
    · exact ⟨proc.waitChildIdx, by rw [update_of_ne hne, hget]⟩
  · exact ⟨proc.waitChildIdx, hget⟩

lemma wakeWaitingParent_frame (s : KillSystem fs) (child : Nat) :
    (s.wakeWaitingParent child).fds.tables = s.fds.tables ∧
      (s.wakeWaitingParent child).fds.pipes = s.fds.pipes ∧
      (s.wakeWaitingParent child).queues = s.queues := by
  unfold wakeWaitingParent
  split <;> exact ⟨rfl, rfl, rfl⟩

lemma killIndex_frame (s : KillSystem fs) (idx sig : Nat) :
    (s.killIndex idx sig).1.fds.tables = s.fds.tables ∧
      (s.killIndex idx sig).1.fds.pipes = s.fds.pipes ∧ (s.killIndex idx sig).1.queues = s.queues :=
  wakeWaitingParent_frame (s.markKilled idx sig) idx

lemma killIndex_get_target (s : KillSystem fs) (idx sig : Nat) :
    (s.killIndex idx sig).1.fds.procs.get idx = none := by
  simp [killIndex, reclaimProcess, setProcs, get_setSlot]

lemma killIndex_get_current (hcaller : s.fds.procs.get s.fds.current = some caller)
    (hne : target ≠ s.fds.current) (sig : Nat) :
    ∃ waitChildIdx, (s.killIndex target sig).1.fds.procs.get s.fds.current =
      some { caller with exitCode := sig, state := .exited, waitChildIdx } := by
  have hmarked : (s.markKilled target sig).fds.procs.get s.fds.current =
      some { caller with exitCode := sig, state := .exited } := by
    simp [markKilled, setProcs, setState, get_modify, update_of_ne hne.symm, setExitCodeByIndex,
      hcaller]
  obtain ⟨waitChildIdx, hget⟩ := wakeWaitingParent_get hmarked target
  refine ⟨waitChildIdx, ?_⟩
  simp only [killIndex, reclaimProcess, setProcs, removeTask, get_setSlot, update_of_ne hne.symm]
  exact hget

lemma killIndex_released (hvictim : s.fds.procs.get target = some victim) (sig : Nat) :
    (s.killIndex target sig).2 = .of victim := by
  obtain ⟨exitCode, hmarked⟩ : ∃ exitCode, (s.markKilled target sig).fds.procs.get target =
      some { victim with exitCode, state := .exited } := by
    simp only [markKilled, setProcs, setState, get_modify, update_self, setExitCodeByIndex]
    rcases eq_or_ne target s.fds.current with rfl | hne
    · exact ⟨sig, by rw [update_self, hvictim]; rfl⟩
    · exact ⟨victim.exitCode, by rw [update_of_ne hne, hvictim]; rfl⟩
  obtain ⟨waitChildIdx, hget⟩ := wakeWaitingParent_get hmarked target
  simp only [killIndex, reclaimProcess, removeTask, hget]
  rfl

lemma killIndex_os (s : KillSystem fs) (idx sig : Nat) :
    ∃ os : SchedState, (s.killIndex idx sig).1.os = os.markTaskExitedByProc idx ∧
      (os = s.os ∨ ∃ parent, os = (s.os.wakeTask parent).1) := by
  refine ⟨_, rfl, ?_⟩
  unfold wakeWaitingParent
  split
  next parent _ => exact .inr ⟨parent, rfl⟩
  · exact .inl rfl

lemma sysKill_eq {pid : Nat} (hsig : sig ∈ terminating)
    (hfind : s.fds.procs.findProcessByPid pid = some target) :
    s.sysKill pid sig = ((s.killIndex target sig).1, 0, (s.killIndex target sig).2) := by
  simp [sysKill, hsig, hfind]

lemma killIndex_task_iff (hruns : s.Runs) (target sig : Nat) :
    (s.killIndex target sig).1.os.sched.node s.os.sched.current =
        s.os.sched.node s.os.sched.current ↔ s.os.procSlotGet target ≠ some s.os.sched.current := by
  obtain ⟨n, hnode, _, hrunning⟩ := hruns
  obtain ⟨os, heq, hos⟩ := s.killIndex_os target sig
  rw [heq]
  rcases hos with rfl | ⟨parent, rfl⟩
  · exact markTaskExitedByProc_current hnode hrunning target
  · obtain ⟨hkept, _, hslots⟩ := wakeTask_current hnode hrunning parent
    rw [← hkept, ← hslots]
    exact markTaskExitedByProc_current (hkept.trans hnode) hrunning target

lemma killIndex_free (hruns : s.Runs) (hslot : s.os.procSlotGet target ≠ some s.os.sched.current)
    (sig : Nat) (hfree : s.os.sched.current ∈ (s.killIndex target sig).1.os.sched.free) :
    s.os.sched.current ∈ s.os.sched.free := by
  obtain ⟨n, hnode, _, hrunning⟩ := hruns
  obtain ⟨os, heq, hos⟩ := s.killIndex_os target sig
  rw [heq] at hfree
  rcases hos with rfl | ⟨parent, rfl⟩
  · exact mem_free_markTaskExitedByProc hslot hfree
  · obtain ⟨_, hsame, hslots⟩ := wakeTask_current hnode hrunning parent
    rw [← hsame]
    exact mem_free_markTaskExitedByProc (by rwa [hslots]) hfree

lemma callerKept_iff (hcaller : s.fds.procs.get s.fds.current = some caller) (hruns : s.Runs)
    (hvictim : s.fds.procs.get target = some victim) (hne : target ≠ s.fds.current) :
    CallerKept s (s.killIndex target sig).1 (s.killIndex target sig).2 caller ↔
      (caller.state = .exited ∧ caller.exitCode = sig) ∧
        s.os.procSlotGet target ≠ some s.os.sched.current ∧
        (victim.pageTableRoot ≠ 0 → victim.sharedPageTable = false →
          victim.pageTableRoot ≠ caller.pageTableRoot) ∧
        victim.kernelStackTop ≠ caller.kernelStackTop := by
  obtain ⟨waitChildIdx, hentry⟩ := killIndex_get_current hcaller hne sig
  have hspace : caller.pageTableRoot ∉ (s.killIndex target sig).2.roots ↔
      (victim.pageTableRoot ≠ 0 → victim.sharedPageTable = false →
        victim.pageTableRoot ≠ caller.pageTableRoot) := by
    rw [killIndex_released hvictim, Released.of]
    split
    next howned => simp [howned, eq_comm]
    next hshared => exact iff_of_true (by simp) fun hroot howned => absurd ⟨hroot, howned⟩ hshared
  have hstack : caller.kernelStackTop ∉ (s.killIndex target sig).2.kernelStacks ↔
      victim.kernelStackTop ≠ caller.kernelStackTop := by
    rw [killIndex_released hvictim, Released.of]
    simp [eq_comm]
  constructor
  · rintro ⟨⟨after, hafter, hstate, hcode⟩, htask, _, hroot, htop, _⟩
    rw [hentry] at hafter
    cases hafter
    exact ⟨⟨hstate.symm, hcode.symm⟩, (killIndex_task_iff hruns target sig).mp htask,
      hspace.mp hroot, hstack.mp htop⟩
  · rintro ⟨⟨hstate, hcode⟩, hslot, hroot, htop⟩
    exact ⟨⟨_, hentry, hstate.symm, hcode.symm⟩, (killIndex_task_iff hruns target sig).mpr hslot,
      killIndex_free hruns hslot sig, hspace.mpr hroot, hstack.mpr htop,
      congrFun (s.killIndex_frame target sig).1 _⟩

lemma occupied_eq_zero_iff_noPipes (table : FdTable) :
    (∀ pipeId side, occupied table.fds (fun desc => desc.RefersTo pipeId side) = 0) ↔
      NoPipes table := by
  refine ⟨fun hzero fd desc hslot hvalid => ?_, fun h _ _ => occupied_of_noPipes h⟩
  cases hend : desc.pipeEnd with
  | none => rfl
  | some found =>
    have hnone := occupied_eq_zero_iff.mp (hzero found.1 found.2) fd desc hslot
    simp [FileDescriptor.RefersTo, hvalid, hend] at hnone

lemma victimReleased_iff (s : KillSystem fs) (pid sig target : Nat) (victim : Process) :
    VictimReleased s (s.killIndex target sig).1 pid sig target victim ↔
      (∀ idx parent, ¬s.ParentOf idx target parent victim) ∧
        (s.OwnTable target victim → NoPipes (s.fds.tables victim.fdTable)) ∧
        ∀ key, ∀ waiter ∈ s.queues key, waiter.procIdx ≠ target := by
  obtain ⟨_, hpipes, hqueues⟩ := s.killIndex_frame target sig
  have hgone := s.killIndex_get_target target sig
  constructor
  · rintro ⟨hstatus, hrefs, hfutex⟩
    refine ⟨fun idx parent hparent => ?_, fun hown => ?_, ?_⟩
    · have hkept := (hstatus idx parent hparent).1
      rw [hgone] at hkept
      cases hkept
    · refine (occupied_eq_zero_iff_noPipes _).mp fun pipeId side => ?_
      have hsame := hrefs hown pipeId side
      rw [hpipes] at hsame
      omega
    · rwa [hqueues] at hfutex
  · rintro ⟨horphan, hnone, hfutex⟩
    refine ⟨fun idx parent hparent => absurd hparent (horphan idx parent), fun hown => ?_, ?_⟩
    · intro pipeId side
      rw [hpipes, (occupied_eq_zero_iff_noPipes _).mpr (hnone hown), Nat.add_zero]
    · rwa [hqueues]

/-- `sys_kill` affects only its target exactly when it is refused, or does no
harm for want of anything to harm; a process that kills itself is always harmed. -/
theorem sysKill_sound_iff {pid : Nat} (hcaller : s.fds.procs.get s.fds.current = some caller)
    (hruns : s.Runs) : s.KillSound caller pid sig ↔ s.KillHarmless caller pid sig := by
  refine forall_congr' fun target => forall_congr' fun victim => ?_
  refine forall_congr' fun hsig => forall_congr' fun hfind => forall_congr' fun hvictim => ?_
  rw [sysKill_eq hsig hfind]
  rcases eq_or_ne target s.fds.current with rfl | hne
  · -- the kernel stack of the caller is among what is freed
    obtain rfl : caller = victim := some.inj (hcaller.symm.trans hvictim)
    refine iff_of_false (fun hsound => ?_) (fun hharmless => hharmless.1 rfl)
    have hkept := (hsound.2 rfl).stack
    rw [killIndex_released hvictim] at hkept
    exact hkept (.head _)
  · simp only [hne, ne_eq, not_false_eq_true, true_implies, false_implies, and_true, true_and]
    rw [callerKept_iff hcaller hruns hvictim hne, victimReleased_iff]
    constructor
    · rintro ⟨⟨hmarked, hslot, hspace, hstack⟩, horphan, hpipes, hfutex⟩
      exact ⟨hmarked, hslot, hspace, hstack, horphan, hpipes, hfutex⟩
    · rintro ⟨hmarked, hslot, hspace, hstack, horphan, hpipes, hfutex⟩
      exact ⟨⟨hmarked, hslot, hspace, hstack⟩, horphan, hpipes, hfutex⟩

def parentAndChild : KillSystem RamFileSystem where
  fds := bare.apply .x86_64 (.fork .scheduled ⟨1, 1⟩)
  os := ((init.allocateUserSlot 0).1.allocateUserSlot 1).1.schedule
  queues := fun _ => []

lemma parentAndChild_runs : parentAndChild.Runs :=
  ⟨{ TaskNode.newUser 0 .normal with state := .running }, by decide, rfl, rfl⟩

def markedParent : KillSystem RamFileSystem :=
  parentAndChild.setProcs (parentAndChild.fds.procs.setExitCodeByIndex 0 9)

def child : Process :=
  { bareProc with
    pid := 2, ppid := 1, pageTableRoot := 1, kernelStackTop := 1, fdTable := 1 }

theorem sysKill_sound_iff_marked :
    markedParent.KillSound { FdSystem.bareProc with state := .exited, exitCode := 9 } 2 9 := by
  have hruns : markedParent.Runs := parentAndChild_runs
  refine (sysKill_sound_iff (by decide) hruns).mpr ?_
  intro target victim _ hfind hvictim
  obtain rfl : 1 = target := by
    have hone : markedParent.fds.procs.findProcessByPid 2 = some 1 := by decide
    exact some.inj (hone.symm.trans hfind)
  obtain rfl : child = victim := by
    have hchild : markedParent.fds.procs.get 1 = some child := by decide
    exact some.inj (hchild.symm.trans hvictim)
  refine ⟨by decide, ⟨rfl, rfl⟩, by decide, by decide, by decide, ?_,
    fun _ => by decide, fun _ _ hwaiter => by cases hwaiter⟩
  rintro idx parent ⟨hget, hother, hlive, _⟩
  match idx with
  | 0 =>
    have hmarked : (markedParent.fds.procs.get 0).map Process.state = some .exited := by
      decide
    rw [hget] at hmarked
    exact hlive (some.inj hmarked)
  | 1 => exact hother rfl
  | n + 2 =>
    cases hget

/-- A process that kills its child is marked as exited itself, and the status of
the child is lost. -/
theorem kill_marks_caller :
    parentAndChild.fds.procs.get parentAndChild.fds.current = some FdSystem.bareProc ∧
      parentAndChild.Runs ∧ (parentAndChild.sysKill 2 9).2.1 = 0 ∧
      (parentAndChild.sysKill 2 9).1.fds.procs.get 0 =
        some { FdSystem.bareProc with state := .exited, exitCode := 9 } ∧
      ((parentAndChild.sysKill 2 9).1.sysWaitpid 1 2).2 = waitErr ∧
      ¬ parentAndChild.KillSound FdSystem.bareProc 2 9 := by
  have hafter : (parentAndChild.sysKill 2 9).1.fds.procs.get 0 =
      some { bareProc with state := .exited, exitCode := 9 } := by decide
  refine ⟨by decide, parentAndChild_runs, by decide, hafter, by decide, ?_⟩
  intro hsound
  obtain ⟨hkept, _⟩ := hsound 1 child (by decide) (by decide) (by decide)
  obtain ⟨after, hget, hstate, _⟩ := (hkept (by decide)).1.entry
  have hsame : after = { bareProc with state := .exited, exitCode := 9 } :=
    some.inj (hget.symm.trans hafter)
  rw [hsame] at hstate
  cases hstate

end KillSystem

end KarteOs.Syscall

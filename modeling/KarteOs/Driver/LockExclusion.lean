import KarteOs.Driver.FileLocks

/-! # File locks of several tasks

Each access to the lock table is one critical section, and the test for a conflict
and the insertion of the lock are two of them. Tasks of several processes take
these steps in any order. The table records a lock's owner as a bare descriptor
number; here each lock also carries the process it was granted to.
-/

namespace KarteOs.Driver.FileLocks

open Transition List

/-- A lock and the process it was granted to, which the kernel does not record. -/
structure OwnedLock where
  process : Nat
  lock : FileLock
deriving DecidableEq

namespace OwnedLock

def holder (owned : OwnedLock) : Nat × Nat := (owned.process, owned.lock.ownerFd)

end OwnedLock

def Conflicts (first second : FileLock) : Prop :=
  first.inode = second.inode ∧
    rangesOverlap first.start first.stop second.start second.stop = true ∧
    (first.lockType = fWrlck ∨ second.lockType = fWrlck)
deriving Decidable

lemma Conflicts.symm {first second : FileLock} (hconflict : Conflicts first second) :
    Conflicts second first := by
  obtain ⟨hinode, hoverlap, htypes⟩ := hconflict
  refine ⟨hinode.symm, ?_, htypes.symm⟩
  rwa [rangesOverlap, Bool.and_comm]

inductive LockStage
  | idle
  /-- `find_conflict` found nothing; `add_lock` comes next. -/
  | cleared (fd : Nat) (flock : Flock)
  /-- `F_SETLKW` met a conflict and yields before it tests again. -/
  | yielded (fd : Nat) (flock : Flock)
deriving DecidableEq

structure LockSystem where
  table : List OwnedLock
  stage : Nat → LockStage

/-- A critical section that a task enters; each task runs in a fixed process. -/
inductive LockStep
  | setlk (task cmd fd : Nat) (flock : Flock)
  | retry (task : Nat)
  | add (task : Nat)
  | close (task fd : Nat)

namespace LockSystem

def boot : LockSystem := ⟨[], fun _ => .idle⟩

variable (system : LockSystem)

def locks : List FileLock := system.table.map OwnedLock.lock

def setStage (task : Nat) (stage : LockStage) : LockSystem :=
  { system with stage := Function.update system.stage task stage }

@[simp] lemma setStage_table (task : Nat) (stage : LockStage) :
    (system.setStage task stage).table = system.table := rfl

variable (process : Nat → Nat) (inode : Nat) {task fd : Nat} {flock : Flock}

def requested (inode fd : Nat) (flock : Flock) : FileLock :=
  ⟨fd, inode, flock.lType, flock.absStart, flock.absEnd⟩

def conflict (inode : Nat) (system : LockSystem) (fd : Nat) (flock : Flock) : Option FileLock :=
  findConflict system.locks inode fd flock.lType flock.absStart flock.absEnd

variable (system : LockSystem)

/-- One critical section. A step that its task is not at changes nothing. -/
def step : LockStep → LockSystem
  | .setlk task cmd fd flock =>
    if system.stage task = .idle ∧ (cmd = fSetlk ∨ cmd = fSetlkw) then
      if flock.lType = fUnlck then
        { system with
          table := system.table.filter fun owned =>
            keptByUnlock inode fd flock.absStart flock.absEnd owned.lock }
      else
        match conflict inode system fd flock with
        | none => system.setStage task (.cleared fd flock)
        | some _ => if cmd = fSetlk then system else system.setStage task (.yielded fd flock)
    else system
  | .retry task =>
    match system.stage task with
    | .yielded fd flock =>
      match conflict inode system fd flock with
      | none => system.setStage task (.cleared fd flock)
      | some _ => system.setStage task .idle
    | _ => system
  | .add task =>
    match system.stage task with
    | .cleared fd flock =>
      LockSystem.setStage
        { system with table := system.table ++ [⟨process task, requested inode fd flock⟩] }
        task .idle
    | _ => system
  | .close task fd =>
    if system.stage task = .idle then
      { system with table := system.table.filter fun owned => owned.lock.ownerFd ≠ fd }
    else system

/-! ## The steps and the functions of the source -/

lemma locks_step_unlock {cmd : Nat} (hidle : system.stage task = .idle)
    (hcmd : cmd = fSetlk ∨ cmd = fSetlkw) (hunlock : flock.lType = fUnlck) :
    (system.step process inode (.setlk task cmd fd flock)).locks =
      removeLocksInRange system.locks inode fd flock.absStart flock.absEnd := by
  rw [step, if_pos ⟨hidle, hcmd⟩, if_pos hunlock, removeLocksInRange, locks, locks, filter_map]
  rfl

lemma locks_step_add (hstage : system.stage task = .cleared fd flock) :
    (system.step process inode (.add task)).locks =
      addLock system.locks inode fd flock.lType flock.absStart flock.absEnd := by
  simp only [step, hstage]
  exact map_append ..

lemma locks_step_close (hidle : system.stage task = .idle) :
    (system.step process inode (.close task fd)).locks = releaseFdLocks system.locks fd := by
  rw [step, if_pos hidle, releaseFdLocks, locks, locks, filter_map]
  rfl

def Exclusive (table : List OwnedLock) : Prop :=
  ∀ first ∈ table, ∀ second ∈ table, first.holder ≠ second.holder →
    ¬Conflicts first.lock second.lock
deriving Decidable

def releaser (process : Nat → Nat) : LockStep → Option (Nat × Nat)
  | .setlk task _ fd flock => if flock.lType = fUnlck then some (process task, fd) else none
  | .close task fd => some (process task, fd)
  | _ => none

/-- The step leaves locks of different holders apart, and removes a lock only for
its own holder. -/
def StepSafe (label : LockStep) : Prop :=
  Exclusive (system.step process inode label).table ∧
    ∀ owned ∈ system.table, owned ∉ (system.step process inode label).table →
      releaser process label = some owned.holder
deriving Decidable

/-- At an insertion, no conflicting lock has come since the test, and none of another process
goes unseen for its equal descriptor number; an unlock or a close meets no lock of another
process under its descriptor number. -/
def Unshared : LockStep → Prop
  | .setlk task cmd fd flock =>
    system.stage task = .idle → (cmd = fSetlk ∨ cmd = fSetlkw) → flock.lType = fUnlck →
      ∀ owned ∈ system.table, owned.lock.ownerFd = fd → owned.lock.inode = inode →
        rangesOverlap owned.lock.start owned.lock.stop flock.absStart flock.absEnd = true →
        owned.process = process task
  | .retry _ => True
  | .add task =>
    match system.stage task with
    | .cleared fd flock =>
      conflict inode system fd flock = none ∧ ∀ owned ∈ system.table, owned.lock.ownerFd = fd →
          Conflicts owned.lock (requested inode fd flock) → owned.process = process task
    | _ => True
  | .close task fd =>
    system.stage task = .idle →
      ∀ owned ∈ system.table, owned.lock.ownerFd = fd → owned.process = process task

variable {process inode} {system : LockSystem} {table : List OwnedLock} {label : LockStep}

lemma conflict_eq_none_iff : conflict inode system fd flock = none ↔
    ∀ owned ∈ system.table, owned.lock.ownerFd ≠ fd →
      ¬Conflicts owned.lock (requested inode fd flock) := by
  simp only [conflict, findConflict, find?_eq_none, locks, List.forall_mem_map]
  refine forall₂_congr fun owned _ => ?_
  simp only [Conflicts, requested, Bool.and_eq_true, Bool.or_eq_true, decide_eq_true_eq]
  tauto

lemma exclusive_append_iff (hexclusive : Exclusive table) (added : OwnedLock) :
    Exclusive (table ++ [added]) ↔
      ∀ owned ∈ table, owned.holder ≠ added.holder → ¬Conflicts owned.lock added.lock := by
  constructor
  · intro hall owned hmem
    exact hall owned (mem_append_left _ hmem) added (by simp)
  · intro hadded first hfirst second hsecond hholder
    rcases mem_append.mp hfirst with hfirst | hfirst <;>
      rcases mem_append.mp hsecond with hsecond | hsecond
    · exact hexclusive first hfirst second hsecond hholder
    · rw [mem_singleton.mp hsecond] at hholder ⊢
      exact hadded first hfirst hholder
    · rw [mem_singleton.mp hfirst] at hholder ⊢
      exact fun hconflict => hadded second hsecond hholder.symm hconflict.symm
    · rw [mem_singleton.mp hfirst, mem_singleton.mp hsecond] at hholder
      exact absurd rfl hholder

lemma exclusive_filter (hexclusive : Exclusive table) (keep : OwnedLock → Bool) :
    Exclusive (table.filter keep) := by
  intro first hfirst second hsecond
  exact hexclusive first (mem_filter.mp hfirst).1 second (mem_filter.mp hsecond).1

section
variable (hexclusive : Exclusive system.table)
include hexclusive

lemma stepSafe_of_table_eq (htable : (system.step process inode label).table = system.table) :
    system.StepSafe process inode label := by
  rw [StepSafe, htable]
  exact ⟨hexclusive, fun owned hmem hgone => absurd hmem hgone⟩

lemma stepSafe_filter_iff {keep : OwnedLock → Bool}
    (htable : (system.step process inode label).table = system.table.filter keep)
    (hreleaser : releaser process label = some (process task, fd))
    (hfd : ∀ owned, keep owned = false → owned.lock.ownerFd = fd) :
    system.StepSafe process inode label ↔
      ∀ owned ∈ system.table, keep owned = false → owned.process = process task := by
  rw [StepSafe, htable, hreleaser, and_iff_right (exclusive_filter hexclusive keep)]
  refine forall₂_congr fun owned hmem => ?_
  rw [mem_filter, and_iff_right hmem, Bool.not_eq_true]
  refine forall_congr' fun hdrop => ?_
  rw [Option.some.injEq, OwnedLock.holder, Prod.mk.injEq, and_iff_left (hfd owned hdrop).symm,
    eq_comm]

lemma stepSafe_setlk_iff (task cmd fd : Nat) (flock : Flock) :
    system.StepSafe process inode (.setlk task cmd fd flock) ↔
      system.Unshared process inode (.setlk task cmd fd flock) := by
  by_cases hrun : (system.stage task = .idle ∧ (cmd = fSetlk ∨ cmd = fSetlkw)) ∧
      flock.lType = fUnlck
  · obtain ⟨⟨hidle, hcmd⟩, hunlock⟩ := hrun
    have htable : (system.step process inode (.setlk task cmd fd flock)).table =
        system.table.filter fun owned =>
          keptByUnlock inode fd flock.absStart flock.absEnd owned.lock := by
      rw [step, if_pos ⟨hidle, hcmd⟩, if_pos hunlock]
    have hreleaser : releaser process (.setlk task cmd fd flock) = some (process task, fd) :=
      if_pos hunlock
    rw [stepSafe_filter_iff hexclusive htable hreleaser]
    · simp only [Unshared, hidle, hcmd, hunlock, keptByUnlock, forall_const]
      refine forall₂_congr fun owned _ => ?_
      simp only [Bool.or_eq_false_iff, decide_eq_false_iff_not, not_not, Bool.not_eq_false', ne_eq]
      tauto
    · intro owned hdrop
      simp only [keptByUnlock, Bool.or_eq_false_iff, decide_eq_false_iff_not, not_not,
        ne_eq] at hdrop
      exact hdrop.1.2
  · refine iff_of_true (stepSafe_of_table_eq hexclusive ?_) ?_
    · simp only [step]
      split
      next hready =>
        rw [if_neg fun hunlock => hrun ⟨hready, hunlock⟩]
        split
        · rfl
        · split <;> rfl
      · rfl
    · intro hidle hcmd hunlock
      exact absurd ⟨⟨hidle, hcmd⟩, hunlock⟩ hrun

lemma stepSafe_add_iff (task : Nat) :
    system.StepSafe process inode (.add task) ↔ system.Unshared process inode (.add task) := by
  cases hstage : system.stage task with
  | cleared fd flock =>
    have htable : (system.step process inode (.add task)).table =
        system.table ++ [⟨process task, requested inode fd flock⟩] := by
      simp [step, hstage, setStage_table]
    have hkept : ∀ owned ∈ system.table, owned ∉ (system.step process inode (.add task)).table →
        releaser process (.add task) = some owned.holder := by
      intro owned hmem hgone
      rw [htable] at hgone
      exact absurd (mem_append_left _ hmem) hgone
    rw [StepSafe, and_iff_left hkept, htable, exclusive_append_iff hexclusive]
    simp only [Unshared, hstage, conflict_eq_none_iff]
    constructor
    · intro happart
      refine ⟨fun owned hmem hfd => happart owned hmem ?_, fun owned hmem hfd hconflict => ?_⟩
      · exact fun hholder => hfd (congrArg Prod.snd hholder)
      · by_contra hprocess
        exact happart owned hmem (fun hholder => hprocess (congrArg Prod.fst hholder)) hconflict
    · rintro ⟨hseen, hunseen⟩ owned hmem hholder hconflict
      by_cases hfd : owned.lock.ownerFd = fd
      · exact hholder (Prod.ext (hunseen owned hmem hfd hconflict) hfd)
      · exact hseen owned hmem hfd hconflict
  | idle | yielded fd flock =>
    exact iff_of_true (stepSafe_of_table_eq hexclusive (by simp [step, hstage]))
      (by simp [Unshared, hstage])

lemma stepSafe_retry (task : Nat) : system.StepSafe process inode (.retry task) := by
  refine stepSafe_of_table_eq hexclusive ?_
  simp only [step]
  split
  · split <;> rfl
  · rfl

lemma stepSafe_close_iff (task fd : Nat) : system.StepSafe process inode (.close task fd) ↔
    system.Unshared process inode (.close task fd) := by
  by_cases hidle : system.stage task = .idle
  · have htable : (system.step process inode (.close task fd)).table =
        system.table.filter fun owned => owned.lock.ownerFd ≠ fd := by
      rw [step, if_pos hidle]
    rw [stepSafe_filter_iff hexclusive htable rfl (by simp)]
    simp [Unshared, hidle]
  · refine iff_of_true (stepSafe_of_table_eq hexclusive ?_) fun hready => absurd hready hidle
    rw [step, if_neg hidle]

lemma stepSafe_iff (label : LockStep) :
    system.StepSafe process inode label ↔ system.Unshared process inode label := by
  cases label with
  | setlk task cmd fd flock => exact stepSafe_setlk_iff hexclusive task cmd fd flock
  | retry task => exact iff_of_true (stepSafe_retry hexclusive task) trivial
  | add task => exact stepSafe_add_iff hexclusive task
  | close task fd => exact stepSafe_close_iff hexclusive task fd

end

/-- In every interleaving of lock calls and closes, from the empty table on, locks of different
holders stay apart and each lock is removed only by its holder, exactly when no step is misled. -/
theorem run_safe_iff (process : Nat → Nat) (inode : Nat) (labels : List LockStep) :
    Allowed (StepSafe process inode) (step process inode) boot labels ↔
      Allowed (Unshared process inode) (step process inode) boot labels := by
  have hboot : Exclusive boot.table := by
    intro first hfirst
    cases hfirst
  have hiff : ∀ (system : LockSystem) label, Exclusive system.table →
      (system.StepSafe process inode label ↔ system.Unshared process inode label) :=
    fun _ label hexclusive => stepSafe_iff hexclusive label
  have hkeep : ∀ (system : LockSystem) label, Exclusive system.table →
      system.StepSafe process inode label → Exclusive (system.step process inode label).table :=
    fun _ _ _ hsafe => hsafe.1
  exact Allowed.iff_of_invariant hiff hkeep hboot labels

def exclusiveTen : Flock := ⟨fWrlck, 0, 0, 10, 0⟩

/-- Two tasks of two processes test before either inserts; or both use the same
descriptor number, so that neither test sees the other's lock and a close by the
second drops the lock of the first. -/
theorem interleaved_locks_diverge : ¬Allowed (StepSafe id 1) (step id 1) boot
      [.setlk 1 fSetlk 3 exclusiveTen, .setlk 2 fSetlk 4 exclusiveTen, .add 1, .add 2] ∧
    ¬Allowed (StepSafe id 1) (step id 1) boot
      [.setlk 1 fSetlk 3 exclusiveTen, .add 1, .setlk 2 fSetlk 3 exclusiveTen, .add 2] ∧
    ¬Allowed (StepSafe id 1) (step id 1) boot
      [.setlk 1 fSetlk 3 exclusiveTen, .add 1, .close 2 3] := by
  decide

end LockSystem

end KarteOs.Driver.FileLocks

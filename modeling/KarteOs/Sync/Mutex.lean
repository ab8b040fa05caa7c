import KarteOs.Foundation.TotalMap
import KarteOs.Sched.Blocking

/-! # The blocking mutex

`lock` tries to take the mutex, and if it is held registers the process as the one
waiter, tries again and blocks. `unlock` takes the waiter, releases the mutex and
wakes the waiter. There is room for one waiter, and process index 0 stands for none.
-/

namespace KarteOs.Sync

open Sched Transition Function SchedState Option

inductive MutexPhase
  | outside
  /-- At the head of the loop, or blocked at its end. -/
  | contending
  /-- Registered as the waiter, and about to block. -/
  | registered
  | holding
deriving DecidableEq

instance : Inhabited MutexPhase := ⟨.outside⟩

def Waits (os : SchedState) (procIdx : Nat) : MutexPhase → Prop
  | .registered => True
  | .contending => os.TaskBlocked procIdx
  | _ => False

instance (os : SchedState) (procIdx : Nat) (phase : MutexPhase) :
    Decidable (Waits os procIdx phase) := by
  unfold Waits
  split <;> infer_instance

lemma Waits.mono {os next : SchedState} {procIdx : Nat} {phase : MutexPhase}
    (hblocked : next.TaskBlocked procIdx → os.TaskBlocked procIdx)
    (hwaits : Waits next procIdx phase) : Waits os procIdx phase := by
  cases phase with
  | contending => exact hblocked hwaits
  | registered | outside | holding => exact hwaits

structure MutexSystem where
  os : SchedState
  locked : Bool
  waiter : Nat
  phases : TotalMap Nat MutexPhase

inductive MutexEvent
  | attempt
  | register
  | block
  | unlock
  | os (op : SchedOp)

namespace MutexSystem

def boot : MutexSystem := ⟨.init, false, 0, .empty⟩

section
variable (s : MutexSystem)

def phase : Nat → MutexPhase :=
  s.phases.get

section
variable (procIdx : Nat)

def setPhase (phase : MutexPhase) : MutexSystem :=
  { s with phases := s.phases.set procIdx phase }

lemma setPhase_phase (phase : MutexPhase) :
    (s.setPhase procIdx phase).phase = update s.phase procIdx phase :=
  s.phases.set_get procIdx phase

def tryLock : MutexSystem :=
  if s.locked then s.setPhase procIdx .contending
  else { s with locked := true }.setPhase procIdx .holding

/-- Store the waiter, swap again and clear the waiter if that took the mutex. -/
def registerWaiter : MutexSystem :=
  if s.locked then { s with waiter := procIdx }.setPhase procIdx .registered
  else { s with locked := true, waiter := 0 }.setPhase procIdx .holding

end

def wakeWaiter : SchedState :=
  if s.waiter ≠ 0 then (s.os.wakeTask s.waiter).1 else s.os

/-- Take the waiter, release the mutex and wake the waiter if there is one. -/
def release (procIdx : Nat) : MutexSystem :=
  { s with waiter := 0, locked := false, os := s.wakeWaiter }.setPhase procIdx .outside

/-- An event that does not fit the phase of the current process has no effect. -/
def apply : MutexEvent → MutexSystem
  | .attempt => s.os.onCurrent s fun procIdx =>
    match s.phase procIdx with
    | .outside => some (s.tryLock procIdx)
    | _ => none
  | .register => s.os.onCurrent s fun procIdx =>
    match s.phase procIdx with
    | .contending => some (s.registerWaiter procIdx)
    | _ => none
  | .block => s.os.onCurrent s fun procIdx =>
    match s.phase procIdx with
    | .registered => some ({ s with os := s.os.scheduleBlock }.setPhase procIdx .contending)
    | _ => none
  | .unlock => s.os.onCurrent s fun procIdx =>
    match s.phase procIdx with
    | .holding => some (s.release procIdx)
    | _ => none
  | .os op => { s with os := s.os.apply op }

end

/-- A task sleeps or blocks for another reason only outside `lock`, and ends only
without the mutex. -/
def mayCall : SchedOp → MutexPhase → Bool
  | .scheduleExit, phase => phase = .outside
  | .scheduleBlock, phase | .sleepUntil .., phase => phase = .outside ∨ phase = .holding
  | _, _ => true

variable (s : MutexSystem)

def Legal : MutexEvent → Prop
  | .os op =>
    s.os.Legal op ∧ ∀ procIdx ∈ s.os.sched.currentProc, mayCall op (s.phase procIdx) = true
  | _ => True

/-- A process that registers has an index other than 0 and no other process waits; and
a process that releases the mutex finds the waiter blocked already. -/
def keepsAt (procIdx : Nat) : MutexEvent → MutexPhase → Prop
  | .register, .contending =>
    s.locked = true → procIdx ≠ 0 ∧ ∀ other, other ≠ procIdx → ¬Waits s.os other (s.phase other)
  | .unlock, .holding => s.waiter ≠ 0 → s.phase s.waiter ≠ .registered
  | _, _ => True

def Keeps (event : MutexEvent) : Prop :=
  ∀ procIdx ∈ s.os.sched.currentProc, s.keepsAt procIdx event (s.phase procIdx)

def Exclusive : Prop :=
  ∀ first second, s.phase first = .holding → s.phase second = .holding → first = second

def Between (os : SchedState) (procIdx : Nat) : MutexPhase → Prop
  | .registered => True
  | .contending => ¬os.TaskBlocked procIdx
  | _ => False

/-- The mutex is free, nobody is between steps, and yet somebody is blocked in `lock`. -/
def Stranded (s : MutexSystem) : Prop :=
  s.locked = false ∧ (∀ procIdx, ¬Between s.os procIdx (s.phase procIdx)) ∧
    ∃ procIdx, s.phase procIdx = .contending ∧ s.os.TaskBlocked procIdx

/-! ## Mutual exclusion -/

/-- The flag is set exactly while one process holds the mutex. -/
structure Held (locked : Bool) (phase : Nat → MutexPhase) : Prop where
  unique : ∀ first second, phase first = .holding → phase second = .holding → first = second
  locked_iff : locked = true ↔ ∃ procIdx, phase procIdx = .holding

section
variable {locked : Bool} {phase : Nat → MutexPhase} {procIdx : Nat} {next : MutexPhase}

lemma Held.move (h : Held locked phase) (hphase : phase procIdx ≠ .holding)
    (hnext : next ≠ .holding) : Held locked (update phase procIdx next) := by
  have hsame : ∀ other, update phase procIdx next other = .holding ↔ phase other = .holding := by
    intro other
    rcases eq_or_ne other procIdx with rfl | hne
    · simp [hphase, hnext]
    · rw [update_of_ne hne]
  exact ⟨fun first second hfirst hsecond =>
      h.unique first second ((hsame first).mp hfirst) ((hsame second).mp hsecond),
    h.locked_iff.trans (exists_congr fun other => (hsame other).symm)⟩

lemma Held.take (h : Held false phase) : Held true (update phase procIdx .holding) := by
  have hnone : ∀ other, phase other ≠ .holding := fun other hother =>
    Bool.false_ne_true (h.locked_iff.mpr ⟨other, hother⟩)
  have honly : ∀ other, update phase procIdx .holding other = .holding → other = procIdx := by
    intro other hother
    by_contra hne
    rw [update_of_ne hne] at hother
    exact hnone other hother
  exact ⟨fun first second hfirst hsecond => (honly first hfirst).trans (honly second hsecond).symm,
    iff_of_true rfl ⟨procIdx, update_self ..⟩⟩

lemma Held.drop (h : Held locked phase) (hphase : phase procIdx = .holding) :
    Held false (update phase procIdx .outside) := by
  have hnone : ∀ other, update phase procIdx .outside other ≠ .holding := by
    intro other hother
    rcases eq_or_ne other procIdx with rfl | hne
    · simp at hother
    · rw [update_of_ne hne] at hother
      exact hne (h.unique other procIdx hother hphase)
  exact ⟨fun first _ hfirst => absurd hfirst (hnone first),
    iff_of_false Bool.false_ne_true fun ⟨other, hother⟩ => hnone other hother⟩

end

variable {s next : MutexSystem} {event : MutexEvent}

inductive Effect (s : MutexSystem) : MutexEvent → MutexSystem → Prop
  | none (event : MutexEvent) : Effect s event s
  | attempt {procIdx : Nat} (hcurrent : s.os.sched.currentProc = some procIdx)
      (hphase : s.phase procIdx = .outside) : Effect s .attempt (s.tryLock procIdx)
  | register {procIdx : Nat} (hcurrent : s.os.sched.currentProc = some procIdx)
      (hphase : s.phase procIdx = .contending) : Effect s .register (s.registerWaiter procIdx)
  | block {procIdx : Nat} (hcurrent : s.os.sched.currentProc = some procIdx)
      (hphase : s.phase procIdx = .registered) :
      Effect s .block ({ s with os := s.os.scheduleBlock }.setPhase procIdx .contending)
  | unlock {procIdx : Nat} (hcurrent : s.os.sched.currentProc = some procIdx)
      (hphase : s.phase procIdx = .holding) : Effect s .unlock (s.release procIdx)
  | os (op : SchedOp) : Effect s (.os op) { s with os := s.os.apply op }

lemma apply_effect (s : MutexSystem) (event : MutexEvent) : Effect s event (s.apply event) := by
  cases event
  case' attempt | register | block | unlock =>
    refine onCurrent_of (.none _) fun procIdx hcurrent => ?_
    split
    on_goal 2 => trivial
    rename_i hphase
  case attempt => exact .attempt hcurrent hphase
  case register => exact .register hcurrent hphase
  case block => exact .block hcurrent hphase
  case unlock => exact .unlock hcurrent hphase
  case os op => exact .os op

lemma Effect.held (heffect : Effect s event next)
    (hs : Held s.locked s.phase) : Held next.locked next.phase := by
  cases heffect with
  | none => exact hs
  | attempt _ hphase =>
    unfold tryLock
    split
    · rw [setPhase_phase]
      exact hs.move (by simp [hphase]) (by simp)
    next hfree =>
      rw [setPhase_phase]
      exact (Bool.not_eq_true _ ▸ hfree : s.locked = false) ▸ hs |>.take
  | register _ hphase =>
    unfold registerWaiter
    split
    · rw [setPhase_phase]
      exact hs.move (by simp [hphase]) (by simp)
    next hfree =>
      rw [setPhase_phase]
      exact (Bool.not_eq_true _ ▸ hfree : s.locked = false) ▸ hs |>.take
  | block _ hphase =>
    rw [setPhase_phase]
    exact hs.move (by simp [hphase]) (by simp)
  | unlock _ hphase =>
    unfold release
    rw [setPhase_phase]
    exact hs.drop hphase
  | os op => exact hs

/-- Whoever waits is the registered waiter of a mutex that is held. -/
structure Served (s : MutexSystem) : Prop where
  inv : s.os.Inv
  waiting : ∀ procIdx, Waits s.os procIdx (s.phase procIdx) →
    s.waiter = procIdx ∧ procIdx ≠ 0 ∧ s.locked = true

lemma served_boot : Served boot where
  inv := init_inv
  waiting := fun _ hwaits => hwaits.elim

lemma waits_update {os : SchedState} {phase : Nat → MutexPhase} {procIdx other : Nat}
    {next : MutexPhase} (hwaits : Waits os other (update phase procIdx next other)) :
    other = procIdx ∧ Waits os procIdx next ∨ other ≠ procIdx ∧ Waits os other (phase other) := by
  rcases eq_or_ne other procIdx with rfl | hne
  · rw [update_self] at hwaits
    exact .inl ⟨rfl, hwaits⟩
  · rw [update_of_ne hne] at hwaits
    exact .inr ⟨hne, hwaits⟩

lemma Served.not_waits_of_free (hs : s.Served) (hfree : s.locked ≠ true) (procIdx : Nat) :
    ¬Waits s.os procIdx (s.phase procIdx) :=
  fun hwaits => hfree (hs.waiting procIdx hwaits).2.2

variable {procIdx : Nat}

lemma Served.tryLock (hs : s.Served)
    (hcurrent : s.os.sched.currentProc = some procIdx) : (s.tryLock procIdx).Served := by
  unfold MutexSystem.tryLock
  split
  · refine ⟨hs.inv, fun other hwaits => ?_⟩
    rw [setPhase_phase] at hwaits
    rcases waits_update hwaits with ⟨_, hblocked⟩ | ⟨_, hwaits⟩
    · exact absurd hblocked (hs.inv.not_taskBlocked_current hcurrent)
    · exact hs.waiting other hwaits
  next hfree =>
    refine ⟨hs.inv, fun other hwaits => ?_⟩
    rw [setPhase_phase] at hwaits
    rcases waits_update hwaits with ⟨_, hwaits⟩ | ⟨_, hwaits⟩
    · exact hwaits.elim
    · exact absurd hwaits (hs.not_waits_of_free hfree other)

lemma Served.registerWaiter (hs : s.Served) (hkeeps : s.locked →
      procIdx ≠ 0 ∧ ∀ other ≠ procIdx, ¬Waits s.os other (s.phase other)) :
    (s.registerWaiter procIdx).Served := by
  unfold MutexSystem.registerWaiter
  split
  next hlocked =>
    obtain ⟨hindex, halone⟩ := hkeeps hlocked
    refine ⟨hs.inv, fun other hwaits => ?_⟩
    rw [setPhase_phase] at hwaits
    rcases waits_update hwaits with ⟨rfl, _⟩ | ⟨hne, hwaits⟩
    · exact ⟨rfl, hindex, hlocked⟩
    · exact absurd hwaits (halone other hne)
  next hfree =>
    refine ⟨hs.inv, fun other hwaits => ?_⟩
    rw [setPhase_phase] at hwaits
    rcases waits_update hwaits with ⟨_, hwaits⟩ | ⟨_, hwaits⟩
    · exact hwaits.elim
    · exact absurd hwaits (hs.not_waits_of_free hfree other)

lemma Served.block (hs : s.Served) (hcurrent : s.os.sched.currentProc = some procIdx)
    (hphase : s.phase procIdx = .registered) :
    ({ s with os := s.os.scheduleBlock }.setPhase procIdx .contending).Served := by
  refine ⟨scheduleBlock_inv hs.inv, fun other hwaits => ?_⟩
  rw [setPhase_phase] at hwaits
  rcases waits_update hwaits with ⟨rfl, _⟩ | ⟨hne, hwaits⟩
  · exact hs.waiting other (by rw [hphase]; trivial)
  · refine hs.waiting other (hwaits.mono fun hblocked => ?_)
    refine (hs.inv.taskBlocked_scheduleBlock hblocked).resolve_right fun hother => ?_
    exact hne (some.inj (hother.symm.trans hcurrent))

lemma wakeWaiter_inv (hs : s.os.Inv) : s.wakeWaiter.Inv := by
  unfold wakeWaiter
  split
  · exact wakeTask_inv hs _
  · exact hs

lemma taskBlocked_wakeWaiter (hs : s.os.Inv) (hblocked : s.wakeWaiter.TaskBlocked procIdx) :
    s.os.TaskBlocked procIdx ∧ (s.waiter ≠ 0 → procIdx ≠ s.waiter) := by
  unfold wakeWaiter at hblocked
  split at hblocked
  · exact (hs.taskBlocked_wakeTask hblocked).imp_right fun hne _ => hne
  next hnone => exact ⟨hblocked, fun hwaiter => absurd hwaiter hnone⟩

lemma Served.release (hs : s.Served)
    (hkeeps : s.waiter ≠ 0 → s.phase s.waiter ≠ .registered) : (s.release procIdx).Served := by
  refine ⟨wakeWaiter_inv hs.inv, fun other hwaits => ?_⟩
  unfold MutexSystem.release at hwaits
  rw [setPhase_phase] at hwaits
  rcases waits_update hwaits with ⟨_, hwaits⟩ | ⟨_, hwaits⟩
  · exact hwaits.elim
  · change Waits s.wakeWaiter other (s.phase other) at hwaits
    have hbefore := hwaits.mono fun hblocked => (taskBlocked_wakeWaiter hs.inv hblocked).1
    obtain ⟨rfl, hindex, _⟩ := hs.waiting other hbefore
    cases hphase : s.phase s.waiter with
    | contending =>
      rw [hphase] at hwaits
      exact absurd rfl ((taskBlocked_wakeWaiter hs.inv hwaits).2 hindex)
    | registered => exact absurd hphase (hkeeps hindex)
    | outside | holding =>
      rw [hphase] at hwaits
      exact hwaits.elim

lemma Served.os (hs : s.Served) {op : SchedOp} (hlegal : s.Legal (.os op)) :
    Served { s with os := s.os.apply op } := by
  have hstep : s.os.Step op (s.os.apply op) := ⟨hlegal.1, rfl⟩
  refine ⟨hstep.inv hs.inv, fun other hwaits => hs.waiting other ?_⟩
  change Waits (s.os.apply op) other (s.phase other) at hwaits
  cases hphase : s.phase other with
  | contending =>
    rw [hphase] at hwaits
    refine (hstep.taskBlocked hs.inv hwaits).resolve_right ?_
    rintro ⟨hgives, hcurrent⟩
    have hmay := hlegal.2 other hcurrent
    rw [hphase] at hmay
    cases op <;> simp [SchedOp.gives, mayCall] at hgives hmay
  | registered | outside | holding =>
    rw [hphase] at hwaits
    exact hwaits

lemma Effect.served (heffect : Effect s event next)
    (hs : s.Served) (hlegal : s.Legal event) (hkeeps : s.Keeps event) : next.Served := by
  cases heffect with
  | none => exact hs
  | attempt hcurrent _ => exact hs.tryLock hcurrent
  | register hcurrent hphase =>
    have hkeep := hkeeps _ hcurrent
    rw [hphase] at hkeep
    exact hs.registerWaiter hkeep
  | block hcurrent hphase => exact hs.block hcurrent hphase
  | unlock hcurrent hphase =>
    have hkeep := hkeeps _ hcurrent
    rw [hphase] at hkeep
    exact hs.release hkeep
  | os op => exact hs.os hlegal

def Step : MutexSystem → MutexEvent → MutexSystem → Prop :=
  Guarded Legal apply

lemma Served.not_stranded (hs : s.Served) : ¬s.Stranded := by
  rintro ⟨hfree, _, procIdx, hphase, hblocked⟩
  refine hs.not_waits_of_free (by simp [hfree]) procIdx ?_
  rw [hphase]
  exact hblocked

lemma held_boot : Held boot.locked boot.phase where
  unique := fun _ _ hfirst => by cases hfirst
  locked_iff := by
    refine iff_of_false Bool.false_ne_true ?_
    rintro ⟨_, hholding⟩
    cases hholding

/-- In every run at most one process holds the mutex; and in every run whose steps
leave each waiter its registration until it has blocked, nobody is stranded. -/
theorem run_exclusive_and_not_stranded {events : List MutexEvent} {s : MutexSystem}
    (hrun : Run Step boot events s) :
    s.Exclusive ∧ (Allowed Keeps apply boot events → ¬s.Stranded) := by
  constructor
  · have hstep : ∀ s event next, Held s.locked s.phase → Step s event next →
        Held next.locked next.phase := by
      rintro s event _ hs ⟨_, rfl⟩
      exact (apply_effect s event).held hs
    exact (hrun.invariant hstep held_boot).unique
  · intro hkeeps
    have hstep : ∀ s event, Served s → s.Legal event → s.Keeps event → (s.apply event).Served :=
      fun s event hs => (apply_effect s event).served hs
    exact (hrun.invariant_of_allowed hstep hkeeps served_boot).not_stranded

instance (s : MutexSystem) (event : MutexEvent) : Decidable (s.Legal event) := by
  unfold Legal
  split <;> infer_instance

instance (s : MutexSystem) (procIdx : Nat) :
    Decidable (∀ other, other ≠ procIdx → ¬Waits s.os other (s.phase other)) :=
  decidable_of_iff
    (∀ other ∈ s.phases.keys, other ≠ procIdx → ¬Waits s.os other (s.phase other))
    (TotalMap.forall_get_iff (fun other phase => other ≠ procIdx → ¬Waits s.os other phase)
      fun _ _ => id)

instance (s : MutexSystem) (procIdx : Nat) (event : MutexEvent) (phase : MutexPhase) :
    Decidable (s.keepsAt procIdx event phase) := by
  unfold keepsAt
  split <;> infer_instance

instance (s : MutexSystem) (event : MutexEvent) : Decidable (s.Keeps event) :=
  inferInstanceAs (Decidable (∀ procIdx ∈ s.os.sched.currentProc, _))

instance (os : SchedState) (procIdx : Nat) (phase : MutexPhase) :
    Decidable (Between os procIdx phase) := by
  unfold Between
  split <;> infer_instance

instance (s : MutexSystem) : Decidable (∀ procIdx, ¬Between s.os procIdx (s.phase procIdx)) :=
  decidable_of_iff (∀ procIdx ∈ s.phases.keys, ¬Between s.os procIdx (s.phase procIdx))
    (TotalMap.forall_get_iff (fun procIdx phase => ¬Between s.os procIdx phase) fun _ => id)

def after (events : List MutexEvent) : MutexSystem :=
  events.foldl apply boot

/-- Process 8 waits while process 7 holds the mutex, and gets it after 7. -/
def waiterServed : List MutexEvent :=
  [.os (.allocateUserSlot 7), .os (.allocateUserSlot 8), .os .schedule, .attempt,
    .os .scheduleBlock, .attempt, .register, .block, .os (.wakeTask 7), .os .schedule, .unlock,
    .os .schedule, .os .schedule, .os .schedule, .register]

theorem run_exclusive_and_not_stranded_waiterServed :
    (after waiterServed).phase 8 = .holding ∧ (after waiterServed).Exclusive ∧
      ¬(after waiterServed).Stranded := by
  have hrun : Run Step boot waiterServed (after waiterServed) :=
    Run.of_allowed (by decide)
  obtain ⟨hexclusive, hserved⟩ := run_exclusive_and_not_stranded hrun
  exact ⟨by decide, hexclusive, hserved (by decide)⟩

/-- Processes 8 and 9 wait for process 7, and the registration of 8 is overwritten. -/
def secondWaiter : List MutexEvent :=
  [.os (.allocateUserSlot 7), .os (.allocateUserSlot 8), .os (.allocateUserSlot 9), .os .schedule,
    .attempt, .os .scheduleBlock, .attempt, .register, .block, .attempt, .register, .block,
    .os (.wakeTask 7), .os .schedule, .unlock, .os .schedule, .os .schedule, .os .schedule,
    .register, .unlock]

def waiterZero : List MutexEvent :=
  [.os (.allocateUserSlot 7), .os (.allocateUserSlot 0), .os .schedule, .attempt,
    .os .scheduleBlock, .attempt, .register, .block, .os (.wakeTask 7), .os .schedule, .unlock]

/-- Process 7 releases the mutex after process 8 has registered and before it blocks. -/
def unlockBeforeBlock : List MutexEvent :=
  [.os (.allocateUserSlot 7), .os (.allocateUserSlot 8), .os .schedule, .attempt,
    .os .scheduleBlock, .attempt, .register, .os (.wakeTask 7), .os .schedule, .os .schedule,
    .os .schedule, .unlock, .os .schedule, .os .schedule, .os .schedule, .block]

theorem waiters_stranded :
    (Run Step boot secondWaiter (after secondWaiter) ∧ (after secondWaiter).Stranded) ∧
      (Run Step boot waiterZero (after waiterZero) ∧ (after waiterZero).Stranded) ∧
      Run Step boot unlockBeforeBlock (after unlockBeforeBlock) ∧
        (after unlockBeforeBlock).Stranded := by
  refine ⟨⟨Run.of_allowed (by decide), ?_⟩, ⟨Run.of_allowed (by decide), ?_⟩,
    Run.of_allowed (by decide), ?_⟩
  · exact ⟨by decide, by decide, 8, by decide, by decide⟩
  · exact ⟨by decide, by decide, 0, by decide, by decide⟩
  · exact ⟨by decide, by decide, 8, by decide, by decide⟩

end MutexSystem

end KarteOs.Sync

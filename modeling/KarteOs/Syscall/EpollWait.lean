import KarteOs.Foundation.TotalMap
import KarteOs.Sched.Blocking
import KarteOs.Syscall.Epoll

/-! # Waiting on an epoll instance

`epoll_wait` collects, registers the thread as a waiter, collects again and blocks
until it is woken; a woken thread collects, and blocks again if it finds nothing.
`eventfd_write` adds to the counter and then wakes and forgets all waiters of the
instance. The theorem says under which conditions no wake-up is lost.
-/

namespace KarteOs.Syscall.Epoll

open Driver Sched Transition Function OrderedMap SchedState EpollState EpollEntry List

/-! ## What an empty collection says -/

variable {env : Environment} {table : FdTable} {s next : EpollState} {epfd maxEvents : Nat}
  {desc : FileDescriptor} {entries : List (Nat × EpollEntry)} {ready : List (UInt32 × UInt64)}

/-- Between the two states timers were reset and nothing else was signalled or taken. -/
structure Settles (s next : EpollState) : Prop where
  eventfds : next.eventfds = s.eventfds
  timerfds : ∀ fd, next.timerfds fd = true → s.timerfds fd = true

lemma Settles.refl (s : EpollState) : Settles s s := ⟨rfl, fun _ => id⟩

lemma Settles.trans {middle : EpollState} (hfirst : Settles s middle)
    (hsecond : Settles middle next) : Settles s next :=
  ⟨hsecond.eventfds.trans hfirst.eventfds,
    fun fd hset => hfirst.timerfds fd (hsecond.timerfds fd hset)⟩

lemma settles_resetTimer (env : Environment) (table : FdTable) (s : EpollState) (fd : Nat)
    (entry : EpollEntry) : Settles s (resetTimer env s table fd entry) :=
  ⟨resetTimer_eventfds, fun _ => resetTimer_timerfds_le⟩

lemma settles_collectLoop : Settles s (collectLoop env table maxEvents entries s ready).2.1 := by
  induction entries generalizing s ready with
  | nil => exact .refl s
  | cons head rest ih =>
    rw [collectLoop]
    split
    · exact .refl s
    · exact (settles_resetTimer ..).trans ih

lemma Settles.isReadable_eq (hsettles : Settles s next) (htimer : desc.fdType ≠ .timerfd) :
    isReadable env next desc = isReadable env s desc := by
  unfold isReadable eventfdPeek
  rw [hsettles.eventfds]
  split
  · rfl
  · rfl
  · rfl
  next htype => exact absurd htype htimer
  · rfl

lemma Settles.isReadable (hsettles : Settles s next)
    (hreadable : isReadable env next desc) : isReadable env s desc := by
  by_cases htimer : desc.fdType = .timerfd
  · simp only [Epoll.isReadable, htimer] at hreadable ⊢
    exact hsettles.timerfds _ hreadable
  · rwa [← hsettles.isReadable_eq htimer]

variable {fd : Nat}

lemma Settles.revents_eq (hsettles : Settles s next) (entry : EpollEntry)
    (htimer : ∀ desc, table.get fd = some desc → desc.fdType ≠ .timerfd) :
    revents env next table fd entry = revents env s table fd entry := by
  unfold revents
  split
  next desc hdesc => rw [openRevents, openRevents, hsettles.isReadable_eq (htimer desc hdesc)]
  · rfl

lemma examine_eq_nil_iff (entry : EpollEntry) (now : UInt32) :
    (examine entry now).2 = [] ↔ suppressed entry now ∨ now = 0 := by
  unfold examine
  split
  next hsuppressed => simp [hsuppressed]
  next hsuppressed =>
    by_cases hzero : now = 0
    · simp [hzero]
    · simp [hsuppressed, hzero]

variable {entry : EpollEntry}

lemma collectLoop_eq_nil (hmax : 0 < maxEvents)
    (hempty : (collectLoop env table maxEvents entries s []).2.2 = [])
    (hentry : (fd, entry) ∈ entries) :
    ∃ middle, Settles s middle ∧ Settles middle (collectLoop env table maxEvents entries s []).2.1 ∧
      (suppressed entry (revents env middle table fd entry) ∨
        revents env middle table fd entry = 0) := by
  induction entries generalizing s with
  | nil => cases hentry
  | cons head rest ih =>
    rw [collectLoop, if_neg (by simpa using hmax.ne')] at hempty ⊢
    have hpass : (examine head.2 (revents env s table head.1 head.2)).2 = [] := by
      refine eq_nil_iff_forall_not_mem.mpr fun event hevent => ?_
      exact not_mem_nil (hempty ▸ mem_collectLoop_of_mem (mem_append_right [] hevent))
    dsimp only at hempty ⊢
    rw [hpass, append_nil] at hempty ⊢
    rcases mem_cons.mp hentry with rfl | hrest
    · exact ⟨s, .refl s, (settles_resetTimer ..).trans settles_collectLoop,
        (examine_eq_nil_iff ..).mp hpass⟩
    · obtain ⟨middle, hbefore, hafter, hnothing⟩ := ih hempty hrest
      exact ⟨middle, (settles_resetTimer ..).trans hbefore, hafter, hnothing⟩

lemma event_of_mem_collectLoop
    (hentry : (fd, entry) ∈ (collectLoop env table maxEvents entries s ready).1) :
    ∃ before, (fd, before) ∈ entries ∧ before.event = entry.event := by
  induction entries generalizing s ready with
  | nil => cases hentry
  | cons head rest ih =>
    rw [collectLoop] at hentry
    split at hentry
    · exact ⟨entry, hentry, rfl⟩
    · rcases mem_cons.mp hentry with heq | hrest
      · cases heq
        refine ⟨head.2, .head _, ?_⟩
        unfold examine
        split <;> rfl
      · obtain ⟨before, hbefore, hevent⟩ := ih hrest
        exact ⟨before, mem_cons_of_mem _ hbefore, hevent⟩

lemma registered_collect
    (hentry : Registered (collectReadyEvents env table s epfd maxEvents).1 epfd fd entry) :
    ∃ before, Registered s epfd fd before ∧ before.event = entry.event := by
  cases hinstance : s.instances epfd with
  | none =>
    rw [collectReadyEvents_none hinstance] at hentry
    exact ⟨entry, hentry, rfl⟩
  | some found =>
    obtain ⟨_, hcollect⟩ := collectReadyEvents_some env table maxEvents hinstance
    rw [hcollect] at hentry
    obtain ⟨_, hsame, hget⟩ := hentry
    rw [setInstance_instances, update_self] at hsame
    cases hsame
    obtain ⟨before, hbefore, hevent⟩ := event_of_mem_collectLoop (get_eq_some_iff.mp hget)
    exact ⟨before, ⟨found, hinstance, get_eq_some_iff.mpr hbefore⟩, hevent⟩

lemma settles_collect : Settles s (collectReadyEvents env table s epfd maxEvents).1 := by
  cases hinstance : s.instances epfd with
  | none =>
    rw [collectReadyEvents_none hinstance]
    exact .refl s
  | some found =>
    obtain ⟨_, hcollect⟩ := collectReadyEvents_some env table maxEvents hinstance
    rw [hcollect]
    exact ⟨settles_collectLoop.eventfds, settles_collectLoop.timerfds⟩

/-- A level-triggered entry of the instance whose descriptor is readable. -/
def LevelReadable (env : Environment) (table : FdTable) (s : EpollState) (epfd : Nat) : Prop :=
  ∃ fd entry desc, Registered s epfd fd entry ∧ ¬entry.EdgeTriggered ∧ entry.WatchesInput ∧
    table.get fd = some desc ∧ isReadable env s desc = true

lemma levelReadable_iff : LevelReadable env table s epfd ↔
    ∃ entries ∈ s.instances epfd, ∃ entry ∈ entries.entries, ¬entry.2.EdgeTriggered ∧
      entry.2.WatchesInput ∧ ∃ desc ∈ table.get entry.1, isReadable env s desc := by
  constructor
  · rintro ⟨fd, entry, desc, ⟨entries, hinstance, hget⟩, hlevel, hinput, hdesc, hreadable⟩
    exact ⟨entries, hinstance, (fd, entry), get_eq_some_iff.mp hget, hlevel, hinput,
      desc, hdesc, hreadable⟩
  · rintro ⟨entries, hinstance, ⟨fd, entry⟩, hmem, hlevel, hinput, desc, hdesc, hreadable⟩
    exact ⟨fd, entry, desc, ⟨entries, hinstance, get_eq_some_iff.mpr hmem⟩, hlevel,
      hinput, hdesc, hreadable⟩

instance (env : Environment) (table : FdTable) (s : EpollState) (epfd : Nat) :
    Decidable (LevelReadable env table s epfd) :=
  decidable_of_iff _ levelReadable_iff.symm

lemma LevelReadable.of_collect
    (hready : LevelReadable env table (collectReadyEvents env table s epfd maxEvents).1 epfd) :
    LevelReadable env table s epfd := by
  obtain ⟨fd, entry, desc, hentry, hlevel, hinput, hdesc, hreadable⟩ := hready
  obtain ⟨before, hbefore, hevent⟩ := registered_collect hentry
  refine ⟨fd, before, desc, hbefore, ?_, ?_, hdesc, settles_collect.isReadable hreadable⟩
  · rwa [EdgeTriggered, hevent]
  · rwa [WatchesInput, hevent]

lemma openRevents_ne_zero (hinput : entry.WatchesInput)
    (hreadable : isReadable env s desc) : openRevents env s entry desc ≠ 0 := by
  rw [openRevents, if_pos ⟨hinput, hreadable⟩]
  split <;> decide

lemma not_levelReadable_of_collect (hmax : 0 < maxEvents)
    (hempty : (collectReadyEvents env table s epfd maxEvents).2 = .ok []) :
    ¬LevelReadable env table (collectReadyEvents env table s epfd maxEvents).1 epfd := by
  rintro ⟨fd, entry, desc, hentry, hlevel, hinput, hdesc, hreadable⟩
  obtain ⟨before, ⟨found, hinstance, hget⟩, hevent⟩ := registered_collect hentry
  obtain ⟨_, hcollect⟩ := collectReadyEvents_some env table maxEvents hinstance
  rw [hcollect] at hempty hreadable
  obtain ⟨middle, _, hafter, hnothing⟩ := collectLoop_eq_nil hmax (Except.ok.inj hempty)
    (get_eq_some_iff.mp hget)
  rw [revents, hdesc] at hnothing
  rcases hnothing with ⟨hedge, _⟩ | hzero
  · exact hlevel (by rwa [EdgeTriggered, ← hevent])
  · refine openRevents_ne_zero ?_ (hafter.isReadable hreadable) hzero
    rwa [WatchesInput, hevent]

/-- An entry for something other than a timer has an event that is not suppressed. -/
def Reportable (env : Environment) (table : FdTable) (s : EpollState) (epfd : Nat) : Prop :=
  ∃ entries ∈ s.instances epfd, ∃ entry ∈ entries.entries,
    (∀ desc ∈ table.get entry.1, desc.fdType ≠ .timerfd) ∧ revents env s table entry.1 entry.2 ≠ 0 ∧
      ¬suppressed entry.2 (revents env s table entry.1 entry.2)
deriving Decidable

lemma Reportable.collect_ne (hreportable : Reportable env table s epfd) (hmax : 0 < maxEvents) :
    (collectReadyEvents env table s epfd maxEvents).2 ≠ .ok [] := by
  intro hempty
  obtain ⟨entries, hinstance, ⟨fd, entry⟩, hentry, htimer, hevents, hfresh⟩ := hreportable
  obtain ⟨_, hcollect⟩ := collectReadyEvents_some env table maxEvents hinstance
  rw [hcollect] at hempty
  obtain ⟨middle, hbefore, _, hnothing⟩ := collectLoop_eq_nil hmax (Except.ok.inj hempty) hentry
  rw [hbefore.revents_eq entry htimer] at hnothing
  exact hnothing.elim hfresh hevents

def LevelRefers (table : FdTable) (s : EpollState) (epfd source : Nat) : Prop :=
  ∃ entries ∈ s.instances epfd, ∃ entry ∈ entries.entries,
    ¬entry.2.EdgeTriggered ∧ entry.2.WatchesInput ∧
      ∃ desc ∈ table.get entry.1, desc.fdType = .eventfd ∧ desc.fdNum = source
deriving Decidable

lemma isReadable_of_eventfds (hreadable : isReadable env next desc)
    (htimers : next.timerfds = s.timerfds)
    (hcount : desc.fdType = .eventfd → 0 < next.eventfdPeek desc.fdNum →
      0 < s.eventfdPeek desc.fdNum) : isReadable env s desc := by
  by_cases htype : desc.fdType = .eventfd
  · simp only [isReadable, htype, decide_eq_true_eq] at hreadable ⊢
    exact hcount htype hreadable
  · unfold isReadable timerfdPeek at hreadable ⊢
    rw [htimers] at hreadable
    split at hreadable
    · exact hreadable
    · exact hreadable
    next heventfd => exact absurd heventfd htype
    · exact hreadable
    · exact hreadable

lemma LevelReadable.of_read {len : Nat}
    (hready : LevelReadable env table (eventfdRead s fd len).1 epfd) :
    LevelReadable env table s epfd := by
  obtain ⟨_, hfails⟩ | ⟨_, _, hnext⟩ := eventfdRead_cases (s.eventfds fd) fd len
  · rwa [hfails s rfl] at hready
  · rw [hnext s rfl] at hready
    obtain ⟨watched, entry, desc, hentry, hlevel, hinput, hdesc, hreadable⟩ := hready
    refine ⟨watched, entry, desc, hentry, hlevel, hinput, hdesc, ?_⟩
    refine isReadable_of_eventfds hreadable rfl fun _ hcount => ?_
    unfold eventfdPeek at hcount ⊢
    rcases eq_or_ne desc.fdNum fd with heq | hne
    · simp [heq] at hcount
    · simpa [hne] using hcount

lemma LevelReadable.of_write {len val : Nat}
    (hready : LevelReadable env table (eventfdWrite s fd len val).1 epfd) :
    LevelReadable env table s epfd ∨ LevelRefers table s epfd fd := by
  obtain ⟨_, _, hfails⟩ | ⟨counter, _, hnext⟩ := eventfdWrite_cases (s.eventfds fd) fd len val
  · rw [hfails s rfl] at hready
    exact .inl hready
  · rw [hnext s rfl] at hready
    obtain ⟨watched, entry, desc, ⟨entries, hinstance, hget⟩, hlevel, hinput, hdesc, hreadable⟩ :=
      hready
    by_cases hrefers : desc.fdType = .eventfd ∧ desc.fdNum = fd
    · exact .inr ⟨entries, hinstance, (watched, entry), get_eq_some_iff.mp hget, hlevel,
        hinput, desc, hdesc, hrefers⟩
    · refine .inl ⟨watched, entry, desc, ⟨entries, hinstance, hget⟩, hlevel, hinput, hdesc, ?_⟩
      refine isReadable_of_eventfds hreadable rfl fun htype hcount => ?_
      have hne : desc.fdNum ≠ fd := fun heq => hrefers ⟨htype, heq⟩
      unfold eventfdPeek at hcount ⊢
      simpa [hne] using hcount

/-- The arguments of a call that has passed the first checks. -/
structure WaitCall where
  maxEvents : Nat
  timeout : Int
  accepted : 0 < maxEvents ∧ maxEvents ≤ 1024
deriving DecidableEq

def WaitCall.deadline (call : WaitCall) (now : Nat) : Option Nat :=
  if 0 < call.timeout then some (min (now + call.timeout.toNat) u64Max) else none

/-- Where a thread stands in `epoll_wait` or `eventfd_write`. -/
inductive WaitPhase
  | outside
  /-- The first collection found nothing. -/
  | polled (call : WaitCall)
  | registered (call : WaitCall)
  /-- The last collection found nothing, and the thread is about to block. -/
  | waiting (call : WaitCall) (deadline : Option Nat)
  /-- In `schedule_block` or `sleep_until`, or just back from it. -/
  | asleep (call : WaitCall) (deadline : Option Nat)
  /-- About to unregister and return. -/
  | leaving
  /-- The counter is updated, and the waiters are not woken yet. -/
  | notifying (fd : Nat)
deriving DecidableEq

instance : Inhabited WaitPhase := ⟨.outside⟩

/-- The thread waits without a deadline: it will not go on before it is woken. -/
def Awaits (os : SchedState) (procIdx : Nat) : WaitPhase → Prop
  | .waiting _ none => True
  | .asleep _ none => os.TaskBlocked procIdx
  | _ => False

lemma Awaits.mono {os next : SchedState} {procIdx : Nat} {phase : WaitPhase}
    (hawaits : Awaits next procIdx phase)
    (hblocked : next.TaskBlocked procIdx → os.TaskBlocked procIdx) : Awaits os procIdx phase := by
  cases phase with
  | asleep call deadline =>
    cases deadline with
    | none => exact hblocked hawaits
    | some _ => exact hawaits
  | waiting call deadline => cases deadline <;> exact hawaits
  | outside | polled | registered | leaving | notifying => exact hawaits

def Underway (os : SchedState) (procIdx : Nat) : WaitPhase → Prop
  | .outside => False
  | .asleep .. => ¬os.TaskBlocked procIdx
  | _ => True

structure WaitSystem where
  os : SchedState
  epoll : EpollState
  /-- The waiters of the instance. -/
  waiters : List Nat
  phases : TotalMap Nat WaitPhase

/-- The instance the threads share, their descriptors, and what the other descriptors answer. -/
structure Watch where
  env : Environment
  table : FdTable
  epfd : Nat

inductive WaitEvent
  | enter (eventsPtr maxEvents : Nat) (timeout : Int)
  | register
  | recheck (now : Nat)
  | block (now : Nat)
  | leave
  | write (fd len val : Nat)
  | notify
  | read (fd len : Nat)
  | os (op : SchedOp)

namespace WaitSystem

def boot (epoll : EpollState) : WaitSystem := ⟨.init, epoll, [], .empty⟩

def phase (s : WaitSystem) : Nat → WaitPhase :=
  s.phases.get

def setPhase (s : WaitSystem) (procIdx : Nat) (phase : WaitPhase) : WaitSystem :=
  { s with phases := s.phases.set procIdx phase }

lemma setPhase_phase (s : WaitSystem) (procIdx : Nat) (phase : WaitPhase) :
    (s.setPhase procIdx phase).phase = update s.phase procIdx phase :=
  s.phases.set_get procIdx phase

variable (watch : Watch)

section
variable (s : WaitSystem)

section
variable (procIdx : Nat)

def collect (maxEvents : Nat) (ifNone otherwise : WaitPhase) :
    WaitSystem :=
  let result := collectReadyEvents watch.env watch.table s.epoll watch.epfd maxEvents
  { s with epoll := result.1 }.setPhase procIdx
    (match result.2 with
      | .ok [] => ifNone
      | _ => otherwise)

def enter (eventsPtr maxEvents : Nat) (timeout : Int) : WaitSystem :=
  if haccepted : 0 < maxEvents ∧ maxEvents ≤ 1024 then
    if eventsPtr = 0 then s
    else if timeout = 0 then s.collect watch procIdx maxEvents .outside .outside
    else s.collect watch procIdx maxEvents (.polled ⟨maxEvents, timeout, haccepted⟩) .outside
  else s

def registerWaiter (call : WaitCall) : WaitSystem :=
  { s with waiters := if procIdx ∈ s.waiters then s.waiters else s.waiters ++ [procIdx] }.setPhase
    procIdx (.registered call)

/-- Collect after a wake-up; without events the loop goes on unless the deadline has passed. -/
def recollect (now : Nat) (call : WaitCall) (deadline : Option Nat) :
    WaitSystem :=
  s.collect watch procIdx call.maxEvents
    (if deadline.any (· ≤ now) then .leaving else .waiting call deadline) .leaving

def block (now : Nat) (call : WaitCall) : Option Nat → WaitSystem
  | none => { s with os := s.os.scheduleBlock }.setPhase procIdx (.asleep call none)
  | some wakeTick =>
    if wakeTick ≤ now then s.setPhase procIdx .leaving
    else
      { s with os := s.os.sleepUntil now wakeTick }.setPhase procIdx (.asleep call wakeTick)

def unregisterWaiter : WaitSystem :=
  { s with waiters := s.waiters.filter (· ≠ procIdx) }.setPhase procIdx .outside

/-- The update of `eventfd_write`; a call that fails returns without waking anybody. -/
def write (fd len val : Nat) : WaitSystem :=
  let result := eventfdWrite s.epoll fd len val
  { s with epoll := result.1 }.setPhase procIdx (if result.2 = 8 then .notifying fd else .outside)

end

def Contains (fd : Nat) : Prop :=
  ∃ entries ∈ s.epoll.instances watch.epfd, (entries.get fd).isSome = true
deriving Decidable

def wakeWaitersForFd (procIdx fd : Nat) : WaitSystem :=
  if s.Contains watch fd then
    { s with os := s.os.wakeTasks s.waiters, waiters := [] }.setPhase procIdx .outside
  else s.setPhase procIdx .outside

/-- The step of a thread; an event that does not fit its phase has no effect. -/
def stepOf (procIdx : Nat) : WaitEvent → WaitPhase → Option WaitSystem
  | .enter eventsPtr maxEvents timeout, .outside =>
    some (s.enter watch procIdx eventsPtr maxEvents timeout)
  | .register, .polled call => some (s.registerWaiter procIdx call)
  | .recheck now, .registered call =>
    some (s.collect watch procIdx call.maxEvents (.waiting call (call.deadline now)) .leaving)
  | .recheck now, .asleep call deadline => some (s.recollect watch procIdx now call deadline)
  | .block now, .waiting call deadline => some (s.block procIdx now call deadline)
  | .leave, .leaving => some (s.unregisterWaiter procIdx)
  | .write fd len val, .outside => some (s.write procIdx fd len val)
  | .notify, .notifying fd => some (s.wakeWaitersForFd watch procIdx fd)
  | .read fd len, .outside => some { s with epoll := (eventfdRead s.epoll fd len).1 }
  | _, _ => none

def apply (event : WaitEvent) : WaitSystem :=
  match event with
  | .os op => { s with os := s.os.apply op }
  | event => s.os.onCurrent s fun procIdx => s.stepOf watch procIdx event (s.phase procIdx)

/-- A thread sleeps or blocks for another reason, or ends, only outside these calls. -/
def Legal : WaitEvent → Prop
  | .os op =>
    s.os.Legal op ∧ ∀ procIdx ∈ s.os.sched.currentProc, op.gives = true → s.phase procIdx = .outside
  | _ => True

/-- All started steps have finished, and a thread is blocked in `epoll_wait` without a
deadline while a level-triggered entry of the instance is readable. -/
def Stranded : Prop :=
  (∀ procIdx, ¬Underway s.os procIdx (s.phase procIdx)) ∧
    (∃ procIdx call, s.phase procIdx = .asleep call none ∧ s.os.TaskBlocked procIdx) ∧
    LevelReadable watch.env watch.table s.epoll watch.epfd

end

/-! ## When no wake-up is lost -/

def aboutToBlock : WaitPhase → Bool
  | .waiting _ none => true
  | _ => false

/-- A thread that looks for events without a deadline is still registered, or there is one;
a writer wakes no thread that is just about to block; and an eventfd that an entry refers
to has an entry under its own number. -/
def keepsAt (s : WaitSystem) (procIdx : Nat) : WaitEvent → WaitPhase → Prop
  | .recheck _, .registered call => call.timeout ≤ 0 →
      procIdx ∈ s.waiters ∨ Reportable watch.env watch.table s.epoll watch.epfd
  | .recheck _, .asleep _ none =>
    procIdx ∈ s.waiters ∨ Reportable watch.env watch.table s.epoll watch.epfd
  | .notify, .notifying fd =>
    s.Contains watch fd → ∀ waiter ∈ s.waiters, aboutToBlock (s.phase waiter) = false
  | .write fd _ _, .outside =>
    LevelRefers watch.table s.epoll watch.epfd fd → s.Contains watch fd
  | _, _ => True

def Keeps (s : WaitSystem) (event : WaitEvent) : Prop :=
  ∀ procIdx ∈ s.os.sched.currentProc, s.keepsAt watch procIdx event (s.phase procIdx)

def Covered (s : WaitSystem) : Prop :=
  LevelReadable watch.env watch.table s.epoll watch.epfd →
    ∃ writer fd, s.phase writer = .notifying fd ∧ s.Contains watch fd

/-- Whoever waits is registered, and a wake-up is on its way if there is something to collect. -/
structure Served (s : WaitSystem) : Prop where
  inv : s.os.Inv
  awaiting : ∀ procIdx, Awaits s.os procIdx (s.phase procIdx) →
    procIdx ∈ s.waiters ∧ s.Covered watch

lemma served_boot (epoll : EpollState) : Served watch (boot epoll) where
  inv := init_inv
  awaiting := fun _ hawaits => hawaits.elim

variable {watch} {s next : WaitSystem} {procIdx maxEvents : Nat} {ph ifNone otherwise : WaitPhase}

lemma Covered.move (hcovered : s.Covered watch) (hphase : next.phase = update s.phase procIdx ph)
    (hwriter : ∀ fd, s.phase procIdx ≠ .notifying fd)
    (hready : LevelReadable watch.env watch.table next.epoll watch.epfd →
      LevelReadable watch.env watch.table s.epoll watch.epfd)
    (hcontains : ∀ fd, s.Contains watch fd → next.Contains watch fd) : next.Covered watch := by
  intro hnext
  obtain ⟨writer, fd, hwrites, hfd⟩ := hcovered (hready hnext)
  have hne : writer ≠ procIdx := by
    rintro rfl
    exact hwriter fd hwrites
  exact ⟨writer, fd, by rw [hphase, update_of_ne hne, hwrites], hcontains fd hfd⟩

lemma Served.move (hs : s.Served watch) (hinv : next.os.Inv)
    (hphase : next.phase = update s.phase procIdx ph)
    (hself : Awaits next.os procIdx ph → procIdx ∈ next.waiters ∧ next.Covered watch)
    (hothers : ∀ other ≠ procIdx, next.os.TaskBlocked other → s.os.TaskBlocked other)
    (hwaiters : ∀ other ≠ procIdx, other ∈ s.waiters → other ∈ next.waiters)
    (hcovered : s.Covered watch → next.Covered watch) : next.Served watch := by
  refine ⟨hinv, fun other hawaits => ?_⟩
  rw [hphase] at hawaits
  rcases eq_or_ne other procIdx with rfl | hne
  · rw [update_self] at hawaits
    exact hself hawaits
  · rw [update_of_ne hne] at hawaits
    obtain ⟨hmem, hbefore⟩ := hs.awaiting other (hawaits.mono (hothers other hne))
    exact ⟨hwaiters other hne hmem, hcovered hbefore⟩

lemma contains_of_instances (hsame : next.epoll.instances = s.epoll.instances) (fd : Nat) :
    next.Contains watch fd ↔ s.Contains watch fd := by
  rw [Contains, Contains, hsame]

lemma contains_collect (hcontains : s.Contains watch fd) :
    (s.collect watch procIdx maxEvents ifNone otherwise).Contains watch fd := by
  obtain ⟨entries, hinstance, hget⟩ := hcontains
  obtain ⟨hkeys, hcollect⟩ := collectReadyEvents_some watch.env watch.table maxEvents hinstance
  refine ⟨entries.withEntries _ hkeys, ?_, ?_⟩
  · simp only [WaitSystem.collect, setPhase, hcollect, setInstance_instances, update_self]
    rfl
  · rw [Option.isSome_iff_ne_none] at hget ⊢
    exact (get_withEntries_eq_none hkeys).not.mpr hget

section
variable (hs : s.Served watch)
include hs

lemma Served.collect (hmax : 0 < maxEvents) (hwriter : ∀ fd, s.phase procIdx ≠ .notifying fd)
    (hnone : ¬Reportable watch.env watch.table s.epoll watch.epfd →
      Awaits s.os procIdx ifNone → procIdx ∈ s.waiters)
    (hotherwise : ¬Awaits s.os procIdx otherwise) :
    (s.collect watch procIdx maxEvents ifNone otherwise).Served watch := by
  have hcovered : s.Covered watch →
      (s.collect watch procIdx maxEvents ifNone otherwise).Covered watch := fun hcovered =>
    hcovered.move (setPhase_phase ..) hwriter LevelReadable.of_collect fun _ => contains_collect
  refine hs.move hs.inv (setPhase_phase ..) (fun hawaits => ?_) (fun _ _ => id) (fun _ _ => id)
    hcovered
  split at hawaits
  next hempty =>
    refine ⟨hnone (fun hreport => hreport.collect_ne hmax hempty) hawaits, fun hready => ?_⟩
    exact absurd hready (not_levelReadable_of_collect hmax hempty)
  · exact absurd hawaits hotherwise

lemma Served.enter (hphase : s.phase procIdx = .outside) (eventsPtr maxEvents : Nat)
    (timeout : Int) : (s.enter watch procIdx eventsPtr maxEvents timeout).Served watch := by
  have hwriter : ∀ fd, s.phase procIdx ≠ .notifying fd := by simp [hphase]
  unfold WaitSystem.enter
  split
  next haccepted =>
    split
    · exact hs
    · split <;> exact hs.collect haccepted.1 hwriter (fun _ hawaits => hawaits.elim) id
  · exact hs

lemma Served.registerWaiter {call : WaitCall} (hphase : s.phase procIdx = .polled call) :
    (s.registerWaiter procIdx call).Served watch := by
  refine hs.move hs.inv (setPhase_phase ..) False.elim (fun _ _ => id) (fun other _ hmem => ?_)
    fun hcovered => hcovered.move (setPhase_phase ..) (by simp [hphase]) id fun _ => id
  change other ∈ if procIdx ∈ s.waiters then s.waiters else s.waiters ++ [procIdx]
  split
  · exact hmem
  · exact mem_append_left _ hmem

lemma Served.block (hcurrent : s.os.sched.currentProc = some procIdx) {call : WaitCall}
    {deadline : Option Nat} (hphase : s.phase procIdx = .waiting call deadline) (now : Nat) :
    (s.block procIdx now call deadline).Served watch := by
  have hwriter : ∀ fd, s.phase procIdx ≠ .notifying fd := by simp [hphase]
  have hothers : ∀ {other : Nat}, other ≠ procIdx →
      s.os.TaskBlocked other ∨ s.os.sched.currentProc = some other → s.os.TaskBlocked other :=
    fun hne hblocked => hblocked.resolve_right fun hother =>
      hne (Option.some.inj (hother.symm.trans hcurrent))
  cases deadline with
  | none =>
    have hcovered : s.Covered watch → (s.block procIdx now call none).Covered watch :=
      fun hcovered => hcovered.move (setPhase_phase ..) hwriter id fun _ => id
    refine hs.move (scheduleBlock_inv hs.inv) (setPhase_phase ..) (fun _ => ?_)
      (fun _ hne hblocked => hothers hne (hs.inv.taskBlocked_scheduleBlock hblocked))
      (fun _ _ => id) hcovered
    obtain ⟨hmem, hbefore⟩ := hs.awaiting procIdx (by rw [hphase]; trivial)
    exact ⟨hmem, hcovered hbefore⟩
  | some wakeTick =>
    rw [WaitSystem.block]
    split
    · exact hs.move hs.inv (setPhase_phase ..) False.elim (fun _ _ => id) (fun _ _ => id)
        fun hcovered => hcovered.move (setPhase_phase ..) hwriter id fun _ => id
    · exact hs.move (sleepUntil_inv hs.inv now wakeTick) (setPhase_phase ..)
        False.elim
        (fun _ hne hblocked => hothers hne (hs.inv.taskBlocked_sleepUntil hblocked))
        (fun _ _ => id)
        fun hcovered => hcovered.move (setPhase_phase ..) hwriter id fun _ => id

lemma Served.unregisterWaiter (hphase : s.phase procIdx = .leaving) :
    (s.unregisterWaiter procIdx).Served watch := by
  refine hs.move hs.inv (setPhase_phase ..) False.elim (fun _ _ => id) (fun other hne hmem => ?_)
    fun hcovered => hcovered.move (setPhase_phase ..) (by simp [hphase]) id fun _ => id
  exact mem_filter.mpr ⟨hmem, by simpa using hne⟩

lemma Served.write (hphase : s.phase procIdx = .outside) {len val : Nat}
    (hnamed : LevelRefers watch.table s.epoll watch.epfd fd → s.Contains watch fd) :
    (s.write procIdx fd len val).Served watch := by
  have hcontains : ∀ fd', (s.write procIdx fd len val).Contains watch fd' ↔ s.Contains watch fd' :=
    contains_of_instances (eventfdWrite_instances ..)
  refine hs.move hs.inv (setPhase_phase ..) ?_ (fun _ _ => id) (fun _ _ => id)
    fun hcovered hready => ?_
  · split <;> exact False.elim
  · obtain ⟨_, _, hfails⟩ | ⟨counter, _, hnext⟩ :=
      eventfdWrite_cases (s.epoll.eventfds fd) fd len val
    · refine hcovered.move (setPhase_phase ..) (by simp [hphase]) (fun hready => ?_)
        (fun fd' => (hcontains fd').mpr) hready
      change LevelReadable _ _ (eventfdWrite s.epoll fd len val).1 _ at hready
      rwa [hfails s.epoll rfl] at hready
    · have hself : (s.write procIdx fd len val).phase procIdx = .notifying fd := by
        rw [WaitSystem.write, setPhase_phase, update_self, hnext s.epoll rfl]
        rfl
      rcases hready.of_write with hbefore | hrefers
      · obtain ⟨writer, fd', hwriter, hfd'⟩ := hcovered hbefore
        have hne : writer ≠ procIdx := by
          rintro rfl
          simp [hphase] at hwriter
        refine ⟨writer, fd', ?_, (hcontains fd').mpr hfd'⟩
        rw [WaitSystem.write, setPhase_phase, update_of_ne hne]
        exact hwriter
      · exact ⟨procIdx, fd, hself, (hcontains fd).mpr (hnamed hrefers)⟩

lemma Served.read (fd len : Nat) :
    Served watch { s with epoll := (eventfdRead s.epoll fd len).1 } := by
  refine ⟨hs.inv, fun other hawaits => ?_⟩
  obtain ⟨hmem, hcovered⟩ := hs.awaiting other hawaits
  refine ⟨hmem, fun hready => ?_⟩
  obtain ⟨writer, fd', hwriter, hfd'⟩ := hcovered hready.of_read
  exact ⟨writer, fd', hwriter, (contains_of_instances (eventfdRead_instances ..) fd').mpr hfd'⟩

lemma Served.wakeWaitersForFd (hphase : s.phase procIdx = .notifying fd)
    (hkeeps : s.Contains watch fd → ∀ waiter ∈ s.waiters, aboutToBlock (s.phase waiter) = false) :
    (s.wakeWaitersForFd watch procIdx fd).Served watch := by
  unfold WaitSystem.wakeWaitersForFd
  split
  next hcontains =>
    refine ⟨wakeTasks_inv hs.inv _, fun other hawaits => ?_⟩
    rw [setPhase_phase] at hawaits
    rcases eq_or_ne other procIdx with rfl | hne
    · rw [update_self] at hawaits
      exact hawaits.elim
    · rw [update_of_ne hne] at hawaits
      -- a thread that waits is registered, so it has just been woken
      change Awaits (s.os.wakeTasks s.waiters) other (s.phase other) at hawaits
      have hmem := (hs.awaiting other (hawaits.mono fun hblocked =>
        (hs.inv.taskBlocked_wakeTasks hblocked).1)).1
      have hblocks := hkeeps hcontains other hmem
      revert hawaits hblocks
      cases s.phase other with
      | asleep call deadline =>
        cases deadline with
        | none =>
          intro hblocked
          exact absurd hmem (hs.inv.taskBlocked_wakeTasks hblocked).2
        | some _ => exact False.elim
      | waiting call deadline =>
        cases deadline with
        | none => exact fun _ hblocks => by cases hblocks
        | some _ => exact False.elim
      | outside | polled | registered | leaving | notifying => exact False.elim
  next hcontains =>
    refine hs.move hs.inv (setPhase_phase ..) False.elim (fun _ _ => id) (fun _ _ => id)
      fun hcovered hready => ?_
    obtain ⟨writer, fd', hwriter, hfd'⟩ := hcovered hready
    have hne : writer ≠ procIdx := by
      rintro rfl
      obtain rfl := WaitPhase.notifying.inj (hwriter.symm.trans hphase)
      exact hcontains hfd'
    refine ⟨writer, fd', ?_, hfd'⟩
    rw [setPhase_phase, update_of_ne hne, hwriter]

lemma Served.os {op : SchedOp} (hlegal : s.Legal (.os op)) :
    Served watch { s with os := s.os.apply op } := by
  have hstep : s.os.Step op (s.os.apply op) := ⟨hlegal.1, rfl⟩
  refine ⟨hstep.inv hs.inv, fun other hawaits => ?_⟩
  change Awaits (s.os.apply op) other (s.phase other) at hawaits
  by_cases hphase : s.phase other = .outside
  · rw [hphase] at hawaits
    exact hawaits.elim
  · refine hs.awaiting other (hawaits.mono fun hblocked => ?_)
    refine (hstep.taskBlocked hs.inv hblocked).resolve_right ?_
    rintro ⟨hgives, hcurrent⟩
    exact hphase (hlegal.2 other hcurrent hgives)

lemma Served.stepOf (hcurrent : s.os.sched.currentProc = some procIdx) {event : WaitEvent}
    (hphase : s.phase procIdx = ph) (hkeep : s.keepsAt watch procIdx event ph) :
    (s.stepOf watch procIdx event ph).elim True (Served watch) := by
  have hrunning := hs.inv.not_taskBlocked_current hcurrent
  unfold WaitSystem.stepOf
  split
  · exact hs.enter hphase ..
  · exact hs.registerWaiter hphase
  next now call =>
    refine hs.collect call.accepted.1 (by simp [hphase]) (fun hnothing hawaits => ?_) id
    by_cases htimeout : 0 < call.timeout
    · rw [WaitCall.deadline, if_pos htimeout] at hawaits
      exact hawaits.elim
    · exact (hkeep (Int.not_lt.mp htimeout)).resolve_right hnothing
  next now call deadline =>
    refine hs.collect call.accepted.1 (by simp [hphase]) (fun hnothing hawaits => ?_) id
    cases deadline with
    | none => exact Or.resolve_right hkeep hnothing
    | some wakeTick =>
      split at hawaits
      · exact hawaits.elim
      · exact hawaits.elim
  next now call deadline => exact hs.block hcurrent hphase now
  · exact hs.unregisterWaiter hphase
  · exact hs.write hphase hkeep
  · exact hs.wakeWaitersForFd hphase hkeep
  next fd len => exact hs.read fd len
  · trivial

lemma Served.apply {event : WaitEvent} (hlegal : s.Legal event) (hkeeps : s.Keeps watch event) :
    (s.apply watch event).Served watch := by
  have hthread : Served watch (s.os.onCurrent s fun procIdx =>
      s.stepOf watch procIdx event (s.phase procIdx)) :=
    onCurrent_of hs fun procIdx hcurrent => hs.stepOf hcurrent rfl (hkeeps procIdx hcurrent)
  cases event with
  | os op => exact hs.os hlegal
  | enter | register | recheck | block | leave | write | notify | read => exact hthread

lemma Served.not_stranded : ¬s.Stranded watch := by
  rintro ⟨hquiet, ⟨procIdx, call, hphase, hblocked⟩, hready⟩
  obtain ⟨_, hcovered⟩ := hs.awaiting procIdx (by rw [hphase]; exact hblocked)
  obtain ⟨writer, fd, hwriter, _⟩ := hcovered hready
  exact hquiet writer (by rw [hwriter]; trivial)

end

def Step (watch : Watch) : WaitSystem → WaitEvent → WaitSystem → Prop :=
  Guarded Legal (apply watch)

/-- No thread is stranded in a run whose steps keep the waiters registered, find them
blocked and write to descriptors that have their entry under their own number. -/
theorem run_not_stranded {epoll : EpollState} {events : List WaitEvent}
    (hrun : Run (Step watch) (boot epoll) events s)
    (hkeeps : Allowed (Keeps watch) (apply watch) (boot epoll) events) : ¬s.Stranded watch := by
  have hstep : ∀ s event, Served watch s → s.Legal event → s.Keeps watch event →
      (s.apply watch event).Served watch := fun s event hs => hs.apply
  exact (hrun.invariant_of_allowed hstep hkeeps (served_boot watch epoll)).not_stranded

instance (s : WaitSystem) (event : WaitEvent) : Decidable (s.Legal event) := by
  unfold Legal
  split <;> infer_instance

instance (watch : Watch) (s : WaitSystem) (procIdx : Nat) (event : WaitEvent) (phase : WaitPhase) :
    Decidable (s.keepsAt watch procIdx event phase) := by
  unfold keepsAt
  split <;> infer_instance

instance (watch : Watch) (s : WaitSystem) (event : WaitEvent) : Decidable (s.Keeps watch event) :=
  inferInstanceAs (Decidable (∀ procIdx ∈ s.os.sched.currentProc, _))

instance (os : SchedState) (procIdx : Nat) (phase : WaitPhase) :
    Decidable (Underway os procIdx phase) := by
  unfold Underway
  split <;> infer_instance

instance (s : WaitSystem) : Decidable (∀ procIdx, ¬Underway s.os procIdx (s.phase procIdx)) :=
  decidable_of_iff (∀ procIdx ∈ s.phases.keys, ¬Underway s.os procIdx (s.phase procIdx))
    (TotalMap.forall_get_iff (fun procIdx phase => ¬Underway s.os procIdx phase) fun _ => id)

/-- An eventfd (3), an epoll instance (4) and a copy of the eventfd (5). -/
def copiedEventfd : FdTable :=
  let table := ((FdTable.new.allocSpecialFd "eventfd_200" 0 .eventfd).1.allocSpecialFd "epoll" 0
    .epoll).1
  (table.dup 3 5).getD table

def netpoll : Watch := ⟨⟨false, fun _ => 0, fun _ => false⟩, copiedEventfd, 4⟩

/-- The instance with one level-triggered entry, and the eventfd at zero. -/
def oneEntry (fd : Nat) : EpollState where
  instances other := if other = 4 then some (.insert .empty fd ⟨⟨epollIn, 7⟩, 0⟩) else none
  eventfds other := if other = 3 then some 0 else none
  timerfds _ := false

def startWait : List WaitEvent := [.enter 1 8 (-1), .register, .recheck 0]

def after (epoll : EpollState) (events : List WaitEvent) : WaitSystem :=
  events.foldl (apply netpoll) (boot epoll)

def writeCollected : List WaitEvent :=
  [.os (.allocateUserSlot 7), .os (.allocateUserSlot 8), .os .schedule] ++ startWait ++
    [.block 0, .write 3 8 1, .notify, .os .scheduleBlock, .recheck 0, .leave]

theorem run_not_stranded_writeCollected : (after (oneEntry 3) writeCollected).phase 7 = .outside ∧
    ¬(after (oneEntry 3) writeCollected).Stranded netpoll := by
  have hrun : Run (Step netpoll) (boot (oneEntry 3)) writeCollected
      (after (oneEntry 3) writeCollected) := Run.of_allowed (by decide)
  exact ⟨by decide, run_not_stranded hrun (by decide)⟩

/-- Threads 7 and 8 wait, and thread 9 writes, reads the counter back and writes again. -/
def wokenForNothing : List WaitEvent :=
  [.os (.allocateUserSlot 7), .os (.allocateUserSlot 8), .os (.allocateUserSlot 9),
    .os .schedule] ++
    startWait ++ [.block 0] ++ startWait ++ [.block 0, .write 3 8 1, .notify, .read 3 8,
      .os .scheduleBlock, .recheck 0, .block 0, .recheck 0, .block 0, .os (.wakeTask 9),
      .os .schedule, .write 3 8 1, .notify]

/-- Thread 8 writes when thread 7 has found nothing and has not blocked yet. -/
def writeBeforeBlock : List WaitEvent :=
  [.os (.allocateUserSlot 7), .os (.allocateUserSlot 8), .os .schedule] ++ startWait ++
    [.os .schedule, .os .schedule, .os .schedule, .write 3 8 1, .notify, .os .schedule,
      .os .schedule, .os .schedule, .block 0]

def copyWritten : List WaitEvent :=
  [.os (.allocateUserSlot 7), .os (.allocateUserSlot 8), .os .schedule] ++ startWait ++
    [.block 0, .write 3 8 1, .notify]

theorem woken_waiters_stranded :
    (Run (Step netpoll) (boot (oneEntry 3)) wokenForNothing (after (oneEntry 3) wokenForNothing) ∧
        (after (oneEntry 3) wokenForNothing).Stranded netpoll) ∧
      (Run (Step netpoll) (boot (oneEntry 3)) writeBeforeBlock
          (after (oneEntry 3) writeBeforeBlock) ∧
        (after (oneEntry 3) writeBeforeBlock).Stranded netpoll) ∧
      Run (Step netpoll) (boot (oneEntry 5)) copyWritten (after (oneEntry 5) copyWritten) ∧
        (after (oneEntry 5) copyWritten).Stranded netpoll := by
  refine ⟨⟨Run.of_allowed (by decide), ?_⟩, ⟨Run.of_allowed (by decide), ?_⟩,
    Run.of_allowed (by decide), ?_⟩
  all_goals
    exact ⟨by decide, ⟨7, ⟨8, -1, by decide⟩, by decide, by decide⟩,
      by decide⟩

end WaitSystem

end KarteOs.Syscall.Epoll

import Mathlib.Data.List.TakeWhile
import KarteOs.Foundation.TotalMap
import KarteOs.Sched.Blocking

/-! # Futexes under interleaving

`futex_wait` reads the user value, enqueues itself, blocks and takes itself off
the queue again, in four separate steps; `futex_wake` runs under the queue lock
in one. Waiters that time out and tasks that are woken for another reason take
themselves off the queue. Beside the kernel's state the system records in which
order waiters entered the queues, and for every waiter whether a `futex_wake`
large enough to reach it has run since it read the value.
-/

namespace KarteOs.Syscall

open Sched Function SchedState Transition List

abbrev FutexKey := Nat × Nat

structure FutexWaiter where
  procIdx : Nat
  woken : Bool
deriving DecidableEq

/-- The loop of `futex_wake` over one queue: the queue with the woken waiters
marked, how many there are, and the scheduler. -/
def wakeLoop (maxCount : Nat) :
    List FutexWaiter → Nat → SchedState → List FutexWaiter × Nat × SchedState
  | [], woken, os => ([], woken, os)
  | waiter :: rest, woken, os =>
    if waiter.woken = false ∧ woken < maxCount then
      let (rest, woken, os) := wakeLoop maxCount rest (woken + 1) (os.wakeTask waiter.procIdx).1
      ({ waiter with woken := true } :: rest, woken, os)
    else
      let (rest, woken, os) := wakeLoop maxCount rest woken os
      (waiter :: rest, woken, os)

variable (os : SchedState)

def wakeAll (waiters : List FutexWaiter) : SchedState :=
  waiters.foldl (fun os waiter => (os.wakeTask waiter.procIdx).1) os

variable {queue : List FutexWaiter}

lemma wakeLoop_eq {maxCount woken : Nat} (hqueue : ∀ waiter ∈ queue, waiter.woken = false) :
    wakeLoop maxCount queue woken os =
      ((queue.take (maxCount - woken)).map (fun waiter => { waiter with woken := true }) ++
          queue.drop (maxCount - woken), woken + (queue.take (maxCount - woken)).length,
        wakeAll os (queue.take (maxCount - woken))) := by
  induction queue generalizing woken os with
  | nil => simp [wakeLoop, wakeAll]
  | cons waiter rest ih =>
    have hrest : ∀ other ∈ rest, other.woken = false := fun other hother =>
      hqueue other (.tail _ hother)
    rw [wakeLoop]
    by_cases hwoken : woken < maxCount
    · obtain ⟨left, hleft⟩ : ∃ left, maxCount - woken = left + 1 := ⟨maxCount - woken - 1, by omega⟩
      have hnext : maxCount - (woken + 1) = left := by omega
      rw [if_pos ⟨hqueue waiter mem_cons_self, hwoken⟩, ih _ hrest, hleft, hnext]
      simp only [take_succ_cons, map_cons, drop_succ_cons, cons_append, length_cons]
      rw [Nat.add_assoc, Nat.add_comm 1]
      rfl
    · rw [if_neg (fun h => hwoken h.2), ih _ hrest, Nat.sub_eq_zero_of_le (by omega)]
      rfl

inductive FutexPhase
  | idle
  | checked (key : FutexKey) (timeout : Option Nat)
  | enqueued (key : FutexKey) (timeout : Option Nat)
  | waiting (key : FutexKey) (timeout : Option Nat)
deriving DecidableEq

instance : Inhabited FutexPhase := ⟨.idle⟩

def FutexPhase.key : FutexPhase → Option FutexKey
  | .idle => none
  | .checked key _ | .enqueued key _ | .waiting key _ => some key

def FutexPhase.entering : FutexPhase → Bool
  | .checked _ _ | .enqueued _ _ => true
  | .idle | .waiting _ _ => false

structure FutexSystem where
  os : SchedState
  /-- The page-table root of each process. -/
  root : Nat → Nat
  memory : FutexKey → Nat
  queues : FutexKey → List FutexWaiter
  phases : TotalMap Nat FutexPhase
  /-- The last result of a futex call of each process. -/
  result : Nat → Int
  /-- Who entered which queue, in this order. -/
  log : List (FutexKey × Nat)
  /-- A large enough `futex_wake` has run since the process read the value. -/
  sufficed : Nat → Bool

inductive FutexEvent
  | check (uaddr expected : Nat) (timeout : Option Nat)
  | enqueue
  | block (now : Nat)
  | dequeue
  | store (uaddr value : Nat)
  | wake (uaddr maxCount : Nat)
  | tick (now : Nat)
  | wakeTask (procIdx : Nat)
  | schedule
  | allocateUserSlot (procIdx : Nat)
  | setTaskClass (procIdx : Nat) (schedClass : SchedClass)
  | exit

/-- The number of waiters in front of a process, all of them if it is not queued. -/
def ahead (queue : List FutexWaiter) (procIdx : Nat) : Nat :=
  (queue.takeWhile fun waiter => waiter.procIdx != procIdx).length

/-- A process in this phase is not between its value read and its block, or
`maxCount` waiters stand in front of it. -/
def BeyondReach (queue : List FutexWaiter) (key : FutexKey) (maxCount procIdx : Nat)
    (phase : FutexPhase) : Prop :=
  phase.entering = true → phase.key = some key → maxCount ≤ ahead queue procIdx
deriving Decidable

namespace FutexSystem

def boot (root : Nat → Nat) (memory : FutexKey → Nat) : FutexSystem :=
  { os := .init, root, memory, queues := fun _ => [], phases := .empty, result := fun _ => 0,
    log := [], sufficed := fun _ => false }

section
variable (s : FutexSystem)

def phase : Nat → FutexPhase :=
  s.phases.get

def setPhase (procIdx : Nat) (phase : FutexPhase) : FutexSystem :=
  { s with phases := s.phases.set procIdx phase }

def setResult (procIdx : Nat) (result : Int) : FutexSystem :=
  { s with result := update s.result procIdx result }

section
variable (procIdx : Nat)

lemma setPhase_phase (phase : FutexPhase) :
    (s.setPhase procIdx phase).phase = update s.phase procIdx phase :=
  s.phases.set_get procIdx phase

def cleanupFutexWaiters (procIdx : Nat) : FutexSystem :=
  { s with queues := fun key => (s.queues key).filter fun waiter => waiter.procIdx != procIdx }

def checkValue (uaddr expected : Nat) (timeout : Option Nat) :
    FutexSystem :=
  if s.memory (s.root procIdx, uaddr) = expected then
    { s with sufficed := update s.sufficed procIdx false }.setPhase procIdx
      (.checked (s.root procIdx, uaddr) timeout)
  else s.setResult procIdx (-11)

def enqueueWaiter (key : FutexKey) (timeout : Option Nat) :
    FutexSystem :=
  { s with
    queues := update s.queues key (s.queues key ++ [FutexWaiter.mk procIdx false])
    log := s.log ++ [(key, procIdx)] }.setPhase procIdx (.enqueued key timeout)

def blockWaiter (now : Nat) (key : FutexKey) : Option Nat → FutexSystem
  | none => { s with os := s.os.scheduleBlock }.setPhase procIdx (.waiting key none)
  | some 0 => ((s.cleanupFutexWaiters procIdx).setPhase procIdx .idle).setResult procIdx (-110)
  | some (ms + 1) =>
    { s with os := s.os.sleepUntil now (min (now + (ms + 1)) (2 ^ 64 - 1)) }.setPhase procIdx
      (.waiting key (some (ms + 1)))

/-- Take the process off its queue; still being there means that the wait timed out. -/
def dequeueWaiter (key : FutexKey) (timeout : Option Nat) :
    FutexSystem :=
  let stillWaiting := (s.queues key).any fun waiter => waiter.procIdx == procIdx
  ({ s with
      queues := update s.queues key
        ((s.queues key).filter fun waiter => waiter.procIdx != procIdx) }.setPhase procIdx .idle
    ).setResult procIdx (if timeout.isSome && stillWaiting then -110 else 0)

end

def futexWake (key : FutexKey) (maxCount : Nat) : FutexSystem × Nat :=
  let (queue, woken, os) := wakeLoop maxCount (s.queues key) 0 s.os
  ({ s with
      os
      queues := update s.queues key (queue.filter fun waiter => !waiter.woken)
      sufficed := fun procIdx => s.sufficed procIdx ||
        ((s.phase procIdx).key == some key && decide (ahead (s.queues key) procIdx < maxCount)) },
    woken)

/-- An event that does not fit the phase of the current process has no effect. -/
def apply : FutexEvent → FutexSystem
  | .check uaddr expected timeout => s.os.onCurrent s fun procIdx =>
    match s.phase procIdx with
    | .idle => some (s.checkValue procIdx uaddr expected timeout)
    | _ => none
  | .enqueue => s.os.onCurrent s fun procIdx =>
    match s.phase procIdx with
    | .checked key timeout => some (s.enqueueWaiter procIdx key timeout)
    | _ => none
  | .block now => s.os.onCurrent s fun procIdx =>
    match s.phase procIdx with
    | .enqueued key timeout => some (s.blockWaiter procIdx now key timeout)
    | _ => none
  | .dequeue => s.os.onCurrent s fun procIdx =>
    match s.phase procIdx with
    | .waiting key timeout => some (s.dequeueWaiter procIdx key timeout)
    | _ => none
  | .store uaddr value => s.os.onCurrent s fun procIdx =>
    match s.phase procIdx with
    | .idle => some { s with memory := update s.memory (s.root procIdx, uaddr) value }
    | _ => none
  | .wake uaddr maxCount => s.os.onCurrent s fun procIdx =>
    match s.phase procIdx with
    | .idle =>
      let (next, woken) := s.futexWake (s.root procIdx, uaddr) maxCount
      some (next.setResult procIdx woken)
    | _ => none
  | .tick now => { s with os := s.os.tickSleepQueue now }
  | .wakeTask procIdx => { s with os := (s.os.wakeTask procIdx).1 }
  | .schedule => { s with os := s.os.schedule }
  | .allocateUserSlot procIdx =>
    { s with os := (s.os.allocateUserSlot procIdx).1 }.setPhase procIdx .idle
  | .setTaskClass procIdx schedClass => { s with os := (s.os.setTaskClass procIdx schedClass).1 }
  | .exit => s.os.onCurrent s fun procIdx =>
    match s.phase procIdx with
    | .idle => some { s.cleanupFutexWaiters procIdx with os := s.os.scheduleExit }
    | _ => none

def Legal : FutexEvent → Prop
  | .allocateUserSlot procIdx => s.os.Fresh procIdx
  | _ => True

/-- A `futex_wake` does not run while a waiter it is large enough to reach has
read the value and not blocked yet. -/
def Keeps : FutexEvent → Prop
  | .wake uaddr maxCount => ∀ waker ∈ s.os.sched.currentProc, ∀ procIdx,
      BeyondReach (s.queues (s.root waker, uaddr)) (s.root waker, uaddr) maxCount procIdx
        (s.phase procIdx)
  | _ => True

end

instance (s : FutexSystem) (event : FutexEvent) : Decidable (s.Legal event) := by
  unfold Legal
  split <;> infer_instance

instance (s : FutexSystem) : ∀ event, Decidable (s.Keeps event)
  | .wake uaddr maxCount =>
    decidable_of_iff (∀ waker ∈ s.os.sched.currentProc, ∀ procIdx ∈ s.phases.keys,
        BeyondReach (s.queues (s.root waker, uaddr)) (s.root waker, uaddr) maxCount procIdx
          (s.phase procIdx))
      (forall₂_congr fun _ _ =>
        TotalMap.forall_get_iff (BeyondReach _ _ _) fun _ hidle => by cases hidle)
  | .check .. | .enqueue | .block _ | .dequeue | .store .. | .tick _ | .wakeTask _ | .schedule
  | .allocateUserSlot _ | .setTaskClass .. | .exit => .isTrue trivial

end FutexSystem

lemma wakeAll_eq (waiters : List FutexWaiter) :
    wakeAll os waiters = os.wakeTasks (waiters.map FutexWaiter.procIdx) := by
  rw [wakeAll, wakeTasks, foldl_map]

lemma taskBlocked_wakeAll {os : SchedState} (hos : os.Inv) {waiters : List FutexWaiter}
    {procIdx : Nat} (hblocked : (wakeAll os waiters).TaskBlocked procIdx) :
    os.TaskBlocked procIdx ∧ ∀ waiter ∈ waiters, waiter.procIdx ≠ procIdx := by
  rw [wakeAll_eq] at hblocked
  obtain ⟨hbefore, hnot⟩ := hos.taskBlocked_wakeTasks hblocked
  refine ⟨hbefore, fun waiter hwaiter heq => hnot ?_⟩
  exact List.mem_map.mpr ⟨waiter, hwaiter, heq⟩

lemma released_of_ahead_lt {procIdx count : Nat} (hcount : ahead queue procIdx < count)
    (hqueued : ∃ waiter ∈ queue, waiter.procIdx = procIdx) :
    ∃ waiter ∈ queue.take count, waiter.procIdx = procIdx := by
  induction queue generalizing count with
  | nil => simp at hqueued
  | cons waiter rest ih =>
    obtain ⟨count, rfl⟩ : ∃ less, count = less + 1 := ⟨count - 1, by omega⟩
    rw [take_succ_cons]
    rcases eq_or_ne waiter.procIdx procIdx with heq | hne
    · exact ⟨waiter, .head _, heq⟩
    · have hahead : ahead (waiter :: rest) procIdx = ahead rest procIdx + 1 := by simp [ahead, hne]
      obtain ⟨found, hfound, hprocIdx⟩ := ih (by omega : ahead rest procIdx < count) (by
        obtain ⟨other, hother, hprocIdx⟩ := hqueued
        refine ⟨other, (mem_cons.mp hother).resolve_left ?_, hprocIdx⟩
        rintro rfl
        exact hne hprocIdx)
      exact ⟨found, mem_cons_of_mem _ hfound, hprocIdx⟩

lemma not_released_of_le_ahead {procIdx count : Nat} (hcount : count ≤ ahead queue procIdx) :
    ∀ waiter ∈ queue.take count, waiter.procIdx ≠ procIdx := by
  intro waiter hwaiter
  have htake : queue.take count <+: queue := take_prefix _ _
  have hshort : queue.take count <+: queue.takeWhile fun waiter => waiter.procIdx != procIdx :=
    prefix_of_prefix_length_le htake ( takeWhile_prefix _) ((length_take_le ..).trans hcount)
  simpa using mem_takeWhile_imp (hshort.subset hwaiter)

def Pending (procIdx : Nat) (phase : FutexPhase) : Prop :=
  phase.entering = true ∨ (∃ key timeout, phase = .waiting key timeout) ∧ os.TaskBlocked procIdx

/-- Every waiter that is queued or blocked has its entry, and none that still
counts on a wake-up has missed one. -/
structure WaitersKept (os : SchedState) (queues : FutexKey → List FutexWaiter)
    (phase : Nat → FutexPhase) (sufficed : Nat → Bool) (log : List (FutexKey × Nat)) : Prop where
  inv : os.Inv
  unmarked : ∀ key, ∀ waiter ∈ queues key, waiter.woken = false
  listed : ∀ procIdx key timeout, phase procIdx = .enqueued key timeout ∨
    phase procIdx = .waiting key timeout ∧ os.TaskBlocked procIdx →
    ∃ waiter ∈ queues key, waiter.procIdx = procIdx
  unserved : ∀ procIdx, Pending os procIdx (phase procIdx) → sufficed procIdx = false
  ordered : ∀ key, ((queues key).map FutexWaiter.procIdx).Sublist
    ((log.filter fun entry => entry.1 = key).map Prod.snd)

namespace WaitersKept

variable {os next : SchedState} {queues : FutexKey → List FutexWaiter} {phase : Nat → FutexPhase}
  {sufficed : Nat → Bool} {log : List (FutexKey × Nat)}

section
variable (h : WaitersKept os queues phase sufficed log)
include h

lemma withOs (hnext : next.Inv)
    (hblocked : ∀ procIdx, next.TaskBlocked procIdx → os.TaskBlocked procIdx) :
    WaitersKept next queues phase sufficed log where
  inv := hnext
  unmarked := h.unmarked
  listed := fun procIdx key timeout hphase =>
    h.listed procIdx key timeout (hphase.imp_right (And.imp_right (hblocked procIdx)))
  unserved := fun procIdx hpending =>
    h.unserved procIdx (hpending.imp_right (And.imp_right (hblocked procIdx)))
  ordered := h.ordered

lemma retire (procIdx : Nat) {rest : FutexKey → List FutexWaiter}
    (hsub : ∀ key, (rest key).Sublist (queues key))
    (hkept : ∀ key, ∀ waiter ∈ queues key, waiter.procIdx ≠ procIdx → waiter ∈ rest key) :
    WaitersKept os rest (update phase procIdx .idle) sufficed log where
  inv := h.inv
  unmarked := fun key waiter hwaiter => h.unmarked key waiter ((hsub key).subset hwaiter)
  listed := by
    intro other key timeout hphase
    rcases eq_or_ne other procIdx with rfl | hne
    · simp at hphase
    · rw [update_of_ne hne] at hphase
      obtain ⟨waiter, hwaiter, hother⟩ := h.listed other key timeout hphase
      exact ⟨waiter, hkept key waiter hwaiter (hother ▸ hne), hother⟩
  unserved := by
    intro other hpending
    rcases eq_or_ne other procIdx with rfl | hne
    · simp [Pending, FutexPhase.entering] at hpending
    · rw [update_of_ne hne] at hpending
      exact h.unserved other hpending
  ordered := fun key => ((hsub key).map _).trans (h.ordered key)

lemma check (procIdx : Nat) (key : FutexKey) (timeout : Option Nat) :
    WaitersKept os queues (update phase procIdx (.checked key timeout))
      (update sufficed procIdx false) log where
  inv := h.inv
  unmarked := h.unmarked
  listed := by
    intro other otherKey otherTimeout hphase
    rcases eq_or_ne other procIdx with rfl | hne
    · simp at hphase
    · rw [update_of_ne hne] at hphase
      exact h.listed other _ _ hphase
  unserved := by
    intro other hpending
    rcases eq_or_ne other procIdx with rfl | hne
    · simp
    · rw [update_of_ne hne] at hpending ⊢
      exact h.unserved other hpending
  ordered := h.ordered

end

variable {key : FutexKey} {procIdx : Nat} (h : WaitersKept os queues phase sufficed log)
include h

lemma enqueue {timeout : Option Nat} (hphase : phase procIdx = .checked key timeout) :
    WaitersKept os (update queues key (queues key ++ [FutexWaiter.mk procIdx false]))
      (update phase procIdx (.enqueued key timeout)) sufficed (log ++ [(key, procIdx)]) where
  inv := h.inv
  unmarked := by
    intro other waiter hwaiter
    rcases eq_or_ne other key with rfl | hne
    · rw [update_self, mem_append, mem_singleton] at hwaiter
      rcases hwaiter with hwaiter | rfl
      · exact h.unmarked other waiter hwaiter
      · rfl
    · rw [update_of_ne hne] at hwaiter
      exact h.unmarked other waiter hwaiter
  listed := by
    intro other otherKey otherTimeout hother
    have hgrown : ∀ waiter ∈ queues otherKey,
        waiter ∈ update queues key (queues key ++ [FutexWaiter.mk procIdx false]) otherKey := by
      intro waiter hwaiter
      rcases eq_or_ne otherKey key with rfl | hne
      · simp [hwaiter]
      · rwa [update_of_ne hne]
    rcases eq_or_ne other procIdx with rfl | hne
    · obtain ⟨rfl, rfl⟩ : key = otherKey ∧ timeout = otherTimeout := by simpa using hother
      exact ⟨.mk other false, by simp, rfl⟩
    · rw [update_of_ne hne] at hother
      obtain ⟨waiter, hwaiter, hprocIdx⟩ := h.listed other otherKey otherTimeout hother
      exact ⟨waiter, hgrown waiter hwaiter, hprocIdx⟩
  unserved := by
    intro other hpending
    rcases eq_or_ne other procIdx with rfl | hne
    · exact h.unserved other (.inl (by simp [hphase, FutexPhase.entering]))
    · rw [update_of_ne hne] at hpending
      exact h.unserved other hpending
  ordered := by
    intro other
    rcases eq_or_ne other key with rfl | hne
    · simpa using (h.ordered other).append (Sublist.refl [procIdx])
    · simpa [update_of_ne hne, hne.symm] using h.ordered other

lemma block {timeout : Option Nat} (hphase : phase procIdx = .enqueued key timeout)
    (hnext : next.Inv)
    (hblocked : ∀ other, next.TaskBlocked other → os.TaskBlocked other ∨ other = procIdx) :
    WaitersKept next queues (update phase procIdx (.waiting key timeout)) sufficed log where
  inv := hnext
  unmarked := h.unmarked
  listed := by
    intro other otherKey otherTimeout hother
    rcases eq_or_ne other procIdx with rfl | hne
    · obtain ⟨⟨rfl, rfl⟩, _⟩ : (key = otherKey ∧ timeout = otherTimeout) ∧ _ := by
        simpa using hother
      exact h.listed other key timeout (.inl hphase)
    · rw [update_of_ne hne] at hother
      refine h.listed other otherKey otherTimeout (hother.imp_right (And.imp_right ?_))
      exact fun hb => (hblocked other hb).resolve_right hne
  unserved := by
    intro other hpending
    rcases eq_or_ne other procIdx with rfl | hne
    · exact h.unserved other (.inl (by simp [hphase, FutexPhase.entering]))
    · rw [update_of_ne hne] at hpending
      refine h.unserved other (hpending.imp_right (And.imp_right ?_))
      exact fun hb => (hblocked other hb).resolve_right hne
  ordered := h.ordered

lemma wake {maxCount : Nat}
    (hkeeps : ∀ procIdx, BeyondReach (queues key) key maxCount procIdx (phase procIdx)) :
    WaitersKept (wakeAll os ((queues key).take maxCount))
      (update queues key ((queues key).drop maxCount)) phase (fun procIdx => sufficed procIdx ||
        ((phase procIdx).key == some key && decide (ahead (queues key) procIdx < maxCount)))
      log := by
  have hblocked : ∀ procIdx, (wakeAll os ((queues key).take maxCount)).TaskBlocked procIdx →
      os.TaskBlocked procIdx ∧ ∀ waiter ∈ (queues key).take maxCount, waiter.procIdx ≠ procIdx :=
    fun _ => taskBlocked_wakeAll h.inv
  -- A waiter that is not released stays queued.
  have hdrop : ∀ procIdx, (∃ waiter ∈ queues key, waiter.procIdx = procIdx) →
      (∀ waiter ∈ (queues key).take maxCount, waiter.procIdx ≠ procIdx) →
      ∃ waiter ∈ (queues key).drop maxCount, waiter.procIdx = procIdx := by
    rintro procIdx ⟨waiter, hwaiter, hprocIdx⟩ htake
    rw [← take_append_drop maxCount (queues key), mem_append] at hwaiter
    rcases hwaiter with hwaiter | hwaiter
    · exact absurd hprocIdx (htake waiter hwaiter)
    · exact ⟨waiter, hwaiter, hprocIdx⟩
  refine ⟨by rw [wakeAll_eq]; exact wakeTasks_inv h.inv _, ?_, ?_, ?_, ?_⟩
  · intro other waiter hwaiter
    rcases eq_or_ne other key with rfl | hne
    · rw [update_self] at hwaiter
      exact h.unmarked other waiter (mem_of_mem_drop hwaiter)
    · rw [update_of_ne hne] at hwaiter
      exact h.unmarked other waiter hwaiter
  · intro procIdx otherKey timeout hphase
    have hbefore := h.listed procIdx otherKey timeout
      (hphase.imp_right (And.imp_right fun hb => (hblocked procIdx hb).1))
    rcases eq_or_ne otherKey key with rfl | hne
    · rw [update_self]
      refine hdrop procIdx hbefore ?_
      rcases hphase with hentering | ⟨_, hb⟩
      · refine not_released_of_le_ahead (hkeeps procIdx ?_ ?_)
        all_goals rw [hentering]; rfl
      · exact (hblocked procIdx hb).2
    · rwa [update_of_ne hne]
  · intro procIdx hpending
    have hbefore : Pending os procIdx (phase procIdx) :=
      hpending.imp_right (And.imp_right fun hb => (hblocked procIdx hb).1)
    rw [h.unserved procIdx hbefore, Bool.false_or, Bool.and_eq_false_imp]
    intro hkey
    rw [beq_iff_eq] at hkey
    rw [decide_eq_false_iff_not, Nat.not_lt]
    rcases hpending with hentering | ⟨⟨waitKey, timeout, hphase⟩, hb⟩
    · exact hkeeps procIdx hentering hkey
    · obtain rfl : waitKey = key := by simpa [hphase, FutexPhase.key] using hkey
      obtain ⟨hbeforeBlocked, hnot⟩ := hblocked procIdx hb
      by_contra hless
      obtain ⟨waiter, hwaiter, hprocIdx⟩ := released_of_ahead_lt (Nat.not_le.mp hless)
        (h.listed procIdx waitKey timeout (.inr ⟨hphase, hbeforeBlocked⟩))
      exact hnot waiter hwaiter hprocIdx
  · intro other
    rcases eq_or_ne other key with rfl | hne
    · rw [update_self]
      exact ((drop_sublist ..).map _).trans (h.ordered other)
    · rw [update_of_ne hne]
      exact h.ordered other

end WaitersKept

namespace FutexSystem

def Inv (s : FutexSystem) : Prop :=
  WaitersKept s.os s.queues s.phase s.sufficed s.log

lemma boot_inv (root : Nat → Nat) (memory : FutexKey → Nat) : (boot root memory).Inv where
  inv := init_inv
  unmarked := by simp [boot]
  listed := by simp [boot, phase]
  unserved := fun _ _ => rfl
  ordered := by simp [boot]

variable {s : FutexSystem}

lemma Inv.futexWake_eq (hs : s.Inv) (key : FutexKey) (maxCount : Nat) : s.futexWake key maxCount =
    ({ s with
        os := wakeAll s.os ((s.queues key).take maxCount)
        queues := update s.queues key ((s.queues key).drop maxCount)
        sufficed := fun procIdx => s.sufficed procIdx || ((s.phase procIdx).key == some key &&
          decide (ahead (s.queues key) procIdx < maxCount)) },
      ((s.queues key).take maxCount).length) := by
  have hdrop : (s.queues key).drop maxCount =
      ((s.queues key).drop maxCount).filter fun waiter => !waiter.woken := by
    refine (filter_eq_self.mpr fun waiter hwaiter => ?_).symm
    simp [hs.unmarked key waiter (mem_of_mem_drop hwaiter)]
  have hmarked : ∀ waiters : List FutexWaiter,
      (waiters.map fun waiter => { waiter with woken := true }).filter
        (fun waiter => !waiter.woken) = [] := by simp
  unfold futexWake
  rw [wakeLoop_eq s.os (hs.unmarked key)]
  simp only [Nat.sub_zero, filter_append, hmarked, ← hdrop, nil_append, Nat.zero_add]

lemma Inv.checkValue (hs : s.Inv) (procIdx uaddr expected : Nat) (timeout : Option Nat) :
    (s.checkValue procIdx uaddr expected timeout).Inv := by
  unfold FutexSystem.checkValue
  split
  · unfold Inv
    rw [setPhase_phase]
    exact hs.check procIdx _ timeout
  · exact hs

variable {procIdx : Nat}

lemma Inv.blockWaiter (hs : s.Inv) {key : FutexKey} {timeout : Option Nat}
    (hcurrent : s.os.sched.currentProc = some procIdx)
    (hphase : s.phase procIdx = .enqueued key timeout) (now : Nat) :
    (s.blockWaiter procIdx now key timeout).Inv := by
  have hother : ∀ {other}, s.os.TaskBlocked other ∨ s.os.sched.currentProc = some other →
      s.os.TaskBlocked other ∨ other = procIdx := by
    intro other h
    exact h.imp_right fun heq => Option.some.inj (heq.symm.trans hcurrent)
  match timeout with
  | none =>
    unfold Inv FutexSystem.blockWaiter
    rw [setPhase_phase]
    exact hs.block hphase (scheduleBlock_inv hs.inv)
      fun _ hb => hother (hs.inv.taskBlocked_scheduleBlock hb)
  | some 0 =>
    show WaitersKept _ _ (setPhase _ procIdx .idle).phase _ _
    rw [setPhase_phase]
    exact hs.retire procIdx (fun _ => filter_sublist)
      fun _ waiter hwaiter hne => mem_filter.mpr ⟨hwaiter, by simpa using hne⟩
  | some (ms + 1) =>
    unfold Inv FutexSystem.blockWaiter
    rw [setPhase_phase]
    exact hs.block hphase (sleepUntil_inv hs.inv now _)
      fun _ hb => hother (hs.inv.taskBlocked_sleepUntil hb)

lemma Inv.dequeueWaiter (hs : s.Inv) (procIdx : Nat) (key : FutexKey) (timeout : Option Nat) :
    (s.dequeueWaiter procIdx key timeout).Inv := by
  show WaitersKept _ (update s.queues key _) (setPhase _ procIdx .idle).phase _ _
  rw [setPhase_phase]
  refine hs.retire procIdx (fun other => ?_) fun other waiter hwaiter hne => ?_
  · rcases eq_or_ne other key with rfl | hother
    · simp
    · simp [hother]
  · rcases eq_or_ne other key with rfl | hother
    · simpa using ⟨hwaiter, hne⟩
    · simpa [hother] using hwaiter

lemma Inv.allocateUserSlot (hs : s.Inv) (hfresh : s.os.Fresh procIdx) :
    (s.apply (.allocateUserSlot procIdx)).Inv := by
  unfold Inv FutexSystem.apply
  rw [setPhase_phase]
  have hretired := hs.retire procIdx (fun _ => Sublist.refl _) fun _ _ hwaiter _ => hwaiter
  exact hretired.withOs (allocateUserSlot_inv hs.inv hfresh)
    fun _ => hs.inv.taskBlocked_allocateUserSlot

lemma Inv.exit (hs : s.Inv) (hcurrent : s.os.sched.currentProc = some procIdx)
    (hphase : s.phase procIdx = .idle) :
    ({ s.cleanupFutexWaiters procIdx with os := s.os.scheduleExit }).Inv := by
  have huser : s.os.sched.currentProc.isSome := by simp [hcurrent]
  have hretired := hs.retire procIdx
    (fun key => (filter_sublist : ((s.cleanupFutexWaiters procIdx).queues key).Sublist _))
    fun _ waiter hwaiter hne => mem_filter.mpr ⟨hwaiter, by simpa using hne⟩
  rw [← hphase, update_eq_self] at hretired
  exact hretired.withOs (scheduleExit_inv hs.inv huser)
    fun _ => hs.inv.taskBlocked_scheduleExit huser

def Step : FutexSystem → FutexEvent → FutexSystem → Prop :=
  Guarded (fun s event => s.Legal event ∧ s.Keeps event) apply

lemma Step.inv {next : FutexSystem} {event : FutexEvent} (hs : s.Inv)
    (hstep : Step s event next) : next.Inv := by
  obtain ⟨⟨hlegal, hkeeps⟩, rfl⟩ := hstep
  cases event
  case' check | enqueue | block | dequeue | store | wake | exit =>
    -- the current process is in the phase that the event is a step of, or nothing happens
    refine onCurrent_of hs fun procIdx hcurrent => ?_
    split
    on_goal 2 => trivial
    rename_i hphase
  case check => exact hs.checkValue procIdx ..
  case enqueue =>
    show Inv _
    unfold Inv enqueueWaiter
    rw [setPhase_phase]
    exact hs.enqueue hphase
  case block => exact hs.blockWaiter hcurrent hphase _
  case dequeue => exact hs.dequeueWaiter procIdx _ _
  case store => exact hs
  case wake =>
    rw [hs.futexWake_eq]
    exact hs.wake (hkeeps procIdx hcurrent)
  case exit => exact hs.exit hcurrent hphase
  case tick now =>
    exact hs.withOs (tickSleepQueue_inv hs.inv now) fun _ => hs.inv.taskBlocked_tickSleepQueue
  case wakeTask procIdx =>
    exact hs.withOs (wakeTask_inv hs.inv procIdx)
      fun _ hblocked => (hs.inv.taskBlocked_wakeTask hblocked).1
  case schedule => exact hs.withOs (schedule_inv hs.inv) fun _ => hs.inv.taskBlocked_schedule
  case allocateUserSlot => exact hs.allocateUserSlot hlegal
  case setTaskClass procIdx schedClass =>
    exact hs.withOs (setTaskClass_inv hs.inv procIdx schedClass)
      fun _ => hs.inv.taskBlocked_setTaskClass

/-- A waiter that is still blocked has missed no `futex_wake` large enough to
reach it, and a `futex_wake` of `n` releases and counts the first `n` waiters in
the order they came. -/
structure FutexSound (s : FutexSystem) : Prop where
  noLostWakeup : ∀ procIdx key timeout, s.phase procIdx = .waiting key timeout →
    s.os.TaskBlocked procIdx → s.sufficed procIdx = false
  inOrder : ∀ key, ((s.queues key).map FutexWaiter.procIdx).Sublist
    ((s.log.filter fun entry => entry.1 = key).map Prod.snd)
  releases : ∀ key n, ∃ released rest, s.queues key = released ++ rest ∧
    (s.futexWake key n).1.queues key = rest ∧
    (s.futexWake key n).2 = released.length ∧ released.length ≤ n ∧
    (released.length < n → rest = []) ∧
    ∀ waiter ∈ released, ¬(s.futexWake key n).1.os.TaskBlocked waiter.procIdx

lemma Inv.futexSound (hs : s.Inv) : s.FutexSound where
  noLostWakeup := fun procIdx key timeout hphase hblocked =>
    hs.unserved procIdx (.inr ⟨⟨key, timeout, hphase⟩, hblocked⟩)
  inOrder := hs.ordered
  releases := by
    intro key n
    refine ⟨(s.queues key).take n, (s.queues key).drop n, (take_append_drop n _).symm, ?_⟩
    rw [hs.futexWake_eq]
    refine ⟨update_self .., rfl, length_take_le n _, fun hless => ?_, ?_⟩
    · refine drop_eq_nil_of_le ?_
      rw [length_take] at hless
      omega
    · intro waiter hwaiter hblocked
      exact (taskBlocked_wakeAll hs.inv hblocked).2 waiter hwaiter rfl

/-- In every run in which no `futex_wake` falls between the value read and the
blocking of a waiter it could reach, no waiter loses a wake-up. -/
theorem run_futexSound {root : Nat → Nat} {memory : FutexKey → Nat} {events : List FutexEvent}
    {s : FutexSystem} (hrun : Transition.Run Step (boot root memory) events s) : s.FutexSound :=
  (hrun.invariant (fun _ _ _ hs hstep => hstep.inv hs) (boot_inv root memory)).futexSound

def after (events : List FutexEvent) : FutexSystem :=
  events.foldl apply (boot (fun _ => 0) (fun _ => 0))

/-- Thread 7 waits on a futex; thread 8 changes it and wakes one waiter. -/
def waitThenWake : List FutexEvent :=
  [.allocateUserSlot 7, .allocateUserSlot 8, .schedule, .check 64 0 none, .enqueue, .block 0,
    .store 64 1, .wake 64 1]

theorem run_futexSound_waitThenWake :
    (after waitThenWake).result 8 = 1 ∧ ¬(after waitThenWake).os.TaskBlocked 7 ∧
      (after waitThenWake).FutexSound := by
  have hrun : Run Step (boot (fun _ => 0) fun _ => 0) waitThenWake
      (after waitThenWake) := Run.of_allowed (by decide)
  exact ⟨by decide, by decide, run_futexSound hrun⟩

def AnyStep : FutexSystem → FutexEvent → FutexSystem → Prop :=
  Guarded Legal apply

/-- Thread 8 changes the value and wakes when thread 7 has read the old value
and is not queued yet. -/
def wakeBeforeEnqueue : List FutexEvent :=
  [.allocateUserSlot 7, .allocateUserSlot 8, .schedule, .check 64 0 none, .schedule, .schedule,
    .schedule, .store 64 1, .wake 64 1, .schedule, .schedule, .schedule, .enqueue, .block 0]

theorem wakeup_lost : Transition.Run AnyStep (boot (fun _ => 0) fun _ => 0) wakeBeforeEnqueue
      (after wakeBeforeEnqueue) ∧
    (after wakeBeforeEnqueue).phase 7 = .waiting (0, 64) none ∧
    (after wakeBeforeEnqueue).os.TaskBlocked 7 ∧
    (after wakeBeforeEnqueue).memory (0, 64) = 1 ∧
    (after wakeBeforeEnqueue).sufficed 7 = true := by
  refine ⟨Run.of_allowed (by decide), ?_⟩
  decide

end FutexSystem

end KarteOs.Syscall

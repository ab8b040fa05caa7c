import KarteOs.Sched.Blocking

/-! # Sleeping under interleaving

`sleep_until` enters the sleep queue in one critical section and blocks in
another, and both the timer and `wake_task` take an entry out before they look
at the task's state. Here every critical section is a step of its own: ticks
and wake-ups that have taken an entry and not yet reached the scheduler lock
are in flight, and a tick may lose the race for that lock.
-/

namespace KarteOs.Sched

open Function SchedState FirstMatch Transition List Option

namespace SchedState

variable {s : SchedState}

def SleepKeys (s : SchedState) : Prop :=
  (s.sleepq.map Prod.fst).Nodup

lemma mem_queueSleep (hkeys : s.SleepKeys) (slot wakeTick : Nat) (entry : Nat × Nat) :
    entry ∈ (s.queueSleep slot wakeTick).sleepq ↔
      entry = (slot, wakeTick) ∨ entry.1 ≠ slot ∧ entry ∈ s.sleepq := by
  unfold queueSleep
  cases hupdate : updateFirst (fun entry => entry.1 == slot)
      (fun entry => (entry.1, wakeTick)) s.sleepq with
  | none =>
    have hnone := updateFirst_eq_none hupdate
    simp only [getD_none, mem_append, mem_singleton]
    constructor
    · rintro (hmem | rfl)
      · exact .inr ⟨by simpa using hnone entry hmem, hmem⟩
      · exact .inl rfl
    · rintro (rfl | ⟨_, hmem⟩)
      · exact .inr rfl
      · exact .inl hmem
  | some next =>
    obtain ⟨before, ⟨key, old⟩, after, hold, rfl, hkey, _⟩ := updateFirst_eq_some hupdate
    obtain rfl : key = slot := by simpa using hkey
    rw [SleepKeys, hold, map_append, map_cons, nodup_append, nodup_cons] at hkeys
    obtain ⟨_, ⟨hafter, _⟩, hdisjoint⟩ := hkeys
    -- No other entry has this key, so the rest of the queue is kept.
    have hother : ∀ other ∈ before ++ after, other.1 ≠ key := by
      rintro other hmem rfl
      rcases mem_append.mp hmem with hmem | hmem
      · exact hdisjoint other.1 (List.mem_map_of_mem hmem) other.1 (by simp) rfl
      · exact hafter (List.mem_map.mpr ⟨other, hmem, rfl⟩)
    simp only [getD_some, hold, mem_append, mem_cons]
    constructor
    · rintro (hmem | rfl | hmem)
      · exact .inr ⟨hother entry (by simp [hmem]), .inl hmem⟩
      · exact .inl rfl
      · exact .inr ⟨hother entry (by simp [hmem]), .inr (.inr hmem)⟩
    · rintro (rfl | ⟨hne, hmem | rfl | hmem⟩)
      · exact .inr (.inl rfl)
      · exact .inl hmem
      · exact absurd rfl hne
      · exact .inr (.inr hmem)

lemma queueSleep_keys (hkeys : s.SleepKeys) (slot wakeTick : Nat) :
    (s.queueSleep slot wakeTick).SleepKeys := by
  unfold queueSleep SleepKeys
  cases hupdate : updateFirst (fun entry => entry.1 == slot)
      (fun entry => (entry.1, wakeTick)) s.sleepq with
  | none =>
    have hnone := updateFirst_eq_none hupdate
    simp only [getD_none, map_append, map_cons, map_nil]
    refine nodup_append.mpr ⟨hkeys, nodup_singleton _, ?_⟩
    rintro key hkey _ hslot rfl
    obtain ⟨entry, hentry, rfl⟩ := List.mem_map.mp hkey
    have hfirst := hnone entry hentry
    simp only [mem_singleton] at hslot
    simp [hslot] at hfirst
  | some next =>
    obtain ⟨before, entry, after, hold, rfl, _, _⟩ := updateFirst_eq_some hupdate
    rw [SleepKeys, hold] at hkeys
    simpa using hkeys

lemma filter_keys (hkeys : s.SleepKeys) (p : Nat × Nat → Bool) :
    { s with sleepq := s.sleepq.filter p }.SleepKeys :=
  hkeys.sublist (filter_sublist.map _)

variable (s : SchedState)

@[simp] lemma blocked_queueSleep (slot wakeTick other : Nat) :
    (s.queueSleep slot wakeTick).Blocked other ↔ s.Blocked other :=
  Iff.rfl

@[simp] lemma scheduleBlock_sleepq : s.scheduleBlock.sleepq = s.sleepq := by
  unfold scheduleBlock
  split <;> rfl

@[simp] lemma schedule_sleepq : s.schedule.sleepq = s.sleepq := by
  have hreschedule : s.reschedule.sleepq = s.sleepq := by
    unfold reschedule
    dsimp only
    split <;> rfl
  unfold schedule
  split
  · split
    · rfl
    · exact hreschedule
  · exact hreschedule

@[simp] lemma wakeSlots_sleepq (slots : List Nat) : (s.wakeSlots slots).sleepq = s.sleepq := by
  induction slots generalizing s with
  | nil => rfl
  | cons slot slots ih => exact ih (s.wakeSlot slot)

@[simp] lemma allocateUserSlot_sleepq (procIdx : Nat) :
    (s.allocateUserSlot procIdx).1.sleepq = s.sleepq := by
  unfold allocateUserSlot
  dsimp only
  split <;> rfl

@[simp] lemma setTaskClass_sleepq (procIdx : Nat) (schedClass : SchedClass) :
    (s.setTaskClass procIdx schedClass).1.sleepq = s.sleepq := by
  unfold setTaskClass
  split
  · rfl
  · split
    · rfl
    · split <;> rfl

@[simp] lemma scheduleExit_sleepq :
    s.scheduleExit.sleepq = s.sleepq.filter fun entry => entry.1 != s.running := by
  unfold scheduleExit
  dsimp only
  split <;> rfl

end SchedState

inductive Phase
  | awake
  /-- Its entry is queued; it has not blocked yet. -/
  | queued (wakeTick : Nat)
  /-- It blocked because of `sleep_until wakeTick`. -/
  | asleep (wakeTick : Nat)
deriving DecidableEq

/-- The kernel with the position of every task and of every waker. -/
structure SleepSystem where
  os : SchedState
  clock : Nat
  phase : Nat → Phase
  /-- For each tick between its two sections, the slots it drained. -/
  ticks : List (List Nat)
  /-- The slots of the `wake_task` calls between their two sections. -/
  wakers : List Nat

inductive SleepEvent
  | advance (ms : Nat)
  | queueSleep (wakeTick : Nat)
  | scheduleBlock
  | drain
  | drainContended
  | wakeDrained (slots : List Nat)
  | wakeContended (slots : List Nat)
  | removeSleep (procIdx : Nat)
  | wakeRemoved (slot : Nat)
  | schedule
  | allocateUserSlot (procIdx : Nat)
  | setTaskClass (procIdx : Nat) (schedClass : SchedClass)
  | scheduleExit

namespace SleepSystem

def boot : SleepSystem :=
  { os := .init, clock := 0, phase := fun _ => .awake, ticks := [], wakers := [] }

def setPhase (s : SleepSystem) (slot : Nat) (phase : Phase) : SleepSystem :=
  { s with phase := update s.phase slot phase }

/-- What the current task becomes when it blocks: asleep if it is in
`sleep_until`, and otherwise waiting for something else. -/
def blockedPhase : Phase → Phase
  | .queued wakeTick => .asleep wakeTick
  | .awake | .asleep _ => .awake

variable (s : SleepSystem)

def apply : SleepEvent → SleepSystem
  | .advance ms => { s with clock := s.clock + ms }
  | .queueSleep wakeTick =>
    { s with os := s.os.queueSleep s.os.running wakeTick }.setPhase s.os.running
      (.queued wakeTick)
  | .scheduleBlock =>
    { s with os := s.os.scheduleBlock }.setPhase s.os.running
      (blockedPhase (s.phase s.os.running))
  | .drain =>
    { s with
      os := s.os.drainSleepers s.clock
      ticks := if s.os.dueSlots s.clock = [] then s.ticks
        else s.os.dueSlots s.clock :: s.ticks }
  | .drainContended => s
  | .wakeDrained slots => { s with os := s.os.wakeSlots slots, ticks := s.ticks.erase slots }
  | .wakeContended slots => { s with ticks := s.ticks.erase slots }
  | .removeSleep procIdx =>
    match s.os.procSlotGet procIdx with
    | none => s
    | some slot => { s with os := s.os.removeSleep slot, wakers := slot :: s.wakers }
  | .wakeRemoved slot => { s with os := s.os.wakeSlot slot, wakers := s.wakers.erase slot }
  | .schedule => { s with os := s.os.schedule }
  | .allocateUserSlot procIdx =>
    match s.os.allocateUserSlot procIdx with
    | (os, some slot) => { s with os }.setPhase slot .awake
    | (os, none) => { s with os }
  | .setTaskClass procIdx schedClass => { s with os := (s.os.setTaskClass procIdx schedClass).1 }
  | .scheduleExit => { s with os := s.os.scheduleExit }.setPhase s.os.running .awake

/-- The task that has the processor is a user task outside `sleep_until`. -/
def CurrentFree : Prop :=
  s.os.sched.currentProc.isSome = true ∧ ∀ wakeTick, s.phase s.os.running ≠ .queued wakeTick

def Legal : SleepEvent → Prop
  | .queueSleep wakeTick => s.CurrentFree ∧ s.clock < wakeTick
  | .scheduleBlock => s.os.sched.currentProc.isSome = true
  | .wakeDrained slots | .wakeContended slots => slots ∈ s.ticks
  | .wakeRemoved slot => slot ∈ s.wakers
  | .allocateUserSlot procIdx => s.os.Fresh procIdx
  | .scheduleExit => s.CurrentFree
  | _ => True

def Sleeping (slot wakeTick : Nat) : Prop :=
  s.phase slot = .asleep wakeTick ∧ s.os.Blocked slot

/-- The slot has been taken by a tick or a waker that still has to deliver. -/
def InFlight (slot : Nat) : Prop :=
  (∃ slots ∈ s.ticks, slot ∈ slots) ∨ slot ∈ s.wakers

def Covered (slot : Nat) : Prop :=
  (∃ wakeTick, (slot, wakeTick) ∈ s.os.sleepq) ∨ s.InFlight slot

def Waiting (slot : Nat) : Prop :=
  (∃ wakeTick, s.phase slot = .queued wakeTick) ∨ ∃ wakeTick, s.Sleeping slot wakeTick

/-- A delivery does not spend the only wake-up of a task that has queued itself
and not blocked yet, and a tick that loses the scheduler lock does not hold the
only wake-up of a waiting task. -/
def Keeps : SleepEvent → Prop
  | .wakeDrained slots => ∀ slot ∈ slots, (∃ wakeTick, s.phase slot = .queued wakeTick) →
      { s with ticks := s.ticks.erase slots }.Covered slot
  | .wakeContended slots => ∀ slot ∈ slots, s.Waiting slot →
      { s with ticks := s.ticks.erase slots }.Covered slot
  | .wakeRemoved slot => (∃ wakeTick, s.phase slot = .queued wakeTick) →
      { s with wakers := s.wakers.erase slot }.Covered slot
  | _ => True

structure Inv (s : SleepSystem) : Prop where
  os : s.os.Inv
  keys : s.os.SleepKeys
  /-- An entry carries the time its task asked for. -/
  deadline : ∀ slot wakeTick entry, s.phase slot = .queued wakeTick ∨
    s.phase slot = .asleep wakeTick → (slot, entry) ∈ s.os.sleepq → entry = wakeTick
  covered : ∀ slot, s.Waiting slot → s.Covered slot

lemma boot_inv : boot.Inv where
  os := init_inv
  keys := nodup_nil
  deadline := by simp [boot]
  covered := by rintro slot (⟨wakeTick, hphase⟩ | ⟨wakeTick, hphase, _⟩) <;> cases hphase

variable {s : SleepSystem} {os : SchedState}

section
variable (hs : s.Inv)
include hs

lemma Inv.withOs (hos : os.Inv) (hsub : os.sleepq.Sublist s.os.sleepq)
    (hkept : ∀ slot time, s.Waiting slot → (slot, time) ∈ s.os.sleepq → (slot, time) ∈ os.sleepq)
    (hblocked : ∀ slot, os.Blocked slot → s.os.Blocked slot) : { s with os }.Inv where
  os := hos
  keys := hs.keys.sublist (hsub.map _)
  deadline := fun slot wakeTick entry hphase hentry =>
    hs.deadline slot wakeTick entry hphase (hsub.subset hentry)
  covered := by
    intro slot hwaiting
    have hold : s.Waiting slot :=
      hwaiting.imp_right fun ⟨wakeTick, hphase, hslot⟩ => ⟨wakeTick, hphase, hblocked slot hslot⟩
    exact (hs.covered slot hold).imp_left fun ⟨wakeTick, hentry⟩ =>
      ⟨wakeTick, hkept slot wakeTick hold hentry⟩

lemma Inv.withSched (hos : os.Inv) (hsleepq : os.sleepq = s.os.sleepq)
    (hblocked : ∀ slot, os.Blocked slot → s.os.Blocked slot) : { s with os }.Inv :=
  hs.withOs hos (by rw [hsleepq]) (fun _ _ _ hentry => hsleepq.symm ▸ hentry) hblocked

lemma Inv.setAwake (slot : Nat) : (s.setPhase slot .awake).Inv := by
  have hphase : ∀ other phase, phase ≠ .awake →
      update s.phase slot .awake other = phase → s.phase other = phase := by
    intro other phase hphase heq
    rcases eq_or_ne other slot with rfl | hne
    · rw [update_self] at heq
      exact absurd heq.symm hphase
    · rwa [update_of_ne hne] at heq
  refine ⟨hs.os, hs.keys, ?_, ?_⟩
  · intro other wakeTick entry hother
    exact hs.deadline other wakeTick entry
      (hother.imp (hphase other _ (by simp)) (hphase other _ (by simp)))
  · intro other hwaiting
    refine hs.covered other (hwaiting.imp ?_ ?_)
    · exact fun ⟨wakeTick, hother⟩ => ⟨wakeTick, hphase other _ (by simp) hother⟩
    · exact fun ⟨wakeTick, hother, hblocked⟩ =>
        ⟨wakeTick, hphase other _ (by simp) hother, hblocked⟩

lemma Inv.queueSleep (wakeTick : Nat) : (s.apply (.queueSleep wakeTick)).Inv := by
  have hmem := mem_queueSleep hs.keys s.os.running wakeTick
  refine ⟨hs.os.withSleepq _, queueSleep_keys hs.keys .., ?_, ?_⟩
  · intro slot time entry hphase hentry
    rcases (hmem _).mp hentry with heq | ⟨hne, hold⟩
    · cases heq
      simpa [apply, setPhase] using hphase
    · refine hs.deadline slot time entry ?_ hold
      simpa [apply, setPhase, update_of_ne hne] using hphase
  · intro slot hwaiting
    rcases eq_or_ne slot s.os.running with rfl | hne
    · exact .inl ⟨wakeTick, (hmem _).mpr (.inl rfl)⟩
    · have hold : s.Waiting slot := by
        simpa [Waiting, Sleeping, apply, setPhase, update_of_ne hne] using hwaiting
      refine (hs.covered slot hold).imp_left fun ⟨time, hentry⟩ => ⟨time, ?_⟩
      exact (hmem _).mpr (.inr ⟨hne, hentry⟩)

lemma Inv.scheduleBlock (huser : s.os.sched.currentProc.isSome) : (s.apply .scheduleBlock).Inv := by
  have hblocked := hs.os.blocked_scheduleBlock huser
  rw [← hs.os.running] at hblocked
  have hself : ∀ time, blockedPhase (s.phase s.os.running) = .queued time ∨
      blockedPhase (s.phase s.os.running) = .asleep time → s.phase s.os.running = .queued time := by
    intro time
    cases s.phase s.os.running <;> simp [blockedPhase]
  refine ⟨scheduleBlock_inv hs.os, ?_, ?_, ?_⟩
  · show (s.os.scheduleBlock.sleepq.map Prod.fst).Nodup
    rw [scheduleBlock_sleepq]
    exact hs.keys
  · intro slot time entry hphase hentry
    replace hentry : (slot, entry) ∈ s.os.sleepq := by simpa [apply, setPhase] using hentry
    rcases eq_or_ne slot s.os.running with rfl | hne
    · refine hs.deadline _ time entry (.inl (hself time ?_)) hentry
      simpa [apply, setPhase] using hphase
    · refine hs.deadline slot time entry ?_ hentry
      simpa [apply, setPhase, update_of_ne hne] using hphase
  · intro slot hwaiting
    have hold : s.Waiting slot := by
      rcases eq_or_ne slot s.os.running with rfl | hne
      · refine .inl ?_
        rcases hwaiting with ⟨time, hphase⟩ | ⟨time, hphase, _⟩
        · exact ⟨time, hself time (.inl (by simpa [apply, setPhase] using hphase))⟩
        · exact ⟨time, hself time (.inr (by simpa [apply, setPhase] using hphase))⟩
      · have hsame : s.os.scheduleBlock.Blocked slot ↔ s.os.Blocked slot := by
          simp [hblocked slot, hne]
        simpa [Waiting, Sleeping, apply, setPhase, update_of_ne hne, hsame] using hwaiting
    refine (hs.covered slot hold).imp_left fun ⟨time, hentry⟩ => ⟨time, ?_⟩
    simpa [apply, setPhase] using hentry

lemma Inv.drain : (s.apply .drain).Inv := by
  refine ⟨hs.os.withSleepq _, filter_keys hs.keys _, ?_, ?_⟩
  · intro slot time entry hphase hentry
    exact hs.deadline slot time entry hphase (mem_of_mem_filter hentry)
  · intro slot hwaiting
    have hticks : ∀ slots ∈ s.ticks, slots ∈ (s.apply .drain).ticks := by
      intro slots hslots
      simp only [apply]
      split
      · exact hslots
      · exact mem_cons_of_mem _ hslots
    rcases hs.covered slot hwaiting with ⟨time, hentry⟩ | ⟨slots, hslots, hslot⟩ | hwaker
    · by_cases hdue : time ≤ s.clock
      · have hmem : slot ∈ s.os.dueSlots s.clock :=
          List.mem_map.mpr ⟨(slot, time), mem_filter.mpr ⟨hentry, by simpa using hdue⟩, rfl⟩
        refine .inr (.inl ⟨_, ?_, hmem⟩)
        simp [apply, ne_nil_of_mem hmem]
      · exact .inl ⟨time, mem_filter.mpr ⟨hentry, by simpa using hdue⟩⟩
    · exact .inr (.inl ⟨slots, hticks slots hslots, hslot⟩)
    · exact .inr (.inr hwaker)

end

variable {slots : List Nat} {slot : Nat}

lemma Covered.eraseTick (hcovered : s.Covered slot) (hslot : slot ∉ slots) :
    { s with ticks := s.ticks.erase slots }.Covered slot := by
  refine hcovered.imp_right (Or.imp_left fun ⟨others, hothers, hmem⟩ => ⟨others, ?_, hmem⟩)
  refine (mem_erase_of_ne ?_).mpr hothers
  rintro rfl
  exact hslot hmem

section
variable (hs : s.Inv)
include hs

lemma Inv.wakeDrained (hkeeps : s.Keeps (.wakeDrained slots)) :
    (s.apply (.wakeDrained slots)).Inv := by
  have hblocked := hs.os.blocked_wakeSlots slots
  have hsleepq : (s.os.wakeSlots slots).sleepq = s.os.sleepq := wakeSlots_sleepq _ _
  have hinv : { s with os := s.os.wakeSlots slots }.Inv :=
    hs.withSched (wakeSlots_inv hs.os slots) hsleepq fun slot h => ((hblocked slot).mp h).1
  refine ⟨hinv.os, hinv.keys, hinv.deadline, fun slot hwaiting => ?_⟩
  have hcovered : { s with ticks := s.ticks.erase slots }.Covered slot := by
    by_cases hslot : slot ∈ slots
    · -- A blocked task was just woken, so this one has only queued itself.
      refine hkeeps slot hslot (hwaiting.resolve_right ?_)
      rintro ⟨time, _, hslotBlocked⟩
      exact ((hblocked slot).mp hslotBlocked).2 hslot
    · refine .eraseTick (hs.covered slot (hwaiting.imp_right ?_)) hslot
      rintro ⟨time, hphase, hslotBlocked⟩
      exact ⟨time, hphase, ((hblocked slot).mp hslotBlocked).1⟩
  refine hcovered.imp_left fun ⟨time, hentry⟩ => ⟨time, ?_⟩
  show (slot, time) ∈ (s.os.wakeSlots slots).sleepq
  exact hsleepq.symm ▸ hentry

lemma Inv.wakeContended (hkeeps : s.Keeps (.wakeContended slots)) :
    (s.apply (.wakeContended slots)).Inv := by
  refine ⟨hs.os, hs.keys, hs.deadline, fun slot hwaiting => ?_⟩
  by_cases hslot : slot ∈ slots
  · exact hkeeps slot hslot hwaiting
  · exact (hs.covered slot hwaiting).eraseTick hslot

lemma Inv.removeSleep (procIdx : Nat) : (s.apply (.removeSleep procIdx)).Inv := by
  simp only [apply]
  split
  · exact hs
  next removed _ =>
    refine ⟨hs.os.withSleepq _, filter_keys hs.keys _, ?_, ?_⟩
    · intro slot time entry hphase hentry
      exact hs.deadline slot time entry hphase (mem_of_mem_filter hentry)
    · intro slot hwaiting
      rcases eq_or_ne slot removed with rfl | hne
      · exact .inr (.inr (.head _))
      · refine (hs.covered slot hwaiting).imp ?_ (Or.imp_right (mem_cons_of_mem _))
        exact fun ⟨time, hentry⟩ => ⟨time, mem_filter.mpr ⟨hentry, by simpa using hne⟩⟩

lemma Inv.wakeRemoved {removed : Nat} (hkeeps : s.Keeps (.wakeRemoved removed)) :
    (s.apply (.wakeRemoved removed)).Inv := by
  have hblocked := hs.os.blocked_wakeSlot removed
  have hinv : { s with os := s.os.wakeSlot removed }.Inv :=
    hs.withSched (wakeSlot_inv hs.os removed) rfl fun slot h => ((hblocked slot).mp h).1
  refine ⟨hinv.os, hinv.keys, hinv.deadline, fun slot hwaiting => ?_⟩
  show { s with wakers := s.wakers.erase removed }.Covered slot
  rcases eq_or_ne slot removed with rfl | hne
  · refine hkeeps (hwaiting.resolve_right ?_)
    rintro ⟨time, _, hslotBlocked⟩
    exact ((hblocked slot).mp hslotBlocked).2 rfl
  · refine (hs.covered slot (hwaiting.imp_right ?_)).imp_right
      (Or.imp_right (mem_erase_of_ne hne).mpr)
    rintro ⟨time, hphase, hslotBlocked⟩
    exact ⟨time, hphase, ((hblocked slot).mp hslotBlocked).1⟩

lemma Inv.allocateUserSlot {procIdx : Nat} (hfresh : s.os.Fresh procIdx) :
    (s.apply (.allocateUserSlot procIdx)).Inv := by
  have hos := allocateUserSlot_inv hs.os hfresh
  have hsleepq := allocateUserSlot_sleepq s.os procIdx
  have hblocked := hs.os.blocked_allocateUserSlot procIdx
  simp only [apply]
  split
  next os slot halloc =>
    rw [halloc] at hos hsleepq hblocked
    exact (hs.withSched hos hsleepq fun other => (hblocked other).mp).setAwake slot
  next os halloc =>
    rw [halloc] at hos hsleepq hblocked
    exact hs.withSched hos hsleepq fun other => (hblocked other).mp

lemma Inv.scheduleExit (huser : s.os.sched.currentProc.isSome) : (s.apply .scheduleExit).Inv := by
  have hawake := hs.setAwake s.os.running
  refine hawake.withOs (scheduleExit_inv hs.os huser) ?_ ?_
    fun slot => (hs.os.blocked_scheduleExit huser slot).mp
  · rw [scheduleExit_sleepq]
    exact filter_sublist
  · intro slot time hwaiting hentry
    rw [scheduleExit_sleepq]
    refine mem_filter.mpr ⟨hentry, ?_⟩
    -- The exiting task itself waits for nothing.
    have hne : slot ≠ s.os.running := by
      rintro rfl
      simp [Waiting, Sleeping, setPhase] at hwaiting
    simpa using hne

end

def Step (s : SleepSystem) (event : SleepEvent) (next : SleepSystem) : Prop :=
  s.Legal event ∧ s.Keeps event ∧ next = s.apply event

lemma Step.inv {next : SleepSystem} {event : SleepEvent} (hs : s.Inv)
    (hstep : s.Step event next) : next.Inv := by
  obtain ⟨hlegal, hkeeps, rfl⟩ := hstep
  cases event with
  | advance ms => exact ⟨hs.os, hs.keys, hs.deadline, hs.covered⟩
  | queueSleep wakeTick => exact hs.queueSleep wakeTick
  | scheduleBlock => exact hs.scheduleBlock hlegal
  | drain => exact hs.drain
  | drainContended => exact hs
  | wakeDrained slots => exact hs.wakeDrained hkeeps
  | wakeContended slots => exact hs.wakeContended hkeeps
  | removeSleep procIdx => exact hs.removeSleep procIdx
  | wakeRemoved slot => exact hs.wakeRemoved hkeeps
  | schedule =>
    exact hs.withSched (schedule_inv hs.os) (schedule_sleepq _)
      fun slot => (hs.os.blocked_schedule slot).mp
  | allocateUserSlot procIdx => exact hs.allocateUserSlot hlegal
  | setTaskClass procIdx schedClass =>
    exact hs.withSched (setTaskClass_inv hs.os procIdx schedClass)
      (setTaskClass_sleepq ..)
      fun slot => (hs.os.blocked_setTaskClass procIdx schedClass slot).mp
  | scheduleExit => exact hs.scheduleExit hlegal.1

/-- A sleeping task keeps its entry until someone has taken it to deliver the
wake-up, and with nothing in flight the next complete tick at or after its time
makes it ready. -/
structure NoLostSleep (s : SleepSystem) : Prop where
  entry_or_inFlight : ∀ slot wakeTick, s.Sleeping slot wakeTick →
    (slot, wakeTick) ∈ s.os.sleepq ∨ s.InFlight slot
  tick_wakes : ∀ slot wakeTick, s.Sleeping slot wakeTick → ¬s.InFlight slot → wakeTick ≤ s.clock →
    (s.os.tickSleepQueue s.clock).Ready slot

lemma Inv.noLostSleep (hs : s.Inv) : s.NoLostSleep := by
  have hentry : ∀ slot wakeTick, s.Sleeping slot wakeTick →
      (slot, wakeTick) ∈ s.os.sleepq ∨ s.InFlight slot := by
    intro slot wakeTick hsleeping
    refine (hs.covered slot (.inr ⟨wakeTick, hsleeping⟩)).imp_left fun ⟨time, hmem⟩ => ?_
    obtain rfl := hs.deadline slot wakeTick time (.inr hsleeping.1) hmem
    exact hmem
  refine ⟨hentry, fun slot wakeTick hsleeping hidle hdue => ?_⟩
  have hmem := (hentry slot wakeTick hsleeping).resolve_right hidle
  refine (hs.os.withSleepq _).ready_wakeSlots (.inr ⟨hsleeping.2, ?_⟩)
  exact List.mem_map.mpr ⟨_, mem_filter.mpr ⟨hmem, by simpa using hdue⟩, rfl⟩

/-- No sleep is lost in a run that spends no wake-up on a task that has not
blocked yet and drops none for want of the scheduler lock. -/
theorem run_noLostSleep {events : List SleepEvent} {s : SleepSystem}
    (hrun : Transition.Run Step boot events s) : s.NoLostSleep :=
  (hrun.invariant (fun _ _ _ hs hstep => hstep.inv hs) boot_inv).noLostSleep

def after (s : SleepSystem) (events : List SleepEvent) : SleepSystem :=
  events.foldl apply s

def overdueSleeper : List SleepEvent :=
  [.allocateUserSlot 7, .schedule, .queueSleep 10, .scheduleBlock, .advance 10]

lemma currentFree_dispatched : (boot.after [.allocateUserSlot 7, .schedule]).CurrentFree := by
  have hphase : (boot.after [.allocateUserSlot 7, .schedule]).phase
      (boot.after [.allocateUserSlot 7, .schedule]).os.running = .awake := by decide
  exact ⟨by decide, fun wakeTick => by simp [hphase]⟩

theorem run_noLostSleep_overdue :
    (boot.after overdueSleeper).Sleeping 1 10 ∧ (boot.after overdueSleeper).NoLostSleep := by
  have hrun : Run Step boot overdueSleeper (boot.after overdueSleeper) := by
    refine .cons ⟨init_fresh 7, trivial, rfl⟩ (.cons ⟨trivial, trivial, rfl⟩
      (.cons ⟨⟨currentFree_dispatched, ?_⟩, trivial, rfl⟩ (.cons ⟨?_, trivial, rfl⟩
        (.cons ⟨trivial, trivial, rfl⟩ (.nil _)))))
    · decide
    · simp only [Legal]
      decide
  refine ⟨⟨by decide, by decide⟩, run_noLostSleep hrun⟩

def AnyStep (s : SleepSystem) (event : SleepEvent) (next : SleepSystem) : Prop :=
  s.Legal event ∧ next = s.apply event

/-- The tick takes the entry and finds the task still running; the task then
blocks. -/
def tickBeforeBlock : List SleepEvent :=
  [.allocateUserSlot 7, .schedule, .queueSleep 10, .advance 10, .drain, .wakeDrained [1],
    .scheduleBlock]

/-- The tick takes the entry of a blocked task and loses the scheduler lock. -/
def tickWithoutLock : List SleepEvent :=
  [.allocateUserSlot 7, .schedule, .queueSleep 10, .scheduleBlock, .advance 10, .drain,
    .wakeContended [1]]

def Lost (s : SleepSystem) : Prop :=
  s.Sleeping 1 10 ∧ ¬s.InFlight 1 ∧ ∀ now, (s.os.tickSleepQueue now).Blocked 1

lemma lost_of_empty (hsleeping : s.Sleeping 1 10) (hticks : s.ticks = [])
    (hwakers : s.wakers = []) (hempty : s.os.sleepq = []) : s.Lost := by
  refine ⟨hsleeping, by simp [InFlight, hticks, hwakers], fun now => ?_⟩
  have htick : (s.os.tickSleepQueue now).sched = s.os.sched := by
    simp [tickSleepQueue, dueSlots, drainSleepers, wakeSlots, hempty]
  rw [Blocked, htick]
  exact hsleeping.2

theorem sleep_lost : (Transition.Run AnyStep boot tickBeforeBlock (boot.after tickBeforeBlock) ∧
      (boot.after tickBeforeBlock).Lost) ∧
    Transition.Run AnyStep boot tickWithoutLock (boot.after tickWithoutLock) ∧
      (boot.after tickWithoutLock).Lost := by
  refine ⟨⟨?_, lost_of_empty ⟨by decide, by decide⟩ (by decide)
      (by decide) (by decide)⟩,
    ?_, lost_of_empty ⟨by decide, by decide⟩ (by decide)
      (by decide) (by decide)⟩
  · refine .cons ⟨init_fresh 7, rfl⟩ (.cons ⟨trivial, rfl⟩
      (.cons ⟨⟨currentFree_dispatched, ?_⟩, rfl⟩ (.cons ⟨trivial, rfl⟩ (.cons ⟨trivial, rfl⟩
        (.cons ⟨?_, rfl⟩ (.cons ⟨?_, rfl⟩ (.nil _)))))))
    · decide
    · simp only [Legal]
      decide
    · simp only [Legal]
      decide
  · refine .cons ⟨init_fresh 7, rfl⟩ (.cons ⟨trivial, rfl⟩
      (.cons ⟨⟨currentFree_dispatched, ?_⟩, rfl⟩ (.cons ⟨?_, rfl⟩ (.cons ⟨trivial, rfl⟩
        (.cons ⟨trivial, rfl⟩ (.cons ⟨?_, rfl⟩ (.nil _)))))))
    · decide
    · simp only [Legal]
      decide
    · simp only [Legal]
      decide

end SleepSystem

end KarteOs.Sched

import KarteOs.Foundation.OrderedMap
import KarteOs.Driver.FdTable
import KarteOs.Syscall.Memory

/-! # Epoll instances and event descriptors

The kernel keeps epoll instances, eventfd counters and timer flags in maps of its
own, each keyed by a bare descriptor number. An instance remembers for each entry the
events it last reported; an edge-triggered entry is reported when they change.
-/

namespace KarteOs.Syscall.Epoll

open Driver Function FdTable

def epollCtlAdd : Nat := 1

def epollCtlDel : Nat := 2

def epollCtlMod : Nat := 3

def epollIn : UInt32 := 0x001

def epollOut : UInt32 := 0x004

def epollHup : UInt32 := 0x010

def epollEt : UInt32 := 0x80000000

def u64Max : Nat := 0xffffffffffffffff

structure EpollEvent where
  events : UInt32
  data : UInt64
deriving DecidableEq

structure EpollEntry where
  event : EpollEvent
  /-- The events last reported, for edge-triggered entries. -/
  lastRevents : UInt32
deriving DecidableEq

namespace EpollEntry

def WatchesInput (entry : EpollEntry) : Prop := entry.event.events &&& epollIn ≠ 0
deriving Decidable

def EdgeTriggered (entry : EpollEntry) : Prop := entry.event.events &&& epollEt ≠ 0
deriving Decidable

end EpollEntry

abbrev EpollInstance := OrderedMap Nat EpollEntry

/-- The epoll and event state of the kernel, shared by all processes. An eventfd is
absent once it is closed; a timer that was never set counts as not expired. -/
structure EpollState where
  instances : Nat → Option EpollInstance
  eventfds : Nat → Option Nat
  timerfds : Nat → Bool

namespace EpollState

def init : EpollState := ⟨fun _ => none, fun _ => none, fun _ => false⟩

def eventfdPeek (s : EpollState) (fd : Nat) : Nat := (s.eventfds fd).getD 0

def timerfdPeek (s : EpollState) (fd : Nat) : Bool := s.timerfds fd

end EpollState

/-- What the terminal, the pipes and the file system answer when they are asked. -/
structure Environment where
  hasInput : Bool
  pipeAvailable : Nat → Nat
  ext4Writable : FileDescriptor → Bool

def isReadable (env : Environment) (s : EpollState) (desc : FileDescriptor) : Bool :=
  match desc.fdType with
  | .stdio => if desc.name = "stdin".toList then env.hasInput else false
  | .pipeRead =>
    match desc.pipeId with
    | some pipeId => env.pipeAvailable pipeId > 0
    | none => false
  | .eventfd => s.eventfdPeek desc.fdNum > 0
  | .timerfd => s.timerfdPeek desc.fdNum
  | _ => false

def isWritable (env : Environment) (desc : FileDescriptor) : Bool :=
  match desc.fdType with
  | .stdio => desc.name ≠ "stdin".toList
  | .pipeWrite => true
  | .pipeRead | .eventfd | .epoll | .timerfd => false
  | .file | .fakeFile _ | .virtualFile | .vfsFile _ | .urandom => true
  | .ext4File => env.ext4Writable desc

/-! ## Collecting events -/

variable (env : Environment)

def openRevents (s : EpollState) (entry : EpollEntry) (desc : FileDescriptor) : UInt32 :=
  (if entry.WatchesInput ∧ isReadable env s desc = true then epollIn else 0) |||
    (if entry.event.events &&& epollOut ≠ 0 ∧ isWritable env desc = true then epollOut else 0)

def revents (s : EpollState) (table : FdTable) (fd : Nat) (entry : EpollEntry) : UInt32 :=
  match table.get fd with
  | some desc => openRevents env s entry desc
  | none => epollHup

/-- A timer whose expiry is seen is reset, under the number of the entry. -/
def resetTimer (s : EpollState) (table : FdTable) (fd : Nat) (entry : EpollEntry) : EpollState :=
  match table.get fd with
  | some desc =>
    if desc.fdType = .timerfd ∧ openRevents env s entry desc &&& epollIn ≠ 0 then
      { s with timerfds := update s.timerfds fd false }
    else s
  | none => s

def suppressed (entry : EpollEntry) (now : UInt32) : Prop :=
  entry.EdgeTriggered ∧ now = entry.lastRevents ∧ now ≠ epollHup
deriving Decidable

def examine (entry : EpollEntry) (now : UInt32) : EpollEntry × List (UInt32 × UInt64) :=
  if suppressed entry now then (entry, [])
  else ({ entry with lastRevents := now }, if now ≠ 0 then [(now, entry.event.data)] else [])

/-- The loop over the entries of an instance: the entries afterwards, the state with the
timers reset, and the events to return. -/
def collectLoop (env : Environment) (table : FdTable) (maxEvents : Nat) :
    List (Nat × EpollEntry) → EpollState → List (UInt32 × UInt64) →
      List (Nat × EpollEntry) × EpollState × List (UInt32 × UInt64)
  | [], s, ready => ([], s, ready)
  | (fd, entry) :: rest, s, ready =>
    if ready.length ≥ maxEvents then ((fd, entry) :: rest, s, ready)
    else
      let pass := examine entry (revents env s table fd entry)
      let result := collectLoop env table maxEvents rest (resetTimer env s table fd entry)
        (ready ++ pass.2)
      ((fd, pass.1) :: result.1, result.2)

lemma collectLoop_keys (table : FdTable) (maxEvents : Nat)
    (entries : List (Nat × EpollEntry)) (s : EpollState) (ready : List (UInt32 × UInt64)) :
    (collectLoop env table maxEvents entries s ready).1.map Prod.fst = entries.map Prod.fst := by
  induction entries generalizing s ready with
  | nil => rfl
  | cons head rest ih =>
    rw [collectLoop]
    split
    · rfl
    · exact congrArg (head.1 :: ·) (ih ..)

def setInstance (s : EpollState) (epfd : Nat) (entries : EpollInstance) : EpollState :=
  { s with instances := update s.instances epfd (some entries) }

lemma setInstance_instances (s : EpollState) (epfd : Nat) (entries : EpollInstance) :
    (setInstance s epfd entries).instances = update s.instances epfd (some entries) :=
  rfl

def collectReadyEvents (env : Environment) (table : FdTable) (s : EpollState)
    (epfd maxEvents : Nat) : EpollState × Except Int (List (UInt32 × UInt64)) :=
  match s.instances epfd with
  | none => (s, .error (-9))
  | some instance_ =>
    let result := collectLoop env table maxEvents instance_.entries s []
    (setInstance result.2.1 epfd (instance_.withEntries result.1 (collectLoop_keys ..)),
      .ok result.2.2)

/-! ## System calls -/

def epollTargetSupported (desc : FileDescriptor) : Bool :=
  match desc.fdType with
  | .stdio | .pipeRead | .pipeWrite | .eventfd | .timerfd => true
  | .epoll | .file | .fakeFile _ | .virtualFile | .urandom | .vfsFile _ | .ext4File => false

def validateEpollTarget (table : FdTable) (fd : Nat) : Except Int Unit :=
  match table.get fd with
  | none => .error (-9)
  | some desc => if epollTargetSupported desc then .ok () else .error (-1)

def sysEpollCtl (table : FdTable) (s : EpollState) (epfd op fd eventPtr : Nat)
    (event : EpollEvent) : EpollState × Int :=
  match s.instances epfd with
  | none => (s, -9)
  | some entries =>
    if op = epollCtlAdd then
      if eventPtr = 0 then (s, -14)
      else
        match validateEpollTarget table fd with
        | .error e => (s, e)
        | .ok () => (setInstance s epfd (entries.insert fd ⟨event, 0⟩), 0)
    else if op = epollCtlMod then
      if eventPtr = 0 then (s, -14)
      else
        match validateEpollTarget table fd with
        | .error e => (s, e)
        | .ok () =>
          match entries.get fd with
          | some _ => (setInstance s epfd (entries.insert fd ⟨event, 0⟩), 0)
          | none => (s, -2)
    else if op = epollCtlDel then
      match entries.get fd with
      | some _ => (setInstance s epfd (entries.erase fd), 0)
      | none => (s, -2)
    else (s, -22)

/-- `epoll_wait` with a zero timeout: the return value and the events written back. -/
def sysEpollPoll (env : Environment) (table : FdTable) (s : EpollState)
    (epfd eventsPtr maxEvents : Nat) : EpollState × Int × List (UInt32 × UInt64) :=
  if maxEvents = 0 ∨ maxEvents > 1024 then (s, -22, [])
  else if eventsPtr = 0 then (s, -14, [])
  else
    match collectReadyEvents env table s epfd maxEvents with
    | (next, .error e) => (next, e, [])
    | (next, .ok ready) => (next, ready.length, ready)

/-- `eventfd_read`: the return value and the counter written to user memory. -/
def eventfdRead (s : EpollState) (fd len : Nat) : EpollState × Int × Option Nat :=
  if len < 8 then (s, -22, none)
  else
    match s.eventfds fd with
    | none => (s, -9, none)
    | some counter =>
      if counter = 0 then (s, -11, none)
      else ({ s with eventfds := update s.eventfds fd (some 0) }, 8, some counter)

/-- The counter update of `eventfd_write`; `val` is what user memory holds. -/
def eventfdWrite (s : EpollState) (fd len val : Nat) : EpollState × Int :=
  if len < 8 then (s, -22)
  else if val = u64Max then (s, -22)
  else
    match s.eventfds fd with
    | none => (s, -9)
    | some counter =>
      ({ s with
        eventfds := update s.eventfds fd (some (min (counter + val) u64Max)) }, 8)

def sysEpollCreate1 (table : FdTable) (s : EpollState) : FdTable × EpollState × Int :=
  match table.allocSpecialFd "epoll" 0 .epoll with
  | (_, none) => (table, s, -24)
  | (table, some fd) => (table, setInstance s fd .empty, fd)

def sysEventfd2 (table : FdTable) (s : EpollState) (initval : Nat) : FdTable × EpollState × Int :=
  match table.allocSpecialFd "eventfd" 0 .eventfd with
  | (_, none) => (table, s, -24)
  | (table, some fd) =>
    (table, { s with eventfds := update s.eventfds fd (some initval) }, fd)

section
variable (s : EpollState)

def closeFd (fd : Nat) : EpollState where
  instances epfd :=
    if epfd = fd then none else (s.instances epfd).map fun entries => entries.erase fd
  eventfds := s.eventfds
  timerfds := update s.timerfds fd false

lemma closeFd_instances (fd epfd : Nat) : (closeFd s fd).instances epfd =
    if epfd = fd then none else (s.instances epfd).map fun entries => entries.erase fd :=
  rfl

def closeEventfd (fd : Nat) : EpollState :=
  { s with eventfds := update s.eventfds fd none }

def cleanupFd (fd : Nat) (desc : FileDescriptor) : EpollState :=
  if desc.fdType = .eventfd then closeEventfd (closeFd s fd) fd else closeFd s fd

end

def sysClose (table : FdTable) (s : EpollState) (fd : Int) : FdTable × EpollState × Int :=
  if fd < 0 ∨ maxFds ≤ fd.toNat then (table, s, errInval)
  else
    match table.take fd.toNat with
    | (_, none) => (table, s, errInval)
    | (table, some desc) => (table, cleanupFd s fd.toNat desc, 0)

def timerExpire (s : EpollState) (fd : Nat) : EpollState :=
  { s with timerfds := update s.timerfds fd true }

variable (table : FdTable)

lemma sysEpollCreate1_cases : (∀ s, sysEpollCreate1 table s = (table, s, -24)) ∨
    ∃ fd, table.firstFree 0 = some fd ∧ ∀ s, sysEpollCreate1 table s =
      (table.setFd fd (.special "epoll" 0 .epoll fd), setInstance s fd .empty, (fd : Int)) := by
  simp only [sysEpollCreate1, allocSpecialFd, allocWith]
  cases table.firstFree 0 with
  | none => exact .inl fun _ => rfl
  | some fd => exact .inr ⟨fd, rfl, fun _ => rfl⟩

lemma sysEventfd2_cases (initval : Nat) : (∀ s, sysEventfd2 table s initval = (table, s, -24)) ∨
    ∃ fd, table.firstFree 0 = some fd ∧ ∀ s, sysEventfd2 table s initval =
      (table.setFd fd (.special "eventfd" 0 .eventfd fd),
        { s with eventfds := update s.eventfds fd (some initval) }, (fd : Int)) := by
  simp only [sysEventfd2, allocSpecialFd, allocWith]
  cases table.firstFree 0 with
  | none => exact .inl fun _ => rfl
  | some fd => exact .inr ⟨fd, rfl, fun _ => rfl⟩

lemma sysClose_cases (fd : Int) : (∀ s, sysClose table s fd = (table, s, errInval)) ∨
    ∃ desc, table.get fd.toNat = some desc ∧ ∀ s, sysClose table s fd =
      (table.setSlot fd.toNat none, cleanupFd s fd.toNat desc, 0) := by
  by_cases hrange : fd < 0 ∨ maxFds ≤ fd.toNat
  · exact .inl fun s => by rw [sysClose, if_pos hrange]
  · cases hget : table.get fd.toNat with
    | none => exact .inl fun s => by rw [sysClose, if_neg hrange, take, hget]
    | some desc => exact .inr ⟨desc, rfl, fun s => by rw [sysClose, if_neg hrange, take, hget]⟩

lemma sysEpollCtl_cases (found : Option EpollInstance)
    (epfd op fd eventPtr : Nat) (event : EpollEvent) :
    (∃ value, ∀ s : EpollState, s.instances epfd = found →
        sysEpollCtl table s epfd op fd eventPtr event = (s, value)) ∨
      ∃ entries next, found = some entries ∧
        (next = entries.insert fd ⟨event, 0⟩ ∨ next = entries.erase fd) ∧
        ∀ s : EpollState, s.instances epfd = found →
          sysEpollCtl table s epfd op fd eventPtr event = (setInstance s epfd next, 0) := by
  cases found with
  | none => exact .inl ⟨-9, fun s hs => by rw [sysEpollCtl, hs]⟩
  | some entries =>
    by_cases hadd : op = epollCtlAdd
    · by_cases hptr : eventPtr = 0
      · exact .inl ⟨-14, fun s hs => by simp [sysEpollCtl, hs, hadd, hptr]⟩
      · cases hvalid : validateEpollTarget table fd with
        | error e => exact .inl ⟨e, fun s hs => by simp [sysEpollCtl, hs, hadd, hptr, hvalid]⟩
        | ok => exact .inr ⟨entries, _, rfl, .inl rfl, fun s hs => by
            simp [sysEpollCtl, hs, hadd, hptr, hvalid]⟩
    by_cases hmod : op = epollCtlMod
    · subst hmod
      by_cases hptr : eventPtr = 0
      · exact .inl ⟨-14, fun s hs => by simp [sysEpollCtl, hs, hadd, hptr]⟩
      · cases hvalid : validateEpollTarget table fd with
        | error e => exact .inl ⟨e, fun s hs => by simp [sysEpollCtl, hs, hadd, hptr, hvalid]⟩
        | ok =>
          cases hget : entries.get fd with
          | none => exact .inl ⟨-2, fun s hs => by simp [sysEpollCtl, hs, hadd, hptr, hvalid, hget]⟩
          | some _ => exact .inr ⟨entries, _, rfl, .inl rfl, fun s hs => by
              simp [sysEpollCtl, hs, hadd, hptr, hvalid, hget]⟩
    by_cases hdel : op = epollCtlDel
    · subst hdel
      cases hget : entries.get fd with
      | none => exact .inl ⟨-2, fun s hs => by simp [sysEpollCtl, hs, hadd, hmod, hget]⟩
      | some _ => exact .inr ⟨entries, _, rfl, .inr rfl, fun s hs => by
          simp [sysEpollCtl, hs, hadd, hmod, hget]⟩
    · exact .inl ⟨-22, fun s hs => by simp [sysEpollCtl, hs, hadd, hmod, hdel]⟩

variable (found : Option Nat)

lemma eventfdWrite_cases (fd len val : Nat) :
    (∃ value, value ≠ 8 ∧ ∀ s : EpollState, s.eventfds fd = found →
        eventfdWrite s fd len val = (s, value)) ∨
      ∃ counter, found = some counter ∧ ∀ s : EpollState, s.eventfds fd = found →
        eventfdWrite s fd len val =
          ({ s with eventfds := update s.eventfds fd (some (min (counter + val) u64Max)) }, 8) := by
  by_cases hlen : len < 8
  · exact .inl ⟨-22, by decide, fun s _ => by rw [eventfdWrite, if_pos hlen]⟩
  by_cases hval : val = u64Max
  · exact .inl ⟨-22, by decide, fun s _ => by rw [eventfdWrite, if_neg hlen, if_pos hval]⟩
  cases found with
  | none =>
    exact .inl ⟨-9, by decide, fun s hs => by rw [eventfdWrite, if_neg hlen, if_neg hval, hs]⟩
  | some counter =>
    exact .inr ⟨counter, rfl, fun s hs => by rw [eventfdWrite, if_neg hlen, if_neg hval, hs]⟩

lemma eventfdRead_cases (fd len : Nat) : (∃ value, ∀ s : EpollState, s.eventfds fd = found →
      eventfdRead s fd len = (s, value, none)) ∨
    ∃ counter, 8 ≤ len ∧ ∀ s : EpollState, s.eventfds fd = found → eventfdRead s fd len =
      ({ s with eventfds := update s.eventfds fd (some 0) }, 8, some counter) := by
  by_cases hlen : len < 8
  · exact .inl ⟨-22, fun s _ => by rw [eventfdRead, if_pos hlen]⟩
  cases found with
  | none => exact .inl ⟨-9, fun s hs => by rw [eventfdRead, if_neg hlen, hs]⟩
  | some counter =>
    by_cases hzero : counter = 0
    · exact .inl ⟨-11, fun s hs => by simp [eventfdRead, hlen, hs, hzero]⟩
    · exact .inr ⟨counter, Nat.not_lt.mp hlen, fun s hs => by simp [eventfdRead, hlen, hs, hzero]⟩

lemma eventfdWrite_instances (s : EpollState) (fd len val : Nat) :
    (eventfdWrite s fd len val).1.instances = s.instances := by
  obtain ⟨_, _, hfails⟩ | ⟨_, _, hnext⟩ := eventfdWrite_cases (s.eventfds fd) fd len val
  · rw [hfails s rfl]
  · rw [hnext s rfl]

lemma eventfdRead_instances (s : EpollState) (fd len : Nat) :
    (eventfdRead s fd len).1.instances = s.instances := by
  obtain ⟨_, hfails⟩ | ⟨_, _, hnext⟩ := eventfdRead_cases (s.eventfds fd) fd len
  · rw [hfails s rfl]
  · rw [hnext s rfl]

/-! ## What the loop does -/

variable {env : Environment} {table : FdTable} {s : EpollState} {fd : Nat} {entry : EpollEntry}
  {desc : FileDescriptor} {maxEvents : Nat} {entries : List (Nat × EpollEntry)}
  {ready : List (UInt32 × UInt64)}

def Signalled (s : EpollState) (desc : FileDescriptor) : Prop :=
  desc.fdType = .eventfd ∧ 0 < s.eventfdPeek desc.fdNum ∨
    desc.fdType = .timerfd ∧ s.timerfdPeek desc.fdNum = true
deriving Decidable

def Resets (table : FdTable) (s : EpollState) (fd : Nat) (entry : EpollEntry) : Prop :=
  ∃ desc, table.get fd = some desc ∧ desc.fdType = .timerfd ∧ entry.WatchesInput ∧
    s.timerfdPeek desc.fdNum = true

lemma openRevents_timerfd (htype : desc.fdType = .timerfd) : openRevents env s entry desc =
    if entry.WatchesInput ∧ s.timerfdPeek desc.fdNum then epollIn else 0 := by
  simp [openRevents, isReadable, isWritable, htype]

lemma openRevents_eventfd (htype : desc.fdType = .eventfd) : openRevents env s entry desc =
    if entry.WatchesInput ∧ 0 < s.eventfdPeek desc.fdNum then epollIn else 0 := by
  simp [openRevents, isReadable, isWritable, htype]

lemma openRevents_signalled (hsignal : Signalled s desc) (hinput : entry.WatchesInput) :
    openRevents env s entry desc = epollIn := by
  rcases hsignal with ⟨htype, hcount⟩ | ⟨htype, hexpired⟩
  · rw [openRevents_eventfd htype, if_pos ⟨hinput, hcount⟩]
  · rw [openRevents_timerfd htype, if_pos ⟨hinput, hexpired⟩]

lemma resetTimer_cases (env : Environment) (table : FdTable) (s : EpollState) (fd : Nat)
    (entry : EpollEntry) : resetTimer env s table fd entry = s ∨
      Resets table s fd entry ∧ resetTimer env s table fd entry =
        { s with timerfds := update s.timerfds fd false } := by
  unfold resetTimer
  split
  next desc hdesc =>
    split
    next hreset =>
      obtain ⟨htype, hinput⟩ := hreset
      rw [openRevents_timerfd htype] at hinput
      have hseen : entry.WatchesInput ∧ s.timerfdPeek desc.fdNum := by
        by_contra hnot
        rw [if_neg hnot] at hinput
        exact hinput rfl
      exact .inr ⟨⟨desc, hdesc, htype, hseen⟩, rfl⟩
    · exact .inl rfl
  · exact .inl rfl

@[simp]
lemma resetTimer_instances : (resetTimer env s table fd entry).instances = s.instances := by
  obtain h | ⟨_, h⟩ := resetTimer_cases env table s fd entry <;> rw [h]

@[simp] lemma resetTimer_eventfds : (resetTimer env s table fd entry).eventfds = s.eventfds := by
  obtain h | ⟨_, h⟩ := resetTimer_cases env table s fd entry <;> rw [h]

lemma resetTimer_timerfds_le {flag : Nat}
    (hset : (resetTimer env s table fd entry).timerfds flag) : s.timerfds flag := by
  obtain h | ⟨_, h⟩ := resetTimer_cases env table s fd entry
  · rwa [h] at hset
  · rw [h] at hset
    rcases eq_or_ne flag fd with rfl | hne
    · simp at hset
    · simpa [hne] using hset

lemma Resets.of_resetTimer {other : Nat} {entry' : EpollEntry}
    (hresets : Resets table (resetTimer env s table fd entry) other entry') :
    Resets table s other entry' := by
  obtain ⟨desc, hdesc, htype, hinput, hexpired⟩ := hresets
  exact ⟨desc, hdesc, htype, hinput, resetTimer_timerfds_le hexpired⟩

lemma signalled_resetTimer (hsignal : Signalled s desc)
    (hkeep : desc.fdType = .timerfd → desc.fdNum = fd → ¬Resets table s fd entry) :
    Signalled (resetTimer env s table fd entry) desc := by
  obtain h | ⟨hresets, h⟩ := resetTimer_cases env table s fd entry
  · rwa [h]
  · rw [h]
    refine hsignal.imp id fun ⟨htype, hexpired⟩ => ⟨htype, ?_⟩
    have hne : desc.fdNum ≠ fd := fun hnum => hkeep htype hnum hresets
    simpa [EpollState.timerfdPeek, hne] using hexpired

lemma collectLoop_instances :
    (collectLoop env table maxEvents entries s ready).2.1.instances = s.instances := by
  induction entries generalizing s ready with
  | nil => rfl
  | cons head rest ih =>
    rw [collectLoop]
    split
    · rfl
    · exact ih.trans resetTimer_instances

lemma signalled_collectLoop (hsignal : Signalled s desc)
    (hkeep : ∀ fd entry, (fd, entry) ∈ entries → desc.fdType = .timerfd → desc.fdNum = fd →
      ¬Resets table s fd entry) :
    Signalled (collectLoop env table maxEvents entries s ready).2.1 desc := by
  induction entries generalizing s ready with
  | nil => exact hsignal
  | cons head rest ih =>
    rw [collectLoop]
    split
    · exact hsignal
    · refine ih (signalled_resetTimer hsignal (hkeep _ _ (.head _))) ?_
      intro fd entry hmem htype hnum hresets
      exact hkeep fd entry (.tail _ hmem) htype hnum hresets.of_resetTimer

lemma length_examine_le (entry : EpollEntry) (now : UInt32) : (examine entry now).2.length ≤ 1 := by
  unfold examine
  split
  · exact Nat.zero_le 1
  · split <;> simp

lemma mem_collectLoop_of_mem {event : UInt32 × UInt64} (hevent : event ∈ ready) :
    event ∈ (collectLoop env table maxEvents entries s ready).2.2 := by
  induction entries generalizing s ready with
  | nil => exact hevent
  | cons head rest ih =>
    rw [collectLoop]
    split
    · exact hevent
    · exact ih (List.mem_append_left _ hevent)

lemma collectLoop_reports (hmem : (fd, entry) ∈ entries) (hdesc : table.get fd = some desc)
    (hroom : ready.length + entries.length ≤ maxEvents) (hinput : entry.WatchesInput)
    (hfresh : entry.EdgeTriggered → entry.lastRevents ≠ epollIn) (hsignal : Signalled s desc)
    (hkeep : ∀ other entry', (other, entry') ∈ entries → (other, entry') ≠ (fd, entry) →
      desc.fdType = .timerfd → desc.fdNum = other → ¬Resets table s other entry') :
    (epollIn, entry.event.data) ∈ (collectLoop env table maxEvents entries s ready).2.2 := by
  induction entries generalizing s ready with
  | nil => cases hmem
  | cons head rest ih =>
    rw [List.length_cons] at hroom
    rw [collectLoop, if_neg (by omega)]
    by_cases hhead : head = (fd, entry)
    · subst hhead
      refine mem_collectLoop_of_mem (List.mem_append_right _ ?_)
      have hnow : revents env s table fd entry = epollIn := by
        rw [revents, hdesc]
        exact openRevents_signalled hsignal hinput
      rw [hnow, examine, if_neg fun hsuppressed => hfresh hsuppressed.1 hsuppressed.2.1.symm]
      simp [epollIn]
    · refine ih ((List.mem_cons.mp hmem).resolve_left (Ne.symm hhead)) ?_ ?_ ?_
      · have hlength := length_examine_le head.2 (revents env s table head.1 head.2)
        rw [List.length_append]
        omega
      · exact signalled_resetTimer hsignal (hkeep _ _ (.head _) hhead)
      · intro other entry' hother hne htype hnum hresets
        exact hkeep other entry' (.tail _ hother) hne htype hnum hresets.of_resetTimer

def Registered (s : EpollState) (epfd fd : Nat) (entry : EpollEntry) : Prop :=
  ∃ entries, s.instances epfd = some entries ∧ entries.get fd = some entry

lemma Registered.unique {epfd : Nat} {other : EpollEntry} (hentry : Registered s epfd fd entry)
    (hother : Registered s epfd fd other) : entry = other := by
  obtain ⟨entries, hentries, hget⟩ := hentry
  obtain ⟨others, hothers, hget'⟩ := hother
  cases hentries.symm.trans hothers
  exact Option.some.inj (hget.symm.trans hget')

lemma collectReadyEvents_none {epfd : Nat} (hnone : s.instances epfd = none) :
    collectReadyEvents env table s epfd maxEvents = (s, .error (-9)) := by
  rw [collectReadyEvents, hnone]

lemma collectReadyEvents_some (env : Environment) (table : FdTable) (maxEvents : Nat)
    {epfd : Nat} {entries : EpollInstance} (hsome : s.instances epfd = some entries) :
    ∃ hkeys, collectReadyEvents env table s epfd maxEvents =
      (setInstance (collectLoop env table maxEvents entries.entries s []).2.1 epfd
          (entries.withEntries (collectLoop env table maxEvents entries.entries s []).1 hkeys),
        .ok (collectLoop env table maxEvents entries.entries s []).2.2) := by
  rw [collectReadyEvents, hsome]
  exact ⟨_, rfl⟩

end KarteOs.Syscall.Epoll

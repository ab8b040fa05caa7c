import KarteOs.Foundation.Unwinding
import KarteOs.Syscall.Epoll

/-! # Epoll state of different processes

Instances, counters and timer flags are kept by descriptor number, for all processes
together, and two processes use the same numbers for different descriptors. What a
process sees is its own only as long as no process with another descriptor table uses
its numbers.
-/

namespace KarteOs.Syscall.Epoll

open Driver Transition Function FdTable OrderedMap Option

/-- The calls that read or change the state; `epoll_wait` has a zero timeout. -/
inductive Call
  | epollCreate1
  | epollCtl (epfd op fd eventPtr : Nat) (event : EpollEvent)
  | epollWait (env : Environment) (epfd eventsPtr maxEvents : Nat)
  | eventfd2 (initval : Nat)
  | eventfdRead (fd len : Nat)
  | eventfdWrite (fd len val : Nat)
  | close (fd : Int)

structure Outcome where
  value : Int
  events : List (UInt32 × UInt64)
  counter : Option Nat
deriving DecidableEq

def perform (table : FdTable) (s : EpollState) : Call → FdTable × EpollState × Outcome
  | .epollCreate1 =>
    let result := sysEpollCreate1 table s
    (result.1, result.2.1, ⟨result.2.2, [], none⟩)
  | .epollCtl epfd op fd eventPtr event =>
    let result := sysEpollCtl table s epfd op fd eventPtr event
    (table, result.1, ⟨result.2, [], none⟩)
  | .epollWait env epfd eventsPtr maxEvents =>
    let result := sysEpollPoll env table s epfd eventsPtr maxEvents
    (table, result.1, ⟨result.2.1, result.2.2, none⟩)
  | .eventfd2 initval =>
    let result := sysEventfd2 table s initval
    (result.1, result.2.1, ⟨result.2.2, [], none⟩)
  | .eventfdRead fd len =>
    let result := eventfdRead s fd len
    (table, result.1, ⟨result.2.1, [], result.2.2⟩)
  | .eventfdWrite fd len val =>
    let result := eventfdWrite s fd len val
    (table, result.1, ⟨result.2, [], none⟩)
  | .close fd =>
    let result := sysClose table s fd
    (result.1, result.2.1, ⟨result.2.2, [], none⟩)

def Call.uses (table : FdTable) : Call → List Nat
  | .epollCreate1 | .eventfd2 _ => (table.firstFree 0).toList
  | .epollCtl epfd _ fd _ _ => [epfd, fd]
  | .epollWait _ epfd _ _ => [epfd]
  | .eventfdRead fd _ | .eventfdWrite fd _ _ => [fd]
  | .close fd => [fd.toNat]

/-! ## A call stays among its numbers -/

variable {zone : Nat → Prop} {s t u : EpollState} {table : FdTable} {fd : Nat} {Value : Type*}

structure AgreeOn (zone : Nat → Prop) (s t : EpollState) : Prop where
  instances : ∀ fd, zone fd → s.instances fd = t.instances fd
  eventfds : ∀ fd, zone fd → s.eventfds fd = t.eventfds fd
  timerfds : ∀ fd, zone fd → s.timerfds fd = t.timerfds fd

def Closed (zone : Nat → Prop) (s : EpollState) : Prop :=
  ∀ epfd fd entry, Registered s epfd fd entry → (zone fd ↔ zone epfd)

lemma closed_not_iff : Closed (fun fd => ¬zone fd) s ↔ Closed zone s :=
  forall_congr' fun _ => forall_congr' fun _ => forall_congr' fun _ => imp_congr_right fun _ =>
    not_iff_not

def Sources (zone : Nat → Prop) (table : FdTable) : Prop :=
  ∀ fd desc, table.get fd = some desc → desc.fdType = .eventfd ∨ desc.fdType = .timerfd →
    zone desc.fdNum

lemma AgreeOn.refl (s : EpollState) : AgreeOn zone s s :=
  ⟨fun _ _ => rfl, fun _ _ => rfl, fun _ _ => rfl⟩

lemma AgreeOn.trans (hfirst : AgreeOn zone s t) (hsecond : AgreeOn zone t u) : AgreeOn zone s u :=
  ⟨fun fd hfd => (hfirst.instances fd hfd).trans (hsecond.instances fd hfd),
    fun fd hfd => (hfirst.eventfds fd hfd).trans (hsecond.eventfds fd hfd),
    fun fd hfd => (hfirst.timerfds fd hfd).trans (hsecond.timerfds fd hfd)⟩

/-- The second state differs from the first only at the numbers, and is closed. -/
structure Stays (zone : Nat → Prop) (s t : EpollState) : Prop where
  outside : AgreeOn (fun fd => ¬zone fd) t s
  closed : Closed zone t

lemma Stays.refl (hclosed : Closed zone s) : Stays zone s s := ⟨.refl s, hclosed⟩

lemma Stays.trans (hfirst : Stays zone s t) (hsecond : Stays zone t u) : Stays zone s u :=
  ⟨hsecond.outside.trans hfirst.outside, hsecond.closed⟩

lemma Closed.of_instances (hclosed : Closed zone s) (hsame : t.instances = s.instances) :
    Closed zone t := by
  rintro epfd fd entry ⟨entries, hentries, hget⟩
  exact hclosed epfd fd entry ⟨entries, hsame ▸ hentries, hget⟩

lemma update_outside {f : Nat → Value} {value : Value} (hfd : zone fd) {other : Nat}
    (hother : ¬zone other) : update f fd value other = f other :=
  update_of_ne (by rintro rfl; exact hother hfd) value f

variable {epfd maxEvents : Nat}

section
variable (hclosed : Closed zone s)
include hclosed

lemma Stays.setInstance (hepfd : zone epfd) {entries : EpollInstance}
    (hkeys : ∀ fd entry, entries.get fd = some entry → zone fd) :
    Stays zone s (setInstance s epfd entries) := by
  refine ⟨⟨fun _ => update_outside hepfd, fun _ _ => rfl, fun _ _ => rfl⟩, ?_⟩
  rintro other fd entry ⟨found, hfound, hget⟩
  rw [setInstance_instances] at hfound
  rcases eq_or_ne other epfd with rfl | hne
  · rw [update_self] at hfound
    cases hfound
    exact iff_of_true (hkeys fd entry hget) hepfd
  · rw [update_of_ne hne] at hfound
    exact hclosed other fd entry ⟨found, hfound, hget⟩

lemma Stays.setEventfd (hfd : zone fd) (counter : Option Nat) :
    Stays zone s { s with eventfds := update s.eventfds fd counter } :=
  ⟨⟨fun _ _ => rfl, fun _ => update_outside hfd, fun _ _ => rfl⟩, hclosed.of_instances rfl⟩

lemma Closed.keys (hepfd : zone epfd) {entries : EpollInstance}
    (hentries : s.instances epfd = some entries) {entry : EpollEntry}
    (hget : entries.get fd = some entry) : zone fd :=
  (hclosed epfd fd entry ⟨entries, hentries, hget⟩).mpr hepfd

lemma Stays.ctl {op eventPtr : Nat} {event : EpollEvent} (hepfd : zone epfd)
    (hfd : zone fd) : Stays zone s (sysEpollCtl table s epfd op fd eventPtr event).1 := by
  obtain ⟨_, hsame⟩ | ⟨entries, next, hentries, hchange, hnext⟩ :=
    sysEpollCtl_cases table (s.instances epfd) epfd op fd eventPtr event
  · rw [hsame s rfl]
    exact .refl hclosed
  · rw [hnext s rfl]
    refine .setInstance hclosed hepfd fun other entry hget => ?_
    rcases eq_or_ne other fd with rfl | hne
    · exact hfd
    · have hold : entries.get other = some entry := by
        rcases hchange with rfl | rfl
        · rwa [get_insert_of_ne hne] at hget
        · rwa [get_erase_of_ne hne] at hget
      exact hclosed.keys hepfd hentries hold

end

variable {env : Environment} {call : Call}

lemma collectLoop_outside {entries : List (Nat × EpollEntry)} {ready : List (UInt32 × UInt64)}
    (hkeys : ∀ entry ∈ entries, zone entry.1) :
    AgreeOn (fun fd => ¬zone fd) (collectLoop env table maxEvents entries s ready).2.1 s := by
  induction entries generalizing s ready with
  | nil => exact .refl s
  | cons head rest ih =>
    rw [collectLoop]
    split
    · exact .refl s
    · refine (ih fun entry hentry => hkeys entry (.tail _ hentry)).trans ?_
      refine ⟨fun fd _ => by rw [resetTimer_instances], fun fd _ => by rw [resetTimer_eventfds],
        fun fd hfd => ?_⟩
      obtain hsame | ⟨_, hreset⟩ := resetTimer_cases env table s head.1 head.2
      · rw [hsame]
      · rw [hreset]
        exact update_outside (hkeys head (.head _)) hfd

section
variable (hclosed : Closed zone s)
include hclosed

lemma Stays.collect (hepfd : zone epfd) :
    Stays zone s (collectReadyEvents env table s epfd maxEvents).1 := by
  cases hinstance : s.instances epfd with
  | none =>
    rw [collectReadyEvents_none hinstance]
    exact .refl hclosed
  | some entries =>
    obtain ⟨hkeys, hcollect⟩ := collectReadyEvents_some env table maxEvents hinstance
    have hzone : ∀ entry ∈ entries.entries, zone entry.1 := fun entry hentry =>
      hclosed.keys hepfd hinstance (get_eq_some_iff.mpr hentry)
    have hloop : Stays zone s (collectLoop env table maxEvents entries.entries s []).2.1 :=
      ⟨collectLoop_outside hzone, hclosed.of_instances collectLoop_instances⟩
    rw [hcollect]
    refine hloop.trans (.setInstance hloop.closed hepfd fun fd entry hget => ?_)
    have hfound : entries.get fd ≠ none := by
      rw [Ne, ← get_withEntries_eq_none hkeys, hget]
      exact some_ne_none entry
    obtain ⟨before, hbefore⟩ := ne_none_iff_exists'.mp hfound
    exact hclosed.keys hepfd hinstance hbefore

lemma Stays.poll {eventsPtr : Nat} (hepfd : zone epfd) :
    Stays zone s (sysEpollPoll env table s epfd eventsPtr maxEvents).1 := by
  have hcollect : Stays zone s (collectReadyEvents env table s epfd maxEvents).1 :=
    .collect hclosed hepfd
  unfold sysEpollPoll
  split
  · exact .refl hclosed
  · split
    · exact .refl hclosed
    · split
      next heq => rwa [heq] at hcollect
      next heq => rwa [heq] at hcollect

lemma Stays.closeFd (hfd : zone fd) : Stays zone s (closeFd s fd) := by
  constructor
  · refine ⟨fun epfd hepfd => ?_, fun _ _ => rfl, fun _ => update_outside hfd⟩
    have hne : epfd ≠ fd := by
      rintro rfl
      exact hepfd hfd
    rw [closeFd_instances, if_neg hne]
    cases hentries : s.instances epfd with
    | none => rfl
    | some entries =>
      refine congrArg some (erase_of_get_eq_none ?_)
      rw [eq_none_iff_forall_ne_some]
      intro entry hget
      exact hepfd ((hclosed epfd fd entry ⟨entries, hentries, hget⟩).mp hfd)
  · rintro epfd other entry ⟨entries, hentries, hget⟩
    rw [closeFd_instances] at hentries
    split at hentries
    · cases hentries
    · obtain ⟨before, hbefore, rfl⟩ := map_eq_some_iff.mp hentries
      have hne : other ≠ fd := by
        rintro rfl
        simp at hget
      rw [get_erase_of_ne hne] at hget
      exact hclosed epfd other entry ⟨before, hbefore, hget⟩

lemma Stays.cleanupFd (hfd : zone fd) (desc : FileDescriptor) :
    Stays zone s (cleanupFd s fd desc) := by
  have hclose := Stays.closeFd hclosed hfd
  unfold Epoll.cleanupFd
  split
  · exact hclose.trans (.setEventfd hclose.closed hfd none)
  · exact hclose

lemma perform_stays (huses : ∀ fd ∈ call.uses table, zone fd) :
    Stays zone s (perform table s call).2.1 := by
  cases call with
  | epollCreate1 =>
    obtain hfails | ⟨fd, hfree, hnext⟩ := sysEpollCreate1_cases table
    · simpa only [perform, hfails] using Stays.refl hclosed
    · have hfd : zone fd := huses fd (by simp [Call.uses, hfree])
      simpa only [perform, hnext] using
        Stays.setInstance hclosed hfd fun _ _ hget => by cases hget
  | epollCtl epfd op fd eventPtr event =>
    exact .ctl hclosed (huses epfd (by simp [Call.uses])) (huses fd (by simp [Call.uses]))
  | epollWait env epfd eventsPtr maxEvents => exact .poll hclosed (huses epfd (by simp [Call.uses]))
  | eventfd2 initval =>
    obtain hfails | ⟨fd, hfree, hnext⟩ := sysEventfd2_cases table initval
    · simpa only [perform, hfails] using Stays.refl hclosed
    · have hfd : zone fd := huses fd (by simp [Call.uses, hfree])
      simpa only [perform, hnext] using Stays.setEventfd hclosed hfd (some initval)
  | eventfdRead fd len =>
    obtain ⟨_, hfails⟩ | ⟨_, _, hnext⟩ := eventfdRead_cases (s.eventfds fd) fd len
    · simpa only [perform, hfails s rfl] using Stays.refl hclosed
    · have hfd : zone fd := huses fd (by simp [Call.uses])
      simpa only [perform, hnext s rfl] using Stays.setEventfd hclosed hfd (some 0)
  | eventfdWrite fd len val =>
    obtain ⟨_, _, hfails⟩ | ⟨_, _, hnext⟩ := eventfdWrite_cases (s.eventfds fd) fd len val
    · simpa only [perform, hfails s rfl] using Stays.refl hclosed
    · have hfd : zone fd := huses fd (by simp [Call.uses])
      simpa only [perform, hnext s rfl] using Stays.setEventfd hclosed hfd _
  | close fd =>
    obtain hfails | ⟨desc, _, hnext⟩ := sysClose_cases table fd
    · simpa only [perform, hfails] using Stays.refl hclosed
    · have hfd : zone fd.toNat := huses fd.toNat (by simp [Call.uses])
      simpa only [perform, hnext] using Stays.cleanupFd hclosed hfd desc

end

/-! ## A call depends only on its numbers -/

/-- The two results have the same table and outcome, and states that agree on the numbers. -/
structure Alike (zone : Nat → Prop) (first second : FdTable × EpollState × Outcome) : Prop where
  table : first.1 = second.1
  agree : AgreeOn zone first.2.1 second.2.1
  outcome : first.2.2 = second.2.2

lemma update_agree {f g : Nat → Value} (hsame : ∀ fd, zone fd → f fd = g fd) (changed : Nat)
    (value : Value) (fd : Nat) (hfd : zone fd) :
    update f changed value fd = update g changed value fd := by
  rcases eq_or_ne fd changed with rfl | hne
  · rw [update_self, update_self]
  · rw [update_of_ne hne, update_of_ne hne, hsame fd hfd]

section
variable (hagree : AgreeOn zone s t)
include hagree

lemma AgreeOn.setInstance (epfd : Nat) (entries : EpollInstance) :
    AgreeOn zone (setInstance s epfd entries) (setInstance t epfd entries) :=
  ⟨update_agree hagree.instances epfd (some entries), hagree.eventfds, hagree.timerfds⟩

lemma AgreeOn.setEventfd (fd : Nat) (counter : Option Nat) :
    AgreeOn zone { s with eventfds := update s.eventfds fd counter }
      { t with eventfds := update t.eventfds fd counter } :=
  ⟨hagree.instances, update_agree hagree.eventfds fd counter, hagree.timerfds⟩

lemma AgreeOn.closeFd (fd : Nat) : AgreeOn zone (closeFd s fd) (closeFd t fd) := by
  refine ⟨fun epfd hepfd => ?_, hagree.eventfds, update_agree hagree.timerfds fd false⟩
  rw [closeFd_instances, closeFd_instances, hagree.instances epfd hepfd]

lemma AgreeOn.cleanupFd (fd : Nat) (desc : FileDescriptor) :
    AgreeOn zone (cleanupFd s fd desc) (cleanupFd t fd desc) := by
  unfold Epoll.cleanupFd
  split
  · exact (hagree.closeFd fd).setEventfd fd none
  · exact hagree.closeFd fd

variable (hsources : Sources zone table)
include hsources

lemma AgreeOn.isReadable {desc : FileDescriptor} (hdesc : table.get fd = some desc)
    (env : Environment) : isReadable env s desc = isReadable env t desc := by
  unfold Epoll.isReadable EpollState.eventfdPeek EpollState.timerfdPeek
  split
  · rfl
  · rfl
  next htype => rw [hagree.eventfds _ (hsources fd desc hdesc (.inl htype))]
  next htype => rw [hagree.timerfds _ (hsources fd desc hdesc (.inr htype))]
  · rfl

lemma AgreeOn.openRevents {desc : FileDescriptor} (hdesc : table.get fd = some desc)
    (env : Environment) (entry : EpollEntry) :
    openRevents env s entry desc = openRevents env t entry desc := by
  rw [Epoll.openRevents, Epoll.openRevents, hagree.isReadable hsources hdesc]

section
variable (env : Environment)

lemma AgreeOn.revents (fd : Nat) (entry : EpollEntry) :
    revents env s table fd entry = revents env t table fd entry := by
  unfold Epoll.revents
  split
  next desc hdesc => exact hagree.openRevents hsources hdesc env entry
  · rfl

lemma AgreeOn.resetTimer (fd : Nat) (entry : EpollEntry) :
    AgreeOn zone (resetTimer env s table fd entry) (resetTimer env t table fd entry) := by
  unfold Epoll.resetTimer
  split
  next desc hdesc =>
    rw [hagree.openRevents hsources hdesc]
    split
    · exact ⟨hagree.instances, hagree.eventfds, update_agree hagree.timerfds fd false⟩
    · exact hagree
  · exact hagree

lemma AgreeOn.collectLoop (maxEvents : Nat) (entries : List (Nat × EpollEntry))
    (ready : List (UInt32 × UInt64)) : (collectLoop env table maxEvents entries s ready).1 =
        (collectLoop env table maxEvents entries t ready).1 ∧
      AgreeOn zone (collectLoop env table maxEvents entries s ready).2.1
        (collectLoop env table maxEvents entries t ready).2.1 ∧
      (collectLoop env table maxEvents entries s ready).2.2 =
        (collectLoop env table maxEvents entries t ready).2.2 := by
  induction entries generalizing s t ready with
  | nil => exact ⟨rfl, hagree, rfl⟩
  | cons head rest ih =>
    rw [Epoll.collectLoop, Epoll.collectLoop, hagree.revents hsources]
    split
    · exact ⟨rfl, hagree, rfl⟩
    · obtain ⟨hentries, hstate, hready⟩ :=
        ih (hagree.resetTimer hsources env head.1 head.2)
          (ready ++ (examine head.2 (Epoll.revents env t table head.1 head.2)).2)
      exact ⟨congrArg (List.cons _) hentries, hstate, hready⟩

lemma AgreeOn.collect (hepfd : zone epfd) (maxEvents : Nat) :
    AgreeOn zone (collectReadyEvents env table s epfd maxEvents).1
        (collectReadyEvents env table t epfd maxEvents).1 ∧
      (collectReadyEvents env table s epfd maxEvents).2 =
        (collectReadyEvents env table t epfd maxEvents).2 := by
  have hsame := hagree.instances epfd hepfd
  cases hinstance : t.instances epfd with
  | none =>
    rw [collectReadyEvents_none hinstance, collectReadyEvents_none (hsame.trans hinstance)]
    exact ⟨hagree, rfl⟩
  | some entries =>
    obtain ⟨_, hfirst⟩ := collectReadyEvents_some env table maxEvents (hsame.trans hinstance)
    obtain ⟨_, hsecond⟩ := collectReadyEvents_some env table maxEvents hinstance
    obtain ⟨hentries, hstate, hready⟩ :=
      hagree.collectLoop hsources env maxEvents entries.entries []
    rw [hfirst, hsecond]
    simp only [hentries, hready]
    exact ⟨hstate.setInstance epfd _, trivial⟩

lemma Alike.poll (hepfd : zone epfd) (eventsPtr maxEvents : Nat) :
    Alike zone (perform table s (.epollWait env epfd eventsPtr maxEvents))
      (perform table t (.epollWait env epfd eventsPtr maxEvents)) := by
  obtain ⟨hstate, hevents⟩ := hagree.collect hsources env hepfd maxEvents
  by_cases hmax : maxEvents = 0 ∨ maxEvents > 1024
  · simp only [perform, sysEpollPoll, if_pos hmax]
    exact ⟨rfl, hagree, rfl⟩
  by_cases hptr : eventsPtr = 0
  · simp only [perform, sysEpollPoll, if_neg hmax, if_pos hptr]
    exact ⟨rfl, hagree, rfl⟩
  simp only [perform, sysEpollPoll, if_neg hmax, if_neg hptr]
  rcases hs : collectReadyEvents env table s epfd maxEvents with ⟨first, events⟩
  rcases ht : collectReadyEvents env table t epfd maxEvents with ⟨second, events'⟩
  rw [hs, ht] at hstate hevents
  obtain rfl : events = events' := hevents
  cases events with
  | error e | ok ready => exact ⟨rfl, hstate, rfl⟩

end

lemma perform_alike (huses : ∀ fd ∈ call.uses table, zone fd) :
    Alike zone (perform table s call) (perform table t call) := by
  cases call with
  | epollCreate1 =>
    obtain hfails | ⟨fd, _, hnext⟩ := sysEpollCreate1_cases table
    · simp only [perform, hfails]
      exact ⟨rfl, hagree, rfl⟩
    · simp only [perform, hnext]
      exact ⟨rfl, hagree.setInstance fd .empty, rfl⟩
  | epollCtl epfd op fd eventPtr event =>
    have hsame := hagree.instances epfd (huses epfd (by simp [Call.uses]))
    obtain ⟨value, hfails⟩ | ⟨_, next, _, _, hnext⟩ :=
      sysEpollCtl_cases table (t.instances epfd) epfd op fd eventPtr event
    · simp only [perform, hfails s hsame, hfails t rfl]
      exact ⟨rfl, hagree, rfl⟩
    · simp only [perform, hnext s hsame, hnext t rfl]
      exact ⟨rfl, hagree.setInstance epfd next, rfl⟩
  | epollWait env epfd eventsPtr maxEvents =>
    exact .poll hagree hsources env (huses epfd (by simp [Call.uses])) eventsPtr maxEvents
  | eventfd2 initval =>
    obtain hfails | ⟨fd, _, hnext⟩ := sysEventfd2_cases table initval
    · simp only [perform, hfails]
      exact ⟨rfl, hagree, rfl⟩
    · simp only [perform, hnext]
      exact ⟨rfl, hagree.setEventfd fd (some initval), rfl⟩
  | eventfdRead fd len =>
    have hsame := hagree.eventfds fd (huses fd (by simp [Call.uses]))
    obtain ⟨_, hfails⟩ | ⟨_, _, hnext⟩ := eventfdRead_cases (t.eventfds fd) fd len
    · simp only [perform, hfails s hsame, hfails t rfl]
      exact ⟨rfl, hagree, rfl⟩
    · simp only [perform, hnext s hsame, hnext t rfl]
      exact ⟨rfl, hagree.setEventfd fd (some 0), rfl⟩
  | eventfdWrite fd len val =>
    have hsame := hagree.eventfds fd (huses fd (by simp [Call.uses]))
    obtain ⟨_, _, hfails⟩ | ⟨_, _, hnext⟩ := eventfdWrite_cases (t.eventfds fd) fd len val
    · simp only [perform, hfails s hsame, hfails t rfl]
      exact ⟨rfl, hagree, rfl⟩
    · simp only [perform, hnext s hsame, hnext t rfl]
      exact ⟨rfl, hagree.setEventfd fd _, rfl⟩
  | close fd =>
    obtain hfails | ⟨desc, _, hnext⟩ := sysClose_cases table fd
    · simp only [perform, hfails]
      exact ⟨rfl, hagree, rfl⟩
    · simp only [perform, hnext]
      exact ⟨rfl, hagree.cleanupFd fd.toNat desc, rfl⟩

end

lemma Sources.perform (hsources : Sources zone table) (huses : ∀ fd ∈ call.uses table, zone fd)
    (s : EpollState) : Sources zone (perform table s call).1 := by
  have hset : ∀ {fd fdType name}, table.firstFree 0 = some fd → zone fd →
      Sources zone (table.setFd fd (.special name 0 fdType fd)) := by
    intro fd fdType name hfree hfd other desc hdesc htype
    rw [get_setFd (firstFree_some hfree).1] at hdesc
    split at hdesc
    · obtain rfl := some.inj (filter_eq_some_iff.mp hdesc).1
      exact hfd
    · exact hsources other desc hdesc htype
  cases call with
  | epollCreate1 =>
    obtain hfails | ⟨fd, hfree, hnext⟩ := sysEpollCreate1_cases table
    · simpa only [Epoll.perform, hfails] using hsources
    · simpa only [Epoll.perform, hnext] using hset hfree (huses fd (by simp [Call.uses, hfree]))
  | eventfd2 initval =>
    obtain hfails | ⟨fd, hfree, hnext⟩ := sysEventfd2_cases table initval
    · simpa only [Epoll.perform, hfails] using hsources
    · simpa only [Epoll.perform, hnext] using hset hfree (huses fd (by simp [Call.uses, hfree]))
  | close fd =>
    obtain hfails | ⟨desc, hget, hnext⟩ := sysClose_cases table fd
    · simpa only [Epoll.perform, hfails] using hsources
    · simp only [Epoll.perform, hnext]
      intro other desc hdesc htype
      rw [get_setSlot (get_lt hget)] at hdesc
      split at hdesc
      · cases hdesc
      · exact hsources other desc hdesc htype
  | epollCtl | epollWait | eventfdRead | eventfdWrite => exact hsources

/-- The descriptor tables, by their identity, and the shared state. -/
structure World where
  tables : Nat → FdTable
  epoll : EpollState

namespace World

def boot : World := ⟨fun _ => .new, .init⟩

variable (tableOf : Nat → Nat) (q : Nat) (side : Nat → Prop)

def step (w : World) (call : Nat × Call) : World × Outcome :=
  let result := perform (w.tables (tableOf call.1)) w.epoll call.2
  (⟨update w.tables (tableOf call.1) result.1, result.2.1⟩, result.2.2)

def resultsOf (p : Nat) (w : World) (calls : List (Nat × Call)) : List Outcome :=
  ((answers (step tableOf) w calls).filter fun answer => answer.1.1 = p).map Prod.snd

/-- The processes with the descriptor table of `q` use numbers on the one side, and all
others numbers on the other. -/
def Apart (w : World) (call : Nat × Call) : Prop :=
  ∀ fd ∈ call.2.uses (w.tables (tableOf call.1)), side fd ↔ tableOf call.1 = tableOf q

/-- What there is of epoll state is separated in the same way. -/
structure Separated (w : World) : Prop where
  closed : Closed side w.epoll
  sources : ∀ id, id ≠ tableOf q → Sources (fun fd => ¬side fd) (w.tables id)

/-- The first world is separated, and the second looks the same from outside. -/
structure Related (w other : World) : Prop where
  separated : w.Separated tableOf q side
  tables : ∀ id, id ≠ tableOf q → w.tables id = other.tables id
  agree : AgreeOn (fun fd => ¬side fd) w.epoll other.epoll

def visible (call : Nat × Call) : Bool := tableOf call.1 ≠ tableOf q

variable {tableOf q side} {call : Nat × Call}

lemma Related.invisible {w other : World} (hrelated : Related tableOf q side w other)
    (hapart : w.Apart tableOf q side call) (hinvisible : visible tableOf q call = false) :
    Related tableOf q side (w.step tableOf call).1 other := by
  have hown : tableOf call.1 = tableOf q := by simpa [visible] using hinvisible
  have hstays : Stays side w.epoll (w.step tableOf call).1.epoll :=
    perform_stays hrelated.separated.closed fun fd hfd => (hapart fd hfd).mpr hown
  have hsame : ∀ id ≠ tableOf q, (w.step tableOf call).1.tables id = w.tables id := by
    intro id hid
    exact update_of_ne (by rwa [hown]) _ _
  refine ⟨⟨hstays.closed, fun id hid => ?_⟩, fun id hid => ?_, hstays.outside.trans hrelated.agree⟩
  · rw [hsame id hid]
    exact hrelated.separated.sources id hid
  · rw [hsame id hid, hrelated.tables id hid]

lemma Related.visible {w other : World} (hrelated : Related tableOf q side w other)
    (hapart : w.Apart tableOf q side call) (hvisible : World.visible tableOf q call) :
    Related tableOf q side (w.step tableOf call).1 (other.step tableOf call).1 ∧
      (w.step tableOf call).2 = (other.step tableOf call).2 := by
  have hown : tableOf call.1 ≠ tableOf q := by simpa [World.visible] using hvisible
  have huses : ∀ fd ∈ call.2.uses (w.tables (tableOf call.1)), ¬side fd :=
    fun fd hfd hside => hown ((hapart fd hfd).mp hside)
  have hsources := hrelated.separated.sources _ hown
  have hstays : Stays (fun fd => ¬side fd) w.epoll (w.step tableOf call).1.epoll :=
    perform_stays (closed_not_iff.mpr hrelated.separated.closed) huses
  have halike : Alike (fun fd => ¬side fd)
      (perform (w.tables (tableOf call.1)) w.epoll call.2)
      (perform (other.tables (tableOf call.1)) other.epoll call.2) := by
    rw [← hrelated.tables _ hown]
    exact perform_alike hrelated.agree hsources huses
  refine ⟨⟨⟨closed_not_iff.mp hstays.closed, fun id hid => ?_⟩, fun id hid => ?_, halike.agree⟩,
    halike.outcome⟩
  · rcases eq_or_ne id (tableOf call.1) with rfl | hne
    · simpa [step] using hsources.perform huses w.epoll
    · simpa [step, hne] using hrelated.separated.sources id hid
  · rcases eq_or_ne id (tableOf call.1) with rfl | hne
    · simpa [step] using halike.table
    · simpa [step, hne] using hrelated.tables id hid

/-- If the processes with the descriptor table of `q` and all others keep to different
numbers in two runs that differ in the calls of `q` only, a process with another table
gets the same results in both. -/
theorem resultsOf_eq {w : World} {p : Nat} {first second : List (Nat × Call)}
    (hother : tableOf p ≠ tableOf q)
    (hsame : first.filter (fun call => call.1 ≠ q) = second.filter fun call => call.1 ≠ q)
    (hstart : w.Separated tableOf q side)
    (hfirst : Allowed (Apart tableOf q side) (fun w call => (w.step tableOf call).1) w first)
    (hsecond : Allowed (Apart tableOf q side) (fun w call => (w.step tableOf call).1) w second) :
    resultsOf tableOf p w first = resultsOf tableOf p w second := by
  -- the calls of processes with other tables are among those that do not differ
  have hvisible : ∀ calls : List (Nat × Call), calls.filter (visible tableOf q) =
      (calls.filter fun call => call.1 ≠ q).filter (visible tableOf q) := by
    intro calls
    rw [List.filter_filter]
    refine List.filter_congr fun call _ => ?_
    by_cases hq : call.1 = q <;> simp [visible, hq]
  have hrelated : Related tableOf q side w w := ⟨hstart, fun _ _ => rfl, .refl w.epoll⟩
  have hanswers := Unwinds.answers_eq_answers ⟨Related.invisible, Related.visible⟩ hrelated hfirst
    hsecond
    (by rw [hvisible first, hvisible second, hsame])
  -- and the calls of `p` are among those
  have hmine : ∀ list : List ((Nat × Call) × Outcome), list.filter (fun answer => answer.1.1 = p) =
      (list.filter fun answer => visible tableOf q answer.1).filter
        fun answer => answer.1.1 = p := by
    intro list
    rw [List.filter_filter]
    refine List.filter_congr fun answer _ => ?_
    by_cases hp : answer.1.1 = p <;> simp [visible, hp, hother]
  rw [resultsOf, resultsOf, hmine, hanswers, ← hmine]

instance [DecidablePred side] (w : World) (call : Nat × Call) :
    Decidable (w.Apart tableOf q side call) :=
  inferInstanceAs (Decidable (∀ fd ∈ _, _))

lemma sources_new (zone : Nat → Prop) : Sources zone .new := by
  have hstdio : ∀ fd < maxFds, ∀ desc ∈ new.get fd, desc.fdType = .stdio := by decide
  intro fd desc hdesc htype
  simp [hstdio fd (get_lt hdesc) desc hdesc] at htype

lemma separated_init (side : Nat → Prop) (table : FdTable) :
    Separated id 2 side ⟨fun id => if id = 2 then table else .new, .init⟩ := by
  refine ⟨?_, fun other hother => ?_⟩
  · rintro epfd fd entry ⟨_, hentries, _⟩
    cases hentries
  · have hne : other ≠ 2 := hother
    simpa only [if_neg hne] using sources_new _

def oneFile : World := ⟨fun id => if id = 2 then (new.alloc [] 0).1 else .new, .init⟩

/-- Process 1 creates an eventfd and reads it, and process 2 writes to one of its own. -/
def ownEventfds (number : Nat) : List (Nat × Call) :=
  [(1, .eventfd2 0), (2, .eventfd2 0), (2, .eventfdWrite number 8 5), (1, .eventfdRead 3 8)]

def onlyFirst : List (Nat × Call) := [(1, .eventfd2 0), (1, .eventfdRead 3 8)]

theorem resultsOf_eq_ownEventfds :
    resultsOf id 1 oneFile (ownEventfds 4) = resultsOf id 1 oneFile onlyFirst ∧
      resultsOf id 1 oneFile onlyFirst = [⟨3, [], none⟩, ⟨-11, [], none⟩] := by
  refine ⟨resultsOf_eq (q := 2) ?_ ?_ (separated_init (fun fd => fd = 4) _) ?_ ?_, ?_⟩
  · decide
  · rfl
  · decide
  · decide
  · decide

/-- Both processes get the number 3, and process 1 reads what process 2 has written. -/
theorem eventfd_shared_by_number :
    (ownEventfds 3).filter (fun call => call.1 ≠ 2) = onlyFirst.filter (fun call => call.1 ≠ 2) ∧
      resultsOf id 1 boot (ownEventfds 3) = [⟨3, [], none⟩, ⟨8, [], some 5⟩] ∧
      resultsOf id 1 boot onlyFirst = [⟨3, [], none⟩, ⟨-11, [], none⟩] := by
  refine ⟨rfl, ?_, ?_⟩
  · decide
  · decide

end World

end KarteOs.Syscall.Epoll

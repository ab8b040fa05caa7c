import KarteOs.Foundation.Run
import KarteOs.Syscall.Epoll

/-! # Readiness events of an epoll instance

A descriptor that becomes readable while an instance watches it should show up in
the next collection of that instance. An edge-triggered entry only remembers the events
it reported last, and a timer's flag is reset by whichever instance sees it first; the
lemma says under which conditions neither loses an event.
-/

namespace KarteOs.Syscall.Epoll

open Driver Transition Function OrderedMap EpollState List

/-- The calls on instances and event descriptors of one descriptor table. -/
inductive EpollCall
  | write (fd len val : Nat)
  | read (fd len : Nat)
  | expire (fd : Nat)
  | ctl (epfd op fd eventPtr : Nat) (event : EpollEvent)
  | collect (env : Environment) (epfd maxEvents : Nat)

def after (table : FdTable) (s : EpollState) : EpollCall → EpollState
  | .write fd len val => (eventfdWrite s fd len val).1
  | .read fd len => (eventfdRead s fd len).1
  | .expire fd => timerExpire s fd
  | .ctl epfd op fd eventPtr event => (sysEpollCtl table s epfd op fd eventPtr event).1
  | .collect env epfd maxEvents => (collectReadyEvents env table s epfd maxEvents).1

def EpollCall.Raises : EpollCall → Prop
  | .write .. | .expire _ => True
  | _ => False

def Watched (s : EpollState) (epfd fd : Nat) : Prop :=
  ∃ entry, Registered s epfd fd entry ∧ entry.WatchesInput

/-- Every descriptor that becomes readable while an instance watches it, and is watched and
not read until then, is reported by the next collection of the instance with room for all
entries. -/
def NeverLoses (table : FdTable) (start : EpollState) (calls : List EpollCall) : Prop :=
  ∀ before raise between env epfd maxEvents rest fd desc entry s,
    calls = before ++ raise :: (between ++ .collect env epfd maxEvents :: rest) →
    -- the call makes the descriptor readable
    raise.Raises → table.get fd = some desc →
    ¬Signalled (before.foldl (after table) start) desc →
    Signalled (after table (before.foldl (after table) start) raise) desc →
    -- the instance watches it, before the call and until the collection
    Watched (before.foldl (after table) start) epfd fd →
    (∀ part, part <+: between →
      Watched ((before ++ raise :: part).foldl (after table) start) epfd fd) →
    -- and nobody collects or reads in between
    (∀ env maxEvents, .collect env epfd maxEvents ∉ between) →
    (∀ len, 8 ≤ len → .read desc.fdNum len ∉ between) →
    s = (before ++ raise :: between).foldl (after table) start →
    Registered s epfd fd entry →
    (∀ entries, s.instances epfd = some entries → entries.entries.length ≤ maxEvents) →
    ∃ events, (collectReadyEvents env table s epfd maxEvents).2 = .ok events ∧
      ∃ now, now &&& epollIn ≠ 0 ∧ (now, entry.event.data) ∈ events

/-- The edge-triggered entries for a descriptor of the kind that is not readable now have
not reported input last. -/
def Rearmed (table : FdTable) (s : EpollState) (fdType : FdType) (source : Nat) : Prop :=
  ∀ epfd fd entry desc, Registered s epfd fd entry → table.get fd = some desc →
    desc.fdType = fdType → desc.fdNum = source → ¬Signalled s desc → entry.WatchesInput →
    entry.EdgeTriggered → entry.lastRevents ≠ epollIn

/-- A descriptor becomes readable only when its edge-triggered entries have seen it not
readable since their last report, and a collection resets no timer that another entry
watches. -/
def Rearms (table : FdTable) (s : EpollState) : EpollCall → Prop
  | .write fd _ _ => Rearmed table s .eventfd fd
  | .expire fd => Rearmed table s .timerfd fd
  | .collect _ epfd _ => ∀ fd entry, Registered s epfd fd entry → Resets table s fd entry →
      ∀ other fd' entry' desc, Registered s other fd' entry' → entry'.WatchesInput →
        table.get fd' = some desc → desc.fdType = .timerfd → desc.fdNum = fd →
        other = epfd ∧ fd' = fd
  | _ => True

variable {table : FdTable} {s : EpollState} {epfd fd target changed : Nat} {desc : FileDescriptor}
  {event : EpollEvent}

/-- The descriptor is readable, and its entry will say so. -/
structure Due (s : EpollState) (epfd fd : Nat) (desc : FileDescriptor) : Prop where
  signalled : Signalled s desc
  fresh : ∀ entry, Registered s epfd fd entry → entry.EdgeTriggered → entry.lastRevents ≠ epollIn

lemma registered_ctl {op eventPtr : Nat} {entry : EpollEntry}
    (hentry : Registered (sysEpollCtl table s target op changed eventPtr event).1 epfd fd entry) :
    Registered s epfd fd entry ∨ entry.lastRevents = 0 := by
  obtain ⟨_, hsame⟩ | ⟨entries, next, htarget, hchange, hnext⟩ :=
    sysEpollCtl_cases table (s.instances target) target op changed eventPtr event
  · rw [hsame s rfl] at hentry
    exact .inl hentry
  · rw [hnext s rfl] at hentry
    obtain ⟨found, hfound, hget⟩ := hentry
    rw [setInstance_instances] at hfound
    rcases eq_or_ne epfd target with rfl | hne
    · rw [update_self] at hfound
      cases hfound
      rcases eq_or_ne fd changed with rfl | hother
      · rcases hchange with rfl | rfl
        · rw [get_insert_self] at hget
          cases hget
          exact .inr rfl
        · rw [get_erase_self] at hget
          cases hget
      · refine .inl ⟨entries, htarget, ?_⟩
        rcases hchange with rfl | rfl
        · exact (get_insert_of_ne hother).symm.trans hget
        · exact (get_erase_of_ne hother).symm.trans hget
    · rw [update_of_ne hne] at hfound
      exact .inl ⟨found, hfound, hget⟩

lemma signalled_ctl {op eventPtr : Nat} :
    Signalled (sysEpollCtl table s target op changed eventPtr event).1 desc ↔ Signalled s desc := by
  obtain ⟨_, hsame⟩ | ⟨_, _, _, _, hnext⟩ :=
    sysEpollCtl_cases table (s.instances target) target op changed eventPtr event
  · rw [hsame s rfl]
  · rw [hnext s rfl]
    rfl

section
variable (hsignal : Signalled s desc)
include hsignal

lemma Signalled.write (fd len val : Nat) : Signalled (eventfdWrite s fd len val).1 desc := by
  obtain ⟨_, _, hfails⟩ | ⟨counter, hcounter, hnext⟩ :=
    eventfdWrite_cases (s.eventfds fd) fd len val
  · rwa [hfails s rfl]
  · rw [hnext s rfl]
    refine hsignal.imp_left fun ⟨htype, hcount⟩ => ⟨htype, ?_⟩
    unfold eventfdPeek at hcount ⊢
    rcases eq_or_ne desc.fdNum fd with heq | hne
    · rw [heq, hcounter] at hcount
      have hpositive : 0 < min (counter + val) u64Max :=
        lt_min (Nat.lt_of_lt_of_le hcount (Nat.le_add_right ..)) (by decide)
      simpa [heq] using hpositive
    · simpa [update_of_ne hne] using hcount

lemma Signalled.read {len : Nat}
    (hother : 8 ≤ len → fd ≠ desc.fdNum) : Signalled (eventfdRead s fd len).1 desc := by
  obtain ⟨_, hfails⟩ | ⟨_, hlen, hnext⟩ := eventfdRead_cases (s.eventfds fd) fd len
  · rwa [hfails s rfl]
  · rw [hnext s rfl]
    refine hsignal.imp_left fun ⟨htype, hcount⟩ => ⟨htype, ?_⟩
    simpa [eventfdPeek, update_of_ne (hother hlen).symm] using hcount

lemma Signalled.expire (fd : Nat) : Signalled (timerExpire s fd) desc := by
  refine hsignal.imp id fun ⟨htype, hexpired⟩ => ⟨htype, ?_⟩
  unfold timerExpire timerfdPeek at *
  rcases eq_or_ne desc.fdNum fd with heq | hne
  · simp [heq]
  · simpa [update_of_ne hne] using hexpired

end

lemma Signalled.of_write {len val : Nat}
    (hsignal : Signalled (eventfdWrite s fd len val).1 desc) (hbefore : ¬Signalled s desc) :
    desc.fdType = .eventfd ∧ desc.fdNum = fd := by
  obtain ⟨_, _, hfails⟩ | ⟨counter, _, hnext⟩ := eventfdWrite_cases (s.eventfds fd) fd len val
  · rw [hfails s rfl] at hsignal
    exact absurd hsignal hbefore
  · rw [hnext s rfl] at hsignal
    rcases hsignal with ⟨htype, hcount⟩ | hexpired
    · refine ⟨htype, ?_⟩
      by_contra hne
      refine hbefore (.inl ⟨htype, ?_⟩)
      simpa [eventfdPeek, update_of_ne hne] using hcount
    · exact absurd (.inr hexpired) hbefore

lemma Signalled.of_expire (hsignal : Signalled (timerExpire s fd) desc)
    (hbefore : ¬Signalled s desc) : desc.fdType = .timerfd ∧ desc.fdNum = fd := by
  rcases hsignal with hcount | ⟨htype, hexpired⟩
  · exact absurd (.inl hcount) hbefore
  · refine ⟨htype, ?_⟩
    by_contra hne
    refine hbefore (.inr ⟨htype, ?_⟩)
    simpa [timerExpire, timerfdPeek, update_of_ne hne] using hexpired

section
variable (hdue : Due s epfd fd desc)
include hdue

variable (hdesc : table.get fd = some desc)
include hdesc

lemma Due.collect (hwatched : Watched s epfd fd) {env : Environment} {other maxEvents : Nat}
    (hother : other ≠ epfd) (hrearms : Rearms table s (.collect env other maxEvents)) :
    Due (collectReadyEvents env table s other maxEvents).1 epfd fd desc := by
  cases hinstance : s.instances other with
  | none => rwa [collectReadyEvents_none hinstance]
  | some entries =>
    obtain ⟨_, hcollect⟩ := collectReadyEvents_some env table maxEvents hinstance
    rw [hcollect]
    refine ⟨signalled_collectLoop hdue.signalled ?_, ?_⟩
    · intro fd' entry' hmem htype hnum hresets
      obtain ⟨entry, hentry, hinput⟩ := hwatched
      have hregistered : Registered s other fd' entry' :=
        ⟨entries, hinstance, get_eq_some_iff.mpr hmem⟩
      obtain ⟨hsame, _⟩ := hrearms fd' entry' hregistered hresets epfd fd entry desc hentry
        hinput hdesc htype hnum
      exact hother hsame.symm
    · rintro entry ⟨found, hfound, hget⟩
      refine hdue.fresh entry ⟨found, ?_, hget⟩
      rwa [setInstance_instances, update_of_ne hother.symm, collectLoop_instances]
        at hfound

lemma Due.step (hwatched : Watched s epfd fd) {call : EpollCall} (hrearms : Rearms table s call)
    (hcollect : ∀ env maxEvents, call ≠ .collect env epfd maxEvents)
    (hread : ∀ len, 8 ≤ len → call ≠ .read desc.fdNum len) :
    Due (after table s call) epfd fd desc := by
  cases call with
  | write target len val =>
    refine ⟨hdue.signalled.write target len val, fun entry hentry => hdue.fresh entry ?_⟩
    simpa only [Registered, after, eventfdWrite_instances] using hentry
  | read target len =>
    refine ⟨hdue.signalled.read ?_, fun entry hentry => hdue.fresh entry ?_⟩
    · rintro hlen rfl
      exact hread len hlen rfl
    · simpa only [Registered, after, eventfdRead_instances] using hentry
  | expire target => exact ⟨hdue.signalled.expire target, hdue.fresh⟩
  | ctl target op changed eventPtr event =>
    refine ⟨signalled_ctl.mpr hdue.signalled, fun entry hentry hedge => ?_⟩
    rcases registered_ctl hentry with hbefore | hreset
    · exact hdue.fresh entry hbefore hedge
    · rw [hreset]
      decide
  | collect env target maxEvents =>
    refine hdue.collect hdesc hwatched ?_ hrearms
    rintro rfl
    exact hcollect env maxEvents rfl

lemma Due.run {between : List EpollCall}
    (hwatched : ∀ part, part <+: between → Watched (part.foldl (after table) s) epfd fd)
    (hrearms : Allowed (Rearms table) (after table) s between)
    (hcollect : ∀ env maxEvents, .collect env epfd maxEvents ∉ between)
    (hread : ∀ len, 8 ≤ len → .read desc.fdNum len ∉ between) :
    Due (between.foldl (after table) s) epfd fd desc := by
  induction between generalizing s with
  | nil => exact hdue
  | cons call between ih =>
    refine ih (hdue.step hdesc (hwatched [] nil_prefix) hrearms.1 ?_ ?_) ?_ hrearms.2 ?_ ?_
    · rintro env maxEvents rfl
      exact hcollect env maxEvents (.head _)
    · rintro len hlen rfl
      exact hread len hlen (.head _)
    · exact fun part hpart => hwatched (call :: part) ((cons_prefix_cons).mpr ⟨rfl, hpart⟩)
    · exact fun env maxEvents hmem => hcollect env maxEvents (.tail _ hmem)
    · exact fun len hlen hmem => hread len hlen (.tail _ hmem)

lemma Due.reported {entry : EpollEntry} (hentry : Registered s epfd fd entry)
    (hinput : entry.WatchesInput) {env : Environment} {maxEvents : Nat}
    (hrearms : Rearms table s (.collect env epfd maxEvents))
    (hroom : ∀ entries, s.instances epfd = some entries → entries.entries.length ≤ maxEvents) :
    ∃ events, (collectReadyEvents env table s epfd maxEvents).2 = .ok events ∧
      (epollIn, entry.event.data) ∈ events := by
  obtain ⟨entries, hinstance, hget⟩ := hentry
  obtain ⟨_, hcollect⟩ := collectReadyEvents_some env table maxEvents hinstance
  refine ⟨_, congrArg Prod.snd hcollect, ?_⟩
  refine collectLoop_reports (get_eq_some_iff.mp hget) hdesc ?_ hinput
    (hdue.fresh entry ⟨entries, hinstance, hget⟩) hdue.signalled ?_
  · simpa using hroom entries hinstance
  · intro other entry' hmem hne htype hnum hresets
    have hother : Registered s epfd other entry' := ⟨entries, hinstance, get_eq_some_iff.mpr hmem⟩
    obtain ⟨_, rfl⟩ := hrearms other entry' hother hresets epfd fd entry desc
      ⟨entries, hinstance, hget⟩ hinput hdesc htype hnum
    exact hne (Prod.ext rfl (hother.unique ⟨entries, hinstance, hget⟩))

end

lemma Due.of_raise {raise : EpollCall} (hrearms : Rearms table s raise) (hraises : raise.Raises)
    (hdesc : table.get fd = some desc) (hbefore : ¬Signalled s desc)
    (hafter : Signalled (after table s raise) desc) (hwatched : Watched s epfd fd) :
    Due (after table s raise) epfd fd desc := by
  obtain ⟨entry, hentry, hinput⟩ := hwatched
  refine ⟨hafter, fun entry' hentry' => ?_⟩
  cases raise with
  | write source len val =>
    rw [Registered, after, eventfdWrite_instances] at hentry'
    obtain rfl := Registered.unique hentry hentry'
    obtain ⟨htype, hnum⟩ := hafter.of_write hbefore
    exact hrearms epfd fd entry desc hentry hdesc htype hnum hbefore hinput
  | expire source =>
    obtain rfl := Registered.unique hentry hentry'
    obtain ⟨htype, hnum⟩ := hafter.of_expire hbefore
    exact hrearms epfd fd entry desc hentry hdesc htype hnum hbefore hinput
  | read | ctl | collect => exact hraises.elim

/-- No event is lost in a run in which edge-triggered entries are re-armed before their
descriptor becomes readable again, and no collection resets a timer of another entry. -/
theorem neverLoses_of_rearms {start : EpollState} {calls : List EpollCall}
    (hrearms : Allowed (Rearms table) (after table) start calls) :
    NeverLoses table start calls := by
  intro before raise between env epfd maxEvents rest fd desc entry s hcalls hraises hdesc
    hbefore hafter hwatched hkept hcollect hread hs hentry hroom
  subst hcalls hs
  rw [allowed_append_iff] at hrearms
  obtain ⟨_, hraise, hrest⟩ := hrearms
  rw [allowed_append_iff] at hrest
  obtain ⟨hbetween, hlast, _⟩ := hrest
  rw [foldl_append, foldl_cons] at hentry hroom ⊢
  have hdue := Due.of_raise hraise hraises hdesc hbefore hafter hwatched
  have hdue := hdue.run hdesc (fun part hpart => by simpa using hkept part hpart) hbetween
    hcollect hread
  -- the entry at the collection is the one that watches for input
  obtain ⟨watching, hwatching, hinput⟩ : Watched _ epfd fd := hkept between prefix_rfl
  rw [foldl_append, foldl_cons] at hwatching
  obtain rfl := hwatching.unique hentry
  obtain ⟨events, hevents, hmem⟩ := hdue.reported hdesc hentry hinput hlast hroom
  exact ⟨events, hevents, epollIn, by decide, hmem⟩

/-! ## Runs on one eventfd and one timer -/

/-- Descriptors of an eventfd (3), two epoll instances (4 and 5) and a timer (6). -/
def netpollTable : FdTable :=
  ((((FdTable.new.allocSpecialFd "eventfd_200" 0 .eventfd).1.allocSpecialFd "epoll" 0 .epoll
    ).1.allocSpecialFd "epoll" 0 .epoll).1.allocSpecialFd "timerfd" 0 .timerfd).1

/-- The state with two instances without entries and an eventfd at zero. -/
def netpollStart : EpollState where
  instances fd := if fd = 4 ∨ fd = 5 then some .empty else none
  eventfds fd := if fd = 3 then some 0 else none
  timerfds _ := false

def quiet : Environment := ⟨false, fun _ => 0, fun _ => false⟩

def edgeRound : List EpollCall :=
  [.ctl 4 epollCtlAdd 3 1 ⟨epollIn ||| epollEt, 7⟩, .write 3 8 1, .collect quiet 4 8, .read 3 8]

def timerAdded : List EpollCall :=
  [.ctl 4 epollCtlAdd 6 1 ⟨epollIn, 7⟩, .ctl 5 epollCtlAdd 6 1 ⟨epollIn, 8⟩]

lemma netpollTable_timerfd
    (hdesc : netpollTable.get fd = some desc) (htype : desc.fdType = .timerfd) : fd = 6 := by
  have hall : ∀ fd < maxFds, ∀ desc ∈ netpollTable.get fd, desc.fdType = .timerfd → fd = 6 := by
    decide
  exact hall fd (FdTable.get_lt hdesc) desc hdesc htype

structure OnlyEventfd (s : EpollState) (entry : EpollEntry) : Prop where
  four : ∃ entries, s.instances 4 = some entries ∧ entries.entries = [(3, entry)]
  others : ∀ other, other ≠ 4 → s.instances other = netpollStart.instances other

lemma setInstance_others (entries : EpollInstance)
    (hothers : ∀ other ≠ 4, s.instances other = netpollStart.instances other) (other : Nat)
    (hne : other ≠ 4) :
    (setInstance s 4 entries).instances other = netpollStart.instances other := by
  rw [setInstance_instances, update_of_ne hne, hothers other hne]

namespace OnlyEventfd

variable {entry : EpollEntry} (honly : OnlyEventfd s entry)
include honly

lemma registered {found : EpollEntry} (hfound : Registered s epfd fd found) :
    fd = 3 ∧ found = entry := by
  obtain ⟨entries, hentries, hget⟩ := hfound
  obtain ⟨single, hfour, hsingle⟩ := honly.four
  rcases eq_or_ne epfd 4 with rfl | hne
  · cases hfour.symm.trans hentries
    rw [get_eq_some_iff, hsingle, mem_singleton] at hget
    exact Prod.mk.inj hget
  · rw [honly.others epfd hne] at hentries
    by_cases hfive : epfd = 5
    · subst hfive
      cases hentries
      cases hget
    · simp [netpollStart, hne, hfive] at hentries

lemma rearms_write (hlast : entry.lastRevents = 0) : Rearms netpollTable s (.write 3 8 1) := by
  intro epfd fd found desc hfound _ _ _ _ _ _
  rw [(honly.registered hfound).2, hlast]
  decide

lemma rearms_collect : Rearms netpollTable s (.collect quiet 4 8) := by
  rintro fd found hfound ⟨desc, hdesc, htype, _⟩
  have hsix := netpollTable_timerfd hdesc htype
  rw [(honly.registered hfound).1] at hsix
  cases hsix

end OnlyEventfd

/-- A collection between the read and the second write re-arms the entry. -/
def edgeRearmed : List EpollCall :=
  edgeRound ++ [.collect quiet 4 8, .write 3 8 1, .collect quiet 4 8]

theorem neverLoses_of_rearms_edgeRearmed : NeverLoses netpollTable netpollStart edgeRearmed ∧
    (collectReadyEvents quiet netpollTable
      (edgeRearmed.dropLast.foldl (after netpollTable) netpollStart) 4 8).2 =
      .ok [(epollIn, 7)] := by
  have hstart : ∀ other, other ≠ 4 → netpollStart.instances other = netpollStart.instances other :=
    fun _ _ => rfl
  -- the entry is the only one in each state, and the collections and `epoll_ctl` set it
  have hadded := setInstance_others (.insert .empty 3 ⟨⟨epollIn ||| epollEt, 7⟩, 0⟩) hstart
  have hcollected := fun entries => setInstance_others entries hadded
  have hagain := fun entries entries' => setInstance_others entries' (hcollected entries)
  refine ⟨neverLoses_of_rearms ⟨trivial, OnlyEventfd.rearms_write ⟨⟨_, rfl, rfl⟩, hadded⟩ rfl,
    OnlyEventfd.rearms_collect ⟨⟨_, rfl, rfl⟩, hadded⟩, trivial,
    OnlyEventfd.rearms_collect ⟨⟨_, rfl, rfl⟩, hcollected _⟩,
    OnlyEventfd.rearms_write ⟨⟨_, rfl, rfl⟩, hagain _ _⟩ rfl,
    OnlyEventfd.rearms_collect ⟨⟨_, rfl, rfl⟩, hagain _ _⟩, trivial⟩, rfl⟩

/-- A second write after a read is not reported to an edge-triggered entry, which still
remembers the first; and an expiration that one instance has collected is lost to the
other. -/
theorem second_write_and_shared_timer_lost : ¬NeverLoses netpollTable netpollStart
      (edgeRound ++ .write 3 8 1 :: ([] ++ [.collect quiet 4 8])) ∧
    ¬NeverLoses netpollTable netpollStart
      (timerAdded ++ .expire 6 :: ([.collect quiet 4 8] ++ [.collect quiet 5 8])) := by
  constructor
  · intro hnever
    obtain ⟨events, hevents, _, _, hmem⟩ := hnever edgeRound (.write 3 8 1) [] quiet 4 8 [] 3 _
      ⟨⟨epollIn ||| epollEt, 7⟩, epollIn⟩ _ rfl trivial rfl (by decide) (by decide)
      ⟨_, ⟨_, rfl, rfl⟩, by decide⟩
      (by
        intro part hpart
        obtain rfl := prefix_nil.mp hpart
        exact ⟨_, ⟨_, rfl, rfl⟩, by decide⟩)
      (by simp) (by simp) rfl ⟨_, rfl, rfl⟩
      (by
        rintro entries hentries
        cases hentries
        decide)
    have hnone : events = [] := Except.ok.inj (hevents.symm.trans rfl)
    rw [hnone] at hmem
    cases hmem
  · intro hnever
    obtain ⟨events, hevents, _, _, hmem⟩ := hnever timerAdded (.expire 6) [.collect quiet 4 8]
      quiet 5 8 [] 6 _ ⟨⟨epollIn, 8⟩, 0⟩ _ rfl trivial rfl (by decide) (by decide)
      ⟨_, ⟨_, rfl, rfl⟩, by decide⟩
      (by
        intro part hpart
        rcases prefix_cons_iff.mp hpart with rfl | ⟨rest, rfl, hrest⟩
        · exact ⟨_, ⟨_, rfl, rfl⟩, by decide⟩
        · obtain rfl := prefix_nil.mp hrest
          exact ⟨_, ⟨_, rfl, rfl⟩, by decide⟩)
      (by simp) (by simp) rfl ⟨_, rfl, rfl⟩
      (by
        rintro entries hentries
        cases hentries
        decide)
    have hnone : events = [] := Except.ok.inj (hevents.symm.trans rfl)
    rw [hnone] at hmem
    cases hmem

end KarteOs.Syscall.Epoll

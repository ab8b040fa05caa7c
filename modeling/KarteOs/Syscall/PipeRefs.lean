import KarteOs.Foundation.Run
import KarteOs.Driver.RamFs
import KarteOs.Syscall.DescriptorSpec

/-! # Reference counts of pipe ends

The count kept for an end of a pipe against the number of descriptors that
refer to it, over the tables of all live processes.
-/

namespace KarteOs.Syscall

open Driver Occupancy Function FdTable Transition FileDescriptor

universe u

def NoPipes (table : FdTable) : Prop :=
  ∀ fd, ∀ desc ∈ table.fds fd, desc.valid = true → desc.pipeEnd = none
deriving Decidable

def RoomForTwo (table : FdTable) : Prop :=
  ∀ fd, table.firstFree 0 = some fd → (table.firstFree (fd + 1)).isSome = true

instance (table : FdTable) : Decidable (RoomForTwo table) :=
  match h : table.firstFree 0 with
  | none => .isTrue fun fd hfd => by rw [h] at hfd; cases hfd
  | some fd => decidable_of_iff ((table.firstFree (fd + 1)).isSome = true)
      ⟨fun hsome other hother => by rw [h] at hother; cases hother; exact hsome,
        fun hall => hall fd h⟩

def CountedAt (side : PipeEnd) (desc : FileDescriptor) : Prop :=
  desc.pipeEnd = desc.pipeId.map fun pipeId => (pipeId, side)
deriving Decidable

section
variable {desc : FileDescriptor} {pipeId : Nat} {side : PipeEnd} {table : FdTable}

lemma valid_of_refersTo (h : desc.RefersTo pipeId side) : desc.valid :=
  (Bool.and_eq_true_iff.mp h).1

lemma weight_refersTo (hvalid : desc.valid) :
    weight (fun desc => desc.RefersTo pipeId side) (some desc) =
      if desc.pipeEnd = some (pipeId, side) then 1 else 0 := by
  simp [weight_some, RefersTo, hvalid]

lemma occupied_of_noPipes (h : NoPipes table) :
    occupied table.fds (fun desc => desc.RefersTo pipeId side) = 0 := by
  refine occupied_eq_zero_iff.mpr fun fd desc hslot => Bool.eq_false_iff.mpr fun hrefers => ?_
  obtain ⟨hvalid, hend⟩ := Bool.and_eq_true_iff.mp hrefers
  simp [h fd desc hslot hvalid] at hend

lemma weight_slot_of_pipeEnd_none {fd : Nat} (hget : ∀ desc ∈ table.get fd, desc.pipeEnd = none) :
    weight (fun desc => desc.RefersTo pipeId side) (table.slot fd) = 0 := by
  cases hopen : table.get fd with
  | none => exact weight_of_get_none (fun _ => valid_of_refersTo) hopen
  | some desc =>
    obtain ⟨hslot, hvalid⟩ := get_eq_some.mp hopen
    rw [hslot, weight_refersTo hvalid, hget desc hopen]
    simp

end

namespace FdSystem

variable {fs : Type u} {s : FdSystem fs} {proc : Process} {id fd : Nat}

/-- The descriptors of live processes that refer to an end of a pipe, those of a
shared table counted once. -/
def openEntries (s : FdSystem fs) (pipeId : Nat) (side : PipeEnd) : Nat :=
  total (fun id => (s.tables id).fds) s.procs.liveTables fun desc => desc.RefersTo pipeId side

/-- The counts are exact, with what follows for closed ends and freed slots. -/
structure Counted (s : FdSystem fs) : Prop where
  wf : s.Wf
  tracks : s.pipes.Tracks s.openEntries

/-- Live tables other than the caller's that only the victims of an exit hold. -/
def OrphansNoPipes (s : FdSystem fs) (proc : Process) (victims : List Nat) : Prop :=
  ∀ id ∈ s.procs.liveTables, id ≠ proc.fdTable →
    (∀ idx ∈ s.procs.holders id, idx ∈ victims) → NoPipes (s.tables id)
deriving Decidable

lemma update_fds (tables : Nat → FdTable) (id : Nat) (table : FdTable) :
    (fun other => (update tables id table other).fds) =
      update (fun other => (tables other).fds) id table.fds := by
  funext other
  rcases eq_or_ne other id with rfl | hne
  · simp
  · simp [hne]

section
variable (hid : id ∈ s.procs.liveTables)
include hid

lemma openEntries_setTable (table : FdTable) (pipeId : Nat) (side : PipeEnd) :
    (s.setTable id table).openEntries pipeId side +
        occupied (s.tables id).fds (fun desc => desc.RefersTo pipeId side) =
      s.openEntries pipeId side + occupied table.fds (fun desc => desc.RefersTo pipeId side) := by
  simp only [openEntries, setTable, update_fds]
  exact total_update hid table.fds

lemma openEntries_setSlot (hfd : fd < maxFds)
    (entry : Option FileDescriptor) (pipeId : Nat) (side : PipeEnd) :
    (s.setTable id ((s.tables id).setSlot fd entry)).openEntries pipeId side +
        weight (fun desc => desc.RefersTo pipeId side) ((s.tables id).slot fd) =
      s.openEntries pipeId side + weight (fun desc => desc.RefersTo pipeId side) entry := by
  have htotal := openEntries_setTable hid ((s.tables id).setSlot fd entry) pipeId side
  have htable := (s.tables id).occupied_setSlot (fun desc => desc.RefersTo pipeId side) hfd entry
  omega

lemma openEntries_pos {pipeId : Nat} {side : PipeEnd} {desc : FileDescriptor}
    (hget : (s.tables id).get fd = some desc)
    (hend : desc.pipeEnd = some (pipeId, side)) : 0 < s.openEntries pipeId side := by
  obtain ⟨hslot, hvalid⟩ := get_eq_some.mp hget
  have hfd := get_lt hget
  rw [slot, dif_pos hfd] at hslot
  have hpos : 0 < occupied (s.tables id).fds (fun desc => desc.RefersTo pipeId side) :=
    occupied_pos hslot (by simp [RefersTo, hvalid, hend])
  exact hpos.trans_le (occupied_le_total (fun id => (s.tables id).fds) _ hid)

end

namespace Counted

variable {id fd flags : Nat} {desc : FileDescriptor}

lemma copyFd (hs : s.Counted) (hid : id ∈ s.procs.liveTables)
    (hget : (s.tables id).get fd = some desc) {target : Nat} (htarget : target < maxFds)
    (hold : ∀ old ∈ (s.tables id).get target, old.pipeEnd = none) :
    (s.copyFd id target desc).Counted := by
  refine ⟨⟨hs.wf.fresh, hs.wf.free⟩, hs.tracks.incRefFor
    (fun pipeId side hend => openEntries_pos hid hget hend) fun pipeId side => ?_⟩
  have hset := openEntries_setSlot hid htarget (some desc) pipeId side
  rw [weight_slot_of_pipeEnd_none hold, weight_refersTo (get_eq_some.mp hget).2] at hset
  exact hset

variable {next : FdSystem fs}

lemma duplicates (hs : s.Counted) (hid : proc.fdTable ∈ s.procs.liveTables)
    (hdup : s.Duplicates proc fd next) : next.Counted := by
  cases hdup with
  | refused => exact hs
  | copied hget htarget hfree => exact hs.copyFd hid hget htarget (by simp [hfree])

lemma enter (hs : s.Counted) (hid : id ∈ s.procs.liveTables) (hfd : fd < maxFds)
    (hfree : (s.tables id).get fd = none) (hpipe : desc.pipeEnd = none) :
    (s.setTable id ((s.tables id).setFd fd desc)).Counted := by
  refine ⟨⟨hs.wf.fresh, hs.wf.free⟩, hs.tracks.congr fun pipeId side => ?_⟩
  have hset := openEntries_setSlot hid hfd (some desc) pipeId side
  rw [weight_slot_of_pipeEnd_none (by simp [hfree])] at hset
  simpa [weight_some, RefersTo, hpipe, setFd] using hset

lemma sysDup2 (hs : s.Counted) (hid : proc.fdTable ∈ s.procs.liveTables) {oldFd newFd : Int}
    (hkeeps : 0 ≤ oldFd → 0 ≤ newFd → oldFd ≠ newFd →
      ((s.tables proc.fdTable).get oldFd.toNat).isSome →
      ∀ old ∈ (s.tables proc.fdTable).get newFd.toNat, old.pipeEnd = none) :
    (s.sysDup2 proc oldFd newFd).1.Counted := by
  obtain heq | ⟨desc, hold, hnew, hne, hlt, hget, heq⟩ := s.sysDup2_cases proc oldFd newFd
  · rw [heq]
    exact hs
  · rw [heq]
    exact hs.copyFd hid hget hlt (hkeeps hold hnew hne (by simp [hget]))

variable {table : FdTable} {fd : Int}

lemma firstFree_setFd {first other : Nat} (hfirst : first < maxFds)
    (hother : table.firstFree (first + 1) = some other) (desc : FileDescriptor) :
    ∃ fd, (table.setFd first desc).firstFree 0 = some fd := by
  obtain ⟨hlt, hle, hnone⟩ := firstFree_some hother
  have hne : other ≠ first := by omega
  refine Option.isSome_iff_exists.mp (firstFree_isSome hlt ?_)
  rw [get_setFd hfirst, if_neg hne]
  exact hnone

lemma pipeEnd_pipe (pipeId fd : Nat) (side : PipeEnd) :
    (pipe pipeId fd side).pipeEnd = some (pipeId, side) := by
  cases side <;> rfl

lemma weight_pipe (pipeId fd j : Nat) (side other : PipeEnd) :
    weight (fun desc : FileDescriptor => desc.RefersTo j other) (some (.pipe pipeId fd side)) =
      if j = pipeId ∧ other = side then 1 else 0 := by
  rw [weight_refersTo (by cases side <;> rfl), pipeEnd_pipe]
  simp [eq_comm]

lemma makesPipe (hs : s.Counted) (hid : proc.fdTable ∈ s.procs.liveTables) {fdPtr : Nat}
    (hkeeps : fdPtr ≠ 0 → s.pipes.allocPipe.isSome →
      RoomForTwo (s.tables proc.fdTable)) (hpipe : s.MakesPipe proc fdPtr next) : next.Counted := by
  cases hpipe with
  | refused => exact hs
  | made halloc hfirst hsecond =>
    next pipeId first second pipes =>
    obtain ⟨hlt, _, hnone⟩ := firstFree_some hfirst
    obtain ⟨hlt', _, hnone'⟩ := firstFree_some hsecond
    refine ⟨⟨hs.wf.fresh, hs.wf.free⟩, (hs.tracks.allocPipe halloc fun j other => ?_).1⟩
    have htotal := openEntries_setTable hid (((s.tables proc.fdTable).setFd first
      (.pipe pipeId first .read)).setFd second (.pipe pipeId second .write)) j other
    rw [occupied_setFd_free (fun _ => valid_of_refersTo) hlt' hnone',
      occupied_setFd_free (fun _ => valid_of_refersTo) hlt hnone, weight_pipe,
      weight_pipe, Nat.add_assoc (occupied ..), Nat.add_comm (occupied ..),
      ← Nat.add_assoc] at htotal
    have hone : (if j = pipeId ∧ other = .read then 1 else 0) +
        (if j = pipeId ∧ other = .write then 1 else 0) = if j = pipeId then 1 else 0 := by
      cases other <;> simp
    rw [← hone]
    exact Nat.add_right_cancel htotal
  | undone halloc =>
    next pipeId pipes =>
    -- both ends are counted when the slot is taken, and given back one by one
    obtain ⟨hboth, _⟩ := hs.tracks.allocPipe halloc fun _ _ => rfl
    have hread : (pipes.closeEnd pipeId .read).Tracks fun j other =>
        s.openEntries j other + if j = pipeId ∧ other = .write then 1 else 0 :=
      hboth.closeEnd fun j other => by cases other <;> simp
    exact ⟨⟨hs.wf.fresh, hs.wf.free⟩, hread.closeEnd fun j other => rfl⟩
  | half hptr halloc hfirst hfull =>
    obtain ⟨hlt, _, _⟩ := firstFree_some hfirst
    obtain ⟨later, hlater⟩ := Option.isSome_iff_exists.mp (hkeeps hptr (by simp [halloc]) _ hfirst)
    obtain ⟨second, hsecond⟩ := firstFree_setFd hlt hlater (.pipe _ _ .read)
    rw [hsecond] at hfull
    cases hfull

lemma openEntries_spawn (hs : s.Wf) (proc : Process) (space : NewSpace) (table : FdTable)
    (shared : Bool) (tid pipeId : Nat) (side : PipeEnd) :
    ((s.newTable table).addChild proc space s.nextTable shared tid).openEntries pipeId side =
      occupied table.fds (fun desc => desc.RefersTo pipeId side) + s.openEntries pipeId side := by
  rw [openEntries, liveTables_addChild (hs.newTable table)]
  simp only [addChild, newTable, setTable, update_fds]
  exact total_insert (fun hmem => (hs.fresh _ hmem).false) table.fds

lemma spawn (hs : s.Counted) (proc : Process) (space : NewSpace) (htable : NoPipes table)
    (shared : Bool) (tid : Nat) :
    ((s.newTable table).addChild proc space s.nextTable shared tid).Counted := by
  refine ⟨(hs.wf.newTable table).addChild proc space (Nat.lt_succ_self _) shared tid,
    hs.tracks.congr fun pipeId side => ?_⟩
  rw [openEntries_spawn hs.wf, occupied_of_noPipes htable, Nat.zero_add]

lemma share (hs : s.Counted) (hid : proc.fdTable ∈ s.procs.liveTables) (space : NewSpace)
    (shared : Bool) (tid : Nat) : (s.addChild proc space proc.fdTable shared tid).Counted := by
  refine ⟨hs.wf.addChild proc space (hs.wf.fresh _ hid) shared tid,
    hs.tracks.congr fun pipeId side => ?_⟩
  rw [openEntries, liveTables_addChild hs.wf, Finset.insert_eq_of_mem hid]
  rfl

lemma noPipes_new : NoPipes .new := by decide

lemma sysFork (hs : s.Counted) {outcome : SpawnOutcome}
    (hkeeps : outcome.entersTable → NoPipes (s.tables proc.fdTable)) (space : NewSpace) :
    (s.sysFork proc outcome space).1.Counted := by
  obtain heq | ⟨henters, heq⟩ := s.sysFork_cases proc outcome space
  · rw [heq]
    exact hs
  · rw [heq]
    exact hs.spawn proc space (hkeeps henters) false 0

lemma clones (hs : s.Counted) (hid : proc.fdTable ∈ s.procs.liveTables) {outcome : SpawnOutcome}
    (hkeeps : flags &&& cloneVm = 0 → outcome.entersTable = true →
      NoPipes (s.tables proc.fdTable)) (hclone : s.Clones proc flags outcome next) :
    next.Counted := by
  cases hclone with
  | refused => exact hs
  | forked hcopy space => exact hs.sysFork (hkeeps hcopy) space
  | shared space tid => exact hs.share hid space true tid
  | fresh space tid => exact hs.spawn proc space noPipes_new true tid

lemma redirect_some (pipes : PipeTable) (table : FdTable) (target : Nat) {side : PipeEnd}
    (hside : CountedAt side desc) : redirect pipes table target side (some desc) =
      (pipes.incRefFor desc, table.setFd target desc) := by
  rw [redirect, PipeTable.incRefFor, hside]
  cases desc.pipeId <;> rfl

def Filling (base : Nat → PipeEnd → Nat) (filled : PipeTable × FdTable) : Prop :=
  filled.1.Tracks fun pipeId side =>
    occupied filled.2.fds (fun desc => desc.RefersTo pipeId side) + base pipeId side

lemma redirection_get (h : s.redirection proc fd = some desc) :
    (s.tables proc.fdTable).get fd.toNat = some desc := by
  unfold redirection at h
  split at h
  · exact h
  · cases h

lemma filling_redirect {pipes : PipeTable} (hid : proc.fdTable ∈ s.procs.liveTables)
    (hfill : Filling s.openEntries (pipes, table)) {target : Nat} (htarget : target < maxFds)
    (hold : ∀ old ∈ table.get target, old.pipeEnd = none) {side : PipeEnd}
    (hside : ∀ desc ∈ s.redirection proc fd, CountedAt side desc) :
    Filling s.openEntries (redirect pipes table target side (s.redirection proc fd)) := by
  cases hsource : s.redirection proc fd with
  | none => exact hfill
  | some desc =>
    have hget := redirection_get hsource
    rw [redirect_some pipes table target (hside desc hsource)]
    refine hfill.incRefFor (fun pipeId side hend => ?_) fun pipeId side => ?_
    · exact Nat.add_pos_right _ (openEntries_pos hid hget hend)
    · have hset := table.occupied_setSlot (fun desc => desc.RefersTo pipeId side) htarget
        (some desc)
      rw [weight_slot_of_pipeEnd_none hold, weight_refersTo (get_eq_some.mp hget).2,
        Nat.add_zero] at hset
      simp only [setFd, hset]
      omega

variable (hs : s.Counted)
include hs

lemma sysExecFd (hid : proc.fdTable ∈ s.procs.liveTables) {redirStdin redirStdout : Int}
    {loaded : Except Int NewSpace} (hin : ∀ space, loaded = .ok space →
      ∀ desc ∈ s.redirection proc redirStdin, CountedAt .read desc)
    (hout : ∀ space, loaded = .ok space →
      ∀ desc ∈ s.redirection proc redirStdout, CountedAt .write desc) (outcome : SpawnOutcome) :
    (s.sysExecFd proc redirStdin redirStdout loaded outcome).1.Counted := by
  cases loaded with
  | error e => exact hs
  | ok space =>
    have hnew : Filling s.openEntries (s.pipes, .new) :=
      hs.tracks.congr fun pipeId side => by simp [occupied_of_noPipes noPipes_new]
    have hstdout : ∀ old ∈ FdTable.new.get 1, old.pipeEnd = none := by decide
    have hfirst := filling_redirect hid hnew (by decide : 0 < maxFds) (by decide) (hin space rfl)
    have hkept : ∀ old ∈ (redirect s.pipes .new 0 .read
        (s.redirection proc redirStdin)).2.get 1, old.pipeEnd = none := by
      cases s.redirection proc redirStdin with
      | none => exact hstdout
      | some desc =>
        rw [redirect, FdTable.get, FdTable.setFd, FdTable.slot_setSlot (by decide),
          update_of_ne (by decide)]
        exact hstdout
    have hsecond := filling_redirect hid hfirst (by decide) hkept (hout space rfl)
    have hwf : ∀ pipes, ({ s with pipes } : FdSystem fs).Wf := fun _ => ⟨hs.wf.fresh, hs.wf.free⟩
    exact ⟨((hwf _).newTable _).addChild proc space (Nat.lt_succ_self _) ..,
      hsecond.congr fun pipeId side => openEntries_spawn (hwf _) ..⟩

lemma cleanupFdResources {fd : Nat} (hid : id ∈ s.procs.liveTables)
    (hget : (s.tables id).get fd = some desc) :
    ((s.setTable id ((s.tables id).setSlot fd none)).cleanupFdResources desc).Counted := by
  refine ⟨⟨hs.wf.fresh, hs.wf.free⟩, hs.tracks.dropRefFor fun pipeId side => ?_⟩
  obtain ⟨hslot, hvalid⟩ := get_eq_some.mp hget
  have hset := openEntries_setSlot hid (get_lt hget) none pipeId side
  rw [hslot, weight_refersTo hvalid, weight_none] at hset
  exact hset.symm

lemma sysClose (hid : proc.fdTable ∈ s.procs.liveTables) (fd : Int) :
    (s.sysClose proc fd).1.Counted := by
  obtain heq | ⟨desc, _, hget, heq⟩ := s.sysClose_cases proc fd
  · rw [heq]
    exact hs
  · rw [heq]
    exact hs.cleanupFdResources hid hget

lemma opens [FileSystem fs] (hid : proc.fdTable ∈ s.procs.liveTables) {arch : Mm.Arch}
    {request : Option Path} {result : FdSystem fs × Int}
    (hopens : s.Opens arch proc request flags result) : result.1.Counted := by
  have hcounted : ∀ vfs nextOpen, ({ s with vfs, nextOpen } : FdSystem fs).Counted :=
    fun _ _ => ⟨⟨hs.wf.fresh, hs.wf.free⟩, hs.tracks⟩
  cases hopens with
  | refused _ _ _ | leaked _ _ _ => exact hcounted _ _
  | entered _ _ hfd hfree hpipe _ => exact (hcounted _ s.nextOpen).enter hid hfd hfree hpipe
  | opened _ _ hfd hfree => exact (hcounted ..).enter hid hfd hfree rfl

lemma tracks_drain (hid : id ∈ s.procs.liveTables) :
    (((s.tables id).drainOpenFds.2.map Prod.snd).foldl PipeTable.dropRefFor s.pipes).Tracks
      (s.setTable id (s.tables id).drainOpenFds.1).openEntries := by
  refine hs.tracks.dropAll fun pipeId side => ?_
  have hset := openEntries_setTable hid (s.tables id).drainOpenFds.1 pipeId side
  rw [occupied_drainOpenFds fun _ => valid_of_refersTo, Nat.add_zero] at hset
  rw [← hset, ← countP_drainOpenFds fun _ => valid_of_refersTo]
  refine congrArg _ (List.countP_congr fun desc hdesc => ?_)
  obtain ⟨fd, hget⟩ := get_of_mem_drainOpenFds hdesc
  simp [RefersTo, (get_eq_some.mp hget).2]

lemma exits (hid : proc.fdTable ∈ s.procs.liveTables) {victims : List Nat}
    (hexits : s.Exits proc victims next) (hkeeps : s.OrphansNoPipes proc victims) :
    next.Counted := by
  obtain ⟨⟨procs, rfl⟩, hholds, hfree⟩ := hexits
  simp only [cleanupProcessFds_eq] at hholds hfree ⊢
  have hsub : procs.liveTables ⊆ s.procs.liveTables := by
    intro id hlive
    obtain ⟨idx, hidx⟩ := ProcessTable.mem_liveTables.mp hlive
    exact ProcessTable.mem_liveTables.mpr ⟨idx, ((hholds idx id).mp hidx).1⟩
  refine ⟨⟨fun id hlive => hs.wf.fresh id (hsub hlive), hfree hs.wf.free⟩,
    (hs.tracks_drain hid).congr fun pipeId side => ?_⟩
  refine Finset.sum_subset hsub fun id hlive hdropped => ?_
  rcases eq_or_ne id proc.fdTable with rfl | hne
  · simp only [update_self]
    exact occupied_drainOpenFds fun _ => valid_of_refersTo
  · simp only [update_of_ne hne]
    refine occupied_of_noPipes (hkeeps id hlive hne fun idx hholder => ?_)
    by_contra hsurvives
    have hlives := (hholds idx id).mpr ⟨ProcessTable.mem_holders.mp hholder, hsurvives⟩
    exact hdropped (ProcessTable.mem_liveTables.mpr ⟨idx, hlives⟩)

end Counted

/-- Where a call keeps the counts right: it creates both descriptors of a pipe
or none, overwrites no pipe end, copies no pipe end into the table of a child,
counts a redirection at its own end, and gives up no other table with pipe ends. -/
def KeepsRefsAt (s : FdSystem fs) (proc : Process) : FdEvent → Prop
  | .pipe fdPtr => fdPtr ≠ 0 → s.pipes.allocPipe.isSome = true →
      RoomForTwo (s.tables proc.fdTable)
  | .dup2 oldFd newFd => 0 ≤ oldFd → 0 ≤ newFd → oldFd ≠ newFd →
      ((s.tables proc.fdTable).get oldFd.toNat).isSome = true →
      ∀ old ∈ (s.tables proc.fdTable).get newFd.toNat, old.pipeEnd = none
  | .fork outcome _ => outcome.entersTable = true → NoPipes (s.tables proc.fdTable)
  | .clone flags _ _ outcome _ _ => flags &&& cloneVm = 0 → outcome.entersTable = true →
      NoPipes (s.tables proc.fdTable)
  | .execFd redirStdin redirStdout (.ok _) _ =>
    (∀ desc ∈ s.redirection proc redirStdin, CountedAt .read desc) ∧
      ∀ desc ∈ s.redirection proc redirStdout, CountedAt .write desc
  | .exit _ => s.OrphansNoPipes proc (s.exitVictims proc)
  | .exitGroup _ => s.OrphansNoPipes proc (s.groupVictims proc)
  | _ => True

instance (s : FdSystem fs) (proc : Process) (event : FdEvent) :
    Decidable (s.KeepsRefsAt proc event) := by
  unfold KeepsRefsAt
  split <;> infer_instance

def KeepsRefs (s : FdSystem fs) (event : FdEvent) : Prop :=
  ∀ proc ∈ s.caller, s.KeepsRefsAt proc event
deriving Decidable

variable [FileSystem fs]

lemma Counted.apply (hs : s.Counted) (arch : Mm.Arch) {event : FdEvent}
    (hkeeps : s.KeepsRefs event) : (s.apply arch event).Counted := by
  cases event
  case' openPath | pipe | dup | dup2 | dupfd | fork | clone | execFd | close | exit | exitGroup =>
    refine asCaller_of hs fun proc h => ?_
    have hid := mem_liveTables_of_caller h
    have hkeep := hkeeps proc h
  case openPath => exact hs.opens hid (s.sysOpen_opens ..)
  case pipe fdPtr => exact hs.makesPipe hid hkeep (s.sysPipe_makesPipe proc fdPtr)
  case dup oldfd => exact hs.duplicates hid (s.linuxDup_duplicates proc oldfd)
  case dup2 => exact hs.sysDup2 hid hkeep
  case dupfd fd arg => exact hs.duplicates hid (s.fcntlDupfd_duplicates proc fd arg)
  case fork outcome space => exact hs.sysFork hkeep space
  case clone => exact hs.clones hid hkeep (s.linuxClone_clones ..)
  case execFd redirStdin redirStdout loaded outcome =>
    refine hs.sysExecFd hid ?_ ?_ outcome
    · rintro space rfl
      exact hkeep.1
    · rintro space rfl
      exact hkeep.2
  case close fd => exact hs.sysClose hid fd
  case exit code => exact hs.exits hid (sysExit_exits s proc code) hkeep
  case exitGroup code =>
    refine hs.exits hid (linuxExitGroup_exits ?_ code) hkeep
    simp [(caller_eq_some.mp h).1]
  case switchTo => exact ⟨⟨hs.wf.fresh, hs.wf.free⟩, hs.tracks⟩

omit [FileSystem fs] in
lemma boot_counted (mounts : List (MountEntry fs)) (space : NewSpace) (cwd : Path)
    (ramFiles : Path → Bool) : (boot mounts space cwd ramFiles).Counted := by
  refine ⟨boot_wf .., PipeTable.new_tracks.congr fun pipeId side => ?_⟩
  rw [openEntries, boot_liveTables, total, Finset.sum_singleton]
  exact occupied_of_noPipes Counted.noPipes_new

def RefStep (arch : Mm.Arch) : FdSystem fs → FdEvent → FdSystem fs → Prop :=
  Guarded (fun s event => s.Legal event ∧ s.KeepsRefs event) (apply arch)

/-- In every run whose calls keep the counts right, each end of each pipe has as
many references as there are descriptors for it; so it is closed when the last
one disappears, and the slot is free when none is left. -/
theorem run_tracks {arch : Mm.Arch} {mounts : List (MountEntry fs)} {space : NewSpace}
    {cwd : Path} {ramFiles : Path → Bool} {events : List FdEvent} {s : FdSystem fs}
    (hrun : Transition.Run (RefStep arch) (boot mounts space cwd ramFiles) events s) :
    s.pipes.Tracks s.openEntries := by
  have hstep : ∀ (state : FdSystem fs) event next,
      state.Counted → RefStep arch state event next → next.Counted := by
    rintro state event _ hstate ⟨⟨_, hkeeps⟩, rfl⟩
    exact hstate.apply arch hkeeps
  exact (hrun.invariant hstep (boot_counted mounts space cwd ramFiles)).tracks

def bare : FdSystem RamFileSystem :=
  boot [⟨['/'], .new⟩] ⟨0, 0⟩ ['/'] fun _ => false

def bareProc : Process :=
  { pid := 1, ppid := 0, pageTableRoot := 0, kernelStackTop := 0, state := .ready, exitCode := 0,
    waitChildIdx := none, fdTable := 0, sharedPageTable := false, childTidPtr := 0 }

/-- A program runs with the read end as its input, and the write end is closed. -/
def redirectAndClose : List FdEvent :=
  [.pipe 64, .dup 3, .execFd 3 (-1) (.ok ⟨1, 1⟩) .scheduled, .switchTo 1, .exit 0, .switchTo 0,
    .close 4]

theorem run_tracks_redirectAndClose : (redirectAndClose.foldl (apply .x86_64) bare).pipes.Tracks
      (redirectAndClose.foldl (apply .x86_64) bare).openEntries ∧
    (redirectAndClose.foldl (apply .x86_64) bare).openEntries 0 .read = 2 ∧
    (redirectAndClose.foldl (apply .x86_64) bare).openEntries 0 .write = 0 :=
  ⟨run_tracks (Run.of_allowed (by decide)), by decide,
    by decide⟩

def AnyCall (arch : Mm.Arch) : FdSystem fs → FdEvent → FdSystem fs → Prop :=
  Guarded Legal (apply arch)

def forkAndClose : List FdEvent :=
  [.pipe 64, .fork .scheduled ⟨1, 1⟩, .switchTo 1, .close 3, .close 4]

/-- The slot is freed while the parent has both ends open. -/
theorem fork_uncounted : ∃ s : FdSystem RamFileSystem,
    Transition.Run (AnyCall .x86_64) bare forkAndClose s ∧
      s.pipes.pipes 0 = none ∧ s.openEntries 0 .read = 1 ∧ s.openEntries 0 .write = 1 ∧
      ¬ s.pipes.Tracks s.openEntries := by
  have hfreed : (forkAndClose.foldl (apply .x86_64) bare).pipes.pipes 0 = none :=
    Option.isNone_iff_eq_none.mp (by decide)
  have hopen : (forkAndClose.foldl (apply .x86_64) bare).openEntries 0 .read = 1 := by
    decide
  refine ⟨_, Run.of_allowed (by decide), hfreed, hopen, by decide, ?_⟩
  intro htracks
  rw [(htracks.freed 0).mp hfreed .read] at hopen
  cases hopen

end FdSystem

end KarteOs.Syscall

import KarteOs.Syscall.PipeRefs

/-! # Descriptors and the open-file table

Descriptors name slots of a global table of open files. The tables of
descriptors are copied without a look at the global one, so that a slot can be
given up while a copy of its descriptor lives on.
-/

namespace KarteOs.Syscall

open Driver Function FdTable Transition Option

universe u

/-- The slot of the descriptor is in use, by the `open` the descriptor comes from. -/
def BackedBy (files : OpenFileTable) (desc : FileDescriptor) : Prop :=
  ∀ vfsFd, desc.vfsSlot = some vfsFd →
    ∃ file, files.get vfsFd = some file ∧ file.openId = desc.openId

def TableBacked (files : OpenFileTable) (table : FdTable) : Prop :=
  ∀ fd, ∀ desc ∈ table.get fd, BackedBy files desc

/-- No open descriptor of the table, the one at `except` apart, refers to the slot. -/
def Unused (table : FdTable) (vfsFd : Nat) (except : Option Nat) : Prop :=
  ∀ fd < maxFds, some fd ≠ except → ∀ desc ∈ table.get fd, desc.vfsSlot ≠ some vfsFd

instance (table : FdTable) (vfsFd : Nat) (except : Option Nat) :
    Decidable (Unused table vfsFd except) :=
  inferInstanceAs (Decidable (∀ fd < maxFds, _ → ∀ desc ∈ table.get fd, _))

section
variable {files : OpenFileTable} {table : FdTable} {desc : FileDescriptor} {fd vfsFd : Nat}

lemma backedBy_of_vfsSlot_none (hfile : desc.vfsSlot = none) : BackedBy files desc := by
  intro vfsFd hslot
  rw [hfile] at hslot
  cases hslot

lemma TableBacked.setFd (ht : TableBacked files table) (hdesc : BackedBy files desc) (fd : Nat) :
    TableBacked files (table.setFd fd desc) := by
  intro other found hfound
  by_cases hfd : fd < maxFds
  · rw [mem_def, FdTable.get_setFd hfd] at hfound
    split at hfound
    · obtain rfl := some.inj (filter_eq_some_iff.mp hfound).1
      exact hdesc
    · exact ht other found hfound
  · rw [FdTable.setFd, FdTable.setSlot, dif_neg hfd] at hfound
    exact ht other found hfound

lemma TableBacked.setSlot_none (ht : TableBacked files table) (hfd : fd < maxFds) :
    TableBacked files (table.setSlot fd none) := by
  intro other desc hget
  rw [mem_def, get_setSlot hfd] at hget
  split at hget
  · cases hget
  · exact ht other desc hget

lemma Unused.setSlot_none (h : Unused table vfsFd (some fd)) (hfd : fd < maxFds) :
    Unused (table.setSlot fd none) vfsFd none := by
  intro other hother _ desc hget
  rw [mem_def, get_setSlot hfd] at hget
  split at hget
  · cases hget
  next hne => exact h other hother (by simpa using hne) desc hget

lemma tableBacked_new (files : OpenFileTable) : TableBacked files .new := by
  have hplain : ∀ fd : Fin maxFds, ∀ desc ∈ new.fds fd, desc.vfsSlot = none := by decide
  intro fd desc hget
  obtain ⟨hslot, _⟩ := get_eq_some.mp hget
  rw [slot, dif_pos (get_lt hget)] at hslot
  exact backedBy_of_vfsSlot_none (hplain _ desc hslot)

lemma TableBacked.alloc (ht : TableBacked files table) {next : OpenFileTable} {file : OpenFile}
    (hfree : files.get vfsFd = none) (hfiles : next.get = update files.get vfsFd (some file)) :
    TableBacked next table := by
  intro fd desc hget slot hslot
  obtain ⟨old, hold, hopen⟩ := ht fd desc hget slot hslot
  refine ⟨old, ?_, hopen⟩
  rw [hfiles, update_of_ne, hold]
  rintro rfl
  rw [hfree] at hold
  cases hold

lemma TableBacked.close (ht : TableBacked files table) (hunused : Unused table vfsFd none) :
    TableBacked (files.close vfsFd).1 table := by
  intro fd desc hget slot hslot
  obtain ⟨file, hfile, hopen⟩ := ht fd desc hget slot hslot
  refine ⟨file, ?_, hopen⟩
  rw [OpenFileTable.close_get, update_of_ne, hfile]
  rintro rfl
  exact hunused fd (get_lt hget) (by simp) desc hget hslot

lemma TableBacked.closeFiles {fs : Type u} {vfs : VfsState fs} {descs : List FileDescriptor}
    (ht : TableBacked vfs.openFiles table)
    (hunused : ∀ desc ∈ descs, ∀ vfsFd ∈ desc.vfsSlot, Unused table vfsFd none) :
    TableBacked (FdSystem.closeFiles vfs descs).openFiles table := by
  induction descs generalizing vfs with
  | nil => exact ht
  | cons desc descs ih =>
    refine ih ?_ fun other hother => hunused other (.tail _ hother)
    dsimp only
    cases hslot : desc.vfsSlot with
    | none => exact ht
    | some vfsFd => exact ht.close (hunused desc (.head _) vfsFd hslot)

end

namespace FdSystem

variable {fs : Type u} {s : FdSystem fs} {proc : Process}

structure Backed (s : FdSystem fs) : Prop where
  wf : s.Wf
  tables : ∀ id ∈ s.procs.liveTables, TableBacked s.vfs.openFiles (s.tables id)

def ClosesOwn (s : FdSystem fs) (proc : Process) (fd : Nat) : Prop :=
  ∀ desc ∈ (s.tables proc.fdTable).get fd, ∀ vfsFd ∈ desc.vfsSlot, ∀ id ∈ s.procs.liveTables,
    Unused (s.tables id) vfsFd (if id = proc.fdTable then some fd else none)
deriving Decidable

/-- The slots of the descriptors that an exit closes have none among the survivors. -/
def ExitOwn (s : FdSystem fs) (proc : Process) (victims : List Nat) : Prop :=
  ∀ id ∈ s.procs.liveTables, id ≠ proc.fdTable → (∃ idx ∈ s.procs.holders id, idx ∉ victims) →
    ∀ fd < maxFds, ∀ desc ∈ (s.tables proc.fdTable).get fd, ∀ vfsFd ∈ desc.vfsSlot,
      Unused (s.tables id) vfsFd none

instance (s : FdSystem fs) (proc : Process) (victims : List Nat) :
    Decidable (s.ExitOwn proc victims) :=
  inferInstanceAs (Decidable (∀ id ∈ s.procs.liveTables, _ → _ →
    ∀ fd < maxFds, ∀ desc ∈ get _ fd, ∀ vfsFd ∈ desc.vfsSlot, _))

namespace Backed

variable {id fd flags : Nat} {desc : FileDescriptor} {table : FdTable}

lemma setTable (hs : s.Backed) (htable : TableBacked s.vfs.openFiles table) (id : Nat)
    (pipes : PipeTable) : ({ s with pipes }.setTable id table).Backed := by
  refine ⟨⟨hs.wf.fresh, hs.wf.free⟩, fun other hother => ?_⟩
  rcases eq_or_ne other id with rfl | hne
  · simpa [FdSystem.setTable] using htable
  · simpa [FdSystem.setTable, hne] using hs.tables other hother

lemma copyFd (hs : s.Backed) (hid : id ∈ s.procs.liveTables)
    (hget : (s.tables id).get fd = some desc) (target : Nat) :
    (s.copyFd id target desc).Backed := by
  have htable := hs.tables id hid
  exact hs.setTable (htable.setFd (htable fd desc hget) target) id _

variable {next : FdSystem fs}

lemma duplicates (hs : s.Backed) (hid : proc.fdTable ∈ s.procs.liveTables)
    (hdup : s.Duplicates proc fd next) : next.Backed := by
  cases hdup with
  | refused => exact hs
  | copied hget _ _ => exact hs.copyFd hid hget _

lemma sysDup2 (hs : s.Backed) (hid : proc.fdTable ∈ s.procs.liveTables) (oldFd newFd : Int) :
    (s.sysDup2 proc oldFd newFd).1.Backed := by
  obtain heq | ⟨desc, _, _, _, _, hget, heq⟩ := s.sysDup2_cases proc oldFd newFd
  · rw [heq]
    exact hs
  · rw [heq]
    exact hs.copyFd hid hget _

lemma vfsSlot_pipe (pipeId fd : Nat) (side : PipeEnd) :
    (FileDescriptor.pipe pipeId fd side).vfsSlot = none := by
  cases side <;> rfl

variable (hs : s.Backed)
include hs

lemma makesPipe (hid : proc.fdTable ∈ s.procs.liveTables) {fdPtr : Nat}
    (hpipe : s.MakesPipe proc fdPtr next) : next.Backed := by
  have hend : ∀ pipeId fd side, BackedBy s.vfs.openFiles (.pipe pipeId fd side) :=
    fun _ _ _ => backedBy_of_vfsSlot_none (vfsSlot_pipe ..)
  have htable := hs.tables _ hid
  cases hpipe with
  | refused => exact hs
  | made _ _ _ => exact hs.setTable ((htable.setFd (hend _ _ _) _).setFd (hend _ _ _) _) _ _
  | undone _ => exact ⟨⟨hs.wf.fresh, hs.wf.free⟩, hs.tables⟩
  | half _ _ _ _ => exact hs.setTable (htable.setFd (hend _ _ _) _) _ _

lemma spawn (proc : Process) (space : NewSpace) (htable : TableBacked s.vfs.openFiles table)
    (shared : Bool) (tid : Nat) :
    ((s.newTable table).addChild proc space s.nextTable shared tid).Backed := by
  refine ⟨(hs.wf.newTable table).addChild proc space (Nat.lt_succ_self _) shared tid,
    fun id hid => ?_⟩
  rw [liveTables_addChild (hs.wf.newTable table), Finset.mem_insert] at hid
  rcases eq_or_ne id s.nextTable with rfl | hne
  · simpa [addChild, newTable, FdSystem.setTable] using htable
  · have hold := hs.tables id (hid.resolve_left hne)
    simpa [addChild, newTable, FdSystem.setTable, hne] using hold

section
variable (hid : proc.fdTable ∈ s.procs.liveTables)
include hid

lemma share (space : NewSpace) (shared : Bool) (tid : Nat) :
    (s.addChild proc space proc.fdTable shared tid).Backed := by
  refine ⟨hs.wf.addChild proc space (hs.wf.fresh _ hid) shared tid, fun id hlive => ?_⟩
  rw [liveTables_addChild hs.wf, Finset.insert_eq_of_mem hid] at hlive
  exact hs.tables id hlive

lemma sysFork (outcome : SpawnOutcome) (space : NewSpace) :
    (s.sysFork proc outcome space).1.Backed := by
  obtain heq | ⟨_, heq⟩ := s.sysFork_cases proc outcome space
  · rw [heq]
    exact hs
  · rw [heq]
    exact hs.spawn proc space (hs.tables _ hid) false 0

lemma clones {outcome : SpawnOutcome} (hclone : s.Clones proc flags outcome next) :
    next.Backed := by
  cases hclone with
  | refused => exact hs
  | forked _ space => exact hs.sysFork hid outcome space
  | shared space tid => exact hs.share hid space true tid
  | fresh space tid => exact hs.spawn proc space (tableBacked_new _) true tid

lemma tableBacked_redirect (htable : TableBacked s.vfs.openFiles table) (pipes : PipeTable)
    (target : Nat) (side : PipeEnd) (fd : Int) :
    TableBacked s.vfs.openFiles (redirect pipes table target side (s.redirection proc fd)).2 := by
  cases hsource : s.redirection proc fd with
  | none => exact htable
  | some desc =>
    exact htable.setFd (hs.tables _ hid _ desc (Counted.redirection_get hsource)) target

lemma sysExecFd (redirStdin redirStdout : Int) (loaded : Except Int NewSpace)
    (outcome : SpawnOutcome) :
    (s.sysExecFd proc redirStdin redirStdout loaded outcome).1.Backed := by
  cases loaded with
  | error e => exact hs
  | ok space =>
    have hfirst := hs.tableBacked_redirect hid (tableBacked_new _) s.pipes 0 .read redirStdin
    have hsecond := hs.tableBacked_redirect hid hfirst
      (redirect s.pipes .new 0 .read (s.redirection proc redirStdin)).1 1 .write redirStdout
    have hpipes : ∀ pipes, ({ s with pipes } : FdSystem fs).Backed :=
      fun _ => ⟨⟨hs.wf.fresh, hs.wf.free⟩, hs.tables⟩
    exact (hpipes (redirect _ _ 1 .write _).1).spawn proc space hsecond false 0

end

lemma sysClose {fd : Int} (hkeeps : 0 ≤ fd → s.ClosesOwn proc fd.toNat) :
    (s.sysClose proc fd).1.Backed := by
  obtain heq | ⟨desc, hfd, hget, heq⟩ := s.sysClose_cases proc fd
  · rw [heq]
    exact hs
  rw [heq, show (s.setTable proc.fdTable _).cleanupFdResources desc = _ from
    foldl_cleanupFdResources _ [desc]]
  refine ⟨⟨hs.wf.fresh, hs.wf.free⟩, fun id hlive => ?_⟩
  have hlt := get_lt hget
  have hunused := hkeeps hfd desc hget
  rcases eq_or_ne id proc.fdTable with rfl | hne
  · have htable : TableBacked (closeFiles s.vfs [desc]).openFiles
        ((s.tables proc.fdTable).setSlot fd.toNat none) := by
      refine .closeFiles ((hs.tables _ hlive).setSlot_none hlt) ?_
      intro other hother vfsFd hslot
      obtain rfl := List.mem_singleton.mp hother
      exact (by simpa using hunused vfsFd hslot _ hlive :
        Unused _ vfsFd (some fd.toNat)).setSlot_none hlt
    simpa [FdSystem.setTable] using htable
  · have htable : TableBacked (closeFiles s.vfs [desc]).openFiles (s.tables id) := by
      refine (hs.tables id hlive).closeFiles ?_
      intro other hother vfsFd hslot
      obtain rfl := List.mem_singleton.mp hother
      simpa [hne] using hunused vfsFd hslot id hlive
    simpa [FdSystem.setTable, hne] using htable

lemma opens [FileSystem fs] (hid : proc.fdTable ∈ s.procs.liveTables) {arch : Mm.Arch}
    {request : Option Path} {result : FdSystem fs × Int}
    (hopens : s.Opens arch proc request flags result) : result.1.Backed := by
  have hkept : ∀ {vfs : VfsState fs} (nextOpen : Nat), vfs.openFiles = s.vfs.openFiles →
      ({ s with vfs, nextOpen } : FdSystem fs).Backed := by
    intro vfs nextOpen hfiles
    exact ⟨⟨hs.wf.fresh, hs.wf.free⟩, fun id hlive => hfiles ▸ hs.tables id hlive⟩
  have hopened : ∀ {vfs : VfsState fs} {name : Path} {vfsFd : Nat},
      s.vfs.openFile name (internalFlags arch flags) s.nextOpen = (vfs, .ok vfsFd) →
      ({ s with vfs, nextOpen := s.nextOpen + 1 } : FdSystem fs).Backed ∧
        ∃ file, vfs.openFiles.get vfsFd = some file ∧ file.openId = s.nextOpen := by
    intro vfs name vfsFd hopen
    have heffect := s.vfs.openFile_effect name (internalFlags arch flags) s.nextOpen
    rw [hopen] at heffect
    cases heffect with
    | opened hfree hfiles _ _ _ hopenId =>
      refine ⟨⟨⟨hs.wf.fresh, hs.wf.free⟩, fun id hlive => ?_⟩, _, by rw [hfiles]; simp, hopenId⟩
      exact (hs.tables id hlive).alloc hfree hfiles
  cases hopens with
  | refused _ hfiles _ => exact hkept _ hfiles
  | entered _ hfiles _ _ _ hfile =>
    have hbase := hkept s.nextOpen hfiles
    exact hbase.setTable ((hbase.tables _ hid).setFd (backedBy_of_vfsSlot_none hfile) _) _ _
  | opened _ hopen _ _ =>
    obtain ⟨hbase, file, hfile, hopenId⟩ := hopened hopen
    refine hbase.setTable ((hbase.tables _ hid).setFd ?_ _) _ _
    intro vfsFd hslot
    cases hslot
    exact ⟨file, hfile, hopenId⟩
  | leaked _ hopen _ => exact (hopened hopen).1

lemma exits {victims : List Nat} (hexits : s.Exits proc victims next)
    (hkeeps : s.ExitOwn proc victims) : next.Backed := by
  obtain ⟨⟨procs, rfl⟩, hholds, hfree⟩ := hexits
  simp only [cleanupProcessFds_eq] at hholds hfree ⊢
  have hsurvivor : ∀ id ∈ procs.liveTables,
      id ∈ s.procs.liveTables ∧ ∃ idx ∈ s.procs.holders id, idx ∉ victims := by
    intro id hlive
    obtain ⟨idx, hidx⟩ := ProcessTable.mem_liveTables.mp hlive
    obtain ⟨hheld, hspared⟩ := (hholds idx id).mp hidx
    exact ⟨ProcessTable.mem_liveTables.mpr ⟨idx, hheld⟩, idx,
      ProcessTable.mem_holders.mpr hheld, hspared⟩
  refine ⟨⟨fun id hlive => hs.wf.fresh id (hsurvivor id hlive).1, hfree hs.wf.free⟩,
    fun id hlive => ?_⟩
  rcases eq_or_ne id proc.fdTable with rfl | hne
  · intro fd desc hget
    simp [get_drainOpenFds] at hget
  · obtain ⟨hold, hspared⟩ := hsurvivor id hlive
    simp only [update_of_ne hne]
    refine (hs.tables id hold).closeFiles fun desc hdesc vfsFd hslot => ?_
    obtain ⟨fd, hget⟩ := get_of_mem_drainOpenFds hdesc
    exact hkeeps id hold hne hspared fd (get_lt hget) desc hget vfsFd hslot

end Backed

def KeepsFilesAt (s : FdSystem fs) (proc : Process) : FdEvent → Prop
  | .close fd => 0 ≤ fd → s.ClosesOwn proc fd.toNat
  | .exit _ => s.ExitOwn proc (s.exitVictims proc)
  | .exitGroup _ => s.ExitOwn proc (s.groupVictims proc)
  | _ => True

instance (s : FdSystem fs) (proc : Process) (event : FdEvent) :
    Decidable (s.KeepsFilesAt proc event) := by
  rcases event <;> dsimp only [KeepsFilesAt] <;> infer_instance

def KeepsFiles (s : FdSystem fs) (event : FdEvent) : Prop :=
  ∀ proc ∈ s.caller, s.KeepsFilesAt proc event
deriving Decidable

variable [FileSystem fs]

lemma Backed.apply (hs : s.Backed) (arch : Mm.Arch) {event : FdEvent}
    (hkeeps : s.KeepsFiles event) : (s.apply arch event).Backed := by
  cases event
  case' openPath | pipe | dup | dup2 | dupfd | fork | clone | execFd | close | exit | exitGroup =>
    refine asCaller_of hs fun proc h => ?_
    have hid := mem_liveTables_of_caller h
  case openPath => exact hs.opens hid (s.sysOpen_opens ..)
  case pipe fdPtr => exact hs.makesPipe hid (s.sysPipe_makesPipe proc fdPtr)
  case dup oldfd => exact hs.duplicates hid (s.linuxDup_duplicates proc oldfd)
  case dup2 oldFd newFd => exact hs.sysDup2 hid oldFd newFd
  case dupfd fd arg => exact hs.duplicates hid (s.fcntlDupfd_duplicates proc fd arg)
  case fork outcome space => exact hs.sysFork hid outcome space
  case clone => exact hs.clones hid (s.linuxClone_clones ..)
  case execFd => exact hs.sysExecFd hid ..
  case close => exact hs.sysClose (hkeeps proc h)
  case exit code => exact hs.exits (sysExit_exits s proc code) (hkeeps proc h)
  case exitGroup code =>
    refine hs.exits (linuxExitGroup_exits ?_ code) (hkeeps proc h)
    simp [(caller_eq_some.mp h).1]
  case switchTo => exact ⟨⟨hs.wf.fresh, hs.wf.free⟩, hs.tables⟩

/-- A descriptor number is free, or no file system opens what is asked for. -/
def RoomToOpen (s : FdSystem fs) (arch : Mm.Arch) (proc : Process) (request : Option Path)
    (flags : Nat) : Prop :=
  ((s.tables proc.fdTable).firstFree 0).isSome = true ∨ s.CannotOpen arch request flags

lemma Opens.failed_iff {arch : Mm.Arch} {request : Option Path} {flags : Nat}
    {result : FdSystem fs × Int} (hopens : s.Opens arch proc request flags result) :
    (result.2 < 0 → ∀ slot, (result.1.vfs.openFiles.get slot).isSome =
        (s.vfs.openFiles.get slot).isSome) ↔ s.RoomToOpen arch proc request flags := by
  cases hopens with
  | refused hcannot hfiles _ => exact iff_of_true (fun _ slot => by simp [hfiles]) (.inr hcannot)
  | entered hcannot _ _ _ _ _ => exact iff_of_true (fun h => by simp at h; omega) (.inr hcannot)
  | opened _ _ hfd hfree =>
    exact iff_of_true (fun h => by simp at h; omega) (.inl (firstFree_isSome hfd hfree))
  | @leaked vfs name vfsFd hname hopen hfull =>
    have heffect := s.vfs.openFile_effect name (internalFlags arch flags) s.nextOpen
    rw [hopen] at heffect
    refine iff_of_false (fun hsame => ?_) ?_
    · cases heffect with
      | opened hfree hfiles _ _ _ _ =>
        have hslot := hsame (by decide : errNomem < 0) vfsFd
        rw [hfiles, update_self, hfree] at hslot
        cases hslot
    · rintro (hroom | hcannot)
      · rw [hfull] at hroom
        cases hroom
      · have hfailed := hcannot _ hname
        rw [hopen] at hfailed
        cases hfailed

/-- Descriptors of live processes refer to slots that are in use, by the `open`
that they come from; descriptors of different `open` calls have different slots;
an `open` that fails takes no slot if the descriptor table has room. -/
structure FilesSound (arch : Mm.Arch) (s : FdSystem fs) : Prop where
  backed : ∀ id ∈ s.procs.liveTables, TableBacked s.vfs.openFiles (s.tables id)
  apart : ∀ id ∈ s.procs.liveTables, ∀ other ∈ s.procs.liveTables, ∀ fd fd' desc desc' vfsFd,
    (s.tables id).get fd = some desc → (s.tables other).get fd' = some desc' →
    desc.vfsSlot = some vfsFd → desc'.vfsSlot = some vfsFd → desc.openId = desc'.openId
  failedOpen : ∀ proc ∈ s.caller, ∀ path pathLen userPath flags,
    ((s.sysOpen arch proc path pathLen userPath flags).2 < 0 → ∀ slot,
        ((s.sysOpen arch proc path pathLen userPath flags).1.vfs.openFiles.get slot).isSome =
          (s.vfs.openFiles.get slot).isSome) ↔
      s.RoomToOpen arch proc (s.requested path pathLen userPath) flags

lemma Backed.filesSound (hs : s.Backed) (arch : Mm.Arch) : s.FilesSound arch where
  backed := hs.tables
  apart := by
    intro id hid other hother fd fd' desc desc' vfsFd hget hget' hslot hslot'
    obtain ⟨file, hfile, hopenId⟩ := hs.tables id hid fd desc hget vfsFd hslot
    obtain ⟨file', hfile', hopenId'⟩ := hs.tables other hother fd' desc' hget' vfsFd hslot'
    rw [hfile] at hfile'
    cases hfile'
    rw [← hopenId, hopenId']
  failedOpen := fun _ _ _ _ _ _ => (s.sysOpen_opens ..).failed_iff

def FileStep (arch : Mm.Arch) : FdSystem fs → FdEvent → FdSystem fs → Prop :=
  Guarded (fun s event => s.Legal event ∧ s.KeepsFiles event) (apply arch)

theorem run_filesSound {arch : Mm.Arch} {mounts : List (MountEntry fs)} {space : NewSpace}
    {cwd : Path} {ramFiles : Path → Bool} {events : List FdEvent} {s : FdSystem fs}
    (hrun : Transition.Run (FileStep arch) (boot mounts space cwd ramFiles) events s) :
    s.FilesSound arch := by
  have hstep : ∀ (state : FdSystem fs) event next,
      state.Backed → FileStep arch state event next → next.Backed := by
    rintro state event _ hstate ⟨⟨_, hkeeps⟩, rfl⟩
    exact hstate.apply arch hkeeps
  exact (hrun.invariant hstep ⟨boot_wf .., fun _ _ => tableBacked_new _⟩).filesSound arch

/-- Open a file of the in-memory file system, created if it is not there. -/
def openCreate (name : String) : FdEvent :=
  .openPath 64 name.length (some name.toList) oCreat

/-- Two files are opened, the first is closed, the second duplicated and inherited. -/
def openAndInherit : List FdEvent :=
  [openCreate "/a", openCreate "/b", .close 3, .dup 4, .fork .scheduled ⟨1, 1⟩, .switchTo 1]

theorem run_filesSound_openAndInherit :
    (openAndInherit.foldl (apply .x86_64) bare).FilesSound .x86_64 ∧
      (((openAndInherit.foldl (apply .x86_64) bare).tables 1).get 3).bind
        FileDescriptor.vfsSlot = some 1 :=
  ⟨run_filesSound (Run.of_allowed (by decide)), by decide⟩

/-- A file is opened and duplicated; the original is closed, and another file opened. -/
def closeDuplicate : List FdEvent :=
  [openCreate "/a", .dup 3, .close 3, openCreate "/b"]

/-- The duplicate of the first descriptor now refers to the slot of the second file. -/
theorem duplicate_dangles : ∃ s : FdSystem RamFileSystem,
    Transition.Run (AnyCall .x86_64) bare closeDuplicate s ∧
      (∃ first second, (s.tables 0).get 4 = some first ∧ (s.tables 0).get 3 = some second ∧
        first.vfsSlot = some 0 ∧ second.vfsSlot = some 0 ∧
        first.openId = 0 ∧ second.openId = 1) ∧
      ¬ s.FilesSound .x86_64 := by
  have hshare : ∃ first second,
      ((closeDuplicate.foldl (apply .x86_64) bare).tables 0).get 4 = some first ∧
        ((closeDuplicate.foldl (apply .x86_64) bare).tables 0).get 3 = some second ∧
        first.vfsSlot = some 0 ∧ second.vfsSlot = some 0 ∧
        first.openId = 0 ∧ second.openId = 1 := by
    refine ⟨.vfs ['a'] 0 oCreat 0, .vfs ['b'] 0 oCreat 1, ?_⟩
    decide
  have hlive : 0 ∈ (closeDuplicate.foldl (apply .x86_64) bare).procs.liveTables := by
    decide
  refine ⟨_, Run.of_allowed (by decide), hshare, fun hsound => ?_⟩
  obtain ⟨first, second, hget, hget', hslot, hslot', hfirst, hsecond⟩ := hshare
  have hsame := hsound.apart 0 hlive 0 hlive 4 3 first second 0 hget hget' hslot hslot'
  rw [hfirst, hsecond] at hsame
  cases hsame

end FdSystem

end KarteOs.Syscall

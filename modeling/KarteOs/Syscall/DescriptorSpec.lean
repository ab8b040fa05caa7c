import KarteOs.Syscall.Descriptors

/-! # How the descriptor calls change the live tables

Two kinds of step change which descriptor tables are in use: the creation of a
process, which adds one or shares the caller's, and an exit, which gives up the
tables that only its victims hold.
-/

namespace KarteOs

open Function ProcessTable List Option

namespace ProcessTable

variable {t : ProcessTable} {idx id : Nat} {good : Process → Bool}

lemma holds_modify {f : Process → Process}
    (hf : ∀ proc, (f proc).state = proc.state ∧ (f proc).fdTable = proc.fdTable) (changed : Nat) :
    (t.modify changed f).Holds idx id ↔ t.Holds idx id := by
  unfold Holds
  rw [get_modify]
  rcases eq_or_ne idx changed with rfl | hne
  · cases hget : t.get idx with
    | none => simp
    | some proc => simp [hf proc]
  · rw [update_of_ne hne]

lemma liveTables_addProcess (ht : t.FreeOk) {child : Process} (hstate : child.state ≠ .exited) :
    (t.addProcess child).1.liveTables = insert child.fdTable t.liveTables := by
  obtain ⟨_, hempty, hget⟩ := ht.addProcess child
  ext id
  rw [Finset.mem_insert, mem_liveTables, mem_liveTables]
  constructor
  · rintro ⟨idx, proc, hproc, hlive, htable⟩
    rw [hget] at hproc
    rcases eq_or_ne idx (t.addProcess child).2 with rfl | hne
    · rw [update_self] at hproc
      cases hproc
      exact .inl htable.symm
    · rw [update_of_ne hne] at hproc
      exact .inr ⟨idx, proc, hproc, hlive, htable⟩
  · rintro (rfl | ⟨idx, proc, hproc, hlive, htable⟩)
    · exact ⟨_, child, by rw [hget, update_self], hstate, rfl⟩
    · refine ⟨idx, proc, ?_, hlive, htable⟩
      rw [hget, update_of_ne, hproc]
      rintro rfl
      rw [hempty] at hproc
      cases hproc

lemma holds_setExitCodeByIndex (changed code : Nat) :
    (t.setExitCodeByIndex changed code).Holds idx id ↔ t.Holds idx id ∧ idx ≠ changed := by
  unfold Holds setExitCodeByIndex
  rw [get_modify]
  rcases eq_or_ne idx changed with rfl | hne
  · simp
  · simp [hne]

lemma holds_freeProcessSlot (freed : Nat) :
    (t.freeProcessSlot freed).Holds idx id ↔ t.Holds idx id ∧ idx ≠ freed := by
  unfold Holds
  rw [get_freeProcessSlot]
  rcases eq_or_ne idx freed with rfl | hne
  · simp
  · simp [hne]

lemma holds_foldl_killClone (indices : List Nat) :
    (indices.foldl killClone t).Holds idx id ↔ t.Holds idx id ∧ idx ∉ indices := by
  unfold Holds
  rw [get_foldl_killClone]
  split
  next hmem => simp [hmem]
  next hmem => simp [hmem]

lemma holds_wakeParent (child : Nat) :
    (Syscall.FdSystem.wakeParent t child).Holds idx id ↔ t.Holds idx id := by
  unfold Syscall.FdSystem.wakeParent
  split
  next parent _ =>
    rw [setWaitChild, holds_modify]
    exact fun _ => ⟨rfl, rfl⟩
  · rfl

lemma FreeOk.wakeParent (ht : t.FreeOk) (child : Nat) :
    (Syscall.FdSystem.wakeParent t child).FreeOk := by
  unfold Syscall.FdSystem.wakeParent
  split
  · exact ht.modify _ _
  · exact ht

lemma findBy_eq_none :
    t.findBy good = none ↔ ∀ idx proc, t.get idx = some proc → good proc = false := by
  rw [findBy, findIdx?_eq_none_iff]
  constructor
  · intro hnone idx proc hproc
    have hentry : some proc ∈ t.slots := mem_of_getElem? (join_eq_some_iff.mp hproc)
    simpa using hnone (some proc) hentry
  · intro hall entry hentry
    cases entry with
    | none => rfl
    | some proc =>
      obtain ⟨idx, hidx⟩ := mem_iff_getElem?.mp hentry
      exact hall idx proc (by rw [get, hidx]; rfl)

lemma mem_of_findBy (hfind : t.findBy good = some idx) : idx ∈ t.allBy good := by
  obtain ⟨hlt, hgood, _⟩ := findIdx?_eq_some_iff_getElem.mp hfind
  obtain ⟨proc, hproc, hgood⟩ : ∃ proc, t.slots[idx] = some proc ∧ good proc := by
    simpa [Option.any_eq_true] using hgood
  exact mem_allBy.mpr ⟨proc, by simp [get, getElem?_eq_getElem hlt, hproc], hgood⟩

lemma leader_mem {root leader : Nat}
    (hleader : t.findGroupLeaderByPageTableRoot root = some leader) :
    leader ∈ t.findProcessesByPageTableRoot root := by
  rcases or_eq_some_iff.mp hleader with hfind | ⟨_, hfind⟩
  · obtain ⟨proc, hproc, hgood⟩ := mem_allBy.mp (mem_of_findBy hfind)
    exact mem_allBy.mpr ⟨proc, hproc, (Bool.and_eq_true_iff.mp hgood).1⟩
  · exact mem_of_findBy hfind

open Syscall.FdSystem

variable {leader code member : Nat}

lemma get_exitMember_of_ne (hne : idx ≠ member) :
    (exitMember leader code t member).get idx = t.get idx := by
  unfold exitMember
  split
  · rw [setExitCodeByIndex, get_modify, update_of_ne hne]
  · rw [get_freeProcessSlot, update_of_ne hne, setExitCodeByIndex, get_modify, update_of_ne hne]

lemma holds_exitMember (member : Nat) :
    (exitMember leader code t member).Holds idx id ↔ t.Holds idx id ∧ idx ≠ member := by
  unfold exitMember
  split
  · exact holds_setExitCodeByIndex _ _
  · rw [holds_freeProcessSlot, holds_setExitCodeByIndex, and_assoc, and_self_iff]

lemma FreeOk.exitMember (ht : t.FreeOk) (hmember : (t.get member).isSome) :
    (exitMember leader code t member).FreeOk := by
  unfold Syscall.FdSystem.exitMember
  split
  · exact ht.modify _ _
  · refine .freeProcessSlot (ht.modify ..) ?_
    simpa [setExitCodeByIndex, get_modify] using hmember

variable {members : List Nat}

lemma get_foldl_exitMember (hidx : idx ∉ members) :
    (members.foldl (Syscall.FdSystem.exitMember leader code) t).get idx = t.get idx := by
  induction members generalizing t with
  | nil => rfl
  | cons member members ih =>
    rw [mem_cons, not_or] at hidx
    rw [foldl_cons, ih hidx.2, get_exitMember_of_ne hidx.1]

lemma holds_foldl_exitMember :
    (members.foldl (Syscall.FdSystem.exitMember leader code) t).Holds idx id ↔
      t.Holds idx id ∧ idx ∉ members := by
  induction members generalizing t with
  | nil => simp
  | cons member members ih => rw [foldl_cons, ih, holds_exitMember, mem_cons, not_or, and_assoc]

lemma FreeOk.foldl_exitMember (ht : t.FreeOk) (leader code : Nat) (hnodup : members.Nodup)
    (hsome : ∀ idx ∈ members, (t.get idx).isSome) :
    (members.foldl (Syscall.FdSystem.exitMember leader code) t).FreeOk := by
  induction members generalizing t with
  | nil => exact ht
  | cons member members ih =>
    obtain ⟨hnew, hnodup⟩ := nodup_cons.mp hnodup
    refine ih (ht.exitMember (hsome member (.head _))) hnodup fun other hother => ?_
    have hne : other ≠ member := fun h => hnew (h ▸ hother)
    rw [get_exitMember_of_ne hne]
    exact hsome other (.tail _ hother)

end ProcessTable

namespace Syscall

open Driver

universe u

namespace FdSystem

variable {fs : Type u} {s : FdSystem fs} {proc : Process}

/-- New tables get references that no live process holds, and new processes
slots that are empty. -/
structure Wf (s : FdSystem fs) : Prop where
  fresh : ∀ id ∈ s.procs.liveTables, id < s.nextTable
  free : s.procs.FreeOk

lemma caller_eq_some :
    s.caller = some proc ↔ s.procs.get s.current = some proc ∧ proc.state ≠ .exited := by
  simp [caller, filter_eq_some_iff]

lemma mem_liveTables_of_caller (hcaller : s.caller = some proc) :
    proc.fdTable ∈ s.procs.liveTables :=
  mem_liveTables.mpr ⟨s.current, proc, (caller_eq_some.mp hcaller).1,
    (caller_eq_some.mp hcaller).2, rfl⟩

lemma asCaller_of {step : Process → FdSystem fs} {good : FdSystem fs → Prop} (hs : good s)
    (hstep : ∀ proc, s.caller = some proc → good (step proc)) : good (s.asCaller step) := by
  unfold asCaller
  cases hcaller : s.caller with
  | none => exact hs
  | some proc => exact hstep proc hcaller

lemma liveTables_addChild (hs : s.Wf) (proc : Process) (space : NewSpace) (fdTable : Nat)
    (shared : Bool) (tid : Nat) : (s.addChild proc space fdTable shared tid).procs.liveTables =
      insert fdTable s.procs.liveTables :=
  liveTables_addProcess hs.free (by simp)

lemma Wf.addChild (hs : s.Wf) (proc : Process) (space : NewSpace) {fdTable : Nat}
    (hfdTable : fdTable < s.nextTable) (shared : Bool) (tid : Nat) :
    (s.addChild proc space fdTable shared tid).Wf where
  fresh := by
    intro id hid
    rw [liveTables_addChild hs, Finset.mem_insert] at hid
    rcases hid with rfl | hid
    · exact hfdTable
    · exact hs.fresh id hid
  free := (hs.free.addProcess _).1

lemma Wf.newTable (hs : s.Wf) (table : FdTable) : (s.newTable table).Wf where
  fresh := fun id hid => Nat.lt_succ_of_lt (hs.fresh id hid)
  free := hs.free

variable (mounts : List (MountEntry fs))

lemma boot_liveTables (space : NewSpace) (cwd : Path)
    (ramFiles : Path → Bool) : (boot mounts space cwd ramFiles).procs.liveTables = {0} := by
  simp [boot, liveTables]

lemma boot_wf (space : NewSpace) (cwd : Path)
    (ramFiles : Path → Bool) : (boot mounts space cwd ramFiles).Wf where
  fresh := by
    rw [boot_liveTables]
    simp [boot]
  free := ⟨nodup_nil, by simp [boot]⟩

/-! ## What the calls can do

One lemma for each call, so that an invariant follows by cases on its outcome.
-/

def copyFd (s : FdSystem fs) (id target : Nat) (desc : FileDescriptor) : FdSystem fs :=
  { s with pipes := s.pipes.incRefFor desc }.setTable id ((s.tables id).setFd target desc)

inductive Duplicates (s : FdSystem fs) (proc : Process) (fd : Nat) : FdSystem fs → Prop
  | refused : Duplicates s proc fd s
  | copied {desc : FileDescriptor} {target : Nat}
      (hget : (s.tables proc.fdTable).get fd = some desc) (htarget : target < maxFds)
      (hfree : (s.tables proc.fdTable).get target = none) :
      Duplicates s proc fd (s.copyFd proc.fdTable target desc)

lemma linuxDup_duplicates (s : FdSystem fs) (proc : Process) (oldfd : Nat) :
    s.Duplicates proc oldfd (s.linuxDup proc oldfd).1 := by
  unfold linuxDup
  dsimp only
  split
  · exact .refused
  next newFd hfree =>
    obtain ⟨hnew, _, hnone⟩ := FdTable.firstFree_some hfree
    cases hget : (s.tables proc.fdTable).get oldfd with
    | none =>
      simp only [FdTable.dup, hnew, if_true, hget]
      exact .refused
    | some desc =>
      have hne : oldfd ≠ newFd := by
        rintro rfl
        rw [hnone] at hget
        cases hget
      have hkept : ((s.tables proc.fdTable).setFd newFd desc).get oldfd = some desc := by
        rw [FdTable.get_setFd hnew, if_neg hne]
        exact hget
      simp only [FdTable.dup, hnew, if_true, hget, map_some, hkept]
      exact .copied hget hnew hnone

lemma fcntlDupfd_duplicates (s : FdSystem fs) (proc : Process) (fd arg : Nat) :
    s.Duplicates proc fd (s.fcntlDupfd proc fd arg).1 := by
  unfold fcntlDupfd
  dsimp only
  split
  · exact .refused
  next desc hget =>
    split
    · exact .refused
    next cand hfree =>
      obtain ⟨hcand, _, hnone⟩ := FdTable.firstFree_some hfree
      exact .copied hget hcand hnone

lemma sysDup2_cases (s : FdSystem fs) (proc : Process) (oldFd newFd : Int) :
    (s.sysDup2 proc oldFd newFd).1 = s ∨
      ∃ desc, 0 ≤ oldFd ∧ 0 ≤ newFd ∧ oldFd ≠ newFd ∧ newFd.toNat < maxFds ∧
        (s.tables proc.fdTable).get oldFd.toNat = some desc ∧
        (s.sysDup2 proc oldFd newFd).1 = s.copyFd proc.fdTable newFd.toNat desc := by
  unfold sysDup2
  split
  · exact .inl rfl
  next hrange =>
    simp only [not_or, not_lt, not_le] at hrange
    obtain ⟨hold, hnew, _, hlt⟩ := hrange
    split
    · exact .inl rfl
    next hne =>
      split
      · exact .inl rfl
      next desc hget => exact .inr ⟨desc, hold, hnew, hne, hlt, hget, rfl⟩

/-- What `sys_pipe` can do: nothing, make a pipe with both descriptors, give the
pipe up for want of a descriptor, or give it up and keep the first descriptor. -/
inductive MakesPipe (s : FdSystem fs) (proc : Process) (fdPtr : Nat) : FdSystem fs → Prop
  | refused : MakesPipe s proc fdPtr s
  | made {pipeId first second : Nat} {pipes : PipeTable}
      (halloc : s.pipes.allocPipe = some (pipeId, pipes))
      (hfirst : (s.tables proc.fdTable).firstFree 0 = some first)
      (hsecond : ((s.tables proc.fdTable).setFd first (.pipe pipeId first .read)).firstFree 0 =
        some second) :
      MakesPipe s proc fdPtr ({ s with pipes }.setTable proc.fdTable
        (((s.tables proc.fdTable).setFd first (.pipe pipeId first .read)).setFd second
          (.pipe pipeId second .write)))
  | undone {pipeId : Nat} {pipes : PipeTable}
      (halloc : s.pipes.allocPipe = some (pipeId, pipes)) :
      MakesPipe s proc fdPtr
        { s with pipes := (pipes.closeEnd pipeId .read).closeEnd pipeId .write }
  | half {pipeId first : Nat} {pipes : PipeTable} (hptr : fdPtr ≠ 0)
      (halloc : s.pipes.allocPipe = some (pipeId, pipes))
      (hfirst : (s.tables proc.fdTable).firstFree 0 = some first)
      (hfull : ((s.tables proc.fdTable).setFd first (.pipe pipeId first .read)).firstFree 0 =
        none) :
      MakesPipe s proc fdPtr
        ({ s with pipes := (pipes.closeEnd pipeId .read).closeEnd pipeId .write }.setTable
          proc.fdTable ((s.tables proc.fdTable).setFd first (.pipe pipeId first .read)))

lemma sysPipe_makesPipe (s : FdSystem fs) (proc : Process) (fdPtr : Nat) :
    s.MakesPipe proc fdPtr (s.sysPipe proc fdPtr).1 := by
  unfold sysPipe
  split
  · exact .refused
  next hptr =>
    split
    · exact .refused
    next pipeId pipes halloc =>
      simp only [FdTable.allocPipeFd, FdTable.allocWith]
      cases hfirst : (s.tables proc.fdTable).firstFree 0 with
      | none =>
        simp only [hfirst, setTable, update_eq_self]
        exact .undone halloc
      | some first =>
        cases hsecond : ((s.tables proc.fdTable).setFd first
            (.pipe pipeId first .read)).firstFree 0 with
        | none => exact .half hptr halloc hfirst hsecond
        | some second => exact .made halloc hfirst hsecond

lemma sysFork_cases (s : FdSystem fs) (proc : Process) (outcome : SpawnOutcome)
    (space : NewSpace) : (s.sysFork proc outcome space).1 = s ∨ outcome.entersTable ∧
      (s.sysFork proc outcome space).1 =
        (s.newTable (s.tables proc.fdTable)).addChild proc space s.nextTable false 0 := by
  cases outcome with
  | failed error => exact .inl rfl
  | unscheduled | scheduled => exact .inr ⟨rfl, rfl⟩

/-- What `linux_clone` can do: nothing, fork, or create a thread whose table is
the caller's or a new one. -/
inductive Clones (s : FdSystem fs) (proc : Process) (flags : Nat) (outcome : SpawnOutcome) :
    FdSystem fs → Prop
  | refused : Clones s proc flags outcome s
  | forked (hcopy : flags &&& cloneVm = 0) (space : NewSpace) :
      Clones s proc flags outcome (s.sysFork proc outcome space).1
  | shared (space : NewSpace) (tid : Nat) :
      Clones s proc flags outcome (s.addChild proc space proc.fdTable true tid)
  | fresh (space : NewSpace) (tid : Nat) :
      Clones s proc flags outcome ((s.newTable .new).addChild proc space s.nextTable true tid)

lemma linuxClone_clones (s : FdSystem fs) (arch : Mm.Arch) (proc : Process)
    (flags stack childTidPtr : Nat) (outcome : SpawnOutcome) (space : NewSpace) (task : Nat) :
    s.Clones proc flags outcome
      (s.linuxClone arch proc flags stack childTidPtr outcome space task).1 := by
  unfold linuxClone
  split
  next hcopy => exact .forked hcopy space
  · split
    · exact .refused
    · split
      · exact .refused
      · exact .refused
      · exact .refused
      · dsimp only
        split
        · exact .shared _ _
        · exact .fresh _ _

lemma sysClose_cases (s : FdSystem fs) (proc : Process) (fd : Int) :
    (s.sysClose proc fd).1 = s ∨ ∃ desc, 0 ≤ fd ∧
      (s.tables proc.fdTable).get fd.toNat = some desc ∧ (s.sysClose proc fd).1 =
        (s.setTable proc.fdTable
          ((s.tables proc.fdTable).setSlot fd.toNat none)).cleanupFdResources desc := by
  unfold sysClose FdTable.take
  split
  · exact .inl rfl
  next hrange =>
    cases hget : (s.tables proc.fdTable).get fd.toNat with
    | none => exact .inl rfl
    | some desc => exact .inr ⟨desc, by omega, rfl, rfl⟩

lemma install_cases (s : FdSystem fs) (proc : Process) (make : Nat → FileDescriptor) :
    s.install proc ((s.tables proc.fdTable).allocWith make) = (s, errNomem) ∧
        (s.tables proc.fdTable).firstFree 0 = none ∨
      ∃ fd, fd < maxFds ∧ (s.tables proc.fdTable).get fd = none ∧
        s.install proc ((s.tables proc.fdTable).allocWith make) =
          (s.setTable proc.fdTable ((s.tables proc.fdTable).setFd fd (make fd)), (fd : Int)) := by
  unfold install FdTable.allocWith
  split
  next fd hfree =>
    obtain ⟨hfd, _, hnone⟩ := FdTable.firstFree_some hfree
    exact .inr ⟨fd, hfd, hnone, rfl⟩
  next hfull => exact .inl ⟨by simp [setTable], hfull⟩

section
variable [FileSystem fs]

def requested (s : FdSystem fs) (path pathLen : Nat) (userPath : Option Path) : Option Path :=
  if path = 0 ∨ pathLen = 0 ∨ 256 < pathLen then none
  else ((userPath.filter (· ≠ [])).map s.resolvePath).filter (· ≠ [])

def CannotOpen (s : FdSystem fs) (arch : Mm.Arch) (request : Option Path) (flags : Nat) : Prop :=
  ∀ name ∈ request, (s.vfs.openFile name (internalFlags arch flags) s.nextOpen).2.isOk = false

/-- What `sys_open` can do: nothing, enter a descriptor that is no file's, or
open a file, which is left behind when no descriptor number is free. -/
inductive Opens (s : FdSystem fs) (arch : Mm.Arch) (proc : Process) (request : Option Path)
    (flags : Nat) : FdSystem fs × Int → Prop
  | refused {vfs : VfsState fs} {error : Int} (hcannot : s.CannotOpen arch request flags)
      (hfiles : vfs.openFiles = s.vfs.openFiles) (herror : error < 0) :
      Opens s arch proc request flags ({ s with vfs }, error)
  | entered {vfs : VfsState fs} {fd : Nat} {desc : FileDescriptor}
      (hcannot : s.CannotOpen arch request flags) (hfiles : vfs.openFiles = s.vfs.openFiles)
      (hfd : fd < maxFds) (hfree : (s.tables proc.fdTable).get fd = none)
      (hpipe : desc.pipeEnd = none) (hfile : desc.vfsSlot = none) :
      Opens s arch proc request flags
        ({ s with vfs }.setTable proc.fdTable ((s.tables proc.fdTable).setFd fd desc), fd)
  | opened {vfs : VfsState fs} {name : Path} {vfsFd fd : Nat} (hname : request = some name)
      (hopen : s.vfs.openFile name (internalFlags arch flags) s.nextOpen = (vfs, .ok vfsFd))
      (hfd : fd < maxFds) (hfree : (s.tables proc.fdTable).get fd = none) :
      Opens s arch proc request flags
        ({ s with vfs, nextOpen := s.nextOpen + 1 }.setTable proc.fdTable
          ((s.tables proc.fdTable).setFd fd (.vfs name vfsFd flags s.nextOpen)), fd)
  | leaked {vfs : VfsState fs} {name : Path} {vfsFd : Nat} (hname : request = some name)
      (hopen : s.vfs.openFile name (internalFlags arch flags) s.nextOpen = (vfs, .ok vfsFd))
      (hfull : (s.tables proc.fdTable).firstFree 0 = none) :
      Opens s arch proc request flags ({ s with vfs, nextOpen := s.nextOpen + 1 }, errNomem)

omit [FileSystem fs] in
lemma openFallback_cases (s : FdSystem fs) (proc : Process) (name : Path) (flags : Nat) :
    (∃ error < 0, s.openFallback proc name flags = (s, error)) ∨
      ∃ fd desc, fd < maxFds ∧ (s.tables proc.fdTable).get fd = none ∧
        desc.pipeEnd = none ∧ desc.vfsSlot = none ∧
        s.openFallback proc name flags =
          (s.setTable proc.fdTable ((s.tables proc.fdTable).setFd fd desc), (fd : Int)) := by
  have hinstall : ∀ make : Nat → FileDescriptor,
      (∀ fd, (make fd).pipeEnd = none ∧ (make fd).vfsSlot = none) →
      (∃ error < 0, s.install proc ((s.tables proc.fdTable).allocWith make) = (s, error)) ∨
        ∃ fd desc, fd < maxFds ∧ (s.tables proc.fdTable).get fd = none ∧
          desc.pipeEnd = none ∧ desc.vfsSlot = none ∧
          s.install proc ((s.tables proc.fdTable).allocWith make) =
            (s.setTable proc.fdTable ((s.tables proc.fdTable).setFd fd desc), (fd : Int)) := by
    intro make hmake
    rcases s.install_cases proc make with ⟨hfull, _⟩ | ⟨fd, hfd, hfree, hentered⟩
    · exact .inl ⟨errNomem, by decide, hfull⟩
    · exact .inr ⟨fd, make fd, hfd, hfree, (hmake fd).1, (hmake fd).2, hentered⟩
  unfold openFallback
  dsimp only
  split
  · exact hinstall _ fun _ => ⟨rfl, rfl⟩
  · split
    · exact hinstall _ fun _ => ⟨rfl, rfl⟩
    · split
      · exact hinstall _ fun _ => ⟨rfl, rfl⟩
      · exact .inl ⟨errNoent, by decide, rfl⟩

lemma sysOpen_requested (s : FdSystem fs) (arch : Mm.Arch) (proc : Process) (path pathLen : Nat)
    (userPath : Option Path) (flags : Nat) : s.sysOpen arch proc path pathLen userPath flags =
      match s.requested path pathLen userPath with
      | none => (s, errInval)
      | some name =>
        match s.vfs.openFile name (internalFlags arch flags) s.nextOpen with
        | (vfs, .ok vfsFd) =>
          { s with vfs, nextOpen := s.nextOpen + 1 }.install proc
            ((s.tables proc.fdTable).allocVfsFd name vfsFd flags s.nextOpen)
        | (vfs, .error _) => { s with vfs }.openFallback proc name flags := by
  unfold sysOpen requested
  split
  · rfl
  · cases userPath.filter (· ≠ []) with
    | none => rfl
    | some name =>
      by_cases hempty : s.resolvePath name = []
      · have hnone : (some (s.resolvePath name)).filter (· ≠ []) = none := by simp [hempty]
        rw [map_some, hnone]
        exact if_pos hempty
      · have hsome : (some (s.resolvePath name)).filter (· ≠ []) = some (s.resolvePath name) := by
          simp [hempty]
        rw [map_some, hsome]
        exact if_neg hempty

lemma sysOpen_opens (s : FdSystem fs) (arch : Mm.Arch) (proc : Process) (path pathLen : Nat)
    (userPath : Option Path) (flags : Nat) :
    s.Opens arch proc (s.requested path pathLen userPath) flags
      (s.sysOpen arch proc path pathLen userPath flags) := by
  rw [sysOpen_requested]
  cases hname : s.requested path pathLen userPath with
  | none => exact .refused (by simp [CannotOpen]) rfl (by decide)
  | some name =>
    have heffect := s.vfs.openFile_effect name (internalFlags arch flags) s.nextOpen
    dsimp only
    split
    next vfs vfsFd hopen =>
      rcases install_cases { s with vfs, nextOpen := s.nextOpen + 1 } proc
        fun _ => .vfs name vfsFd flags s.nextOpen with ⟨hfull, hnone⟩ | ⟨fd, hfd, hfree, hentered⟩
      · exact hfull ▸ .leaked rfl hopen hnone
      · exact hentered ▸ .opened rfl hopen hfd hfree
    next vfs error hopen =>
      rw [hopen] at heffect
      obtain ⟨_, hfiles⟩ := heffect
      have hcannot : s.CannotOpen arch (some name) flags := by
        rintro _ ⟨⟩
        rw [hopen]
        rfl
      rcases openFallback_cases { s with vfs } proc name flags with
        ⟨error, herror, hrefused⟩ | ⟨fd, desc, hfd, hfree, hpipe, hfile, hentered⟩
      · exact hrefused ▸ .refused hcannot hfiles herror
      · exact hentered ▸ .entered hcannot hfiles hfd hfree hpipe hfile

end

/-- The slots of open files after closing descriptors one after the other. -/
def closeFiles (vfs : VfsState fs) (descs : List FileDescriptor) : VfsState fs :=
  descs.foldl (fun vfs desc => match desc.vfsSlot with
    | some vfsFd => (vfs.close vfsFd).1
    | none => vfs) vfs

section
variable (s : FdSystem fs)

lemma foldl_cleanupFdResources (descs : List FileDescriptor) : descs.foldl cleanupFdResources s =
    { s with
      pipes := descs.foldl PipeTable.dropRefFor s.pipes
      vfs := closeFiles s.vfs descs } := by
  induction descs generalizing s with
  | nil => rfl
  | cons desc descs ih =>
    rw [foldl_cons, ih]
    rfl

lemma cleanupProcessFds_eq (proc : Process) : s.cleanupProcessFds proc = { s with
      tables := update s.tables proc.fdTable (s.tables proc.fdTable).drainOpenFds.1
      pipes := ((s.tables proc.fdTable).drainOpenFds.2.map Prod.snd).foldl
        PipeTable.dropRefFor s.pipes
      vfs := closeFiles s.vfs ((s.tables proc.fdTable).drainOpenFds.2.map Prod.snd) } :=
  foldl_cleanupFdResources _ _

def exitVictims (proc : Process) : List Nat :=
  s.current :: s.procs.descendants proc.pid

def groupVictims (proc : Process) : List Nat :=
  s.current :: s.procs.findProcessesByPageTableRoot proc.pageTableRoot

end

/-- What an exit leaves: the caller's descriptors are closed, and everyone but
the victims lives on with its table. -/
structure Exits (s : FdSystem fs) (proc : Process) (victims : List Nat) (next : FdSystem fs) :
    Prop where
  closed : ∃ procs, next = { s.cleanupProcessFds proc with procs }
  holds : ∀ idx id, next.procs.Holds idx id ↔ s.procs.Holds idx id ∧ idx ∉ victims
  free : s.procs.FreeOk → next.procs.FreeOk

lemma sysExit_procs (s : FdSystem fs) (proc : Process) (code : Nat) :
    (s.sysExit proc code).procs = wakeParent
      ((s.procs.killCloneChildren proc.pid).setExitCodeByIndex s.current code) s.current := by
  simp [sysExit, cleanupProcessFds_eq]

lemma sysExit_exits (s : FdSystem fs) (proc : Process) (code : Nat) :
    s.Exits proc (s.exitVictims proc) (s.sysExit proc code) := by
  have hprocs := s.sysExit_procs proc code
  refine ⟨⟨(s.sysExit proc code).procs, by simp [sysExit, cleanupProcessFds_eq]⟩,
    fun idx id => ?_, fun hfree => ?_⟩
  · rw [hprocs, holds_wakeParent, holds_setExitCodeByIndex,
      killCloneChildren, holds_foldl_killClone, exitVictims,
      mem_cons, not_or]
    tauto
  · rw [hprocs]
    refine .wakeParent (.modify ?_ ..) _
    exact hfree.foldl_killClone (collectDescendants_nodup nodup_nil)
      fun _ => isSome_of_mem_descendants

variable {t : ProcessTable} {current : Nat}

lemma isSome_get_wakeParent {idx child : Nat} (hidx : (t.get idx).isSome) :
    ((wakeParent t child).get idx).isSome := by
  unfold wakeParent
  split
  next parent _ =>
    rw [setWaitChild, get_modify]
    rcases eq_or_ne idx parent with rfl | hne
    · simpa using hidx
    · rwa [update_of_ne hne]
  · exact hidx

lemma groupLeader_mem (hne : groupLeader t current proc ≠ current) :
    groupLeader t current proc ∈ t.findProcessesByPageTableRoot proc.pageTableRoot := by
  unfold groupLeader at hne ⊢
  cases hleader : t.findGroupLeaderByPageTableRoot proc.pageTableRoot with
  | none => simp [hleader] at hne
  | some leader => exact leader_mem hleader

lemma holds_exitGroupProcs (t : ProcessTable) (current : Nat) (proc : Process)
    (code idx id : Nat) : (exitGroupProcs t current proc code).Holds idx id ↔ t.Holds idx id ∧
      idx ∉ current :: t.findProcessesByPageTableRoot proc.pageTableRoot := by
  have hothers : idx ≠ current →
      (idx ∉ (t.findProcessesByPageTableRoot proc.pageTableRoot).filter (· ≠ current) ↔
        idx ∉ t.findProcessesByPageTableRoot proc.pageTableRoot) := by
    intro hne
    simp [mem_filter, hne]
  simp only [exitGroupProcs, holds_setExitCodeByIndex, holds_wakeParent, mem_cons, not_or]
  split
  next hleader =>
    rw [holds_setExitCodeByIndex, holds_foldl_exitMember]
    have hmem := groupLeader_mem hleader
    constructor
    · rintro ⟨⟨⟨hholds, hother⟩, _⟩, hne⟩
      exact ⟨hholds, hne, (hothers hne).mp hother⟩
    · rintro ⟨hholds, hne, hgroup⟩
      exact ⟨⟨⟨hholds, (hothers hne).mpr hgroup⟩, fun h => hgroup (h ▸ hmem)⟩, hne⟩
  · rw [holds_foldl_exitMember]
    constructor
    · rintro ⟨⟨hholds, hother⟩, hne⟩
      exact ⟨hholds, hne, (hothers hne).mp hother⟩
    · rintro ⟨hholds, hne, hgroup⟩
      exact ⟨⟨hholds, (hothers hne).mpr hgroup⟩, hne⟩

lemma freeOk_exitGroupProcs (ht : t.FreeOk) (current code : Nat) :
    (exitGroupProcs t current proc code).FreeOk := by
  have hfold := ht.foldl_exitMember (groupLeader t current proc) code
    ((t.allBy_nodup fun other => other.pageTableRoot == proc.pageTableRoot).filter (· ≠ current))
    fun idx hidx => by
      obtain ⟨other, hother, _⟩ := mem_allBy.mp (mem_of_mem_filter hidx)
      simp [hother]
  refine .modify (.wakeParent ?_ _) _ _
  split
  · exact hfold.modify _ _
  · exact hfold

lemma isSome_get_exitGroupProcs (hcurrent : (t.get current).isSome) (code : Nat) :
    ((exitGroupProcs t current proc code).get current).isSome := by
  have hfold : ((((t.findProcessesByPageTableRoot proc.pageTableRoot).filter
      (· ≠ current)).foldl (exitMember (groupLeader t current proc) code) t).get
        current).isSome := by
    rw [get_foldl_exitMember (by simp)]
    exact hcurrent
  simp only [exitGroupProcs, setExitCodeByIndex, get_modify, update_self, isSome_map]
  refine isSome_get_wakeParent ?_
  split
  next hleader =>
    rw [get_modify, update_of_ne hleader.symm]
    exact hfold
  · exact hfold

lemma linuxExitGroup_exits (hcurrent : (s.procs.get s.current).isSome) (code : Nat) :
    s.Exits proc (s.groupVictims proc) (s.linuxExitGroup proc code) := by
  have hholds := holds_exitGroupProcs s.procs s.current proc code
  simp only [linuxExitGroup, cleanupProcessFds_eq]
  split
  · refine ⟨⟨_, by rw [cleanupProcessFds_eq]⟩, fun idx id => ?_, fun hfree => ?_⟩
    · rw [holds_freeProcessSlot, hholds, groupVictims, mem_cons, not_or]
      tauto
    · exact (freeOk_exitGroupProcs hfree ..).freeProcessSlot
        (isSome_get_exitGroupProcs hcurrent code)
  · exact ⟨⟨_, by rw [cleanupProcessFds_eq]⟩, hholds, fun hfree => freeOk_exitGroupProcs hfree ..⟩

end FdSystem

end Syscall

end KarteOs

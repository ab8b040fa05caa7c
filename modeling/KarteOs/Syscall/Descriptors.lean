import KarteOs.Driver.PipeTable
import KarteOs.Driver.Vfs
import KarteOs.Process.Table
import KarteOs.Syscall.Memory

/-! # The system calls on descriptors

Opening, duplicating and closing descriptors, and what process creation and
exit do to descriptor tables. Loading a program, copying an address space and
scheduling a new task are inputs here: they succeed or fail before or after the
descriptors are touched.
-/

namespace KarteOs.Syscall

open Driver

universe u

structure FdSystem (fs : Type u) where
  procs : ProcessTable
  current : Nat
  nextPid : Nat
  /-- The descriptor tables by reference. -/
  tables : Nat → FdTable
  nextTable : Nat
  pipes : PipeTable
  vfs : VfsState fs
  /-- Numbers the `open` calls; the kernel does not count them. -/
  nextOpen : Nat
  cwd : Path
  /-- The names the flat in-memory file system holds. -/
  ramFiles : Path → Bool

/-- How far the creation of a process gets: not at all, into the process table,
or to the scheduler. -/
inductive SpawnOutcome
  | failed (error : Int)
  | unscheduled
  | scheduled

def SpawnOutcome.entersTable : SpawnOutcome → Bool
  | .failed _ => false
  | .unscheduled | .scheduled => true

structure NewSpace where
  pageTableRoot : Nat
  kernelStackTop : Nat

def ebadf : Int := -9

def emfile : Int := -24

def cloneVm : Nat := 0x100

def cloneFiles : Nat := 0x400

def cloneChildCleartid : Nat := 0x200000

namespace FdSystem

variable {fs : Type u}

section
variable (s : FdSystem fs)

def setTable (id : Nat) (table : FdTable) : FdSystem fs :=
  { s with tables := Function.update s.tables id table }

variable (proc : Process)

def sysPipe (fdPtr : Nat) : FdSystem fs × Int × Option (Nat × Nat) :=
  if fdPtr = 0 then (s, errInval, none)
  else
    match s.pipes.allocPipe with
    | none => (s, errNomem, none)
    | some (pipeId, pipes) =>
      let (table, readFd) := (s.tables proc.fdTable).allocPipeFd pipeId .read
      let (table, writeFd) := table.allocPipeFd pipeId .write
      let s := { s with pipes }.setTable proc.fdTable table
      match readFd, writeFd with
      | some rfd, some wfd => (s, 0, some (rfd, wfd))
      | _, _ =>
        ({ s with pipes := (pipes.closeEnd pipeId .read).closeEnd pipeId .write }, errNomem, none)

def linuxDup (proc : Process) (oldfd : Nat) : FdSystem fs × Int :=
  let table := s.tables proc.fdTable
  match table.firstFree 0 with
  | none => (s, errNomem)
  | some newFd =>
    match table.dup oldfd newFd with
    | none => (s, errInval)
    | some table =>
      let s := s.setTable proc.fdTable table
      match table.get oldfd with
      | some desc => ({ s with pipes := s.pipes.incRefFor desc }, newFd)
      | none => (s, newFd)

def sysDup2 (proc : Process) (oldFd newFd : Int) : FdSystem fs × Int :=
  if oldFd < 0 ∨ newFd < 0 ∨ maxFds ≤ oldFd.toNat ∨ maxFds ≤ newFd.toNat then (s, errInval)
  else if oldFd = newFd then (s, newFd)
  else
    match (s.tables proc.fdTable).get oldFd.toNat with
    | none => (s, errInval)
    | some desc =>
      ({ s with pipes := s.pipes.incRefFor desc }.setTable proc.fdTable
        ((s.tables proc.fdTable).setFd newFd.toNat desc), newFd)

def fcntlDupfd (proc : Process) (fd arg : Nat) : FdSystem fs × Int :=
  let least := if 2 < arg then arg else 0
  match (s.tables proc.fdTable).get fd with
  | none => (s, ebadf)
  | some desc =>
    match (s.tables proc.fdTable).firstFree least with
    | none => (s, emfile)
    | some cand =>
      ({ s with pipes := s.pipes.incRefFor desc }.setTable proc.fdTable
        ((s.tables proc.fdTable).setFd cand desc), cand)

def newTable (table : FdTable) : FdSystem fs :=
  { s.setTable s.nextTable table with nextTable := s.nextTable + 1 }

def addChild (space : NewSpace) (fdTable : Nat)
    (sharedPageTable : Bool) (childTidPtr : Nat) : FdSystem fs :=
  let child : Process :=
    { pid := s.nextPid, ppid := proc.pid, pageTableRoot := space.pageTableRoot,
      kernelStackTop := space.kernelStackTop, state := .ready, exitCode := 0,
      waitChildIdx := none, fdTable, sharedPageTable, childTidPtr }
  { s with procs := (s.procs.addProcess child).1, nextPid := s.nextPid + 1 }

/-- The pid of the child that was just created, if it could be scheduled. -/
def spawnResult : SpawnOutcome → Int
  | .scheduled => s.nextPid
  | .unscheduled => errNomem
  | .failed error => error

def sysFork (outcome : SpawnOutcome) (space : NewSpace) : FdSystem fs × Int :=
  match outcome with
  | .failed error => (s, error)
  | .unscheduled | .scheduled =>
    ((s.newTable (s.tables proc.fdTable)).addChild proc space s.nextTable false 0,
      s.spawnResult outcome)

/-- The descriptors of `linux_clone`. On riscv64 a thread is a second task of the
same process, whose number the scheduler gives. -/
def linuxClone (arch : Mm.Arch) (proc : Process) (flags stack childTidPtr : Nat)
    (outcome : SpawnOutcome) (space : NewSpace) (task : Nat) : FdSystem fs × Int :=
  if flags &&& cloneVm = 0 then s.sysFork proc outcome space
  else if stack = 0 then (s, errInval)
  else
    match arch, outcome with
    | _, .failed error => (s, error)
    | .riscv64, .unscheduled => (s, errNomem)
    | .riscv64, .scheduled => (s, task)
    | .x86_64, _ =>
      let space := { space with pageTableRoot := proc.pageTableRoot }
      let cleartid := if flags &&& cloneChildCleartid ≠ 0 then childTidPtr else 0
      if flags &&& cloneFiles ≠ 0 then
        (s.addChild proc space proc.fdTable true cleartid, s.spawnResult outcome)
      else
        ((s.newTable .new).addChild proc space s.nextTable true cleartid, s.spawnResult outcome)

def redirection (proc : Process) (fd : Int) : Option FileDescriptor :=
  if 0 ≤ fd then (s.tables proc.fdTable).get fd.toNat else none

end

/-- Install a redirected descriptor in the child's table and count it at an end. -/
def redirect (pipes : PipeTable) (table : FdTable) (target : Nat) (side : PipeEnd) :
    Option FileDescriptor → PipeTable × FdTable
  | none => (pipes, table)
  | some desc =>
    (match desc.pipeId with
      | some pipeId => pipes.inc pipeId side
      | none => pipes,
    table.setFd target desc)

/-- The descriptors of `sys_exec_fd`; the program is loaded before they are touched. -/
def sysExecFd (s : FdSystem fs) (proc : Process) (redirStdin redirStdout : Int)
    (loaded : Except Int NewSpace) (outcome : SpawnOutcome) : FdSystem fs × Int :=
  match loaded with
  | .error e => (s, e)
  | .ok space =>
    let (pipes, table) := redirect s.pipes .new 0 .read (s.redirection proc redirStdin)
    let (pipes, table) := redirect pipes table 1 .write (s.redirection proc redirStdout)
    (({ s with pipes }.newTable table).addChild proc space s.nextTable false 0,
      s.spawnResult outcome)

variable [FileSystem fs]

def cleanupFdResources (s : FdSystem fs) (desc : FileDescriptor) : FdSystem fs :=
  { s with
    pipes := s.pipes.dropRefFor desc
    vfs := match desc.vfsSlot with
      | some vfsFd => (s.vfs.close vfsFd).1
      | none => s.vfs }

def cleanupProcessFds (s : FdSystem fs) (proc : Process) : FdSystem fs :=
  let (table, drained) := (s.tables proc.fdTable).drainOpenFds
  (drained.map Prod.snd).foldl cleanupFdResources (s.setTable proc.fdTable table)

def sysClose (s : FdSystem fs) (proc : Process) (fd : Int) : FdSystem fs × Int :=
  if fd < 0 ∨ maxFds ≤ fd.toNat then (s, errInval)
  else
    match (s.tables proc.fdTable).take fd.toNat with
    | (_, none) => (s, errInval)
    | (table, some desc) => ((s.setTable proc.fdTable table).cleanupFdResources desc, 0)

variable (t : ProcessTable)

def wakeParent (idx : Nat) : ProcessTable :=
  match t.findWaitingParent idx with
  | some parent => t.setWaitChild parent none
  | none => t

def sysExit (s : FdSystem fs) (proc : Process) (code : Nat) : FdSystem fs :=
  let killed := s.procs.killCloneChildren proc.pid
  let s := { s with procs := killed.setExitCodeByIndex s.current code }.cleanupProcessFds proc
  { s with procs := wakeParent s.procs s.current }

def exitMember (leader code : Nat) (t : ProcessTable) (idx : Nat) : ProcessTable :=
  if idx = leader then t.setExitCodeByIndex idx code
  else (t.setExitCodeByIndex idx code).freeProcessSlot idx

def groupLeader (current : Nat) (proc : Process) : Nat :=
  (t.findGroupLeaderByPageTableRoot proc.pageTableRoot).getD current

/-- The process table in `linux_exit_group` when the descriptors are closed. -/
def exitGroupProcs (current : Nat) (proc : Process) (code : Nat) :
    ProcessTable :=
  let leader := groupLeader t current proc
  let others := (t.findProcessesByPageTableRoot proc.pageTableRoot).filter (· ≠ current)
  let procs := others.foldl (exitMember leader code) t
  let procs := if leader ≠ current then procs.setExitCodeByIndex leader code else procs
  (wakeParent procs leader).setExitCodeByIndex current code

def linuxExitGroup (s : FdSystem fs) (proc : Process) (code : Nat) : FdSystem fs :=
  let leader := groupLeader s.procs s.current proc
  let s := { s with procs := exitGroupProcs s.procs s.current proc code }.cleanupProcessFds proc
  if leader ≠ s.current then { s with procs := s.procs.freeProcessSlot s.current } else s

/-- `resolve_path`: absolute paths lose their slash, others are taken below the
working directory. -/
def resolvePath (s : FdSystem fs) (path : Path) : Path :=
  let cwd := s.cwd.rdropWhile (· == '/')
  if path.head? = some '/' then stripSlash path
  else if path = [] then cwd.dropWhile (· == '/')
  else stripSlash (cwd ++ '/' :: path)

def isPseudoPath (path : Path) : Bool :=
  ["/proc", "/sys", "/dev", "/run", "/etc", "/tmp"].any fun start => start.toList.isPrefixOf path

def isUrandom (path : Path) : Bool :=
  ["/dev/urandom", "/dev/random", "dev/urandom", "dev/random"].any fun name => name.toList == path

def internalFlags (arch : Mm.Arch) (flags : Nat) : Nat :=
  let linuxOCreat := match arch with
    | .x86_64 => 0x40
    | .riscv64 => 0x100
  let hasCreat := flags &&& linuxOCreat ≠ 0 ∨ flags &&& oCreat ≠ 0
  (if hasCreat then oCreat else 0) ||| (flags &&& (oTrunc ||| oAppend))

variable (s : FdSystem fs)

def install (proc : Process) (entered : FdTable × Option Nat) : FdSystem fs × Int :=
  (s.setTable proc.fdTable entered.1, match entered.2 with
    | some fd => fd
    | none => errNomem)

def openFallback (proc : Process) (name : Path) (flags : Nat) : FdSystem fs × Int :=
  let table := s.tables proc.fdTable
  if !isPseudoPath name && !isUrandom name && s.ramFiles name then
    s.install proc (table.alloc name flags)
  else if isUrandom name then s.install proc (table.allocUrandomFd flags)
  else if isPseudoPath name then s.install proc (table.allocFakeFd name flags)
  else (s, errNoent)

/-- `sys_open`; `userPath` is the path read from user memory, if it is well formed. -/
def sysOpen (arch : Mm.Arch) (proc : Process) (path pathLen : Nat)
    (userPath : Option Path) (flags : Nat) : FdSystem fs × Int :=
  if path = 0 ∨ pathLen = 0 ∨ 256 < pathLen then (s, errInval)
  else
    match userPath.filter (· ≠ []) with
    | none => (s, errInval)
    | some name =>
      let name := s.resolvePath name
      if name = [] then (s, errInval)
      else
        match s.vfs.openFile name (internalFlags arch flags) s.nextOpen with
        | (vfs, .ok vfsFd) =>
          { s with vfs, nextOpen := s.nextOpen + 1 }.install proc
            ((s.tables proc.fdTable).allocVfsFd name vfsFd flags s.nextOpen)
        | (vfs, .error _) => { s with vfs }.openFallback proc name flags

end FdSystem

inductive FdEvent
  | openPath (path pathLen : Nat) (userPath : Option Path) (flags : Nat)
  | pipe (fdPtr : Nat)
  | dup (oldfd : Nat)
  | dup2 (oldFd newFd : Int)
  | dupfd (fd arg : Nat)
  | fork (outcome : SpawnOutcome) (space : NewSpace)
  | clone (flags stack childTidPtr : Nat) (outcome : SpawnOutcome) (space : NewSpace) (task : Nat)
  | execFd (redirStdin redirStdout : Int) (loaded : Except Int NewSpace) (outcome : SpawnOutcome)
  | close (fd : Int)
  | exit (code : Nat)
  | exitGroup (code : Nat)
  | switchTo (idx : Nat)

namespace FdSystem

variable {fs : Type u} [FileSystem fs] (s : FdSystem fs)

/-- The process that takes the next step; one that has exited takes none. -/
def caller : Option Process :=
  (s.procs.get s.current).filter fun proc => proc.state ≠ .exited

def asCaller (step : Process → FdSystem fs) : FdSystem fs :=
  (s.caller.map step).getD s

def apply (arch : Mm.Arch) (s : FdSystem fs) : FdEvent → FdSystem fs
  | .openPath path pathLen userPath flags =>
    s.asCaller fun proc => (s.sysOpen arch proc path pathLen userPath flags).1
  | .pipe fdPtr => s.asCaller fun proc => (s.sysPipe proc fdPtr).1
  | .dup oldfd => s.asCaller fun proc => (s.linuxDup proc oldfd).1
  | .dup2 oldFd newFd => s.asCaller fun proc => (s.sysDup2 proc oldFd newFd).1
  | .dupfd fd arg => s.asCaller fun proc => (s.fcntlDupfd proc fd arg).1
  | .fork outcome space => s.asCaller fun proc => (s.sysFork proc outcome space).1
  | .clone flags stack childTidPtr outcome space task => s.asCaller fun proc =>
    (s.linuxClone arch proc flags stack childTidPtr outcome space task).1
  | .execFd redirStdin redirStdout loaded outcome => s.asCaller fun proc =>
    (s.sysExecFd proc redirStdin redirStdout loaded outcome).1
  | .close fd => s.asCaller fun proc => (s.sysClose proc fd).1
  | .exit code => s.asCaller fun proc => s.sysExit proc code
  | .exitGroup code => s.asCaller fun proc => s.linuxExitGroup proc code
  | .switchTo idx => { s with current := idx }

/-- The state in which the first process starts, the file systems being mounted. -/
def boot (mounts : List (MountEntry fs)) (space : NewSpace) (cwd : Path)
    (ramFiles : Path → Bool) : FdSystem fs :=
  let first : Process :=
    { pid := 1, ppid := 0, pageTableRoot := space.pageTableRoot,
      kernelStackTop := space.kernelStackTop, state := .ready, exitCode := 0,
      waitChildIdx := none, fdTable := 0, sharedPageTable := false, childTidPtr := 0 }
  { procs := ⟨[some first], []⟩, current := 0, nextPid := 2, tables := fun _ => .new,
    nextTable := 1, pipes := .new, vfs := ⟨mounts, .new⟩, nextOpen := 0, cwd, ramFiles }

def Legal : FdEvent → Prop
  | .exit _ | .exitGroup _ => ∀ proc ∈ s.caller, proc.pid ≠ 1
  | _ => True

instance (s : FdSystem fs) (event : FdEvent) : Decidable (s.Legal event) := by
  rcases event <;> dsimp only [Legal] <;> infer_instance

end FdSystem

end KarteOs.Syscall

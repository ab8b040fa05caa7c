import KarteOs.Syscall.PipeRefs

/-! # Who an exit takes along

`linux_exit_group` ends the processes that use the caller's page table.
`sys_exit` ends all descendants of the caller: these are its threads only if
nobody of the group has forked, and a thread that is not the leader takes its
children along. The forest of processes is described by invariants of `fork`
and `clone`: a thread has its creator's page table, and no two leaders share one.
-/

namespace KarteOs.Syscall

open Driver Transition ProcessTable List Option

universe u

namespace FdSystem

variable {fs : Type u}

def FreshRoot (s : FdSystem fs) (root : Nat) : Prop :=
  ∀ idx proc, s.procs.get idx = some proc → proc.pageTableRoot ≠ root

structure Forest (s : FdSystem fs) : Prop where
  freeOk : s.procs.FreeOk
  live : ∀ idx proc, s.procs.get idx = some proc → proc.state ≠ .exited
  numbered : ∀ idx proc, s.procs.get idx = some proc → proc.pid < s.nextPid
  unique : ∀ first second p q, s.procs.get first = some p → s.procs.get second = some q →
    p.pid = q.pid → first = second
  older : ∀ idx proc, s.procs.get idx = some proc → proc.ppid < proc.pid
  thread : ∀ idx proc, s.procs.get idx = some proc → proc.sharedPageTable = true →
    ∃ creator parent, s.procs.get creator = some parent ∧ parent.pid = proc.ppid ∧
      parent.pageTableRoot = proc.pageTableRoot
  leader : ∀ first second p q, s.procs.get first = some p → s.procs.get second = some q →
    p.sharedPageTable = false → q.sharedPageTable = false →
    p.pageTableRoot = q.pageTableRoot → first = second

variable {s : FdSystem fs} {proc : Process} {idx : Nat}

def newChild (s : FdSystem fs) (proc : Process) (space : NewSpace) (fdTable : Nat)
    (sharedPageTable : Bool) (childTidPtr : Nat) : Process :=
  { pid := s.nextPid, ppid := proc.pid, pageTableRoot := space.pageTableRoot,
    kernelStackTop := space.kernelStackTop, state := .ready, exitCode := 0,
    waitChildIdx := none, fdTable, sharedPageTable, childTidPtr }

structure Enters (s next : FdSystem fs) (child : Process) : Prop where
  freeOk : next.procs.FreeOk
  nextPid : next.nextPid = s.nextPid + 1
  entries : ∃ slot, s.procs.get slot = none ∧
    ∀ idx, next.procs.get idx = if idx = slot then some child else s.procs.get idx

lemma addChild_enters (hfree : s.procs.FreeOk) (proc : Process) (space : NewSpace) (fdTable : Nat)
    (shared : Bool) (childTidPtr : Nat) :
    s.Enters (s.addChild proc space fdTable shared childTidPtr)
      (s.newChild proc space fdTable shared childTidPtr) := by
  obtain ⟨hfree', hempty, hget⟩ :=
    hfree.addProcess (s.newChild proc space fdTable shared childTidPtr)
  refine ⟨hfree', rfl, _, hempty, fun idx => ?_⟩
  exact (congrFun hget idx).trans (Function.update_apply ..)

variable {next : FdSystem fs}

lemma Forest.enters (hs : s.Forest) {child : Process} (henters : s.Enters next child)
    (hproc : s.procs.get idx = some proc) (hpid : child.pid = s.nextPid)
    (hppid : child.ppid = proc.pid) (hstate : child.state = .ready)
    (hshared : child.sharedPageTable → child.pageTableRoot = proc.pageTableRoot)
    (hown : child.sharedPageTable = false → s.FreshRoot child.pageTableRoot) : next.Forest := by
  obtain ⟨slot, hempty, hentries⟩ := henters.entries
  have hold : ∀ other q, s.procs.get other = some q → next.procs.get other = some q := by
    intro other q hq
    have hne : other ≠ slot := by
      rintro rfl
      rw [hempty] at hq
      cases hq
    rw [hentries, if_neg hne, hq]
  have hcases : ∀ other q, next.procs.get other = some q →
      other = slot ∧ q = child ∨ s.procs.get other = some q := by
    intro other q hq
    rw [hentries] at hq
    split at hq
    next heq => exact .inl ⟨heq, (some.inj hq).symm⟩
    · exact .inr hq
  have hnew : ∀ other q, s.procs.get other = some q → q.pid ≠ child.pid := by
    intro other q hq heq
    have hlt := hs.numbered other q hq
    omega
  refine ⟨henters.freeOk, ?_, ?_, ?_, ?_, ?_, ?_⟩
  · intro other q hq
    obtain ⟨-, rfl⟩ | hq := hcases other q hq
    · simp [hstate]
    · exact hs.live other q hq
  · intro other q hq
    rw [henters.nextPid]
    obtain ⟨-, rfl⟩ | hq := hcases other q hq
    · omega
    · exact (hs.numbered other q hq).trans (Nat.lt_succ_self _)
  · intro first second p q hp hq heq
    obtain ⟨rfl, rfl⟩ | hp := hcases first p hp
    · obtain ⟨rfl, -⟩ | hq := hcases second q hq
      · rfl
      · exact absurd heq.symm (hnew second q hq)
    · obtain ⟨rfl, rfl⟩ | hq := hcases second q hq
      · exact absurd heq (hnew first p hp)
      · exact hs.unique first second p q hp hq heq
  · intro other q hq
    obtain ⟨-, rfl⟩ | hq := hcases other q hq
    · have hlt := hs.numbered idx proc hproc
      omega
    · exact hs.older other q hq
  · intro other q hq hthread
    obtain ⟨-, rfl⟩ | hq := hcases other q hq
    · exact ⟨idx, proc, hold idx proc hproc, hppid.symm, (hshared hthread).symm⟩
    · obtain ⟨creator, parent, hparent, hrest⟩ := hs.thread other q hq hthread
      exact ⟨creator, parent, hold creator parent hparent, hrest⟩
  · intro first second p q hp hq hpown hqown hroot
    obtain ⟨rfl, rfl⟩ | hp := hcases first p hp
    · obtain ⟨rfl, -⟩ | hq := hcases second q hq
      · rfl
      · exact absurd hroot.symm (hown hpown second q hq)
    · obtain ⟨rfl, rfl⟩ | hq := hcases second q hq
      · exact absurd hroot (hown hqown first p hp)
      · exact hs.leader first second p q hp hq hpown hqown hroot

lemma Forest.congr (hs : s.Forest) (hprocs : next.procs = s.procs)
    (hpid : next.nextPid = s.nextPid) : next.Forest :=
  ⟨hprocs ▸ hs.freeOk, hprocs ▸ hs.live, hprocs ▸ hpid ▸ hs.numbered, hprocs ▸ hs.unique,
    hprocs ▸ hs.older, hprocs ▸ hs.thread, hprocs ▸ hs.leader⟩

variable {space : NewSpace}

lemma Forest.addChild (hs : s.Forest) (hproc : s.procs.get idx = some proc)
    {fdTable childTidPtr : Nat} {shared : Bool}
    (hshared : shared → space.pageTableRoot = proc.pageTableRoot)
    (hown : shared = false → s.FreshRoot space.pageTableRoot) :
    (s.addChild proc space fdTable shared childTidPtr).Forest :=
  hs.enters (addChild_enters hs.freeOk proc space fdTable shared childTidPtr) hproc rfl rfl rfl
    hshared hown

lemma Forest.sysFork (hs : s.Forest) (hproc : s.procs.get idx = some proc)
    (outcome : SpawnOutcome) (hfresh : s.FreshRoot space.pageTableRoot) :
    (s.sysFork proc outcome space).1.Forest := by
  have htable : (s.newTable (s.tables proc.fdTable)).Forest := hs.congr rfl rfl
  have hchild : ((s.newTable (s.tables proc.fdTable)).addChild proc space s.nextTable false
      0).Forest :=
    htable.addChild hproc nofun fun _ => hfresh
  cases outcome with
  | failed error => exact hs
  | unscheduled | scheduled => exact hchild

lemma Forest.linuxClone (hs : s.Forest) (hproc : s.procs.get idx = some proc) (arch : Mm.Arch)
    (flags stack childTidPtr task : Nat) (outcome : SpawnOutcome)
    (hfresh : flags &&& cloneVm = 0 → s.FreshRoot space.pageTableRoot) :
    (s.linuxClone arch proc flags stack childTidPtr outcome space task).1.Forest := by
  unfold FdSystem.linuxClone
  split
  next hvm => exact hs.sysFork hproc outcome (hfresh hvm)
  · split
    · exact hs
    · split
      · exact hs
      · exact hs
      · exact hs
      · dsimp only
        split
        · exact hs.addChild hproc (fun _ => rfl) nofun
        · have htable : (s.newTable .new).Forest := hs.congr rfl rfl
          exact htable.addChild hproc (fun _ => rfl) nofun

/-! ## The victims -/

section
variable (s : FdSystem fs)

def Live (idx : Nat) : Prop :=
  ∃ proc, s.procs.get idx = some proc ∧ proc.state ≠ .exited

def MarkedExited (next : FdSystem fs) (idx : Nat) : Prop :=
  s.Live idx ∧ ¬next.Live idx

def SharesSpace (proc : Process) (idx : Nat) : Prop :=
  ∃ other, s.procs.get idx = some other ∧ other.pageTableRoot = proc.pageTableRoot

def NoForks (proc : Process) : Prop :=
  ∀ idx child, s.procs.get idx = some child →
    (∃ creator parent, s.procs.get creator = some parent ∧ parent.pid = child.ppid ∧
      parent.pageTableRoot = proc.pageTableRoot) → child.pageTableRoot = proc.pageTableRoot

def NoChildren (proc : Process) : Prop :=
  ∀ idx child, s.procs.get idx = some child → child.ppid ≠ proc.pid

end

lemma Exits.markedExited {victims : List Nat} (hs : s.Forest) (hexits : s.Exits proc victims next) :
    s.MarkedExited next idx ↔ (s.procs.get idx).isSome ∧ idx ∈ victims := by
  have hlive : ∀ t : FdSystem fs, t.Live idx ↔ ∃ id, t.procs.Holds idx id := by
    intro t
    exact ⟨fun ⟨p, hp, hstate⟩ => ⟨p.fdTable, p, hp, hstate, rfl⟩,
      fun ⟨_, p, hp, hstate, _⟩ => ⟨p, hp, hstate⟩⟩
  have hentry : s.Live idx ↔ (s.procs.get idx).isSome := by
    rw [isSome_iff_exists]
    exact ⟨fun ⟨p, hp, _⟩ => ⟨p, hp⟩, fun ⟨p, hp⟩ => ⟨p, hp, hs.live idx p hp⟩⟩
  rw [MarkedExited, hlive next, ← hentry]
  simp only [hexits.holds]
  rw [hlive s]
  constructor
  · rintro ⟨⟨id, hid⟩, hnot⟩
    exact ⟨⟨id, hid⟩, by_contra fun hmem => hnot ⟨id, hid, hmem⟩⟩
  · rintro ⟨hid, hmem⟩
    exact ⟨hid, fun ⟨_, _, hnot⟩ => hnot hmem⟩

lemma Forest.mem_descendants (hs : s.Forest) {leader : Process} {leaderIdx : Nat}
    (hleader : s.procs.get leaderIdx = some leader) (hown : leader.sharedPageTable = false)
    {thread : Process} (hthread : s.procs.get idx = some thread)
    (hroot : thread.pageTableRoot = leader.pageTableRoot) (hne : idx ≠ leaderIdx) :
    idx ∈ s.procs.descendants leader.pid := by
  -- The creator of a thread is in the group and has a smaller pid.
  induction hpid : thread.pid using Nat.strong_induction_on generalizing idx thread with
  | h pid ih =>
    have hshared : thread.sharedPageTable := by
      by_contra hnot
      exact hne (hs.leader idx leaderIdx thread leader hthread hleader (by simpa using hnot) hown
        hroot)
    obtain ⟨creator, parent, hparent, hppid, hparentRoot⟩ := hs.thread idx thread hthread hshared
    have hreached : s.procs.Reached leader.pid (s.procs.descendants leader.pid) thread.ppid := by
      by_cases hcreator : creator = leaderIdx
      · subst hcreator
        cases hleader.symm.trans hparent
        exact .inl hppid.symm
      · have holder := hs.older idx thread hthread
        exact .inr ⟨creator, ih parent.pid (by omega) hparent (hparentRoot.trans hroot)
          hcreator rfl, parent, hparent, hppid⟩
    refine s.procs.childrenIn_descendants hreached idx thread hthread rfl fun heq => ?_
    exact hne (hs.unique idx leaderIdx thread leader hthread hleader heq)

lemma boot_forest (mounts : List (MountEntry fs)) (space : NewSpace) (cwd : Path)
    (ramFiles : Path → Bool) : (boot mounts space cwd ramFiles).Forest := by
  have hfirst : ∀ idx proc, (boot mounts space cwd ramFiles).procs.get idx = some proc →
      idx = 0 ∧ proc.pid = 1 ∧ proc.ppid = 0 ∧ proc.state = .ready ∧
        proc.sharedPageTable = false := by
    intro idx proc hproc
    cases idx with
    | zero =>
      cases hproc
      exact ⟨rfl, rfl, rfl, rfl, rfl⟩
    | succ idx => cases hproc
  refine ⟨⟨nodup_nil, fun _ hmem => absurd hmem not_mem_nil⟩, ?_, ?_, ?_, ?_, ?_, ?_⟩
  · intro idx proc hproc
    simp [(hfirst idx proc hproc).2.2.2.1]
  · intro idx proc hproc
    rw [(hfirst idx proc hproc).2.1]
    exact Nat.lt_succ_self 1
  · intro first second p q hp hq _
    rw [(hfirst first p hp).1, (hfirst second q hq).1]
  · intro idx proc hproc
    obtain ⟨-, hpid, hppid, -⟩ := hfirst idx proc hproc
    omega
  · intro idx proc hproc hshared
    rw [(hfirst idx proc hproc).2.2.2.2] at hshared
    cases hshared
  · intro first second p q hp hq _ _ _
    rw [(hfirst first p hp).1, (hfirst second q hq).1]

/-- An exit ends the threads of the caller's group, or only the caller. -/
structure ExitSound (s : FdSystem fs) (proc : Process) : Prop where
  group : ∀ code idx, s.MarkedExited (s.linuxExitGroup proc code) idx ↔ s.SharesSpace proc idx
  leader : proc.sharedPageTable = false → ∀ code idx,
    s.MarkedExited (s.sysExit proc code) idx ↔ s.SharesSpace proc idx
  thread : proc.sharedPageTable = true → ∀ code idx,
    s.MarkedExited (s.sysExit proc code) idx ↔ idx = s.current

section
variable (hs : s.Forest)
include hs

lemma Forest.linuxExitGroup_marks (hproc : s.procs.get s.current = some proc) (code : Nat) :
    s.MarkedExited (s.linuxExitGroup proc code) idx ↔ s.SharesSpace proc idx := by
  have hsome : (s.procs.get s.current).isSome := hproc ▸ rfl
  rw [(linuxExitGroup_exits hsome code).markedExited hs, groupVictims, mem_cons,
    findProcessesByPageTableRoot, mem_allBy]
  constructor
  · rintro ⟨-, rfl | ⟨other, hother, hroot⟩⟩
    · exact ⟨proc, hproc, rfl⟩
    · exact ⟨other, hother, by simpa using hroot⟩
  · rintro ⟨other, hother, hroot⟩
    exact ⟨hother ▸ rfl, .inr ⟨other, hother, by simpa using hroot⟩⟩

lemma Forest.sysExit_marks (code : Nat) : s.MarkedExited (s.sysExit proc code) idx ↔
    (s.procs.get idx).isSome ∧ (idx = s.current ∨ idx ∈ s.procs.descendants proc.pid) := by
  rw [(s.sysExit_exits proc code).markedExited hs, exitVictims, mem_cons]

variable (hproc : s.procs.get s.current = some proc)
include hproc

lemma Forest.sysExit_leader_iff (hown : proc.sharedPageTable = false) :
    (∀ code idx, s.MarkedExited (s.sysExit proc code) idx ↔ s.SharesSpace proc idx) ↔
      s.NoForks proc := by
  simp only [hs.sysExit_marks]
  constructor
  · rintro hmarks idx child hchild ⟨creator, parent, hparent, hppid, hroot⟩
    by_cases hself : idx = s.current
    · subst hself
      cases hproc.symm.trans hchild
      rfl
    · have hreached : s.procs.Reached proc.pid (s.procs.descendants proc.pid) child.ppid := by
        by_cases hcreator : creator = s.current
        · subst hcreator
          cases hproc.symm.trans hparent
          exact .inl hppid.symm
        · exact .inr ⟨creator, hs.mem_descendants hproc hown hparent hroot hcreator, parent,
            hparent, hppid⟩
      have hmem := s.procs.childrenIn_descendants hreached idx child hchild rfl fun heq =>
        hself (hs.unique idx s.current child proc hchild hproc heq)
      obtain ⟨other, hother, hshares⟩ := (hmarks 0 idx).mp ⟨hchild ▸ rfl, .inr hmem⟩
      cases hchild.symm.trans hother
      exact hshares
  · intro hforks _ idx
    constructor
    · rintro ⟨-, rfl | hmem⟩
      · exact ⟨proc, hproc, rfl⟩
      · -- Every pid the walk reaches is that of a process of the group.
        refine collectDescendants_forall (s.SharesSpace proc)
          (fun pid => ∃ creator parent, s.procs.get creator = some parent ∧
            parent.pid = pid ∧ parent.pageTableRoot = proc.pageTableRoot) ?_ ?_ ?_ idx hmem
        · intro other child hchild hreached _
          have hroot := hforks other child hchild hreached
          exact ⟨⟨child, hchild, hroot⟩, other, child, hchild, rfl, hroot⟩
        · intro pid hpid
          obtain rfl := mem_singleton.mp hpid
          exact ⟨s.current, proc, hproc, rfl, rfl⟩
        · exact fun _ hnil => absurd hnil not_mem_nil
    · rintro ⟨other, hother, hroot⟩
      refine ⟨hother ▸ rfl, ?_⟩
      by_cases hself : idx = s.current
      · exact .inl hself
      · exact .inr (hs.mem_descendants hproc hown hother hroot hself)

lemma Forest.sysExit_thread_iff :
    (∀ code idx, s.MarkedExited (s.sysExit proc code) idx ↔ idx = s.current) ↔
      s.NoChildren proc := by
  simp only [hs.sysExit_marks]
  constructor
  · intro hmarks idx child hchild hppid
    have holder := hs.older idx child hchild
    have hmem := s.procs.childrenIn_descendants (.inl rfl) idx child hchild hppid (by omega)
    obtain rfl := (hmarks 0 idx).mp ⟨hchild ▸ rfl, .inr hmem⟩
    cases hproc.symm.trans hchild
    omega
  · intro hnone _ idx
    constructor
    · rintro ⟨-, hself | hmem⟩
      · exact hself
      · refine absurd hmem (fun hmem => ?_)
        refine collectDescendants_forall (fun _ => False)
          (fun pid => pid = proc.pid) ?_ ?_ ?_ idx hmem
        · intro other child hchild hppid _
          exact absurd hppid (hnone other child hchild)
        · intro pid hpid
          exact mem_singleton.mp hpid
        · exact fun _ hnil => absurd hnil not_mem_nil
    · rintro rfl
      exact ⟨hproc ▸ rfl, .inl rfl⟩

lemma Forest.exitSound_iff : s.ExitSound proc ↔ (proc.sharedPageTable = false → s.NoForks proc) ∧
    (proc.sharedPageTable → s.NoChildren proc) := by
  constructor
  · intro hsound
    exact ⟨fun hown => (hs.sysExit_leader_iff hproc hown).mp (hsound.leader hown),
      fun hshared => (hs.sysExit_thread_iff hproc).mp (hsound.thread hshared)⟩
  · rintro ⟨hleader, hthread⟩
    exact ⟨fun code _ => hs.linuxExitGroup_marks hproc code,
      fun hown => (hs.sysExit_leader_iff hproc hown).mpr (hleader hown),
      fun hshared => (hs.sysExit_thread_iff hproc).mpr (hthread hshared)⟩

end

section
variable [FileSystem fs]

def Grows (s : FdSystem fs) : FdEvent → Prop
  | .fork _ space => s.FreshRoot space.pageTableRoot
  | .clone flags _ _ _ space _ => flags &&& cloneVm = 0 → s.FreshRoot space.pageTableRoot
  | .switchTo _ => True
  | _ => False

lemma Forest.apply (hs : s.Forest) (arch : Mm.Arch) {event : FdEvent} (hgrows : s.Grows event) :
    (s.apply arch event).Forest := by
  have hcaller : ∀ proc ∈ s.caller, s.procs.get s.current = some proc := by
    intro proc hproc
    exact (filter_eq_some_iff.mp hproc).1
  cases event with
  | fork outcome space =>
    exact asCaller_of hs fun proc h => hs.sysFork (hcaller proc h) outcome hgrows
  | clone flags stack childTidPtr outcome space task =>
    exact asCaller_of hs fun proc h =>
      hs.linuxClone (hcaller proc h) arch flags stack childTidPtr task outcome hgrows
  | switchTo idx => exact hs.congr rfl rfl
  | openPath | pipe | dup | dup2 | dupfd | execFd | close | exit | exitGroup => cases hgrows

def GrowStep (arch : Mm.Arch) : FdSystem fs → FdEvent → FdSystem fs → Prop :=
  Guarded Grows (apply arch)

/-- In every forest that forks and clones build, the exits of a process end its
group exactly if, for a leader, no member has forked and, for another thread,
it has created no process. -/
theorem run_exitSound_iff {arch : Mm.Arch} {mounts : List (MountEntry fs)} {space : NewSpace}
    {cwd : Path} {ramFiles : Path → Bool} {events : List FdEvent}
    (hrun : Transition.Run (GrowStep arch) (boot mounts space cwd ramFiles) events s)
    (hproc : s.procs.get s.current = some proc) :
    s.ExitSound proc ↔ (proc.sharedPageTable = false → s.NoForks proc) ∧
      (proc.sharedPageTable = true → s.NoChildren proc) := by
  have hforest : s.Forest := by
    refine hrun.invariant (fun _ _ _ hs hstep => ?_) (boot_forest mounts space cwd ramFiles)
    obtain ⟨hgrows, rfl⟩ := hstep
    exact hs.apply arch hgrows
  exact hforest.exitSound_iff hproc

end

def cloneThread : List FdEvent :=
  [.clone cloneVm 0x5000 0 .scheduled ⟨0, 1⟩ 0, .switchTo 1]

def threadProc : Process :=
  { bareProc with pid := 2, ppid := 1, kernelStackTop := 1, fdTable := 1, sharedPageTable := true }

theorem run_exitSound_iff_cloneThread :
    (cloneThread.foldl (apply .x86_64) bare).ExitSound threadProc := by
  have hrun : Run (GrowStep .x86_64) bare cloneThread
      (cloneThread.foldl (apply .x86_64) bare) :=
    Run.of_allowed ⟨fun hvm => absurd hvm (by decide), trivial, trivial⟩
  refine (run_exitSound_iff hrun (by decide)).mpr
    ⟨fun hown => absurd hown (by decide), fun _ => ?_⟩
  intro idx child hchild
  match idx with
  | 0 =>
    obtain rfl : bareProc = child := some.inj hchild
    decide
  | 1 =>
    obtain rfl : threadProc = child := some.inj hchild
    decide
  | n + 2 => cases hchild

def forkTwice : List FdEvent :=
  [.fork .scheduled ⟨7, 1⟩, .switchTo 1, .fork .scheduled ⟨8, 2⟩]

def forkedProc (pid ppid root stack table : Nat) : Process :=
  { bareProc with pid, ppid, pageTableRoot := root, kernelStackTop := stack, fdTable := table }

/-- The exit of a process ends a child with an address space of its own. -/
theorem sysExit_ends_forked_child :
    Transition.Run (GrowStep .x86_64) bare forkTwice (forkTwice.foldl (apply .x86_64) bare) ∧
      (forkTwice.foldl (apply .x86_64) bare).procs.get 1 = some (forkedProc 2 1 7 1 1) ∧
      (forkTwice.foldl (apply .x86_64) bare).procs.get 2 = some (forkedProc 3 2 8 2 2) ∧
      ((forkTwice.foldl (apply .x86_64) bare).sysExit (forkedProc 2 1 7 1 1) 0).procs.get 2 = none ∧
      ¬ (forkTwice.foldl (apply .x86_64) bare).ExitSound (forkedProc 2 1 7 1 1) := by
  have hchild : (forkTwice.foldl (apply .x86_64) bare).procs.get 2 =
      some (forkedProc 3 2 8 2 2) := by decide
  have hgone : ((forkTwice.foldl (apply .x86_64) bare).sysExit
      (forkedProc 2 1 7 1 1) 0).procs.get 2 = none := by decide
  refine ⟨Run.of_allowed ⟨?_, trivial, ?_, trivial⟩, by decide, hchild,
    hgone, ?_⟩
  · intro idx proc hproc
    match idx with
    | 0 =>
      obtain rfl : bareProc = proc := some.inj hproc
      decide
    | n + 1 => cases hproc
  · intro idx proc hproc
    match idx with
    | 0 =>
      obtain rfl : bareProc = proc := some.inj hproc
      decide
    | 1 =>
      obtain rfl : forkedProc 2 1 7 1 1 = proc := some.inj hproc
      decide
    | n + 2 => cases hproc
  · intro hsound
    have hmarked : (forkTwice.foldl (apply .x86_64) bare).MarkedExited
        ((forkTwice.foldl (apply .x86_64) bare).sysExit (forkedProc 2 1 7 1 1) 0) 2 := by
      refine ⟨⟨_, hchild, by decide⟩, ?_⟩
      rintro ⟨proc, hproc, -⟩
      rw [hgone] at hproc
      cases hproc
    obtain ⟨other, hother, hroot⟩ := (hsound.leader rfl 0 2).mp hmarked
    cases hchild.symm.trans hother
    exact absurd hroot (by decide)

end FdSystem

end KarteOs.Syscall

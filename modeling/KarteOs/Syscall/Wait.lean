import KarteOs.Syscall.Kill

/-! # Exit codes and `wait4`

`sys_exit` stores its argument in the process table, `sys_waitpid` returns it in
the same integer as its own answers, and `sys_wait4` polls `sys_waitpid` and
turns what it gets into a status word. The poll loop yields to the other tasks
between two calls; what they do is a parameter of the loop.
-/

namespace KarteOs.Syscall

open Driver Sched Function ProcessTable Option

universe u

def exitWord (code : Int) : Nat := (code % 2 ^ 64).toNat

/-- The word that `sys_wait4` stores for an answer that is not negative. -/
def statusWord (answer : Int) : Nat := (answer % 2 ^ 32).toNat * 2 ^ 8 % 2 ^ 32

/-- The word that a parent decodes: the low byte of the exit code, shifted. -/
def exitStatus (code : Int) : Nat := (code % 2 ^ 8).toNat * 2 ^ 8

def errChild : Int := -10

variable {code : Int}

lemma asIsize_exitWord (hlow : -2 ^ 31 ≤ code) (hhigh : code < 2 ^ 31) :
    asIsize (exitWord code) = code := by
  unfold asIsize exitWord
  split <;> omega

lemma statusWord_eq_exitStatus_iff (hlow : 0 ≤ code) (hhigh : code < 2 ^ 31) :
    statusWord code = exitStatus code ↔ code % 2 ^ 24 < 2 ^ 8 := by
  unfold statusWord exitStatus
  omega

namespace KillSystem

variable {fs : Type u}

/-- The poll loop of `sys_wait4`: the end state, the result and the words stored
at `statusPtr`. The other tasks run between two polls. -/
def sysWait4Loop (others : Nat → KillSystem fs → KillSystem fs) (myPid pid statusPtr : Nat) :
    Nat → Nat → KillSystem fs → Option (KillSystem fs × Int × List Nat)
  | 0, _, _ => none
  | fuel + 1, turn, s =>
    let answer := (s.sysWaitpid myPid pid).2
    let next := (s.sysWaitpid myPid pid).1
    if 0 ≤ answer then
      some (next, asIsize pid, if statusPtr ≠ 0 then [statusWord answer] else [])
    else if answer = waitAgain then
      sysWait4Loop others myPid pid statusPtr fuel (turn + 1) (others turn next)
    else some (next, errChild, [])

def sysWait4 (others : Nat → KillSystem fs → KillSystem fs) (myPid pid statusPtr fuel : Nat)
    (s : KillSystem fs) : Option (KillSystem fs × Int × List Nat) :=
  if pid = 0 ∨ pid = 2 ^ 64 - 1 then some (s, -22, [])
  else sysWait4Loop others myPid pid statusPtr fuel 0 s

/-! ## The child that is waited for -/

/-- A child of `myPid` in the table, and the only process with its number. -/
structure ChildAt (s : KillSystem fs) (myPid pid child : Nat) (proc : Process) : Prop where
  entry : s.fds.procs.get child = some proc
  number : proc.pid = pid
  parent : proc.ppid = myPid
  unique : ∀ idx other, s.fds.procs.get idx = some other → other.pid = pid → idx = child

def Unknown (s : KillSystem fs) (pid : Nat) : Prop :=
  ∀ idx proc, s.fds.procs.get idx = some proc → proc.pid ≠ pid

variable {s : KillSystem fs} {myPid pid child statusPtr turn fuel : Nat} {proc : Process}

lemma findProcessByPid_none_iff : s.fds.procs.findProcessByPid pid = none ↔ s.Unknown pid := by
  refine findBy_eq_none.trans ?_
  simp [Unknown, beq_eq_false_iff_ne]

section
variable (hchild : s.ChildAt myPid pid child proc)
include hchild

lemma ChildAt.findProcessByPid : s.fds.procs.findProcessByPid pid = some child := by
  cases hfind : s.fds.procs.findProcessByPid pid with
  | none => exact absurd hchild.number (findProcessByPid_none_iff.mp hfind child proc hchild.entry)
  | some idx =>
    obtain ⟨other, hother, hpid⟩ := mem_allBy.mp (mem_of_findBy hfind)
    rw [hchild.unique idx other hother (by simpa using hpid)]

lemma ChildAt.sysWaitpid : s.sysWaitpid myPid pid = if proc.state = .exited then
      ((s.reclaimProcess child).1.removeTask child, asIsize proc.exitCode)
    else ({ s with os := s.os.schedule }, waitAgain) := by
  simp only [KillSystem.sysWaitpid, hchild.findProcessByPid, hchild.entry]
  rw [if_neg (not_not.mpr hchild.parent)]

lemma ChildAt.reaped : ((s.reclaimProcess child).1.removeTask child).Unknown pid := by
  intro idx other hother hpid
  change (s.fds.procs.setSlot child none).get idx = some other at hother
  rw [get_setSlot] at hother
  rcases eq_or_ne idx child with rfl | hne
  · rw [update_self] at hother
    cases hother
  · rw [update_of_ne hne] at hother
    exact hne (hchild.unique idx other hother hpid)

end

lemma sysWaitpid_of_unknown (hunknown : s.Unknown pid) : s.sysWaitpid myPid pid = (s, waitErr) := by
  simp [KillSystem.sysWaitpid, findProcessByPid_none_iff.mpr hunknown]

lemma sysExit_entry {before : FdSystem fs} {word : Nat} {after : Process}
    (hentry : before.procs.get before.current = some proc)
    (hafter : (before.sysExit proc word).procs.get before.current = some after) :
    after.state = .exited ∧ after.exitCode = word := by
  have hkept : (before.procs.killCloneChildren proc.pid).get before.current = some proc := by
    rw [killCloneChildren, get_foldl_killClone, if_neg ?_]
    · exact hentry
    · intro hmem
      obtain ⟨other, hother, hpid⟩ := get_of_mem_descendants hmem
      cases hentry.symm.trans hother
      exact hpid rfl
  have hmarked : ((before.procs.killCloneChildren proc.pid).setExitCodeByIndex before.current
      word).get before.current = some { proc with exitCode := word, state := .exited } := by
    rw [setExitCodeByIndex, get_modify, update_self, hkept]
    rfl
  rw [FdSystem.sysExit_procs, FdSystem.wakeParent] at hafter
  split at hafter
  next parent _ =>
    rw [setWaitChild, get_modify] at hafter
    rcases eq_or_ne before.current parent with heq | hne
    · rw [heq, update_self, ← heq, hmarked] at hafter
      cases hafter
      exact ⟨rfl, rfl⟩
    · rw [update_of_ne hne, hmarked] at hafter
      cases hafter
      exact ⟨rfl, rfl⟩
  · rw [hmarked] at hafter
    cases hafter
    exact ⟨rfl, rfl⟩

/-- The entry of the child is the one its `sys_exit` with this code left. -/
def ExitedWith (s : KillSystem fs) (myPid pid child : Nat) (code : Int) : Prop :=
  ∃ (before : FdSystem fs) (proc after : Process), before.current = child ∧
    before.procs.get child = some proc ∧
    (before.sysExit proc (exitWord code)).procs.get child = some after ∧
    s.ChildAt myPid pid child after

def ExitsAfter (others : Nat → KillSystem fs → KillSystem fs) (myPid pid child : Nat)
    (code : Int) : Nat → Nat → KillSystem fs → Prop
  | 0, _, s => s.ExitedWith myPid pid child code
  | polls + 1, turn, s =>
    (∃ proc, s.ChildAt myPid pid child proc ∧ proc.state ≠ .exited) ∧
      ExitsAfter others myPid pid child code polls (turn + 1)
        (others turn { s with os := s.os.schedule })

lemma ExitedWith.sysWaitpid (hexited : s.ExitedWith myPid pid child code) (hlow : -2 ^ 31 ≤ code)
    (hhigh : code < 2 ^ 31) :
    (s.sysWaitpid myPid pid).2 = code ∧ (s.sysWaitpid myPid pid).1.Unknown pid ∧
      (s.sysWaitpid myPid pid).1.fds.procs.get child = none := by
  obtain ⟨before, proc, after, rfl, hentry, hafter, hchild⟩ := hexited
  obtain ⟨hstate, hcode⟩ := sysExit_entry hentry hafter
  rw [hchild.sysWaitpid, if_pos hstate]
  refine ⟨?_, hchild.reaped, ?_⟩
  · rw [hcode]
    exact asIsize_exitWord hlow hhigh
  · change (s.fds.procs.setSlot before.current none).get before.current = none
    rw [get_setSlot, update_self]

variable {others : Nat → KillSystem fs → KillSystem fs} {polls : Nat}

lemma sysWait4Loop_of_exitsAfter (statusPtr : Nat)
    (hexits : ExitsAfter others myPid pid child code polls turn s) :
    (∀ fuel ≤ polls, sysWait4Loop others myPid pid statusPtr fuel turn s = none) ∧
      ∃ last, last.ExitedWith myPid pid child code ∧
        ∀ fuel, sysWait4Loop others myPid pid statusPtr (polls + fuel) turn s =
          sysWait4Loop others myPid pid statusPtr fuel (turn + polls) last := by
  induction polls generalizing turn s with
  | zero =>
    refine ⟨fun fuel hfuel => ?_, s, hexits, fun fuel => by rw [Nat.zero_add]; rfl⟩
    obtain rfl := Nat.le_zero.mp hfuel
    rfl
  | succ polls ih =>
    obtain ⟨⟨proc, hchild, hstate⟩, hrest⟩ := hexits
    obtain ⟨hshort, last, hlast, hloop⟩ := ih hrest
    have hpoll : ∀ fuel, sysWait4Loop others myPid pid statusPtr (fuel + 1) turn s =
        sysWait4Loop others myPid pid statusPtr fuel (turn + 1)
          (others turn { s with os := s.os.schedule }) := by
      intro fuel
      simp only [sysWait4Loop, hchild.sysWaitpid, if_neg hstate]
      rw [if_neg (by decide), if_pos trivial]
    refine ⟨?_, last, hlast, ?_⟩
    · intro fuel hfuel
      cases fuel with
      | zero => rfl
      | succ fuel => exact (hpoll fuel).trans (hshort fuel (Nat.le_of_succ_le_succ hfuel))
    · intro fuel
      rw [Nat.add_right_comm, hpoll, hloop, Nat.add_assoc turn, Nat.add_comm 1]

def NoReuse (others : Nat → KillSystem fs → KillSystem fs) (pid : Nat) : Prop :=
  ∀ turn t, t.Unknown pid → (others turn t).Unknown pid

structure StatusDelivered (others : Nat → KillSystem fs → KillSystem fs)
    (myPid pid statusPtr child : Nat) (code : Int) (s : KillSystem fs) : Prop where
  told : ∀ t : KillSystem fs, t.ExitedWith myPid pid child code →
    (t.sysWaitpid myPid pid).2 ≠ waitAgain ∧ (t.sysWaitpid myPid pid).2 ≠ waitErr
  returned : ∃ (fuel : Nat) (final : KillSystem fs), sysWait4 others myPid pid statusPtr fuel s =
        some (final, (pid : Int), if statusPtr ≠ 0 then [exitStatus code] else []) ∧
      final.fds.procs.get child = none

lemma sysWait4Loop_of_neg (hnoReuse : NoReuse others pid)
    (hexited : s.ExitedWith myPid pid child code) (hlow : -2 ^ 31 ≤ code) (hneg : code < 0)
    {final : KillSystem fs} {result : Int} {stored : List Nat}
    (hloop : sysWait4Loop others myPid pid statusPtr fuel turn s = some (final, result, stored)) :
    result = errChild := by
  obtain ⟨hanswer, hunknown, -⟩ := hexited.sysWaitpid hlow (by omega)
  cases fuel with
  | zero => cases hloop
  | succ fuel =>
    simp only [sysWait4Loop, hanswer, if_neg (not_le.mpr hneg)] at hloop
    split at hloop
    · -- The answer is taken for "try again", and the child is gone.
      cases fuel with
      | zero => cases hloop
      | succ fuel =>
        simp only [sysWait4Loop, sysWaitpid_of_unknown (hnoReuse turn _ hunknown)] at hloop
        rw [if_neg (by decide), if_neg (by decide)] at hloop
        cases hloop
        rfl
    · cases hloop
      rfl

/-- The status of a child reaches its parent exactly if the code is not taken
for an answer of `sys_waitpid` and its second and third bytes are zero. -/
theorem sysWait4_delivers_iff (hlow : -2 ^ 31 ≤ code) (hhigh : code < 2 ^ 31)
    (hnoReuse : NoReuse others pid) (hexits : ExitsAfter others myPid pid child code polls 0 s) :
    StatusDelivered others myPid pid statusPtr child code s ↔
      0 < pid ∧ pid < 2 ^ 63 ∧ 0 ≤ code ∧ (statusPtr = 0 ∨ code % 2 ^ 24 < 2 ^ 8) := by
  obtain ⟨hshort, last, hlast, hloop⟩ := sysWait4Loop_of_exitsAfter statusPtr hexits
  obtain ⟨hanswer, -, hreaped⟩ := hlast.sysWaitpid hlow hhigh
  constructor
  · rintro ⟨-, fuel, final, hresult, -⟩
    have hguard : ¬(pid = 0 ∨ pid = 2 ^ 64 - 1) := by
      intro hguard
      rw [sysWait4, if_pos hguard] at hresult
      have hreturn : (-22 : Int) = pid := congrArg (fun r => r.2.1) (some.inj hresult)
      omega
    rw [sysWait4, if_neg hguard] at hresult
    have hfuel : polls < fuel := by
      by_contra hle
      rw [hshort fuel (not_lt.mp hle)] at hresult
      cases hresult
    obtain ⟨extra, rfl⟩ : ∃ extra, fuel = polls + (extra + 1) := ⟨fuel - polls - 1, by omega⟩
    rw [hloop] at hresult
    have hcode : 0 ≤ code := by
      by_contra hneg
      have herr := sysWait4Loop_of_neg hnoReuse hlast hlow (not_le.mp hneg) hresult
      simp only [errChild] at herr
      omega
    simp only [sysWait4Loop, hanswer, if_pos hcode, some.injEq, Prod.mk.injEq] at hresult
    obtain ⟨-, hreturn, hstored⟩ := hresult
    have hpid : pid < 2 ^ 63 := by
      unfold asIsize at hreturn
      split at hreturn <;> omega
    refine ⟨by omega, hpid, hcode, ?_⟩
    by_cases hptr : statusPtr = 0
    · exact .inl hptr
    · rw [if_pos hptr, if_pos hptr, List.singleton_inj] at hstored
      exact .inr ((statusWord_eq_exitStatus_iff hcode hhigh).mp hstored)
  · rintro ⟨hpos, hpid, hcode, hword⟩
    refine ⟨?_, polls + 1, (last.sysWaitpid myPid pid).1, ?_, hreaped⟩
    · intro t ht
      rw [(ht.sysWaitpid hlow hhigh).1]
      simp only [waitAgain, waitErr]
      omega
    · rw [sysWait4, if_neg (by omega), hloop]
      simp only [sysWait4Loop, hanswer, if_pos hcode, some.injEq, Prod.mk.injEq]
      refine ⟨trivial, if_pos hpid, ?_⟩
      by_cases hptr : statusPtr = 0
      · rw [if_neg (not_not.mpr hptr), if_neg (not_not.mpr hptr)]
      · rw [(statusWord_eq_exitStatus_iff hcode hhigh).mpr (hword.resolve_left hptr)]

def childExited (code : Int) : KillSystem RamFileSystem :=
  { parentAndChild with
    fds := { parentAndChild.fds with current := 1 }.sysExit KillSystem.child (exitWord code) }

lemma childExited_exitedWith (code : Int) : (childExited code).ExitedWith 1 2 1 code := by
  refine ⟨{ parentAndChild.fds with current := 1 }, KillSystem.child,
    { KillSystem.child with state := .exited, exitCode := exitWord code }, rfl,
    by decide, rfl,
    rfl, rfl, rfl, ?_⟩
  intro idx other hother hpid
  match idx with
  | 0 =>
    obtain rfl : FdSystem.bareProc = other := some.inj hother
    cases hpid
  | 1 => rfl
  | n + 2 => cases hother

theorem sysWait4_delivers_iff_seven :
    StatusDelivered (fun _ t => t) 1 2 0x1000 1 7 (childExited 7) := by
  have hexits : ExitsAfter (fun _ t => t) 1 2 1 7 0 0 (childExited 7) := childExited_exitedWith 7
  exact (sysWait4_delivers_iff (by decide) (by decide) (fun _ _ hunknown => hunknown) hexits).mpr
    ⟨by decide, by decide, by decide, .inr (by decide)⟩

/-- A child that exits with -1 is reaped by a call that says "try again". -/
theorem exit_minus_one_lost : (childExited (-1)).ExitedWith 1 2 1 (-1) ∧
    ((childExited (-1)).sysWaitpid 1 2).2 = waitAgain ∧
    ((childExited (-1)).sysWaitpid 1 2).1.fds.procs.get 1 = none ∧
    ¬ StatusDelivered (fun _ t => t) 1 2 0x1000 1 (-1) (childExited (-1)) := by
  have hexited := childExited_exitedWith (-1)
  obtain ⟨hanswer, -, hreaped⟩ := hexited.sysWaitpid (by decide) (by decide)
  exact ⟨hexited, hanswer, hreaped, fun hdelivered => (hdelivered.told _ hexited).1 hanswer⟩

end KillSystem

end KarteOs.Syscall

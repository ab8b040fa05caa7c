import KarteOs.Syscall.PipeRefs

/-! # What a pipe call leaves behind

`sys_pipe` takes a slot of the pipe table and then a descriptor for each end.
When a descriptor is missing it gives the slot back, but not the descriptor it
already has.
-/

namespace KarteOs.Driver

open Function

namespace PipeTable

def freeSlot (t : PipeTable) : Option Nat :=
  (List.range maxPipes).find? fun i => (t.pipes i).isNone

def take (t : PipeTable) (i : Nat) : PipeTable :=
  { pipes := Function.update t.pipes i (some .new), refs := Function.update t.refs i fun _ => 1 }

lemma allocPipe_eq (t : PipeTable) : t.allocPipe = t.freeSlot.map fun i => (i, t.take i) := rfl

variable {t : PipeTable} {i : Nat}

lemma freeSlot_some (hfree : t.freeSlot = some i) : t.pipes i = none := by
  simpa using List.find?_some hfree

lemma closeBoth_take (hnone : t.pipes i = none) : ((t.take i).closeEnd i .read).closeEnd i .write =
      { t with refs := update t.refs i fun _ => 0 } := by
  have hrefs : update (update (fun _ => 1) PipeEnd.read 0) .write 0 = fun _ => 0 := by
    funext side
    cases side <;> rfl
  simp only [closeEnd_eq, setRefs, take, PipeEnd.other, update_self,
    update_idem, update_of_ne (show PipeEnd.write ≠ .read by decide)]
  simp [hrefs, hnone]

end PipeTable

end KarteOs.Driver

namespace KarteOs.Syscall

open Driver

universe u

namespace FdSystem

variable {fs : Type u}

/-- A pipe call is whole: an error leaves the descriptors, the pipes and their
counts alone, and a success puts the ends of an unused pipe behind two unused
descriptors. -/
def PipeWhole (s : FdSystem fs) (proc : Process) (fdPtr : Nat) : Prop :=
  ((s.sysPipe proc fdPtr).2.1 ≠ 0 →
    (s.sysPipe proc fdPtr).1.tables = s.tables ∧ (s.sysPipe proc fdPtr).1.pipes = s.pipes) ∧
  ((s.sysPipe proc fdPtr).2.1 = 0 → ∃ pipeId readFd writeFd,
    (s.sysPipe proc fdPtr).2.2 = some (readFd, writeFd) ∧ readFd ≠ writeFd ∧
    s.pipes.pipes pipeId = none ∧ readFd < maxFds ∧ writeFd < maxFds ∧
    (s.tables proc.fdTable).get readFd = none ∧ (s.tables proc.fdTable).get writeFd = none ∧
    (s.sysPipe proc fdPtr).1.pipes = s.pipes.take pipeId ∧
    (s.sysPipe proc fdPtr).1.tables = Function.update s.tables proc.fdTable
      (((s.tables proc.fdTable).setFd readFd (.pipe pipeId readFd .read)).setFd writeFd
        (.pipe pipeId writeFd .write)))

def NoneAlone (table : FdTable) : Prop :=
  ∀ fd < maxFds, table.get fd = none → ∃ other < maxFds, other ≠ fd ∧ table.get other = none

/-- Where the call gets to the descriptors, there is none or more than one, and
where there is none the slot it takes has no references left over. -/
def PipeRoom (s : FdSystem fs) (proc : Process) (fdPtr : Nat) : Prop :=
  fdPtr ≠ 0 → ∀ pipeId, s.pipes.freeSlot = some pipeId → NoneAlone (s.tables proc.fdTable) ∧
      ((s.tables proc.fdTable).firstFree 0 = none → ∀ side, s.pipes.refs pipeId side = 0)

section
variable {table : FdTable} {first second : Nat} {desc : FileDescriptor}

lemma noneAlone_of_full (hfull : table.firstFree 0 = none) : NoneAlone table := by
  intro fd hfd hget
  have hsome := FdTable.firstFree_isSome hfd hget
  rw [hfull] at hsome
  cases hsome

variable (hfirst : table.firstFree 0 = some first)
include hfirst

lemma free_of_setFd (hvalid : desc.valid)
    (hsecond : (table.setFd first desc).firstFree 0 = some second) :
    second ≠ first ∧ table.get second = none := by
  have hlt := (FdTable.firstFree_some hfirst).1
  have hnone := (FdTable.firstFree_some hsecond).2.2
  rw [FdTable.get_setFd hlt] at hnone
  by_cases heq : second = first
  · simp [heq, Option.filter, hvalid] at hnone
  · rw [if_neg heq] at hnone
    exact ⟨heq, hnone⟩

lemma noneAlone_of_two (hvalid : desc.valid)
    (hsecond : (table.setFd first desc).firstFree 0 = some second) : NoneAlone table := by
  obtain ⟨hlt, -, hnone⟩ := FdTable.firstFree_some hfirst
  obtain ⟨hne, hother⟩ := free_of_setFd hfirst hvalid hsecond
  intro fd _ _
  by_cases heq : fd = first
  · exact ⟨second, (FdTable.firstFree_some hsecond).1, heq ▸ hne, hother⟩
  · exact ⟨first, hlt, Ne.symm heq, hnone⟩

lemma not_noneAlone (hlast : (table.setFd first desc).firstFree 0 = none) : ¬NoneAlone table := by
  obtain ⟨hlt, -, hnone⟩ := FdTable.firstFree_some hfirst
  intro hall
  obtain ⟨other, hother, hne, hfree⟩ := hall first hlt hnone
  have hsome : ((table.setFd first desc).firstFree 0).isSome := by
    refine FdTable.firstFree_isSome hother ?_
    rw [FdTable.get_setFd hlt, if_neg hne]
    exact hfree
  rw [hlast] at hsome
  cases hsome

lemma setFd_ne_self (hvalid : desc.valid) : table.setFd first desc ≠ table := by
  obtain ⟨hlt, -, hnone⟩ := FdTable.firstFree_some hfirst
  intro heq
  have hget := FdTable.get_setFd (t := table) hlt desc first
  rw [heq, hnone] at hget
  simp [Option.filter, hvalid] at hget

end

variable {s : FdSystem fs} {proc : Process} {pipeId first : Nat}

lemma pipeWhole_full {fdPtr : Nat} (hptr : fdPtr ≠ 0) (hslot : s.pipes.freeSlot = some pipeId)
    (hfull : (s.tables proc.fdTable).firstFree 0 = none) :
    s.PipeWhole proc fdPtr ↔ ∀ side, s.pipes.refs pipeId side = 0 := by
  have hcall : s.sysPipe proc fdPtr =
      ({ s with pipes := { s.pipes with refs := Function.update s.pipes.refs pipeId fun _ => 0 } },
        errNomem, none) := by
    rw [← PipeTable.closeBoth_take (PipeTable.freeSlot_some hslot)]
    simp [sysPipe, hptr, PipeTable.allocPipe_eq, hslot, FdTable.allocPipeFd, FdTable.allocWith,
      hfull, setTable]
  have herror : errNomem ≠ 0 := by decide
  simp only [PipeWhole, hcall, ne_eq, herror, not_false_eq_true, true_and, forall_true_left,
    false_implies, and_true]
  refine ⟨fun heq side => ?_, fun hzero => ?_⟩
  · have hrefs := congrFun (congrFun (congrArg PipeTable.refs heq) pipeId) side
    simpa using hrefs.symm
  · rw [Function.update_eq_self_iff.mpr (funext hzero).symm]

lemma pipeWhole_one {fdPtr : Nat} (hptr : fdPtr ≠ 0) (hslot : s.pipes.freeSlot = some pipeId)
    (hfirst : (s.tables proc.fdTable).firstFree 0 = some first)
    (hlast : ((s.tables proc.fdTable).setFd first (.pipe pipeId first .read)).firstFree 0 =
      none) : ¬s.PipeWhole proc fdPtr := by
  have hcall : (s.sysPipe proc fdPtr).2.1 = errNomem ∧
      (s.sysPipe proc fdPtr).1.tables = Function.update s.tables proc.fdTable
        ((s.tables proc.fdTable).setFd first (.pipe pipeId first .read)) := by
    simp [sysPipe, hptr, PipeTable.allocPipe_eq, hslot, FdTable.allocPipeFd, FdTable.allocWith,
      hfirst, hlast, setTable]
  rintro ⟨herror, -⟩
  have hsame := (herror (by rw [hcall.1]; decide)).1
  rw [hcall.2] at hsame
  exact setFd_ne_self hfirst rfl (by simpa using congrFun hsame proc.fdTable)

lemma pipeWhole_two {fdPtr second : Nat} (hptr : fdPtr ≠ 0) (hslot : s.pipes.freeSlot = some pipeId)
    (hfirst : (s.tables proc.fdTable).firstFree 0 = some first)
    (hsecond : ((s.tables proc.fdTable).setFd first (.pipe pipeId first .read)).firstFree 0 =
      some second) : s.PipeWhole proc fdPtr := by
  obtain ⟨hne, hother⟩ := free_of_setFd hfirst rfl hsecond
  obtain ⟨hlt, -, hnone⟩ := FdTable.firstFree_some hfirst
  have hcall : s.sysPipe proc fdPtr = ({ s with pipes := s.pipes.take pipeId }.setTable proc.fdTable
        (((s.tables proc.fdTable).setFd first (.pipe pipeId first .read)).setFd second
          (.pipe pipeId second .write)), 0, some (first, second)) := by
    simp [sysPipe, hptr, PipeTable.allocPipe_eq, hslot, FdTable.allocPipeFd, FdTable.allocWith,
      hfirst, hsecond]
  rw [PipeWhole, hcall]
  exact ⟨fun herror => absurd rfl herror, fun _ => ⟨pipeId, first, second, rfl, hne.symm,
    PipeTable.freeSlot_some hslot, hlt, (FdTable.firstFree_some hsecond).1, hnone, hother, rfl,
    rfl⟩⟩

/-- A pipe call is whole exactly where it does not find a single free descriptor,
or a slot that still counts references when it finds none. -/
theorem pipeWhole_iff (s : FdSystem fs) (proc : Process) (fdPtr : Nat) :
    s.PipeWhole proc fdPtr ↔ s.PipeRoom proc fdPtr := by
  by_cases hptr : fdPtr = 0
  · simp [PipeWhole, PipeRoom, sysPipe, hptr, errInval]
  cases hslot : s.pipes.freeSlot with
  | none => simp [PipeWhole, PipeRoom, sysPipe, hptr, PipeTable.allocPipe_eq, hslot, errNomem]
  | some pipeId =>
    simp only [PipeRoom, ne_eq, hptr, not_false_eq_true, forall_true_left, hslot,
      Option.some.injEq, forall_eq']
    cases hfirst : (s.tables proc.fdTable).firstFree 0 with
    | none =>
      rw [pipeWhole_full hptr hslot hfirst]
      simp [noneAlone_of_full hfirst]
    | some first =>
      simp only [reduceCtorEq, false_implies, and_true]
      cases hsecond : ((s.tables proc.fdTable).setFd first
          (.pipe pipeId first .read)).firstFree 0 with
      | none =>
        exact iff_of_false (pipeWhole_one hptr hslot hfirst hsecond)
          (not_noneAlone hfirst hsecond)
      | some second =>
        exact iff_of_true (pipeWhole_two hptr hslot hfirst hsecond)
          (noneAlone_of_two hfirst rfl hsecond)

/-- The first process of a bare system has opened files up to the last number. -/
def oneLeft : FdSystem RamFileSystem :=
  bare.setTable 0 ⟨fun fd => if fd.val = 31 then none else some (.ofType "file" 0 .file)⟩

/-- The call fails and the last number refers to the pipe that is given back. -/
theorem pipe_keeps_readEnd : (oneLeft.sysPipe bareProc 64).2.1 = errNomem ∧
    (oneLeft.sysPipe bareProc 64).1.pipes.freeSlot = some 0 ∧
    ((oneLeft.tables 0).get 31).isNone = true ∧
    (((oneLeft.sysPipe bareProc 64).1.tables 0).get 31).any
      (fun desc => desc.RefersTo 0 .read) = true ∧
    ¬ oneLeft.PipeWhole bareProc 64 := by
  have hslot : oneLeft.pipes.freeSlot = some 0 := by decide
  have hfirst : (oneLeft.tables bareProc.fdTable).firstFree 0 = some 31 := by decide
  refine ⟨by decide, by decide, by decide, by decide, ?_⟩
  exact pipeWhole_one (by decide) hslot hfirst (by decide)

end FdSystem

end KarteOs.Syscall

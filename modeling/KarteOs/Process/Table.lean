import Mathlib.Data.Finset.Dedup

/-! # The process table

Slots that grow on demand and are recycled through a free list. A process holds
its descriptor table by reference: threads that share files name the same table.
-/

namespace KarteOs

open Function List Option

inductive ProcessState
  | ready
  | running
  | blocked
  | exited
deriving DecidableEq

structure Process where
  pid : Nat
  ppid : Nat
  pageTableRoot : Nat
  kernelStackTop : Nat
  state : ProcessState
  exitCode : Nat
  waitChildIdx : Option Nat
  /-- The descriptor table, by reference. -/
  fdTable : Nat
  sharedPageTable : Bool
  childTidPtr : Nat
deriving DecidableEq

structure ProcessTable where
  slots : List (Option Process)
  free : List Nat

namespace ProcessTable

variable (t : ProcessTable)

def get (idx : Nat) : Option Process :=
  (t.slots[idx]?).join

def setSlot (idx : Nat) (entry : Option Process) : ProcessTable :=
  { t with
    slots := (t.slots ++ List.replicate (idx + 1 - t.slots.length) none).set idx entry }

def modify (idx : Nat) (f : Process → Process) : ProcessTable :=
  t.setSlot idx ((t.get idx).map f)

def addProcess (proc : Process) : ProcessTable × Nat :=
  match t.free with
  | idx :: free => ({ t with free }.setSlot idx (some proc), idx)
  | [] => ({ t with slots := t.slots ++ [some proc] }, t.slots.length)

def freeProcessSlot (idx : Nat) : ProcessTable :=
  { t.setSlot idx none with free := idx :: t.free }

def setExitCodeByIndex (idx code : Nat) : ProcessTable :=
  t.modify idx fun proc => { proc with exitCode := code, state := .exited }

def setState (idx : Nat) (state : ProcessState) : ProcessTable :=
  t.modify idx fun proc => { proc with state }

def setWaitChild (idx : Nat) (child : Option Nat) : ProcessTable :=
  t.modify idx fun proc => { proc with waitChildIdx := child }

def findBy (good : Process → Bool) : Option Nat :=
  t.slots.findIdx? fun entry => entry.any good

def findProcessByPid (pid : Nat) : Option Nat :=
  t.findBy fun proc => proc.pid == pid

def findWaitingParent (child : Nat) : Option Nat :=
  t.findBy fun proc => proc.waitChildIdx == some child

def allBy (good : Process → Bool) : List Nat :=
  (List.range t.slots.length).filter fun idx => (t.get idx).any good

def findProcessesByPageTableRoot (root : Nat) : List Nat :=
  t.allBy fun proc => proc.pageTableRoot == root

/-- The process that owns the page table, or the first one that uses it. -/
def findGroupLeaderByPageTableRoot (root : Nat) : Option Nat :=
  (t.findBy fun proc => proc.pageTableRoot == root && !proc.sharedPageTable).or
    (t.findBy fun proc => proc.pageTableRoot == root)

/-- One scan of the table for the children of `ppid` that are not collected yet. -/
def childrenOf (parentPid ppid : Nat) (collected : List Nat) : List Nat :=
  (t.allBy fun proc => proc.ppid == ppid && proc.pid != parentPid).filter (· ∉ collected)

/-- The loop of `kill_clone_children`: collect the children of the pids on the
stack, and put theirs on it. -/
def collectDescendants (t : ProcessTable) (parentPid : Nat) : Nat → List Nat → List Nat → List Nat
  | 0, _, collected => collected
  | _, [], collected => collected
  | fuel + 1, ppid :: frontier, collected =>
    let children := t.childrenOf parentPid ppid collected
    t.collectDescendants parentPid fuel
      ((children.filterMap fun idx => (t.get idx).map Process.pid).reverse ++ frontier)
      (collected ++ children)

/-- Every slot is collected at most once, so the loop runs at most once for each
slot and once for the first pid. -/
def descendants (pid : Nat) : List Nat :=
  t.collectDescendants pid (t.slots.length + 1) [pid] []

def killClone (idx : Nat) : ProcessTable :=
  ((t.setState idx .exited).setExitCodeByIndex idx 0).freeProcessSlot idx

def killCloneChildren (pid : Nat) : ProcessTable :=
  (t.descendants pid).foldl killClone t

variable {t : ProcessTable} {idx id ppid : Nat} {collected : List Nat}

section
variable (t : ProcessTable)

@[simp]
lemma get_setSlot (idx : Nat) (entry : Option Process) :
    (t.setSlot idx entry).get = update t.get idx entry := by
  funext other
  have hlen : idx < (t.slots ++ replicate (idx + 1 - t.slots.length) none).length := by simp; omega
  rcases eq_or_ne other idx with rfl | hne
  · simp [get, setSlot, getElem?_set_self hlen, join_some]
  · simp only [get, setSlot, getElem?_set_ne hne.symm, update_of_ne hne]
    by_cases hother : other < t.slots.length
    · rw [getElem?_append_left hother]
    · rw [getElem?_append_right (Nat.not_lt.mp hother), getElem?_eq_none
        (Nat.not_lt.mp hother), getElem?_replicate]
      split <;> rfl

lemma get_modify (idx : Nat) (f : Process → Process) :
    (t.modify idx f).get = update t.get idx ((t.get idx).map f) :=
  t.get_setSlot idx _

lemma get_freeProcessSlot (idx : Nat) : (t.freeProcessSlot idx).get = update t.get idx none :=
  t.get_setSlot idx none

lemma get_killClone (idx : Nat) : (t.killClone idx).get = update t.get idx none := by
  simp [killClone, get_freeProcessSlot, setExitCodeByIndex, setState, get_modify]

end

lemma get_foldl_killClone (indices : List Nat) (t : ProcessTable) (idx : Nat) :
    (indices.foldl killClone t).get idx = if idx ∈ indices then none else t.get idx := by
  induction indices generalizing t with
  | nil => simp
  | cons killed indices ih =>
    rw [foldl_cons, ih, get_killClone]
    rcases eq_or_ne idx killed with rfl | hne
    · simp
    · simp [hne]

def Holds (t : ProcessTable) (idx id : Nat) : Prop :=
  ∃ proc, t.get idx = some proc ∧ proc.state ≠ .exited ∧ proc.fdTable = id

def liveTables (t : ProcessTable) : Finset Nat :=
  (t.slots.filterMap fun entry =>
    (entry.filter fun proc => proc.state ≠ .exited).map Process.fdTable).toFinset

lemma mem_liveTables : id ∈ t.liveTables ↔ ∃ idx, t.Holds idx id := by
  simp only [liveTables, List.mem_toFinset, mem_filterMap, map_eq_some_iff,
    filter_eq_some_iff, decide_eq_true_iff, Holds, get, join_eq_some_iff]
  constructor
  · rintro ⟨entry, hentry, proc, ⟨rfl, hstate⟩, htable⟩
    obtain ⟨idx, hidx⟩ := mem_iff_getElem?.mp hentry
    exact ⟨idx, proc, hidx, hstate, htable⟩
  · rintro ⟨idx, proc, hidx, hstate, htable⟩
    exact ⟨some proc, mem_of_getElem? hidx, proc, ⟨rfl, hstate⟩, htable⟩

structure FreeOk (t : ProcessTable) : Prop where
  nodup : t.free.Nodup
  empty : ∀ idx ∈ t.free, t.get idx = none

section
variable (ht : t.FreeOk)
include ht

lemma FreeOk.addProcess (proc : Process) :
    (t.addProcess proc).1.FreeOk ∧ t.get (t.addProcess proc).2 = none ∧
      (t.addProcess proc).1.get = update t.get (t.addProcess proc).2 (some proc) := by
  obtain ⟨slots, free⟩ := t
  cases free with
  | cons idx free =>
    have hnodup := nodup_cons.mp ht.nodup
    refine ⟨⟨hnodup.2, fun other hother => ?_⟩, ht.empty idx (.head _), get_setSlot ..⟩
    have hne : other ≠ idx := fun h => hnodup.1 (h ▸ hother)
    show (setSlot _ idx (some proc)).get other = none
    rw [get_setSlot, update_of_ne hne]
    exact ht.empty other (.tail _ hother)
  | nil =>
    refine ⟨⟨nodup_nil, by simp [ProcessTable.addProcess]⟩,
      by simp [ProcessTable.addProcess, get], ?_⟩
    funext other
    rcases Nat.lt_trichotomy other slots.length with hlt | rfl | hgt
    · simp [ProcessTable.addProcess, get, getElem?_append_left hlt, hlt.ne]
    · simp [ProcessTable.addProcess, get]
    · have hpast : (slots ++ [some proc]).length ≤ other := by simp; omega
      simp [ProcessTable.addProcess, get, getElem?_eq_none hpast, getElem?_eq_none hgt.le, hgt.ne']

lemma FreeOk.modify (idx : Nat) (f : Process → Process) : (t.modify idx f).FreeOk := by
  refine ⟨ht.nodup, fun other hother => ?_⟩
  rw [get_modify]
  rcases eq_or_ne other idx with rfl | hne
  · simp [ht.empty other hother]
  · rw [update_of_ne hne]
    exact ht.empty other hother

lemma FreeOk.freeProcessSlot (hidx : (t.get idx).isSome) : (t.freeProcessSlot idx).FreeOk := by
  refine ⟨nodup_cons.mpr ⟨fun hmem => ?_, ht.nodup⟩, fun other hother => ?_⟩
  · simp [ht.empty idx hmem] at hidx
  · rw [get_freeProcessSlot]
    rcases eq_or_ne other idx with rfl | hne
    · simp
    · rw [update_of_ne hne]
      exact ht.empty other ((mem_cons.mp hother).resolve_left hne)

lemma FreeOk.killClone (hidx : (t.get idx).isSome) : (t.killClone idx).FreeOk := by
  refine .freeProcessSlot ((ht.modify ..).modify _ _) ?_
  simpa [setState, setExitCodeByIndex, get_modify] using hidx

lemma FreeOk.foldl_killClone {indices : List Nat} (hnodup : indices.Nodup)
    (hsome : ∀ idx ∈ indices, (t.get idx).isSome) :
    (indices.foldl ProcessTable.killClone t).FreeOk := by
  induction indices generalizing t with
  | nil => exact ht
  | cons idx indices ih =>
    obtain ⟨hnew, hnodup⟩ := nodup_cons.mp hnodup
    refine ih (ht.killClone (hsome idx (.head _))) hnodup fun other hother => ?_
    have hne : other ≠ idx := fun h => hnew (h ▸ hother)
    rw [get_killClone, update_of_ne hne]
    exact hsome other (.tail _ hother)

end

lemma mem_allBy {good : Process → Bool} :
    idx ∈ t.allBy good ↔ ∃ proc, t.get idx = some proc ∧ good proc := by
  simp only [allBy, mem_filter, mem_range, Option.any_eq_true]
  refine ⟨fun ⟨_, h⟩ => h, fun ⟨proc, hproc, hgood⟩ => ⟨?_, proc, hproc, hgood⟩⟩
  by_contra hlen
  simp [get, getElem?_eq_none (Nat.not_lt.mp hlen)] at hproc

def holders (t : ProcessTable) (id : Nat) : List Nat :=
  t.allBy fun proc => proc.state ≠ .exited && proc.fdTable == id

lemma mem_holders : idx ∈ t.holders id ↔ t.Holds idx id := by
  simp [holders, mem_allBy, Holds]

lemma allBy_nodup (t : ProcessTable) (good : Process → Bool) : (t.allBy good).Nodup :=
  nodup_range.filter _

lemma mem_childrenOf {parentPid : Nat} : idx ∈ t.childrenOf parentPid ppid collected ↔
    (∃ proc, t.get idx = some proc ∧ proc.ppid = ppid ∧ proc.pid ≠ parentPid) ∧
      idx ∉ collected := by
  simp [childrenOf, mem_allBy]

variable {frontier collected : List Nat} {parentPid fuel pid : Nat}

lemma collectDescendants_forall (good reached : Nat → Prop)
    (hchild : ∀ idx proc, t.get idx = some proc → reached proc.ppid → proc.pid ≠ parentPid →
      good idx ∧ reached proc.pid) (hfrontier : ∀ ppid ∈ frontier, reached ppid)
    (hcollected : ∀ idx ∈ collected, good idx) :
    ∀ idx ∈ t.collectDescendants parentPid fuel frontier collected, good idx := by
  induction fuel generalizing frontier collected with
  | zero => exact hcollected
  | succ fuel ih =>
    cases frontier with
    | nil => exact hcollected
    | cons ppid frontier =>
      have hppid := hfrontier ppid (.head _)
      have hchildren : ∀ idx ∈ t.childrenOf parentPid ppid collected, ∀ proc,
          t.get idx = some proc → good idx ∧ reached proc.pid := by
        intro idx hidx proc hproc
        obtain ⟨⟨other, hother, hparent, hpid⟩, -⟩ := mem_childrenOf.mp hidx
        cases hproc.symm.trans hother
        exact hchild idx proc hproc (hparent ▸ hppid) hpid
      refine ih ?_ ?_
      · intro pid hpid
        rcases mem_append.mp hpid with hnew | hold
        · obtain ⟨idx, hidx, hmap⟩ := mem_filterMap.mp (mem_reverse.mp hnew)
          obtain ⟨proc, hproc, rfl⟩ := map_eq_some_iff.mp hmap
          exact (hchildren idx hidx proc hproc).2
        · exact hfrontier pid (.tail _ hold)
      · intro idx hidx
        rcases mem_append.mp hidx with hold | hnew
        · exact hcollected idx hold
        · obtain ⟨⟨proc, hproc, -⟩, -⟩ := mem_childrenOf.mp hnew
          exact (hchildren idx hnew proc hproc).1

lemma collectDescendants_nodup (hnodup : collected.Nodup) :
    (t.collectDescendants parentPid fuel frontier collected).Nodup := by
  induction fuel generalizing frontier collected with
  | zero => exact hnodup
  | succ fuel ih =>
    cases frontier with
    | nil => exact hnodup
    | cons ppid frontier =>
      refine ih (nodup_append.mpr ⟨hnodup, (t.allBy_nodup _).filter _, ?_⟩)
      rintro idx hold other hnew rfl
      exact (mem_childrenOf.mp hnew).2 hold

lemma get_of_mem_descendants (hidx : idx ∈ t.descendants pid) :
    ∃ proc, t.get idx = some proc ∧ proc.pid ≠ pid := by
  refine collectDescendants_forall (fun idx => ∃ proc, t.get idx = some proc ∧ proc.pid ≠ pid)
    (fun _ => True)
    (fun idx proc hproc _ hpid => ⟨⟨proc, hproc, hpid⟩, trivial⟩) (fun _ _ => trivial) ?_ idx hidx
  exact fun _ hmem => absurd hmem not_mem_nil

lemma isSome_of_mem_descendants (hidx : idx ∈ t.descendants pid) : (t.get idx).isSome := by
  obtain ⟨proc, hproc, -⟩ := get_of_mem_descendants hidx
  exact hproc ▸ rfl

def ChildrenIn (t : ProcessTable) (parentPid ppid : Nat) (collected : List Nat) : Prop :=
  ∀ idx proc, t.get idx = some proc → proc.ppid = ppid → proc.pid ≠ parentPid → idx ∈ collected

def Reached (t : ProcessTable) (parentPid : Nat) (collected : List Nat) (ppid : Nat) : Prop :=
  ppid = parentPid ∨ ∃ idx ∈ collected, ∃ proc, t.get idx = some proc ∧ proc.pid = ppid

lemma length_le_of_isSome (hnodup : collected.Nodup)
    (hsome : ∀ idx ∈ collected, (t.get idx).isSome) : collected.length ≤ t.slots.length := by
  rw [← length_range (n := t.slots.length)]
  refine (hnodup.subperm fun idx hidx => mem_range.mpr ?_).length_le
  by_contra hlen
  simpa [get, getElem?_eq_none (Nat.not_lt.mp hlen)] using hsome idx hidx

/-- After one scan, what is reached is on the stack or has its children collected. -/
lemma closed_childrenOf {other : Nat} (hclosed : ∀ other, t.Reached parentPid collected other →
      other ∈ ppid :: frontier ∨ t.ChildrenIn parentPid other collected)
    (hreached : t.Reached parentPid (collected ++ t.childrenOf parentPid ppid collected) other) :
    other ∈ ((t.childrenOf parentPid ppid collected).filterMap fun idx =>
        (t.get idx).map Process.pid).reverse ++ frontier ∨
      t.ChildrenIn parentPid other (collected ++ t.childrenOf parentPid ppid collected) := by
  have hbefore : t.Reached parentPid collected other ∨
      other ∈ (t.childrenOf parentPid ppid collected).filterMap fun idx =>
        (t.get idx).map Process.pid := by
    rcases hreached with rfl | ⟨idx, hidx, proc, hproc, hpid⟩
    · exact .inl (.inl rfl)
    · rcases mem_append.mp hidx with hmem | hmem
      · exact .inl (.inr ⟨idx, hmem, proc, hproc, hpid⟩)
      · exact .inr (mem_filterMap.mpr ⟨idx, hmem, by simp [hproc, hpid]⟩)
  rcases hbefore with hbefore | hnew
  · rcases hclosed other hbefore with hmem | hin
    · rcases mem_cons.mp hmem with rfl | hmem
      · refine .inr fun idx proc hproc hppid hpid => ?_
        by_cases hcollected : idx ∈ collected
        · exact mem_append_left _ hcollected
        · exact mem_append_right _ (mem_childrenOf.mpr ⟨⟨proc, hproc, hppid, hpid⟩, hcollected⟩)
      · exact .inl (mem_append_right _ hmem)
    · exact .inr fun idx proc hproc hppid hpid => mem_append_left _ (hin idx proc hproc hppid hpid)
  · exact .inl (mem_append_left _ (mem_reverse.mpr hnew))

lemma collectDescendants_closed (hnodup : collected.Nodup)
    (hsome : ∀ idx ∈ collected, (t.get idx).isSome)
    (hfuel : t.slots.length - collected.length + frontier.length ≤ fuel)
    (hclosed : ∀ ppid, t.Reached parentPid collected ppid →
      ppid ∈ frontier ∨ t.ChildrenIn parentPid ppid collected) :
    ∀ ppid, t.Reached parentPid (t.collectDescendants parentPid fuel frontier collected) ppid →
      t.ChildrenIn parentPid ppid (t.collectDescendants parentPid fuel frontier collected) := by
  induction fuel generalizing frontier collected with
  | zero =>
    intro ppid hreached
    obtain rfl := eq_nil_of_length_eq_zero (by omega : frontier.length = 0)
    exact (hclosed ppid hreached).resolve_left not_mem_nil
  | succ fuel ih =>
    cases frontier with
    | nil => exact fun ppid hreached => (hclosed ppid hreached).resolve_left not_mem_nil
    | cons ppid frontier =>
      have hnodup' : (collected ++ t.childrenOf parentPid ppid collected).Nodup := by
        refine nodup_append.mpr ⟨hnodup, (t.allBy_nodup _).filter _, ?_⟩
        rintro idx hold other hnew rfl
        exact (mem_childrenOf.mp hnew).2 hold
      have hsome' : ∀ idx ∈ collected ++ t.childrenOf parentPid ppid collected,
          (t.get idx).isSome := by
        intro idx hidx
        rcases mem_append.mp hidx with hold | hnew
        · exact hsome idx hold
        · obtain ⟨⟨proc, hproc, _⟩, _⟩ := mem_childrenOf.mp hnew
          simp [hproc]
      refine ih hnodup' hsome' ?_ fun other => closed_childrenOf hclosed
      -- Each new child leaves the slots to collect and enters the stack.
      have hbound := length_le_of_isSome hnodup' hsome'
      have hstack : ((t.childrenOf parentPid ppid collected).filterMap
          fun idx => (t.get idx).map Process.pid).length ≤
          (t.childrenOf parentPid ppid collected).length := length_filterMap_le _ _
      simp only [length_append, length_reverse, length_cons] at *
      omega

lemma childrenIn_descendants (t : ProcessTable)
    (hreached : t.Reached pid (t.descendants pid) ppid) :
    t.ChildrenIn pid ppid (t.descendants pid) := by
  refine collectDescendants_closed nodup_nil (by simp) (by simp) ?_ ppid hreached
  rintro ppid (rfl | ⟨idx, hidx, _⟩)
  · exact .inl (.head _)
  · cases hidx

end ProcessTable

end KarteOs

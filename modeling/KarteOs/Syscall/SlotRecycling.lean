import KarteOs.Syscall.Kill

/-! # Recycling of process slots

A slot of the process table is reused through the free list only. Slots that
`free_process_slot` releases are listed again; `reclaim_process`, which reaping
and `sys_kill` end with, empties a slot without listing it. As long as nothing
is reclaimed, every empty slot is on the free list once and the table is never
longer than the largest number of processes there were at one time.
-/

namespace KarteOs

open Function ProcessTable Transition List

namespace ProcessTable

def occupied (t : ProcessTable) : Nat :=
  t.slots.countP Option.isSome

/-- The free list holds the empty slots of the table, each once. -/
structure Recycles (t : ProcessTable) : Prop where
  freeOk : t.FreeOk
  inTable : ∀ idx ∈ t.free, idx < t.slots.length
  available : ∀ idx < t.slots.length, t.get idx = none → idx ∈ t.free

variable {t : ProcessTable} {idx : Nat}

lemma lt_length_of_isSome (hidx : (t.get idx).isSome) : idx < t.slots.length := by
  by_contra hlen
  simp [get, getElem?_eq_none (Nat.not_lt.mp hlen)] at hidx

lemma length_setSlot (hidx : idx < t.slots.length) (entry : Option Process) :
    (t.setSlot idx entry).slots.length = t.slots.length := by
  simp only [setSlot, length_set, length_append, length_replicate]
  omega

lemma Recycles.addProcess (ht : t.Recycles) (proc : Process) : (t.addProcess proc).1.Recycles := by
  obtain ⟨hfree, -, hget⟩ := ht.freeOk.addProcess proc
  cases hlist : t.free with
  | nil =>
    have hnew : t.addProcess proc =
        ({ t with slots := t.slots ++ [some proc] }, t.slots.length) := by
      simp [ProcessTable.addProcess, hlist]
    rw [hnew] at hfree hget ⊢
    refine ⟨hfree, ?_, ?_⟩
    · intro idx hidx
      rw [show ({ t with slots := t.slots ++ [some proc] } : ProcessTable).free = [] from
        hlist] at hidx
      cases hidx
    · intro idx hidx hnone
      rw [hget] at hnone
      rcases eq_or_ne idx t.slots.length with rfl | hne
      · rw [update_self] at hnone
        cases hnone
      · rw [update_of_ne hne] at hnone
        simp only [length_append, length_singleton] at hidx
        exact ht.available idx (by omega) hnone
  | cons first rest =>
    have hnew : t.addProcess proc = ({ t with free := rest }.setSlot first (some proc), first) := by
      simp [ProcessTable.addProcess, hlist]
    have hfirst : first < t.slots.length := ht.inTable first (hlist ▸ (.head _))
    have hlen := length_setSlot (t := { t with free := rest }) hfirst (some proc)
    rw [hnew] at hfree hget ⊢
    refine ⟨hfree, ?_, ?_⟩
    · intro idx hidx
      rw [hlen]
      exact ht.inTable idx (hlist ▸ mem_cons_of_mem _ hidx)
    · intro idx hidx hnone
      rw [hlen] at hidx
      rw [hget] at hnone
      have hne : idx ≠ first := by
        rintro rfl
        rw [update_self] at hnone
        cases hnone
      rw [update_of_ne hne] at hnone
      have hmem := ht.available idx hidx hnone
      rw [hlist] at hmem
      exact (mem_cons.mp hmem).resolve_left hne

lemma Recycles.modify (ht : t.Recycles) (hidx : idx < t.slots.length) (f : Process → Process) :
    (t.modify idx f).Recycles where
  freeOk := ht.freeOk.modify idx f
  inTable := by
    intro other hother
    rw [ProcessTable.modify, length_setSlot hidx]
    exact ht.inTable other hother
  available := by
    intro other hother hnone
    rw [ProcessTable.modify, length_setSlot hidx] at hother
    refine ht.available other hother ?_
    rw [get_modify] at hnone
    rcases eq_or_ne other idx with rfl | hne
    · simpa using hnone
    · rwa [update_of_ne hne] at hnone

lemma Recycles.freeProcessSlot (ht : t.Recycles) (hidx : (t.get idx).isSome) :
    (t.freeProcessSlot idx).Recycles where
  freeOk := ht.freeOk.freeProcessSlot hidx
  inTable := by
    intro other hother
    have hlen := length_setSlot (lt_length_of_isSome hidx) none
    refine lt_of_lt_of_eq ?_ hlen.symm
    rcases mem_cons.mp hother with rfl | hother
    · exact lt_length_of_isSome hidx
    · exact ht.inTable other hother
  available := by
    intro other hother hnone
    have hlen := length_setSlot (lt_length_of_isSome hidx) none
    replace hother : other < t.slots.length := lt_of_lt_of_eq hother hlen
    rcases eq_or_ne other idx with rfl | hne
    · exact .head _
    · rw [get_freeProcessSlot, update_of_ne hne] at hnone
      exact mem_cons_of_mem _ (ht.available other hother hnone)

lemma length_le_occupied (hfull : ∀ idx < t.slots.length, t.get idx ≠ none) :
    t.slots.length ≤ t.occupied := by
  refine le_of_eq (countP_eq_length.mpr ?_).symm
  intro entry hentry
  obtain ⟨idx, hidx, rfl⟩ := mem_iff_getElem.mp hentry
  have hsome := hfull idx hidx
  rw [get, getElem?_eq_getElem hidx, Option.join_some] at hsome
  exact Option.isSome_iff_ne_none.mpr hsome

lemma Recycles.length_addProcess (ht : t.Recycles) (proc : Process) :
    (t.addProcess proc).1.slots.length ≤ max t.slots.length (t.addProcess proc).1.occupied := by
  cases hlist : t.free with
  | nil =>
    refine le_max_of_le_right (length_le_occupied ?_)
    intro idx hidx hnone
    have hmem := (ht.addProcess proc).available idx hidx hnone
    have hfree : (t.addProcess proc).1.free = [] := by simp [ProcessTable.addProcess, hlist]
    rw [hfree] at hmem
    cases hmem
  | cons first rest =>
    have hfirst : first < t.slots.length := ht.inTable first (hlist ▸ (.head _))
    simp only [ProcessTable.addProcess, hlist]
    exact le_max_of_le_left
      (le_of_eq (length_setSlot (t := { t with free := rest }) hfirst (some proc)))

end ProcessTable

namespace Syscall

universe u

/-- The calls that fill and release slots, with the exit of a process, which
makes it reapable, and the switch to another one. -/
inductive SlotOp
  | addProcess (proc : Process)
  | reclaimProcess (idx : Nat)
  | freeProcessSlot (idx : Nat)
  | sysWaitpid (myPid pid : Nat)
  | sysKill (pid sig : Nat)
  | exit (idx code : Nat)
  | switchTo (idx : Nat)

namespace KillSystem

variable {fs : Type u} (s : KillSystem fs)

def applySlot : SlotOp → KillSystem fs
  | .addProcess proc => s.setProcs (s.fds.procs.addProcess proc).1
  | .reclaimProcess idx => (s.reclaimProcess idx).1
  | .freeProcessSlot idx => s.setProcs (s.fds.procs.freeProcessSlot idx)
  | .sysWaitpid myPid pid => (s.sysWaitpid myPid pid).1
  | .sysKill pid sig => (s.sysKill pid sig).1
  | .exit idx code => s.setProcs (s.fds.procs.setExitCodeByIndex idx code)
  | .switchTo idx => { s with fds := { s.fds with current := idx } }

def ExitsInTable : SlotOp → Prop
  | .exit idx _ => (s.fds.procs.get idx).isSome = true
  | _ => True

def PutsBack : SlotOp → Prop
  | .addProcess _ | .switchTo _ => True
  | .reclaimProcess idx => idx < s.fds.procs.slots.length ∧ s.fds.procs.get idx = none
  | .freeProcessSlot idx => (s.fds.procs.get idx).isSome = true
  | .sysWaitpid myPid pid => ∀ child proc, s.fds.procs.findProcessByPid pid = some child →
      s.fds.procs.get child = some proc → proc.ppid = myPid → proc.state ≠ .exited
  | .sysKill pid sig => sig ∈ terminating → s.fds.procs.findProcessByPid pid = none
  | .exit idx _ => (s.fds.procs.get idx).isSome = true

lemma applySlot_cases {s : KillSystem fs} {op : SlotOp} (hop : s.PutsBack op) :
    (s.applySlot op).fds.procs.free = s.fds.procs.free ∧
        (s.applySlot op).fds.procs.get = s.fds.procs.get ∧
        (s.applySlot op).fds.procs.slots.length = s.fds.procs.slots.length ∨
      (∃ proc, (s.applySlot op).fds.procs = (s.fds.procs.addProcess proc).1) ∨
      ∃ idx, (s.fds.procs.get idx).isSome ∧
        ((s.applySlot op).fds.procs = s.fds.procs.freeProcessSlot idx ∨
          ∃ code, (s.applySlot op).fds.procs = s.fds.procs.setExitCodeByIndex idx code) := by
  cases op with
  | addProcess proc => exact .inr (.inl ⟨proc, rfl⟩)
  | reclaimProcess idx =>
    refine .inl ⟨rfl, ?_, length_setSlot hop.1 none⟩
    refine (s.fds.procs.get_setSlot idx none).trans ?_
    rw [← hop.2]
    exact update_eq_self idx _
  | freeProcessSlot idx => exact .inr (.inr ⟨idx, hop, .inl rfl⟩)
  | sysWaitpid myPid pid =>
    refine .inl ?_
    simp only [applySlot, sysWaitpid]
    split
    · exact ⟨rfl, rfl, rfl⟩
    next child hfind =>
      split
      · exact ⟨rfl, rfl, rfl⟩
      next proc hget =>
        split
        · exact ⟨rfl, rfl, rfl⟩
        next hparent =>
          rw [if_neg (hop child proc hfind hget (not_not.mp hparent))]
          exact ⟨rfl, rfl, rfl⟩
  | sysKill pid sig =>
    refine .inl ?_
    simp only [applySlot, sysKill]
    split
    · exact ⟨rfl, rfl, rfl⟩
    next hsig =>
      rw [hop (not_not.mp hsig)]
      exact ⟨rfl, rfl, rfl⟩
  | exit idx code => exact .inr (.inr ⟨idx, hop, .inr ⟨code, rfl⟩⟩)
  | switchTo idx => exact .inl ⟨rfl, rfl, rfl⟩

end KillSystem

/-- The system, with the largest number of processes there were at one time. -/
structure SlotSystem (fs : Type u) where
  system : KillSystem fs
  peak : Nat

namespace SlotSystem

variable {fs : Type u} {s : SlotSystem fs}

def procs (s : SlotSystem fs) : ProcessTable :=
  s.system.fds.procs

def apply (s : SlotSystem fs) (op : SlotOp) : SlotSystem fs :=
  { system := s.system.applySlot op
    peak := max s.peak (s.system.applySlot op).fds.procs.occupied }

def boot (s : KillSystem fs) : SlotSystem fs :=
  { system := s.setProcs { slots := [], free := [] }, peak := 0 }

/-- Slots are recycled: no index is listed twice or while it is in use, a new
process never replaces another, and every slot without a process is available
again, so that the table is as long as there were processes at one time. -/
structure SlotsSound (s : SlotSystem fs) : Prop where
  nodup : s.procs.free.Nodup
  unused : ∀ idx ∈ s.procs.free, s.procs.get idx = none
  fresh : ∀ proc, s.procs.get (s.procs.addProcess proc).2 = none
  available : ∀ idx < s.procs.slots.length, s.procs.get idx = none → idx ∈ s.procs.free
  bounded : s.procs.slots.length ≤ s.peak

structure Inv (s : SlotSystem fs) : Prop where
  recycles : s.procs.Recycles
  bounded : s.procs.slots.length ≤ s.peak

lemma boot_inv (s : KillSystem fs) : (boot s).Inv where
  recycles :=
    { freeOk := ⟨nodup_nil, fun _ hidx => absurd hidx not_mem_nil⟩
      inTable := fun _ hidx => absurd hidx not_mem_nil
      available := fun _ hidx => absurd hidx (Nat.not_lt_zero _) }
  bounded := Nat.le_refl 0

lemma Inv.slotsSound (hs : s.Inv) : s.SlotsSound where
  nodup := hs.recycles.freeOk.nodup
  unused := hs.recycles.freeOk.empty
  fresh := fun proc => (hs.recycles.freeOk.addProcess proc).2.1
  available := hs.recycles.available
  bounded := hs.bounded

lemma Inv.apply (hs : s.Inv) {op : SlotOp} (hop : s.system.PutsBack op) : (s.apply op).Inv := by
  have hgrown : ∀ t : ProcessTable, t.Recycles →
      t.slots.length ≤ max s.procs.slots.length t.occupied →
      (s.system.applySlot op).fds.procs = t → (s.apply op).Inv := by
    rintro t ht hlen rfl
    refine ⟨ht, hlen.trans ?_⟩
    exact max_le_max hs.bounded (Nat.le_refl _)
  obtain ⟨hfree, hget, hlen⟩ | ⟨proc, hadd⟩ | ⟨idx, hidx, hfreed | ⟨code, hexit⟩⟩ :=
    KillSystem.applySlot_cases hop
  · refine hgrown _ ?_ (le_max_of_le_left hlen.le) rfl
    refine ⟨⟨?_, ?_⟩, ?_, ?_⟩
    · exact hfree ▸ hs.recycles.freeOk.nodup
    · exact hfree ▸ hget ▸ hs.recycles.freeOk.empty
    · exact hfree ▸ hlen ▸ hs.recycles.inTable
    · exact hfree ▸ hget ▸ hlen ▸ hs.recycles.available
  · exact hgrown _ (hs.recycles.addProcess proc) (hs.recycles.length_addProcess proc) hadd
  · refine hgrown _ (hs.recycles.freeProcessSlot hidx) (le_max_of_le_left ?_) hfreed
    exact le_of_eq (length_setSlot (lt_length_of_isSome hidx) none)
  · have hlt := lt_length_of_isSome hidx
    exact hgrown _ (hs.recycles.modify hlt _)
      (le_max_of_le_left (le_of_eq (length_setSlot hlt _))) hexit

def Step : SlotSystem fs → SlotOp → SlotSystem fs → Prop :=
  Guarded (fun s op => s.system.PutsBack op) apply

def AnyStep : SlotSystem fs → SlotOp → SlotSystem fs → Prop :=
  Guarded (fun s op => s.system.ExitsInTable op) apply

/-- Slots are recycled in every run that releases them through the free list. -/
theorem run_slotsSound {s : KillSystem fs} {ops : List SlotOp} {final : SlotSystem fs}
    (hrun : Transition.Run Step (boot s) ops final) : final.SlotsSound := by
  have hinv : final.Inv := by
    refine hrun.invariant (fun _ _ _ hs hstep => ?_) (boot_inv s)
    obtain ⟨hop, rfl⟩ := hstep
    exact hs.apply hop
  exact hinv.slotsSound

def releaseAndReuse : List SlotOp :=
  [.addProcess FdSystem.bareProc, .addProcess KillSystem.child, .exit 0 7, .freeProcessSlot 0,
    .addProcess FdSystem.bareProc]

theorem run_slotsSound_releaseAndReuse :
    (releaseAndReuse.foldl apply (boot KillSystem.parentAndChild)).SlotsSound ∧
      (releaseAndReuse.foldl apply (boot KillSystem.parentAndChild)).procs.slots.length = 2 :=
  ⟨run_slotsSound (Run.of_allowed
    ⟨trivial, trivial, rfl, rfl, trivial, trivial⟩), by decide⟩

def exitAndReap : List SlotOp :=
  [.addProcess FdSystem.bareProc, .exit 0 7, .sysWaitpid 0 1]

lemma addProcess_of_free_nil {t : ProcessTable} (hfree : t.free = []) (later : List Process)
    (proc : Process) : t.slots.length ≤
      ((later.foldl (fun t proc => (t.addProcess proc).1) t).addProcess proc).2 := by
  induction later generalizing t with
  | nil =>
    simp only [foldl_nil, addProcess, hfree]
    exact Nat.le_refl _
  | cons first later ih =>
    have hnext : (t.addProcess first).1 = { t with slots := t.slots ++ [some first] } := by
      simp [addProcess, hfree]
    rw [foldl_cons, hnext]
    refine le_trans ?_ (ih (t := { t with slots := t.slots ++ [some first] }) hfree)
    simp

/-- The slot of a reaped process is never used again. -/
theorem reaped_slot_lost : Transition.Run AnyStep (boot KillSystem.parentAndChild) exitAndReap
      (exitAndReap.foldl apply (boot KillSystem.parentAndChild)) ∧
    (exitAndReap.foldl apply (boot KillSystem.parentAndChild)).procs.get 0 = none ∧
    (∀ (later : List Process) (proc : Process),
      ((later.foldl (fun t proc => (t.addProcess proc).1)
        (exitAndReap.foldl apply
          (boot KillSystem.parentAndChild)).procs).addProcess proc).2 ≠ 0) ∧
    ¬ (exitAndReap.foldl apply (boot KillSystem.parentAndChild)).SlotsSound := by
  have hfree : (exitAndReap.foldl apply (boot KillSystem.parentAndChild)).procs.free = [] := by
    decide
  have hlen :
      (exitAndReap.foldl apply (boot KillSystem.parentAndChild)).procs.slots.length = 1 := by
    decide
  have hnone : (exitAndReap.foldl apply (boot KillSystem.parentAndChild)).procs.get 0 = none := by
    decide
  refine ⟨Run.of_allowed ⟨trivial, rfl, trivial, trivial⟩, hnone, ?_, ?_⟩
  · intro later proc hzero
    have hle := addProcess_of_free_nil hfree later proc
    omega
  · intro hsound
    have hmem := hsound.available 0 (by omega) hnone
    rw [hfree] at hmem
    cases hmem

end SlotSystem

end Syscall

end KarteOs

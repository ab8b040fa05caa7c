import KarteOs.Foundation.Run
import KarteOs.Mm.Vma

/-! # Uniqueness and independence of address-space registry slots

Every per-root operation acts on the first slot that carries its root, so the
registry behaves as a map from roots to states as long as no root is carried
twice. `init_root` reuses the slot of a registered root; `clone_root_state`
does not look for one, and is the only operation that can break uniqueness.
-/

namespace KarteOs.Mm

open FirstMatch Transition VmStateSlot Registry List Option

/-- The calls of the `vma` module that change the registry. -/
inductive VmaOp where
  | initRoot (root : Nat)
  | releaseRoot (root : Nat)
  | cloneRootState (srcRoot dstRoot : Nat)
  | vmaAdd (root start stop prot : Nat) (mapFixed : Bool)
  | vmaRemoveRange (root start stop : Nat)
  | vmaUpdateProt (root start stop newProt : Nat)
  | ensureMmapAbove (root minAddr : Nat)
  | registerElfVma (root start stop prot : Nat)
  | reserveMmapAddr (root len : Nat)
  | vmaClearRoot (root : Nat)

namespace VmaOp

def target : VmaOp → Nat
  | initRoot root => root
  | releaseRoot root => root
  | cloneRootState _ dstRoot => dstRoot
  | vmaAdd root _ _ _ _ => root
  | vmaRemoveRange root _ _ => root
  | vmaUpdateProt root _ _ _ => root
  | ensureMmapAbove root _ => root
  | registerElfVma root _ _ _ => root
  | reserveMmapAddr root _ => root
  | vmaClearRoot root => root

def apply (reg : Registry) : VmaOp → Option Registry
  | initRoot root => some ((reg.initRoot root).getD reg)
  | releaseRoot root => some (reg.releaseRoot root)
  | cloneRootState srcRoot dstRoot => some ((reg.cloneRootState srcRoot dstRoot).getD reg)
  | vmaAdd root start stop prot mapFixed => some (reg.vmaAdd root start stop prot mapFixed).1
  | vmaRemoveRange root start stop => some (reg.vmaRemoveRange root start stop)
  | vmaUpdateProt root start stop newProt => some (reg.vmaUpdateProt root start stop newProt)
  | ensureMmapAbove root minAddr => some (reg.ensureMmapAbove root minAddr)
  | registerElfVma root start stop prot => some (reg.registerElfVma root start stop prot)
  | reserveMmapAddr root len => (reg.reserveMmapAddr root len).map (·.1)
  | vmaClearRoot root => some (reg.vmaClearRoot root)

end VmaOp

namespace Registry

def UniqueRoots (reg : Registry) : Prop :=
  reg.Pairwise fun a b => a.active = true → b.active = true → a.root ≠ b.root

def Registered (reg : Registry) (root : Nat) : Prop :=
  ∃ slot ∈ reg, holds root slot = true

/-- A clone whose source is registered and that finds a free slot must not name
a destination that is already registered. -/
def CloneFresh (reg : Registry) : VmaOp → Prop
  | .cloneRootState srcRoot dstRoot =>
    reg.Registered srcRoot → (∃ slot ∈ reg, slot.active = false) → ¬ reg.Registered dstRoot
  | _ => True

variable {root : Nat} {slot : VmStateSlot}

lemma holds_iff : holds root slot ↔ slot.active ∧ slot.root = root := by simp [holds]

lemma holds_eq_false_of_inactive (hslot : (!slot.active)) : holds root slot = false := by
  simp only [Bool.not_eq_true'] at hslot
  simp [holds, hslot]

variable {other srcRoot dstRoot : Nat}

lemma holds_eq_false_of_ne (hne : other ≠ root) (hslot : holds root slot) :
    holds other slot = false := by
  obtain ⟨_, rfl⟩ := holds_iff.mp hslot
  simp [holds, hne.symm]

variable {reg next : Registry} {f : VmStateSlot → VmStateSlot}

lemma stateOf_boot (root : Nat) : boot.stateOf root = none := by
  simp [stateOf, boot, VmStateSlot.holds, VmStateSlot.default]

lemma uniqueRoots_boot : UniqueRoots boot := by
  rw [UniqueRoots, boot, pairwise_replicate]
  exact .inr fun h => Bool.noConfusion h

/-! ## Updates inside the slot of a root -/

lemma UniqueRoots.updateHeld (hreg : reg.UniqueRoots)
    (hupdate : updateFirst (holds root) f reg = some next)
    (hf : ∀ slot, (f slot).active → (f slot).root = slot.root) : next.UniqueRoots := by
  refine pairwise_updateFirst (fun a b h ha hb => (h hb ha).symm) hupdate hreg ?_
  intro a _ hp b _ hab hfa hb
  rw [hf a hfa]
  exact hab (holds_iff.mp hp).1 hb

lemma UniqueRoots.withState (hreg : reg.UniqueRoots) (root : Nat) (f : VmState → VmState) :
    (reg.withState root f).UniqueRoots := by
  unfold Registry.withState
  cases hupdate : updateFirst (holds root)
      (fun slot => { slot with state := f slot.state }) reg with
  | none => exact hreg
  | some next => exact hreg.updateHeld hupdate fun _ _ => rfl

lemma stateOf_withState_self (reg : Registry) (root : Nat) (f : VmState → VmState) :
    (reg.withState root f).stateOf root = (reg.stateOf root).map f := by
  unfold withState stateOf
  cases hupdate : updateFirst (holds root)
      (fun slot => { slot with state := f slot.state }) reg with
  | none =>
    have hnone : reg.find? (holds root) = none :=
      find?_eq_none.mpr fun slot hslot =>
        Bool.eq_false_iff.mp (updateFirst_eq_none hupdate slot hslot)
    simp [hnone]
  | some next =>
    rw [getD_some, find?_updateFirst_self hupdate (fun _ h => h)]
    simp [Option.map_map, Function.comp_def]

lemma stateOf_withState_of_ne (reg : Registry) (hne : other ≠ root) (f : VmState → VmState) :
    (reg.withState root f).stateOf other = reg.stateOf other := by
  unfold withState stateOf
  cases hupdate : updateFirst (holds root)
      (fun slot => { slot with state := f slot.state }) reg with
  | none => rfl
  | some next =>
    rw [getD_some, find?_updateFirst_of_disjoint hupdate
      (fun _ h => holds_eq_false_of_ne hne h) (fun _ h => holds_eq_false_of_ne hne h)]

/-! ## Registering, releasing and cloning -/

variable {state : VmState}

lemma UniqueRoots.install (hreg : reg.UniqueRoots) (hroot : ¬reg.Registered root)
    (hupdate : updateFirst (!·.active) (fun _ => ⟨root, true, state⟩) reg = some next) :
    next.UniqueRoots := by
  refine pairwise_updateFirst (fun a b h ha hb => (h hb ha).symm) hupdate hreg ?_
  intro a _ _ b hb _ _ hactive heq
  exact hroot ⟨b, hb, holds_iff.mpr ⟨hactive, heq.symm⟩⟩

lemma exists_inactive_of_install (hupdate : updateFirst (!·.active) f reg = some next) :
    ∃ slot ∈ reg, slot.active = false := by
  obtain ⟨before, slot, after, rfl, _, hslot, _⟩ := updateFirst_eq_some hupdate
  exact ⟨slot, by simp, by simpa using hslot⟩

lemma stateOf_install_self (hroot : ¬reg.Registered root)
    (hupdate : updateFirst (!·.active) (fun _ => ⟨root, true, state⟩) reg = some next) :
    next.stateOf root = some state := by
  unfold stateOf
  rw [find?_updateFirst_install hupdate (fun slot hslot =>
      Bool.eq_false_iff.mpr fun hholds => hroot ⟨slot, hslot, hholds⟩)
    (fun _ _ => rfl) (by simp [holds])]
  rfl

lemma stateOf_install_of_ne (hne : other ≠ root)
    (hupdate : updateFirst (!·.active) (fun _ => ⟨root, true, state⟩) reg = some next) :
    next.stateOf other = reg.stateOf other := by
  unfold stateOf
  rw [find?_updateFirst_of_disjoint hupdate (fun _ h => holds_eq_false_of_inactive h)
    (fun _ _ => by simp [holds, hne.symm])]

lemma initRoot_cases (hinit : reg.initRoot root = some next) :
    updateFirst (holds root) (fun slot => { slot with state := .cleared }) reg = some next ∨
    ¬reg.Registered root ∧
      updateFirst (!·.active) (fun _ => ⟨root, true, .cleared⟩) reg = some next := by
  unfold initRoot at hinit
  split at hinit
  · cases hinit
  · rcases or_eq_some_iff.mp hinit with hheld | ⟨hnone, hfree⟩
    · exact .inl hheld
    · refine .inr ⟨?_, hfree⟩
      rintro ⟨slot, hslot, hholds⟩
      cases hholds.symm.trans (updateFirst_eq_none hnone slot hslot)

lemma cloneRootState_cases (hclone : reg.cloneRootState srcRoot dstRoot = some next) :
    ∃ src ∈ reg, holds srcRoot src ∧
      updateFirst (!·.active) (fun _ => ⟨dstRoot, true, src.state⟩) reg = some next := by
  unfold cloneRootState at hclone
  split at hclone
  · cases hclone
  · split at hclone
    · cases hclone
    next src hsrc => exact ⟨src, by simpa using mem_of_find?_eq_some hsrc, find?_some hsrc, hclone⟩

lemma UniqueRoots.stateOf_eq (hreg : reg.UniqueRoots) (hslot : slot ∈ reg)
    (hholds : holds root slot) : reg.stateOf root = some slot.state := by
  unfold stateOf
  cases hfind : reg.find? (holds root) with
  | none => exact absurd hholds (find?_eq_none.mp hfind slot hslot)
  | some first =>
    by_cases heq : slot = first
    · rw [heq]
      rfl
    · have hsymm : Std.Symm fun a b : VmStateSlot =>
          a.active → b.active → a.root ≠ b.root :=
        ⟨fun a b h ha hb => (h hb ha).symm⟩
      have hdistinct := hreg.forall hslot (mem_of_find?_eq_some hfind) heq
      obtain ⟨hactive, hroot⟩ := holds_iff.mp hholds
      obtain ⟨hactive', hroot'⟩ := holds_iff.mp (find?_some hfind)
      exact absurd (hroot.trans hroot'.symm) (hdistinct hactive hactive')

/-! ## One call, and runs of calls -/

inductive Effect (reg : Registry) (op : VmaOp) : Registry → Prop
  | unchanged : Effect reg op reg
  | updated (f : VmState → VmState) : Effect reg op (reg.withState op.target f)
  | released {next : Registry} :
      updateFirst (holds op.target) (fun _ => .default) reg = some next →
      Effect reg op next
  | installed {next : Registry} (state : VmState) :
      (¬ reg.Registered op.target ∨
        ∃ srcRoot, op = .cloneRootState srcRoot op.target ∧ reg.Registered srcRoot) →
      updateFirst (!·.active) (fun _ => ⟨op.target, true, state⟩) reg = some next →
      Effect reg op next

variable {op : VmaOp}

lemma vmaAdd_effect (reg : Registry) {start stop prot : Nat} {mapFixed : Bool} :
    Effect reg op (reg.vmaAdd op.target start stop prot mapFixed).1 :=
  .updated fun state => (state.add start stop prot mapFixed).1

lemma reserveMmapAddr_effect {len : Nat} {addr : Option Nat}
    (hreserve : reg.reserveMmapAddr root len = some (next, addr)) :
    Effect reg (.reserveMmapAddr root len) next := by
  unfold reserveMmapAddr at hreserve
  split at hreserve
  · cases hreserve
    exact .unchanged
  · obtain ⟨reserved, _, heq⟩ := map_eq_some_iff.mp hreserve
    rw [← (Prod.mk.inj heq).1]
    exact .updated fun _ => reserved.1

lemma apply_effect (hop : op.apply reg = some next) : Effect reg op next := by
  cases op with
  | initRoot root =>
    cases hop
    cases hinit : reg.initRoot root with
    | none => exact .unchanged
    | some next =>
      rcases initRoot_cases hinit with hheld | ⟨hroot, hfree⟩
      · have hsame : next = reg.withState root fun _ => .cleared := by
          rw [withState, hheld]
          rfl
        rw [getD_some, hsame]
        exact .updated _
      · exact .installed .cleared (.inl hroot) hfree
  | releaseRoot root =>
    cases hop
    unfold releaseRoot
    split
    · exact .unchanged
    · cases hupdate : updateFirst (holds root) (fun _ => default) reg with
      | none => exact .unchanged
      | some next => exact .released hupdate
  | cloneRootState srcRoot dstRoot =>
    cases hop
    cases hclone : reg.cloneRootState srcRoot dstRoot with
    | none => exact .unchanged
    | some next =>
      obtain ⟨src, hsrc, hholds, hupdate⟩ := cloneRootState_cases hclone
      exact .installed src.state (.inr ⟨srcRoot, rfl, src, hsrc, hholds⟩) hupdate
  | reserveMmapAddr root len =>
    obtain ⟨⟨final, addr⟩, hreserve, rfl⟩ := map_eq_some_iff.mp hop
    exact reserveMmapAddr_effect hreserve
  | vmaAdd root start stop prot mapFixed =>
    cases hop
    exact vmaAdd_effect reg
  | registerElfVma root start stop prot =>
    cases hop
    exact vmaAdd_effect reg
  | vmaRemoveRange root start stop =>
    cases hop
    exact .updated _
  | vmaUpdateProt root start stop newProt =>
    cases hop
    exact .updated _
  | ensureMmapAbove root minAddr =>
    cases hop
    exact .updated _
  | vmaClearRoot root =>
    cases hop
    exact .updated _

lemma UniqueRoots.apply (hreg : reg.UniqueRoots) (hfresh : reg.CloneFresh op)
    (hop : op.apply reg = some next) : next.UniqueRoots := by
  cases apply_effect hop with
  | unchanged => exact hreg
  | updated f => exact hreg.withState op.target f
  | released hupdate => exact hreg.updateHeld hupdate fun _ h => Bool.noConfusion h
  | installed state hroot hupdate =>
    refine hreg.install ?_ hupdate
    rcases hroot with hroot | ⟨srcRoot, hclone, hsrc⟩
    · exact hroot
    · rw [hclone] at hfresh
      exact hfresh hsrc (exists_inactive_of_install hupdate)

lemma stateOf_apply_of_ne (hop : op.apply reg = some next)
    (hne : other ≠ op.target) : next.stateOf other = reg.stateOf other := by
  cases apply_effect hop with
  | unchanged => rfl
  | updated f => exact stateOf_withState_of_ne reg hne f
  | released hupdate =>
    unfold stateOf
    rw [find?_updateFirst_of_disjoint hupdate (fun _ h => holds_eq_false_of_ne hne h)
      (fun _ _ => rfl)]
  | installed state _ hupdate => exact stateOf_install_of_ne hne hupdate

lemma UniqueRoots.stateOf_cloneRootState (hreg : reg.UniqueRoots)
    (hfresh : reg.CloneFresh (.cloneRootState srcRoot dstRoot))
    (hclone : reg.cloneRootState srcRoot dstRoot = some next) :
    next.stateOf dstRoot = reg.stateOf srcRoot := by
  obtain ⟨src, hsrc, hholds, hupdate⟩ := cloneRootState_cases hclone
  have hdst := hfresh ⟨src, hsrc, hholds⟩ (exists_inactive_of_install hupdate)
  rw [stateOf_install_self hdst hupdate, hreg.stateOf_eq hsrc hholds]

lemma not_uniqueRoots_of_clone (hdst : reg.Registered dstRoot)
    (hclone : reg.cloneRootState srcRoot dstRoot = some next) : ¬next.UniqueRoots := by
  obtain ⟨src, _, _, hupdate⟩ := cloneRootState_cases hclone
  obtain ⟨before, free, after, rfl, rfl, hfree, _⟩ := updateFirst_eq_some hupdate
  obtain ⟨slot, hslot, hholds⟩ := hdst
  obtain ⟨hactive, hroot⟩ := holds_iff.mp hholds
  intro hunique
  rw [UniqueRoots, pairwise_append, pairwise_cons] at hunique
  obtain ⟨_, ⟨hafter, _⟩, hcross⟩ := hunique
  rcases mem_append.mp hslot with hbefore | htail
  · exact hcross slot hbefore _ (.head _) hactive rfl hroot
  · rcases mem_cons.mp htail with rfl | htail
    · simp [hactive] at hfree
    · exact hafter slot htail rfl hactive hroot.symm

def Step (cond : Registry → VmaOp → Prop) (reg : Registry) (op : VmaOp) (next : Registry) :
    Prop :=
  cond reg op ∧ op.apply reg = some next

lemma run_uniqueRoots {ops : List VmaOp} (hrun : Run (Step CloneFresh) boot ops reg) :
    reg.UniqueRoots :=
  hrun.invariant (fun _ _ _ hreg hstep => hreg.apply hstep.1 hstep.2) uniqueRoots_boot

/-- Uniqueness of the slots of a registry, together with what the next call
does: a successful clone copies the source's state to the destination, and no
call changes the state of a root other than its target. -/
def WellKept (reg : Registry) (op : VmaOp) : Prop :=
  reg.UniqueRoots ∧
  (∀ srcRoot dstRoot next, op = .cloneRootState srcRoot dstRoot →
    reg.cloneRootState srcRoot dstRoot = some next →
      next.stateOf dstRoot = reg.stateOf srcRoot) ∧
  ∀ next other, op.apply reg = some next → other ≠ op.target →
    next.stateOf other = reg.stateOf other

/-- In a run whose clones all name unregistered destinations, every registry
reached has at most one slot for a root, and every further such call keeps
that, copies a state faithfully, and leaves the other roots alone. -/
theorem run_wellKept {reg : Registry} {ops : List VmaOp} (hrun : Run (Step CloneFresh) boot ops reg)
    {op : VmaOp} (hop : reg.CloneFresh op) : reg.WellKept op := by
  have hreg : reg.UniqueRoots := run_uniqueRoots hrun
  refine ⟨hreg, ?_, ?_⟩
  · rintro srcRoot dstRoot next rfl hclone
    exact hreg.stateOf_cloneRootState hop hclone
  · intro next other hnext hne
    exact stateOf_apply_of_ne hnext hne

def ofSlots (slots : List VmStateSlot) : Registry :=
  slots ++ List.replicate (maxAddressSpaces - slots.length) .default

lemma updateFirst_holds_default (root n : Nat) (f : VmStateSlot → VmStateSlot) :
    updateFirst (holds root) f (replicate n .default) = none := by
  induction n with
  | zero => rfl
  | succ n ih => exact congrArg (Option.map (default :: ·)) ih

lemma initRoot_boot (hroot : root ≠ 0) :
    boot.initRoot root = some (ofSlots [⟨root, true, .cleared⟩]) := by
  rw [initRoot, if_neg hroot, boot, updateFirst_holds_default, none_or]
  rfl

lemma stateOf_ofSlots (root : Nat) (state : VmState) (slots : List VmStateSlot) :
    (ofSlots (⟨root, true, state⟩ :: slots)).stateOf root = some state := by
  simp [ofSlots, stateOf, holds]

theorem run_wellKept_oneRoot : (ofSlots [⟨5, true, .cleared⟩]).WellKept (.cloneRootState 5 9) := by
  have hstep : Step CloneFresh boot (.initRoot 5) (ofSlots [⟨5, true, .cleared⟩]) := by
    refine ⟨trivial, ?_⟩
    rw [VmaOp.apply, initRoot_boot (by decide)]
    rfl
  refine run_wellKept (.cons hstep (.nil _)) ?_
  rintro _ _ ⟨slot, hslot, hholds⟩
  obtain ⟨hactive, hroot⟩ := holds_iff.mp hholds
  rcases mem_cons.mp hslot with rfl | hslot
  · exact absurd hroot (by decide)
  · obtain rfl := eq_of_mem_replicate hslot
    cases hactive

/-- Cloning root 1 over the registered root 2 succeeds, leaves two slots for
root 2, and root 2 keeps its old state. -/
theorem clone_over_registered : ∃ reg next, Run (Step fun _ _ => True) boot
      [.initRoot 1, .initRoot 2, .ensureMmapAbove 1 0x30000000] reg ∧
    reg.cloneRootState 1 2 = some next ∧ ¬ next.UniqueRoots ∧
    next.stateOf 2 ≠ reg.stateOf 1 := by
  let one : VmState := VmState.cleared.ensureMmapAbove 0x30000000
  have hfirst : boot.initRoot 1 = some (ofSlots [⟨1, true, .cleared⟩]) :=
    initRoot_boot (by decide)
  have hsecond : (ofSlots [⟨1, true, .cleared⟩]).initRoot 2 =
      some (ofSlots [⟨1, true, .cleared⟩, ⟨2, true, .cleared⟩]) := by
    rw [initRoot, if_neg (by decide), ofSlots, singleton_append]
    simp only [updateFirst]
    rw [if_neg (by decide), updateFirst_holds_default]
    rfl
  have hclone : (ofSlots [⟨1, true, one⟩, ⟨2, true, .cleared⟩]).cloneRootState 1 2 =
      some (ofSlots [⟨1, true, one⟩, ⟨2, true, .cleared⟩, ⟨2, true, one⟩]) := by
    rw [cloneRootState, if_neg (by decide), ofSlots, reverse_append, reverse_replicate,
      find?_append]
    simp only [find?_replicate]
    rfl
  have hstep₁ : (VmaOp.initRoot 1).apply boot = some (ofSlots [⟨1, true, .cleared⟩]) := by
    rw [VmaOp.apply, hfirst]
    rfl
  have hstep₂ : (VmaOp.initRoot 2).apply (ofSlots [⟨1, true, .cleared⟩]) =
      some (ofSlots [⟨1, true, .cleared⟩, ⟨2, true, .cleared⟩]) := by
    rw [VmaOp.apply, hsecond]
    rfl
  refine ⟨_, _, ?_, hclone, not_uniqueRoots_of_clone ?_ hclone, ?_⟩
  · exact .cons ⟨trivial, hstep₁⟩ (.cons ⟨trivial, hstep₂⟩ (.cons ⟨trivial, rfl⟩ (.nil _)))
  · exact ⟨⟨2, true, .cleared⟩, by simp [ofSlots], rfl⟩
  · show some VmState.cleared ≠ some one
    intro heq
    exact absurd (congrArg VmState.nextMmapAddr (some.inj heq)) (by decide)

end Registry

end KarteOs.Mm

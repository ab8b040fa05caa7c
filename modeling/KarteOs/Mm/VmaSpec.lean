import Mathlib.Data.List.GetD
import KarteOs.Mm.VmaRegistry

/-! # What the VMA operations do to the regions

Cutting a range out of the table leaves parts of the old regions with their
old protection; adding a region adds exactly that region. Whatever a table
says about an address afterwards was said before or is what was added.
-/

namespace KarteOs.Mm

open FirstMatch VmaRegion VmState List Option

namespace VmaRegion

variable {vma : VmaRegion} {addr : Nat}

lemma covers_iff : vma.covers addr ↔ vma.active ∧ vma.start ≤ addr ∧ addr < vma.stop := by
  simp [covers, and_assoc]

lemma overlaps_iff {start stop : Nat} :
    vma.overlaps start stop ↔ vma.active ∧ vma.start < stop ∧ start < vma.stop := by
  simp [overlaps, and_assoc]

structure Aligned (vma : VmaRegion) : Prop where
  start_mod : vma.start % pageSize = 0
  stop_mod : vma.stop % pageSize = 0
  stop_lt : vma.stop < usizeRange

lemma Aligned.covers {addr' : Nat} (haligned : vma.Aligned)
    (hpage : alignDown addr = alignDown addr') (hcovers : vma.covers addr) : vma.covers addr' := by
  obtain ⟨hactive, hle, hlt⟩ := covers_iff.mp hcovers
  have hstart := haligned.start_mod
  have hstop := haligned.stop_mod
  simp only [alignDown, pageSize] at hstart hstop hpage
  exact covers_iff.mpr ⟨hactive, by omega, by omega⟩

/-- `part` is what is left of `whole` after cutting at `start` or `stop`. -/
structure PartOf (start stop : Nat) (part whole : VmaRegion) : Prop where
  active : whole.active = true
  prot : part.prot = whole.prot
  start_le : whole.start ≤ part.start
  le_stop : part.stop ≤ whole.stop
  start_eq : part.start = whole.start ∨ part.start = stop
  stop_eq : part.stop = whole.stop ∨ part.stop = start

variable {start stop : Nat} {part middle whole : VmaRegion}

lemma PartOf.refl (hactive : whole.active) : PartOf start stop whole whole :=
  ⟨hactive, rfl, le_rfl, le_rfl, .inl rfl, .inl rfl⟩

lemma PartOf.trans (h : PartOf start stop part middle) (h' : PartOf start stop middle whole) :
    PartOf start stop part whole where
  active := h'.active
  prot := h.prot.trans h'.prot
  start_le := h'.start_le.trans h.start_le
  le_stop := h.le_stop.trans h'.le_stop
  start_eq := by
    rcases h.start_eq with heq | heq
    · exact h'.start_eq.imp (heq.trans ·) (heq.trans ·)
    · exact .inr heq
  stop_eq := by
    rcases h.stop_eq with heq | heq
    · exact h'.stop_eq.imp (heq.trans ·) (heq.trans ·)
    · exact .inr heq

lemma PartOf.covers (h : PartOf start stop part whole)
    (hcovers : part.covers addr) : whole.covers addr := by
  obtain ⟨-, hle, hlt⟩ := covers_iff.mp hcovers
  exact covers_iff.mpr ⟨h.active, h.start_le.trans hle, hlt.trans_le h.le_stop⟩

end VmaRegion

def Refines (start stop : Nat) (next vmas : List VmaRegion) : Prop :=
  ∀ part ∈ next, part.active = true → ∃ whole ∈ vmas, PartOf start stop part whole

section
variable {start stop prot i : Nat} {vmas next later : List VmaRegion} {vma : VmaRegion}

lemma Refines.refl (start stop : Nat) (vmas : List VmaRegion) : Refines start stop vmas vmas :=
  fun part hpart hactive => ⟨part, hpart, .refl hactive⟩

lemma Refines.trans (h : Refines start stop later next) (h' : Refines start stop next vmas) :
    Refines start stop later vmas := by
  intro part hpart hactive
  obtain ⟨middle, hmiddle, hpartOf⟩ := h part hpart hactive
  obtain ⟨whole, hwhole, hpartOf'⟩ := h' middle hmiddle hpartOf.active
  exact ⟨whole, hwhole, hpartOf.trans hpartOf'⟩

lemma mem_insertVma (hmem : vma ∈ (insertVma vmas start stop prot).1) :
    vma ∈ vmas ∨ start < stop ∧ vma = ⟨start, stop, prot, true⟩ ∧
      (insertVma vmas start stop prot).2 := by
  rw [insertVma] at hmem ⊢
  split at hmem
  · exact .inl hmem
  next hlt =>
    split at hmem
    next next hupdate =>
      obtain ⟨before, old, after, rfl, rfl, -, -⟩ := updateFirst_eq_some hupdate
      rcases mem_append.mp hmem with hbefore | hafter
      · exact .inl (mem_append_left _ hbefore)
      · rcases mem_cons.mp hafter with rfl | hafter
        · exact .inr ⟨by omega, rfl, by rw [if_neg hlt]⟩
        · exact .inl (mem_append_right _ (.tail _ hafter))
    · exact .inl hmem

lemma getD_mem (hactive : (vmas.getD i .empty).active) : vmas.getD i .empty ∈ vmas := by
  by_cases hi : i < vmas.length
  · rw [getD_eq_getElem _ _ hi]
    exact getElem_mem hi
  · -- beyond the end there is only the inactive default
    rw [getD_eq_default _ _ (not_lt.mp hi)] at hactive
    cases hactive

lemma refines_set {part : VmaRegion} (hvma : vmas.getD i .empty = vma)
    (hpart : part.active → PartOf start stop part vma) :
    Refines start stop (vmas.set i part) vmas := by
  intro region hregion hactive
  rcases mem_or_eq_of_mem_set hregion with hold | rfl
  · exact ⟨region, hold, .refl hactive⟩
  · have hpartOf := hpart hactive
    refine ⟨vma, ?_, hpartOf⟩
    rw [← hvma]
    exact getD_mem (hvma ▸ hpartOf.active)

lemma refines_insert {lower upper : Nat} (hnext : Refines start stop next vmas)
    (hvma : vma ∈ vmas) (hpart : PartOf start stop ⟨lower, upper, prot, true⟩ vma) :
    Refines start stop (insertVma next lower upper prot).1 vmas := by
  intro region hregion hactive
  rcases mem_insertVma hregion with hold | ⟨-, rfl, -⟩
  · exact hnext region hold hactive
  · exact ⟨vma, hvma, hpart⟩

lemma splitLoop_refines (start stop remaining i : Nat) (vmas : List VmaRegion) :
    Refines start stop (splitLoop start stop remaining i vmas).1 vmas := by
  induction remaining generalizing i vmas with
  | zero => exact .refl start stop vmas
  | succ remaining ih =>
    obtain ⟨vma, hvma⟩ : ∃ vma, vmas.getD i .empty = vma := ⟨_, rfl⟩
    simp only [splitLoop, hvma]
    split
    · exact ih (i + 1) vmas
    next hoverlaps =>
      obtain ⟨hactive, hbelow, habove⟩ := overlaps_iff.mp (by simpa using hoverlaps)
      have hlower : Refines start stop (vmas.set i { vma with stop := start }) vmas :=
        refines_set hvma fun _ => ⟨hactive, rfl, le_rfl, habove.le, .inl rfl, .inr rfl⟩
      have hinsert : Refines start stop
          (insertVma (vmas.set i { vma with stop := start }) stop vma.stop vma.prot).1 vmas :=
        refines_insert hlower (hvma ▸ getD_mem (hvma ▸ hactive))
          ⟨hactive, rfl, hbelow.le, le_rfl, .inr rfl, .inl rfl⟩
      split_ifs with hinside hplaced hleft hright
      · exact (ih _ _).trans hinsert
      · exact hinsert
      · exact (ih _ _).trans hlower
      · exact (ih _ _).trans (refines_set hvma fun _ =>
          ⟨hactive, rfl, hbelow.le, le_rfl, .inr rfl, .inl rfl⟩)
      · exact (ih _ _).trans (refines_set hvma nofun)

variable {state : VmState}

lemma mem_add {mapFixed : Bool}
    (hmem : vma ∈ (state.add start stop prot mapFixed).1.vmas) (hactive : vma.active) :
    (∃ whole ∈ state.vmas, PartOf start stop vma whole) ∨
      start < stop ∧ vma = ⟨start, stop, prot, true⟩ ∧ (state.add start stop prot mapFixed).2 := by
  have hsplit : Refines start stop (if mapFixed then splitOverlappingVmas state.vmas start stop
      else (state.vmas, true)).1 state.vmas := by
    split
    · exact splitLoop_refines start stop _ 0 state.vmas
    · exact .refl start stop state.vmas
  simp only [add] at hmem ⊢
  generalize (if mapFixed then splitOverlappingVmas state.vmas start stop
    else (state.vmas, true)) = cut at hsplit hmem ⊢
  split_ifs at hmem ⊢ with hcut
  · rcases mem_insertVma hmem with hold | ⟨hlt, rfl, hplaced⟩
    · exact .inl (hsplit vma hold hactive)
    · exact .inr ⟨hlt, rfl, hplaced⟩
  · exact .inl (hsplit vma hmem hactive)

lemma mem_removeRange (hmem : vma ∈ (state.removeRange start stop).vmas)
    (hactive : vma.active) : ∃ whole ∈ state.vmas, PartOf start stop vma whole :=
  splitLoop_refines start stop _ 0 state.vmas vma hmem hactive

lemma mem_updateProt (hmem : vma ∈ (state.updateProt start stop prot).vmas) : ∃ old ∈ state.vmas,
    vma = if old.overlaps start stop then { old with prot := prot } else old := by
  obtain ⟨old, hold, heq⟩ := List.mem_map.mp hmem
  exact ⟨old, hold, heq.symm⟩

end

/-! ## Alignment -/

structure VmState.Aligned (state : VmState) : Prop where
  next : state.nextMmapAddr % pageSize = 0
  regions : ∀ vma ∈ state.vmas, vma.active = true → vma.Aligned

namespace VmState

variable {state next : VmState} {start stop prot : Nat}

lemma partOf_aligned {part whole : VmaRegion} (hpart : PartOf start stop part whole)
    (hwhole : whole.Aligned) (hstart : start % pageSize = 0) (hstop : stop % pageSize = 0) :
    part.Aligned where
  start_mod := by
    rcases hpart.start_eq with heq | heq <;> rw [heq]
    exacts [hwhole.start_mod, hstop]
  stop_mod := by
    rcases hpart.stop_eq with heq | heq <;> rw [heq]
    exacts [hwhole.stop_mod, hstart]
  stop_lt := hpart.le_stop.trans_lt hwhole.stop_lt

lemma nextMmapAddr_add (state : VmState) (start stop prot : Nat) (mapFixed : Bool) :
    (state.add start stop prot mapFixed).1.nextMmapAddr = state.nextMmapAddr := by
  simp only [add]
  split_ifs <;> rfl

variable (hstate : state.Aligned)
include hstate

lemma Aligned.add (hstart : start % pageSize = 0)
    (hstop : stop % pageSize = 0) (hlt : stop < usizeRange) (mapFixed : Bool) :
    (state.add start stop prot mapFixed).1.Aligned := by
  constructor
  · rw [nextMmapAddr_add]
    exact hstate.next
  · intro vma hvma hactive
    rcases mem_add hvma hactive with ⟨whole, hwhole, hpart⟩ | ⟨-, rfl, -⟩
    · exact partOf_aligned hpart (hstate.regions whole hwhole hpart.active) hstart hstop
    · exact ⟨hstart, hstop, hlt⟩

lemma Aligned.removeRange (hstart : start % pageSize = 0)
    (hstop : stop % pageSize = 0) : (state.removeRange start stop).Aligned := by
  refine ⟨hstate.next, ?_⟩
  intro vma hvma hactive
  obtain ⟨whole, hwhole, hpart⟩ := mem_removeRange hvma hactive
  exact partOf_aligned hpart (hstate.regions whole hwhole hpart.active) hstart hstop

lemma Aligned.updateProt (start stop prot : Nat) : (state.updateProt start stop prot).Aligned := by
  refine ⟨hstate.next, ?_⟩
  intro vma hvma hactive
  obtain ⟨old, hold, rfl⟩ := mem_updateProt hvma
  split_ifs at hactive ⊢
  · obtain ⟨hstart, hstop, hlt⟩ := hstate.regions old hold hactive
    exact ⟨hstart, hstop, hlt⟩
  · exact hstate.regions old hold hactive

end VmState

/-! ## Regions in the registry -/

namespace Registry

/-- The regions of the address space and its bump pointer are page aligned. -/
def Aligned (registry : Registry) (root : Nat) : Prop :=
  ∀ state, registry.stateOf root = some state → state.Aligned

section
variable {registry : Registry} {root start stop : Nat}

section
variable (haligned : registry.Aligned root)
include haligned

lemma Aligned.withState {f : VmState → VmState} (hf : ∀ state, state.Aligned → (f state).Aligned) :
    (registry.withState root f).Aligned root := by
  intro next hnext
  rw [stateOf_withState_self] at hnext
  obtain ⟨state, hstate, rfl⟩ := map_eq_some_iff.mp hnext
  exact hf state (haligned state hstate)

lemma Aligned.vmaRemoveRange (hstart : start % pageSize = 0)
    (hstop : stop % pageSize = 0) : (registry.vmaRemoveRange root start stop).Aligned root :=
  haligned.withState fun _ hstate => hstate.removeRange hstart hstop

lemma Aligned.vmaUpdateProt (start stop prot : Nat) :
    (registry.vmaUpdateProt root start stop prot).Aligned root :=
  haligned.withState fun _ hstate => hstate.updateProt start stop prot

lemma Aligned.vmaAdd (hstart : start % pageSize = 0)
    (hstop : stop % pageSize = 0) (hlt : stop < usizeRange) (prot : Nat) (mapFixed : Bool) :
    (registry.vmaAdd root start stop prot mapFixed).1.Aligned root :=
  haligned.withState fun _ hstate => hstate.add hstart hstop hlt mapFixed

lemma Aligned.ensureMmapAbove (minAddr : Nat) :
    (registry.ensureMmapAbove root minAddr).Aligned root := by
  refine haligned.withState fun state hstate => ⟨?_, hstate.regions⟩
  simp only [VmState.ensureMmapAbove]
  split
  exacts [wrappingAlignUp_mod _, hstate.next]

end

lemma stateOf_initRoot {next : VmState} (hroot : root ≠ 0)
    (hnext : ((registry.initRoot root).getD registry).stateOf root = some next) :
    next = .cleared := by
  cases hinit : registry.initRoot root with
  | none =>
    -- no slot has the root and none is left
    rw [hinit, getD_none] at hnext
    rw [initRoot, if_neg hroot, or_eq_none_iff] at hinit
    obtain ⟨slot, hslot, -⟩ := map_eq_some_iff.mp hnext
    have hfree := updateFirst_eq_none hinit.1 slot (mem_of_find?_eq_some hslot)
    cases (find?_some hslot).symm.trans hfree
  | some registry' =>
    rw [hinit, getD_some] at hnext
    rcases initRoot_cases hinit with hheld | ⟨hunregistered, hinstall⟩
    · rw [stateOf, find?_updateFirst_self hheld fun _ h => h] at hnext
      simp only [Option.map_map, map_eq_some_iff] at hnext
      obtain ⟨slot, -, rfl⟩ := hnext
      rfl
    · exact some.inj (hnext.symm.trans (stateOf_install_self hunregistered hinstall))

lemma aligned_initRoot (hroot : root ≠ 0) :
    ((registry.initRoot root).getD registry).Aligned root := by
  intro state hstate
  obtain rfl := stateOf_initRoot hroot hstate
  refine ⟨rfl, fun vma hvma hactive => ?_⟩
  obtain rfl := eq_of_mem_replicate hvma
  cases hactive

end

def CoveredBy (registry : Registry) (root addr : Nat) (vma : VmaRegion) : Prop :=
  ∃ state, registry.stateOf root = some state ∧ vma ∈ state.vmas ∧ vma.covers addr = true

variable {registry : Registry} {root addr start stop prot : Nat} {vma : VmaRegion}

lemma CoveredBy.active (hvma : registry.CoveredBy root addr vma) : vma.active := by
  obtain ⟨-, -, -, hcovers⟩ := hvma
  exact (covers_iff.mp hcovers).1

lemma CoveredBy.vmaQuery (hvma : registry.CoveredBy root addr vma) :
    ∃ first, registry.CoveredBy root addr first ∧
      registry.vmaQuery root addr = some first.prot := by
  obtain ⟨state, hstate, hmem, hcovers⟩ := hvma
  cases hfind : state.vmas.find? (·.covers addr) with
  | none => exact absurd hcovers (find?_eq_none.mp hfind vma hmem)
  | some first =>
    have hfirst : first.covers addr := by simpa using find?_some hfind
    refine ⟨first, ⟨state, hstate, mem_of_find?_eq_some hfind, hfirst⟩, ?_⟩
    rw [Registry.vmaQuery, hstate, bind_some, query, hfind, map_some]

lemma CoveredBy.of_withState {f : VmState → VmState}
    (hvma : (registry.withState root f).CoveredBy root addr vma) :
    ∃ state, registry.stateOf root = some state ∧ vma ∈ (f state).vmas ∧ vma.covers addr := by
  obtain ⟨next, hnext, hmem, hcovers⟩ := hvma
  rw [stateOf_withState_self] at hnext
  obtain ⟨state, hstate, rfl⟩ := map_eq_some_iff.mp hnext
  exact ⟨state, hstate, hmem, hcovers⟩

lemma coveredBy_vmaRemoveRange
    (hvma : (registry.vmaRemoveRange root start stop).CoveredBy root addr vma) :
    ∃ old, registry.CoveredBy root addr old ∧ vma.prot = old.prot := by
  obtain ⟨state, hstate, hmem, hcovers⟩ := CoveredBy.of_withState hvma
  obtain ⟨old, hold, hpart⟩ := mem_removeRange hmem hvma.active
  exact ⟨old, ⟨state, hstate, hold, hpart.covers hcovers⟩, hpart.prot⟩

lemma coveredBy_vmaUpdateProt
    (hvma : (registry.vmaUpdateProt root start stop prot).CoveredBy root addr vma) :
    ∃ old, registry.CoveredBy root addr old ∧
      vma.prot = if old.overlaps start stop then prot else old.prot := by
  obtain ⟨state, hstate, hmem, hcovers⟩ := CoveredBy.of_withState hvma
  obtain ⟨old, hold, rfl⟩ := mem_updateProt hmem
  refine ⟨old, ⟨state, hstate, hold, ?_⟩, ?_⟩ <;> split_ifs at hcovers ⊢ <;> trivial

lemma coveredBy_vmaAdd {mapFixed : Bool}
    (hvma : (registry.vmaAdd root start stop prot mapFixed).1.CoveredBy root addr vma) :
    (∃ old, registry.CoveredBy root addr old ∧ vma.prot = old.prot) ∨
      start ≤ addr ∧ addr < stop ∧ vma.prot = prot ∧
        (registry.vmaAdd root start stop prot mapFixed).2 := by
  obtain ⟨state, hstate, hmem, hcovers⟩ := CoveredBy.of_withState
    (f := fun state => (state.add start stop prot mapFixed).1) hvma
  rcases mem_add hmem hvma.active with ⟨old, hold, hpart⟩ | ⟨-, rfl, hadded⟩
  · exact .inl ⟨old, ⟨state, hstate, hold, hpart.covers hcovers⟩, hpart.prot⟩
  · obtain ⟨-, hle, hlt⟩ := covers_iff.mp hcovers
    exact .inr ⟨hle, hlt, rfl, by rw [vmaAdd, hstate, any_some, hadded]⟩

end Registry

end KarteOs.Mm

import KarteOs.Mm.Reserve
import KarteOs.Syscall.Memory

/-! # The effect of `mmap` on the registry and the machine

`mmap` takes its target from the caller or from the reservation of the VMA
registry, adds the region there and, for a fixed accessible mapping, unmaps
the pages of the region.
-/

namespace KarteOs.Syscall

universe u

open Mm Option

variable {registry registry' : Registry} {root addr len alignedLen : Nat} {target : Option Nat}

lemma reserveMmapAddr_cases (hrun : registry.reserveMmapAddr root len = some (registry', target)) :
    registry.stateOf root = none ∧ registry' = registry ∧ target = none ∨
      ∃ state next, registry.stateOf root = some state ∧ registry'.stateOf root = some next ∧
        state.reserveMmapAddr len = some (next, target) := by
  rw [Registry.reserveMmapAddr] at hrun
  split at hrun
  next hnone =>
    cases hrun
    exact .inl ⟨hnone, rfl, rfl⟩
  next state hstate =>
    obtain ⟨⟨next, found⟩, hreserve, heq⟩ := map_eq_some_iff.mp hrun
    cases heq
    refine .inr ⟨state, next, hstate, ?_, hreserve⟩
    rw [Registry.stateOf_withState_self, hstate, map_some]

variable {mapFixed : Bool}

section
variable (hrun : mmapTarget registry root addr alignedLen mapFixed = some (registry', target))
include hrun

lemma mmapTarget_cases : registry' = registry ∧ (∀ t, target = some t → t % pageSize = 0) ∨
    registry.reserveMmapAddr root alignedLen = some (registry', target) := by
  simp only [mmapTarget] at hrun
  split at hrun
  · cases hrun
    exact .inl ⟨rfl, nofun⟩
  · have halign : (if addr = 0 then 0 else if mapFixed then alignDown addr
        else mmapHint registry root addr alignedLen) % pageSize = 0 := by
      simp only [mmapHint]
      split_ifs <;> first | rfl | exact alignDown_mod _
    generalize (if addr = 0 then 0 else if mapFixed then alignDown addr
      else mmapHint registry root addr alignedLen) = chosen at hrun halign
    split at hrun
    · cases hrun
      exact .inl ⟨rfl, fun t ht => some.inj ht ▸ halign⟩
    · exact .inr hrun

lemma mmapTarget_state {next : VmState} (hnext : registry'.stateOf root = some next) :
    ∃ state, registry.stateOf root = some state ∧ next.vmas = state.vmas := by
  rcases mmapTarget_cases hrun with ⟨rfl, -⟩ | hreserve
  · exact ⟨next, hnext, rfl⟩
  · rcases reserveMmapAddr_cases hreserve with ⟨-, rfl, -⟩ | ⟨state, next', hstate, hnext', hrun'⟩
    · exact ⟨next, hnext, rfl⟩
    · cases hnext.symm.trans hnext'
      exact ⟨state, hstate, (VmState.reserveLoop_spec hrun').vmas⟩

lemma mmapTarget_coveredBy {v : Nat} {vma : VmaRegion} (hvma : registry'.CoveredBy root v vma) :
    registry.CoveredBy root v vma := by
  obtain ⟨next, hnext, hmem, hcovers⟩ := hvma
  obtain ⟨state, hstate, hvmas⟩ := mmapTarget_state hrun hnext
  exact ⟨state, hstate, hvmas ▸ hmem, hcovers⟩

lemma mmapTarget_aligned (haligned : registry.Aligned root) :
    registry'.Aligned root ∧ ∀ t, target = some t → t % pageSize = 0 := by
  rcases mmapTarget_cases hrun with ⟨rfl, htarget⟩ | hreserve
  · exact ⟨haligned, htarget⟩
  · rcases reserveMmapAddr_cases hreserve with ⟨-, rfl, rfl⟩ | ⟨state, next, hstate, hnext, hrun'⟩
    · exact ⟨haligned, nofun⟩
    · have hspec := VmState.reserveLoop_spec hrun'
      obtain ⟨hnextAligned, htarget⟩ :=
        hspec.aligned (haligned state hstate) (wrappingAlignUp_mod _)
      refine ⟨?_, htarget⟩
      intro state' hstate'
      cases hnext.symm.trans hstate'
      exact hnextAligned

end

lemma mmapTarget_vmaAdd_aligned {t prot : Nat}
    (hrun : mmapTarget registry root addr (wrappingAlignUp len) mapFixed =
      some (registry', some t)) (haligned : registry.Aligned root) :
    (registry'.vmaAdd root t (wrappingAdd t (wrappingAlignUp len)) prot mapFixed).1.Aligned
      root := by
  obtain ⟨hregistry, htarget⟩ := mmapTarget_aligned hrun haligned
  exact hregistry.vmaAdd (htarget t rfl)
    (wrappingAdd_mod (htarget t rfl) (wrappingAlignUp_mod len)) (Nat.mod_lt _ (by decide)) prot
    mapFixed

variable {σ : Type u} {arch : Arch} {k k' : Kernel σ}
  {prot flags : Nat} {result : Int}

inductive MmapEffect (arch : Arch) (root : Nat) (k : Kernel σ) (addr len prot flags : Nat) :
    Kernel σ → Int → Prop
  | invalid : MmapEffect arch root k addr len prot flags k errInval
  | noTarget {registry : Registry} :
      mmapTarget k.registry root addr (wrappingAlignUp len) (flags.testBit 4) =
        some (registry, none) →
      MmapEffect arch root k addr len prot flags { k with registry } errNomem
  | noRegion {registry : Registry} {target : Nat} :
      mmapTarget k.registry root addr (wrappingAlignUp len) (flags.testBit 4) =
        some (registry, some target) →
      (registry.vmaAdd root target (wrappingAdd target (wrappingAlignUp len)) prot
        (flags.testBit 4)).2 = false →
      MmapEffect arch root k addr len prot flags
        { k with registry := (registry.vmaAdd root target
          (wrappingAdd target (wrappingAlignUp len)) prot (flags.testBit 4)).1 } errNomem
  | mapped {registry : Registry} {target : Nat} : len ≠ 0 →
      mmapTarget k.registry root addr (wrappingAlignUp len) (flags.testBit 4) =
        some (registry, some target) →
      (registry.vmaAdd root target (wrappingAdd target (wrappingAlignUp len)) prot
        (flags.testBit 4)).2 = true →
      MmapEffect arch root k addr len prot flags
        { k with
          registry := (registry.vmaAdd root target (wrappingAdd target (wrappingAlignUp len)) prot
            (flags.testBit 4)).1
          machine :=
            if prot ≠ 0 ∧ flags.testBit 4 = true then
              unmapRange arch root k.machine target (wrappingAdd target (wrappingAlignUp len))
            else k.machine }
        (asIsize target)

lemma linuxMmap_effect (hrun : linuxMmap arch root k addr len prot flags = some (k', result)) :
    MmapEffect arch root k addr len prot flags k' result := by
  simp only [linuxMmap] at hrun
  split at hrun
  · cases hrun
    exact .invalid
  next hlen =>
    obtain ⟨⟨registry, target⟩, htarget, heq⟩ := map_eq_some_iff.mp hrun
    cases target with
    | none =>
      cases heq
      exact .noTarget htarget
    | some target =>
      dsimp only at heq
      split_ifs at heq with hadded hfixed
      · cases heq
        exact .noRegion htarget hadded
      · cases heq
        have heffect : MmapEffect arch root k addr len prot flags _ _ :=
          .mapped hlen htarget (by simpa using hadded)
        rwa [if_pos hfixed] at heffect
      · cases heq
        have heffect : MmapEffect arch root k addr len prot flags _ _ :=
          .mapped hlen htarget (by simpa using hadded)
        rwa [if_neg hfixed] at heffect

end KarteOs.Syscall

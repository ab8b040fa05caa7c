import KarteOs.Mm.KernelFrames
import KarteOs.Mm.VmaMap
import KarteOs.Syscall.Memory

/-! # Protection of the regions

`vma_update_prot` gives every region that meets the range the new protection as
a whole. A region that reaches beyond the range changes outside of it too,
unless it has the protection already.
-/

namespace KarteOs.Syscall

universe u

open Mm Registry VmaRegion Option

variable {vmas : List VmaRegion} {start stop prot addr : Nat}

def reprotect (start stop prot : Nat) (vma : VmaRegion) : VmaRegion :=
  if vma.overlaps start stop then { vma with prot := prot } else vma

lemma covers_reprotect (start stop prot : Nat) (vma : VmaRegion) :
    (reprotect start stop prot vma).covers addr = vma.covers addr := by
  rw [reprotect]
  split <;> rfl

lemma lookup_updateProt (state : VmState) (start stop prot addr : Nat) :
    lookup (state.updateProt start stop prot).vmas addr =
      (state.vmas.find? (·.covers addr)).map fun vma => (reprotect start stop prot vma).prot := by
  have hmap : (state.updateProt start stop prot).vmas =
      state.vmas.map (reprotect start stop prot) := rfl
  rw [lookup, hmap, List.find?_map, Option.map_map]
  have hsame : ((·.covers addr) : VmaRegion → Bool) ∘ reprotect start stop prot =
      (·.covers addr) := funext fun vma => covers_reprotect start stop prot vma
  rw [hsame]
  rfl

/-- Every region that meets the range lies inside of it or has the protection. -/
def Unsplit (vmas : List VmaRegion) (start stop prot : Nat) : Prop :=
  ∀ vma ∈ vmas, vma.overlaps start stop = true →
    start ≤ vma.start ∧ vma.stop ≤ stop ∨ vma.prot = prot

/-- The lookups of covered addresses in the range give the protection, those outside are kept. -/
def Reprotects (before after : Nat → Option Nat) (start stop prot : Nat) : Prop :=
  ∀ addr, (start ≤ addr ∧ addr < stop → before addr ≠ none → after addr = some prot) ∧
    (¬ (start ≤ addr ∧ addr < stop) → after addr = before addr)

variable {state : VmState}

lemma reprotects_of_unsplit (hunsplit : Unsplit state.vmas start stop prot) :
    Reprotects (lookup state.vmas) (lookup (state.updateProt start stop prot).vmas)
      start stop prot := by
  intro addr
  rw [lookup_updateProt, lookup]
  cases hfind : state.vmas.find? (·.covers addr) with
  | none => simp
  | some vma =>
    have hvma := List.mem_of_find?_eq_some hfind
    have hcovers : vma.covers addr := by simpa using List.find?_some hfind
    obtain ⟨hactive, hle, hlt⟩ := covers_iff.mp hcovers
    refine ⟨fun hin _ => ?_, fun hout => ?_⟩
    · have hoverlaps : vma.overlaps start stop := overlaps_iff.mpr ⟨hactive, by omega, by omega⟩
      rw [map_some, reprotect, if_pos hoverlaps]
    · rw [map_some, map_some, reprotect]
      split
      next hoverlaps =>
        rcases hunsplit vma hvma hoverlaps with hinside | hprot
        · omega
        · rw [hprot]
      · rfl

lemma unsplit_of_reprotects (hdisjoint : (state.vmas.filter (·.active)).Pairwise Disjoint)
    (hreprotects : Reprotects (lookup state.vmas) (lookup (state.updateProt start stop prot).vmas)
      start stop prot) : Unsplit state.vmas start stop prot := by
  intro vma hvma hoverlaps
  obtain ⟨hactive, hbelow, habove⟩ := overlaps_iff.mp hoverlaps
  have hsame : ∀ addr, vma.covers addr → ¬(start ≤ addr ∧ addr < stop) → vma.prot = prot := by
    intro addr hcovers hout
    have hlookup := (hreprotects addr).2 hout
    rw [lookup_updateProt, lookup] at hlookup
    cases hfind : state.vmas.find? (·.covers addr) with
    | none => exact absurd hcovers (List.find?_eq_none.mp hfind vma hvma)
    | some found =>
      have hfound : found.covers addr := by simpa using List.find?_some hfind
      obtain rfl := eq_of_covers hdisjoint (List.mem_of_find?_eq_some hfind) hvma hfound hcovers
      rw [hfind, map_some, map_some, reprotect, if_pos hoverlaps] at hlookup
      exact (some.inj hlookup).symm
  by_cases hinside : start ≤ vma.start ∧ vma.stop ≤ stop
  · exact .inl hinside
  · right
    rcases Nat.lt_or_ge vma.start start with hleft | hge
    · exact hsame vma.start (covers_iff.mpr ⟨hactive, le_rfl, by omega⟩) (by omega)
    · exact hsame (vma.stop - 1) (covers_iff.mpr ⟨hactive, by omega, by omega⟩) (by omega)

variable {σ : Type u}

/-- A successful `linux_mprotect` changes the protection of the range and of nothing else. -/
def MprotectsRange (arch : Arch) (root : Nat) (k : Kernel σ) (start stop prot : Nat) : Prop :=
  (linuxMprotect arch root k start (stop - start) prot).2 = 0 →
    Reprotects (k.registry.vmaQuery root)
      ((linuxMprotect arch root k start (stop - start) prot).1.registry.vmaQuery root)
      start stop prot

lemma linuxMprotect_aligned (arch : Arch) (root : Nat) (k : Kernel σ) (prot : Nat)
    (hstart : start % pageSize = 0) (hstop : stop % pageSize = 0) (hlt : start < stop)
    (hword : stop < usizeRange) (hzero : start ≠ 0) :
    linuxMprotect arch root k start (stop - start) prot = ({ k with
          registry := k.registry.vmaUpdateProt root start stop prot
          machine := protectRange arch root (protToPteFlags arch prot) k.machine start stop },
        0) := by
  have hargs : ¬(start = 0 ∨ stop - start = 0) := by omega
  have hbegin : alignDown start = start := Nat.div_mul_cancel (Nat.dvd_of_mod_eq_zero hstart)
  have hend : wrappingAlignUp (start + (stop - start)) = stop := by
    rw [Nat.add_sub_cancel' hlt.le, wrappingAlignUp_eq_self hstop hword]
  rw [linuxMprotect, if_neg hargs]
  simp [hbegin, hend]

variable {arch : Arch} {root : Nat} {k : Kernel σ}

lemma mprotectsRange_iff_unsplit (hstate : k.registry.stateOf root = some state)
    (hdisjoint : (state.vmas.filter (·.active)).Pairwise Disjoint) (hstart : start % pageSize = 0)
    (hstop : stop % pageSize = 0) (hlt : start < stop) (hword : stop < usizeRange)
    (hzero : start ≠ 0) :
    MprotectsRange arch root k start stop prot ↔ Unsplit state.vmas start stop prot := by
  have hnext : (k.registry.vmaUpdateProt root start stop prot).stateOf root =
      some (state.updateProt start stop prot) := by
    rw [vmaUpdateProt, stateOf_withState_self, hstate, map_some]
  have hbefore : k.registry.vmaQuery root = lookup state.vmas :=
    funext fun addr => vmaQuery_eq_lookup hstate addr
  have hafter : (k.registry.vmaUpdateProt root start stop prot).vmaQuery root =
      lookup (state.updateProt start stop prot).vmas :=
    funext fun addr => vmaQuery_eq_lookup hnext addr
  rw [MprotectsRange, linuxMprotect_aligned arch root k prot hstart hstop hlt hword hzero]
  simp only [hbefore, hafter, forall_true_left]
  exact ⟨unsplit_of_reprotects hdisjoint, reprotects_of_unsplit⟩

/-- The call changes the range only, exactly when no region that meets the range and has
another protection reaches beyond it. -/
theorem mprotectsRange_iff (hdisjoint : ∀ state, k.registry.stateOf root = some state →
      (state.vmas.filter (·.active)).Pairwise VmaRegion.Disjoint) (hstart : start % pageSize = 0)
    (hstop : stop % pageSize = 0) (hlt : start < stop) (hword : stop < usizeRange) :
    MprotectsRange arch root k start stop prot ↔ start = 0 ∨
      ∀ state, k.registry.stateOf root = some state → Unsplit state.vmas start stop prot := by
  by_cases hzero : start = 0
  · -- the call refuses address 0
    refine iff_of_true (fun hsuccess => ?_) (.inl hzero)
    rw [linuxMprotect, if_pos (.inl hzero)] at hsuccess
    cases hsuccess
  · rw [or_iff_right hzero]
    cases hstate : k.registry.stateOf root with
    | none =>
      refine iff_of_true (fun _ addr => ?_) nofun
      have hbefore : k.registry.vmaQuery root addr = none := by
        rw [vmaQuery, hstate, bind_none]
      have hafter :
          (k.registry.vmaUpdateProt root start stop prot).vmaQuery root addr = none := by
        rw [vmaQuery, vmaUpdateProt, stateOf_withState_self, hstate,
          map_none, bind_none]
      rw [linuxMprotect_aligned arch root k prot hstart hstop hlt hword hzero]
      simp [hbefore, hafter]
    | some state =>
      rw [mprotectsRange_iff_unsplit hstate (hdisjoint state hstate) hstart hstop hlt hword hzero]
      exact ⟨fun hunsplit state' hstate' => some.inj hstate' ▸ hunsplit,
        fun hunsplit => hunsplit state rfl⟩

/-- A process with one region of three pages that may be read and written. -/
def threePages : Kernel KernelFrames :=
  ⟨⟨fun _ _ => 0, .sixtyFour⟩, ofSlots [⟨7, true, oneRegion⟩], 0⟩

lemma stateOf_threePages : threePages.registry.stateOf 7 = some oneRegion :=
  stateOf_ofSlots 7 oneRegion []

theorem mprotectsRange_iff_threePages : MprotectsRange .riscv64 7 threePages 0x1000 0x4000 1 := by
  refine (mprotectsRange_iff ?_ (by decide) (by decide) (by decide) (by decide)).mpr (.inr ?_)
  · intro state hstate
    cases stateOf_threePages.symm.trans hstate
    exact separate_oneRegion.disjoint
  · intro state hstate vma hvma hoverlaps
    cases stateOf_threePages.symm.trans hstate
    rcases List.mem_cons.mp hvma with rfl | hvma
    · exact .inl (by decide)
    · obtain rfl := List.eq_of_mem_replicate hvma
      cases hoverlaps

/-- Making the middle page read-only makes all three pages read-only. -/
theorem not_mprotectsRange_threePages : ¬ MprotectsRange .riscv64 7 threePages 0x2000 0x3000 1 := by
  rw [mprotectsRange_iff_unsplit stateOf_threePages separate_oneRegion.disjoint (by decide)
    (by decide) (by decide) (by decide) (by decide)]
  intro hunsplit
  have hregion := hunsplit ⟨0x1000, 0x4000, 3, true⟩ (.head _) (by decide)
  exact absurd hregion (by decide)

end KarteOs.Syscall

import KarteOs.Mm.VmaMap

/-! # A full table

The upper part of a region that is cut in two needs an entry of its own, and
so does a range that is added. When there is none left, the cut that was made
before stays: the upper part is lost, or the range is no longer mapped. The
map is kept when there are enough entries, and for disjoint regions only then.
-/

namespace KarteOs.Mm

open VmaRegion VmState List Bool

section
variable {vma other : VmaRegion} {vmas before rest : List VmaRegion} {start stop addr : Nat}

/-- Every upper part finds an entry, and where it is placed does not matter: the regions that
it meets have its protection. -/
structure RoomToCut (vmas : List VmaRegion) (start stop : Nat) : Prop where
  entries : (freeAfter start stop (inactive vmas) vmas).isSome = true
  order : ∀ vma ∈ vmas, vma.straddles start stop = true →
    ∀ other ∈ vmas, other.overlaps stop vma.stop = true → other.prot = vma.prot

/-- If a region meets the range, there are entries for the upper parts and for the range. -/
def RoomToAdd (vmas : List VmaRegion) (start stop : Nat) : Prop :=
  (∃ vma ∈ vmas, vma.overlaps start stop = true) →
    ∃ free, freeAfter start stop (inactive vmas) vmas = some free ∧ (start < stop → 0 < free)

lemma RoomToCut.lookup_split (hroom : RoomToCut vmas start stop)
    (haddr : ¬(start ≤ addr ∧ addr < stop)) :
    lookup (splitOverlappingVmas vmas start stop).1 addr = lookup vmas addr := by
  by_cases hplain : ∀ vma ∈ vmas, vma.straddles start stop → vma.covers addr → addr < stop
  · exact splitLoop_lookup haddr [] vmas hplain
  · -- an upper part covers the address, and all regions there agree with it
    push Not at hplain
    obtain ⟨vma, hvma, hstraddles, hcovers, hle⟩ := hplain
    obtain ⟨hactive, hstart, hstop⟩ := covers_iff.mp hcovers
    have hagree : ∀ other ∈ vmas, other.covers addr → other.prot = vma.prot := by
      intro other hother hcovers'
      obtain ⟨hactive', hstart', hstop'⟩ := covers_iff.mp hcovers'
      exact hroom.order vma hvma hstraddles other hother
        (overlaps_iff.mpr ⟨hactive', by omega, by omega⟩)
    have hassigns : Assigns vmas addr vma.prot := ⟨vma, hvma, hcovers, rfl⟩
    have hsplit := split_isSome_iff.mpr hroom.entries
    rw [lookup_of_assigns hagree hassigns]
    refine lookup_of_assigns (fun piece hpiece hpiece' => ?_)
      ((assigns_split hsplit).mpr ⟨hassigns, haddr⟩)
    obtain ⟨⟨whole, hwhole, hwhole', hprot⟩, -⟩ :=
      (assigns_split hsplit).mp ⟨piece, hpiece, hpiece', rfl⟩
    rw [← hprot, hagree whole hwhole hwhole']

lemma splitLoop_skip (before skipped rest : List VmaRegion)
    (hskip : ∀ vma ∈ skipped, vma.overlaps start stop = false) :
    splitLoop start stop (skipped.length + rest.length) before.length
        (before ++ (skipped ++ rest)) =
      splitLoop start stop rest.length (before ++ skipped).length (before ++ skipped ++ rest) := by
  induction skipped generalizing before with
  | nil => simp
  | cons vma skipped ih =>
    have hvma := hskip vma (.head _)
    have hstraddles : vma.straddles start stop = false := by rw [straddles, hvma, Bool.false_and]
    have hnext := ih (before ++ [vma]) fun other hother => hskip other (.tail _ hother)
    have hlength : (vma :: skipped).length + rest.length = (skipped ++ rest).length + 1 := by
      simp [Nat.add_right_comm]
    rw [hlength, cons_append, splitLoop_append, hstraddles, if_neg Bool.false_ne_true,
      trim_of_not_overlaps hvma]
    simpa [Nat.add_assoc] using hnext

lemma split_stuck (hsep : Separate (before ++ vma :: rest))
    (hstraddles : vma.straddles start stop) (hfull : inactive (before ++ vma :: rest) = 0) :
    splitOverlappingVmas (before ++ vma :: rest) start stop =
      (before ++ vma.trim start stop :: rest, false) := by
  obtain ⟨hactive, -, -, -, habove⟩ := straddles_iff.mp hstraddles
  have hskip := splitLoop_skip [] before (vma :: rest) fun other hother =>
    hsep.not_overlaps_of_straddles hstraddles (mem_append_left _ hother)
  have hlength : (before ++ vma :: rest).length = before.length + (vma :: rest).length :=
    length_append
  rw [splitOverlappingVmas, hlength]
  rw [nil_append, nil_append] at hskip
  refine hskip.trans ?_
  rw [length_cons, splitLoop_append, if_pos hstraddles]
  obtain ⟨next, -, hplaced⟩ | ⟨hinsert, -⟩ :=
    insertVma_cases (before ++ vma.trim start stop :: rest) habove vma.prot
  · -- the trimmed table has no inactive entry either
    have htrim := inactive_trim before rest vma start stop
    rw [inside_of_straddles hstraddles, hfull, append_assoc, singleton_append] at htrim
    have hpos := hplaced.inactive_eq rfl
    rw [htrim] at hpos
    simp at hpos
  · simp [hinsert, false_eq_true]

lemma lookup_stuck (hsep : Separate (before ++ vma :: rest))
    (hstraddles : vma.straddles start stop) :
    lookup (before ++ vma :: rest) (max start stop) = some vma.prot ∧
      lookup (before ++ vma.trim start stop :: rest) (max start stop) = none := by
  obtain ⟨hactive, hbelow, habove, hleft, hright⟩ := straddles_iff.mp hstraddles
  have hcovers : vma.covers (max start stop) := covers_iff.mpr ⟨hactive, by omega, by omega⟩
  refine ⟨hsep.lookup_eq_some.mpr ⟨vma, by simp, hcovers, rfl⟩, ?_⟩
  rw [lookup, Option.map_eq_none_iff, find?_eq_none]
  intro piece hpiece hpiece'
  by_cases htrim : piece = vma.trim start stop
  · subst htrim
    have hlt := ((covers_trim_of_straddles hstraddles).mp hpiece').2
    omega
  · have hother : piece ∈ before ++ rest := by
      rcases mem_append.mp hpiece with hmem | hmem
      · exact mem_append_left _ hmem
      · exact mem_append_right _ ((mem_cons.mp hmem).resolve_left htrim)
    cases (hsep.not_covers hcovers hother).symm.trans hpiece'

lemma Separate.order (hsep : Separate vmas) (hvma : vma ∈ vmas)
    (hstraddles : vma.straddles start stop) (hother : other ∈ vmas)
    (hoverlaps : other.overlaps stop vma.stop) : other.prot = vma.prot := by
  obtain ⟨hactive, hbelow, habove, hleft, hright⟩ := straddles_iff.mp hstraddles
  obtain ⟨hactive', hbelow', habove'⟩ := overlaps_iff.mp hoverlaps
  have hnonempty := hsep.nonempty other hother hactive'
  have hcovers : vma.covers (max other.start stop) := covers_iff.mpr ⟨hactive, by omega, by omega⟩
  have hcovers' : other.covers (max other.start stop) :=
    covers_iff.mpr ⟨hactive', by omega, by omega⟩
  rw [eq_of_covers hsep.disjoint hother hvma hcovers' hcovers]

lemma freeAfter_of_not_straddles (hnone : ∀ vma ∈ vmas, vma.straddles start stop = false)
    (free : Nat) : (freeAfter start stop free vmas).isSome := by
  induction vmas generalizing free with
  | nil => rfl
  | cons vma rest ih =>
    have hrest : ∀ other ∈ rest, other.straddles start stop = false := fun other hother =>
      hnone other (.tail _ hother)
    simp only [freeAfter, hnone vma mem_cons_self, false_eq_true, if_false]
    split_ifs
    · exact ih hrest _
    · exact ih hrest _

lemma Separate.stuck (hsep : Separate vmas)
    (hentries : (freeAfter start stop (inactive vmas) vmas).isSome = false) :
    ∃ before vma rest, vmas = before ++ vma :: rest ∧ vma.straddles start stop ∧
      inactive vmas = 0 := by
  have hfull : inactive vmas = 0 := by
    by_contra hpos
    rw [hsep.freeAfter_isSome (Nat.pos_of_ne_zero hpos)] at hentries
    cases hentries
  by_contra hnone
  have hstraddles : ∀ vma ∈ vmas, vma.straddles start stop = false := by
    intro vma hvma
    obtain ⟨before, rest, rfl⟩ := append_of_mem hvma
    refine eq_false_iff.mpr fun hstraddles => ?_
    exact hnone ⟨before, vma, rest, rfl, hstraddles, hfull⟩
  have hsome := freeAfter_of_not_straddles hstraddles (inactive vmas)
  cases hsome.symm.trans hentries

end

namespace Registry

variable {registry : Registry} {root start stop prot : Nat} {mapFixed : Bool} {state : VmState}

/-- A failed `vma_add` changes no lookup, and `vma_remove_range` none outside of its range. -/
structure KeepsMap (registry : Registry) (root start stop prot : Nat) (mapFixed : Bool) : Prop where
  failed : (registry.vmaAdd root start stop prot mapFixed).2 = false → ∀ addr,
    (registry.vmaAdd root start stop prot mapFixed).1.vmaQuery root addr =
      registry.vmaQuery root addr
  removed : ∀ addr, ¬ (start ≤ addr ∧ addr < stop) →
    (registry.vmaRemoveRange root start stop).vmaQuery root addr = registry.vmaQuery root addr

/-- The table of the address space has the entries that the two calls need. -/
def Roomy (registry : Registry) (root start stop : Nat) (mapFixed : Bool) : Prop :=
  ∀ state, registry.stateOf root = some state → RoomToCut state.vmas start stop ∧
    (mapFixed = true → RoomToAdd state.vmas start stop)

lemma vmaQuery_withState_of_none (hstate : registry.stateOf root = none) (f : VmState → VmState)
    (addr : Nat) :
    (registry.withState root f).vmaQuery root addr = registry.vmaQuery root addr := by
  rw [vmaQuery, vmaQuery, stateOf_withState_self, hstate, Option.map_none]

lemma add_failed_vmas (hroom : mapFixed → RoomToAdd state.vmas start stop)
    (hadd : (state.add start stop prot mapFixed).2 = false) :
    (state.add start stop prot mapFixed).1.vmas = state.vmas := by
  cases mapFixed with
  | false =>
    simp only [add, false_eq_true, if_false, if_true] at hadd ⊢
    rw [insertVma] at hadd ⊢
    split at hadd
    · cases hadd
    next hlt =>
      rw [if_neg hlt]
      split at hadd
      · cases hadd
      · rfl
  | true =>
    obtain ⟨hvmas, hfailed⟩ := add_fixed_failed hadd
    rw [hvmas]
    by_cases hmeets : ∃ vma ∈ state.vmas, vma.overlaps start stop
    · obtain ⟨free, hfree, hpos⟩ := hroom rfl hmeets
      rw [split_eq_freeAfter] at hfree
      obtain hsplit | ⟨hsplit, hlt, hzero⟩ := hfailed
      · rw [hsplit, if_neg Bool.false_ne_true] at hfree
        cases hfree
      · rw [hsplit, if_pos rfl, hzero] at hfree
        cases hfree
        exact absurd (hpos hlt) (Nat.lt_irrefl 0)
    · push Not at hmeets
      rw [splitOverlappingVmas,
        splitLoop_of_free fun vma hvma => eq_false_iff.mpr (hmeets vma hvma)]

lemma keepsMap_of_roomy (hroomy : registry.Roomy root start stop mapFixed) :
    registry.KeepsMap root start stop prot mapFixed := by
  cases hstate : registry.stateOf root with
  | none =>
    refine ⟨fun _ addr => ?_, fun addr _ => vmaQuery_withState_of_none hstate _ addr⟩
    exact vmaQuery_withState_of_none hstate
      (fun state => (state.add start stop prot mapFixed).1) addr
  | some state =>
    obtain ⟨hcut, hadd⟩ := hroomy state hstate
    obtain ⟨hnext, hflag⟩ := stateOf_vmaAdd hstate start stop prot mapFixed
    refine ⟨fun hfailed addr => ?_, fun addr hout => ?_⟩
    · rw [hflag] at hfailed
      rw [vmaQuery_eq_lookup hnext, vmaQuery_eq_lookup hstate, add_failed_vmas hadd hfailed]
    · rw [vmaQuery_eq_lookup (stateOf_vmaRemoveRange hstate start stop), vmaQuery_eq_lookup hstate]
      exact hcut.lookup_split hout

variable {vma : VmaRegion}

lemma not_removed_of_stuck {before rest : List VmaRegion}
    (hstate : registry.stateOf root = some state) (hvmas : state.vmas = before ++ vma :: rest)
    (hsep : Separate state.vmas) (hstraddles : vma.straddles start stop)
    (hfull : inactive state.vmas = 0) : ¬registry.KeepsMap root start stop prot mapFixed := by
  intro hkeeps
  rw [hvmas] at hsep hfull
  have hremoved := hkeeps.removed (max start stop) (by omega)
  rw [vmaQuery_eq_lookup (stateOf_vmaRemoveRange hstate start stop), vmaQuery_eq_lookup hstate,
    removeRange, hvmas, split_stuck hsep hstraddles hfull] at hremoved
  obtain ⟨hbefore, hafter⟩ := lookup_stuck hsep hstraddles
  rw [hbefore, hafter] at hremoved
  cases hremoved

lemma not_failed_of_full (hstate : registry.stateOf root = some state)
    (hsep : Separate state.vmas) (hvma : vma ∈ state.vmas)
    (hoverlaps : vma.overlaps start stop) (hlt : start < stop)
    (hsplit : (splitOverlappingVmas state.vmas start stop).2)
    (hfull : inactive (splitOverlappingVmas state.vmas start stop).1 = 0) :
    ¬registry.KeepsMap root start stop prot true := by
  intro hkeeps
  obtain ⟨hnext, hflag⟩ := stateOf_vmaAdd hstate start stop prot true
  obtain ⟨hactive, hbelow, habove⟩ := overlaps_iff.mp hoverlaps
  have hnonempty := hsep.nonempty vma hvma hactive
  have hfailed : (state.add start stop prot true).2 = false := by
    refine eq_false_iff.mpr fun hadd => ?_
    have hone := (placed_of_add hlt hadd).2.inactive_eq rfl
    omega
  have hcovers : vma.covers (max vma.start start) := covers_iff.mpr ⟨hactive, by omega, by omega⟩
  have hbefore := hsep.lookup_eq_some.mpr ⟨vma, hvma, hcovers, rfl⟩
  have hafter := hkeeps.failed (by rw [hflag, hfailed]) (max vma.start start)
  rw [vmaQuery_eq_lookup hnext, vmaQuery_eq_lookup hstate, hbefore,
    (add_fixed_failed hfailed).1] at hafter
  obtain ⟨-, hout⟩ := (assigns_split hsplit).mp (assigns_of_lookup hafter)
  omega

lemma roomy_of_keepsMap (hsep : ∀ state, registry.stateOf root = some state →
    Separate state.vmas) (hkeeps : registry.KeepsMap root start stop prot mapFixed) :
    registry.Roomy root start stop mapFixed := by
  intro state hstate
  have hsep := hsep state hstate
  have hentries : (freeAfter start stop (inactive state.vmas) state.vmas).isSome := by
    by_contra hnone
    obtain ⟨before, vma, rest, hvmas, hstraddles, hfull⟩ := hsep.stuck (eq_false_iff.mpr hnone)
    exact not_removed_of_stuck hstate hvmas hsep hstraddles hfull hkeeps
  refine ⟨⟨hentries, fun vma hvma hstraddles other hother hoverlaps =>
    hsep.order hvma hstraddles hother hoverlaps⟩, ?_⟩
  rintro rfl ⟨vma, hvma, hoverlaps⟩
  have hsplit := split_isSome_iff.mpr hentries
  refine ⟨_, by rw [split_eq_freeAfter, if_pos hsplit],
    fun hlt => Nat.pos_of_ne_zero fun hfull => ?_⟩
  exact not_failed_of_full hstate hsep hvma hoverlaps hlt hsplit hfull hkeeps

/-- The map is kept with enough entries, and by disjoint regions only then. -/
theorem keepsMap_iff_roomy (registry : Registry) (root start stop prot : Nat) (mapFixed : Bool) :
    (registry.Roomy root start stop mapFixed → registry.KeepsMap root start stop prot mapFixed) ∧
    ((∀ state, registry.stateOf root = some state → Separate state.vmas) →
      (registry.KeepsMap root start stop prot mapFixed ↔
        registry.Roomy root start stop mapFixed)) :=
  ⟨keepsMap_of_roomy, fun hsep => ⟨roomy_of_keepsMap hsep, keepsMap_of_roomy⟩⟩

/-- A table without inactive entries: one region of three pages and 1023 regions of a page. -/
def fullTable : List VmaRegion :=
  ⟨0x1000, 0x4000, 3, true⟩ ::
    (List.range 1023).map fun i => ⟨0x10000 + i * 0x1000, 0x11000 + i * 0x1000, 1, true⟩

lemma active_fullTable (hvma : vma ∈ fullTable) : vma.active := by
  rcases mem_cons.mp hvma with rfl | hvma
  · rfl
  · obtain ⟨i, -, rfl⟩ := List.mem_map.mp hvma
    rfl

lemma separate_fullTable : Separate fullTable := by
  refine ⟨fun vma hvma _ => ?_, List.Pairwise.filter _ ?_⟩
  · rcases mem_cons.mp hvma with rfl | hvma
    · decide
    · obtain ⟨i, -, rfl⟩ := List.mem_map.mp hvma
      simp only
      omega
  · refine pairwise_cons.mpr ⟨fun vma hvma addr hcovers => ?_, pairwise_map.mpr ?_⟩
    · obtain ⟨i, -, rfl⟩ := List.mem_map.mp hvma
      obtain ⟨-, -, hlt⟩ := covers_iff.mp hcovers
      refine eq_false_iff.mpr fun hcovers' => ?_
      obtain ⟨-, hle, -⟩ := covers_iff.mp hcovers'
      simp only at hlt hle
      omega
    · refine pairwise_lt_range.imp fun {i j} hij addr hcovers => ?_
      obtain ⟨-, -, hlt⟩ := covers_iff.mp hcovers
      refine eq_false_iff.mpr fun hcovers' => ?_
      obtain ⟨-, hle, -⟩ := covers_iff.mp hcovers'
      simp only at hlt hle
      omega

/-- Unmapping the middle page of the region unmaps its last page as well. -/
theorem not_keepsMap_fullTable :
    ¬ (ofSlots [⟨7, true, ⟨fullTable, 0, 0⟩⟩]).KeepsMap 7 0x2000 0x3000 1 false :=
  not_removed_of_stuck (stateOf_ofSlots 7 ⟨fullTable, 0, 0⟩ [])
    (show fullTable = [] ++ _ :: _ from rfl) separate_fullTable (by decide)
    (inactive_eq_zero fun _ hvma => active_fullTable hvma)

end Registry

end KarteOs.Mm

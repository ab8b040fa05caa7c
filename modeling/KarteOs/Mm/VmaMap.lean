import KarteOs.Mm.Reserve
import KarteOs.Mm.VmaCut

/-! # The table as a map

What a table is for is the protection of each address. As long as the regions
are disjoint the order of the entries does not matter, and adding a fixed range
or removing one edits the map as expected, provided there are enough entries.
-/

namespace KarteOs.Mm

open VmaRegion Option

def VmaRegion.Disjoint (first second : VmaRegion) : Prop :=
  ∀ addr, first.covers addr = true → second.covers addr = false

instance : Std.Symm Disjoint where
  symm first second hdisjoint addr hsecond := by
    refine Bool.eq_false_iff.mpr fun hfirst => ?_
    cases (hdisjoint addr hfirst).symm.trans hsecond

/-- The active regions are non-empty and pairwise disjoint. -/
structure Separate (vmas : List VmaRegion) : Prop where
  nonempty : ∀ vma ∈ vmas, vma.active = true → vma.start < vma.stop
  disjoint : (vmas.filter (·.active)).Pairwise Disjoint

section
variable {vma other : VmaRegion} {vmas next before : List VmaRegion} {start stop prot addr : Nat}

lemma mem_filter_active_of_covers (hvma : vma ∈ vmas) (hcovers : vma.covers addr) :
    vma ∈ vmas.filter (·.active) :=
  List.mem_filter.mpr ⟨hvma, (covers_iff.mp hcovers).1⟩

lemma eq_of_covers (hdisjoint : (vmas.filter (·.active)).Pairwise Disjoint)
    (hvma : vma ∈ vmas) (hother : other ∈ vmas) (hcovers : vma.covers addr)
    (hcovers' : other.covers addr) : vma = other := by
  by_contra hne
  have hapart := hdisjoint.forall (mem_filter_active_of_covers hvma hcovers)
    (mem_filter_active_of_covers hother hcovers') hne addr hcovers
  cases hapart.symm.trans hcovers'

def Assigns (vmas : List VmaRegion) (addr prot : Nat) : Prop :=
  ∃ vma ∈ vmas, vma.covers addr = true ∧ vma.prot = prot

lemma assigns_filter : Assigns (vmas.filter (·.active)) addr prot ↔ Assigns vmas addr prot := by
  constructor
  · rintro ⟨vma, hvma, hcovers⟩
    exact ⟨vma, (List.mem_filter.mp hvma).1, hcovers⟩
  · rintro ⟨vma, hvma, hcovers⟩
    exact ⟨vma, mem_filter_active_of_covers hvma hcovers.1, hcovers⟩

lemma assigns_of_perm (hperm : (next.filter (·.active)).Perm vmas) :
    Assigns next addr prot ↔ Assigns vmas addr prot := by
  rw [← assigns_filter]
  simp [Assigns, hperm.mem_iff]

lemma assigns_of_lookup (hlookup : lookup vmas addr = some prot) : Assigns vmas addr prot := by
  obtain ⟨vma, hfind, rfl⟩ := map_eq_some_iff.mp hlookup
  have hcovers : vma.covers addr := by simpa using List.find?_some hfind
  exact ⟨vma, List.mem_of_find?_eq_some hfind, hcovers, rfl⟩

lemma exists_lookup_of_assigns (hassigns : Assigns vmas addr prot) :
    ∃ found, lookup vmas addr = some found := by
  obtain ⟨vma, hvma, hcovers, -⟩ := hassigns
  cases hfind : vmas.find? (·.covers addr) with
  | none => exact absurd hcovers (List.find?_eq_none.mp hfind vma hvma)
  | some found => exact ⟨found.prot, by rw [lookup, hfind, map_some]⟩

lemma lookup_of_assigns (hagree : ∀ vma ∈ vmas, vma.covers addr → vma.prot = prot)
    (hassigns : Assigns vmas addr prot) : lookup vmas addr = some prot := by
  obtain ⟨found, hfound⟩ := exists_lookup_of_assigns hassigns
  obtain ⟨vma, hvma, hcovers, rfl⟩ := assigns_of_lookup hfound
  rw [hfound, hagree vma hvma hcovers]

lemma Separate.lookup_eq_some (hsep : Separate vmas) :
    lookup vmas addr = some prot ↔ Assigns vmas addr prot := by
  refine ⟨assigns_of_lookup, fun hassigns => lookup_of_assigns ?_ hassigns⟩
  obtain ⟨vma, hvma, hcovers, rfl⟩ := hassigns
  intro other hother hcovers'
  rw [eq_of_covers hsep.disjoint hother hvma hcovers' hcovers]

lemma Separate.lookup_congr (hsep : Separate vmas) (hnext : Separate next)
    (hassigns : ∀ prot, Assigns next addr prot ↔ Assigns vmas addr prot) :
    lookup next addr = lookup vmas addr := by
  refine Option.ext fun prot => ?_
  rw [hnext.lookup_eq_some, hsep.lookup_eq_some, hassigns]

/-! ## What a successful cut leaves -/

lemma assigns_flatMap_cut : Assigns (vmas.flatMap (·.cut start stop)) addr prot ↔
    Assigns vmas addr prot ∧ ¬(start ≤ addr ∧ addr < stop) := by
  constructor
  · rintro ⟨piece, hpiece, hcovers, rfl⟩
    obtain ⟨vma, hvma, hcut⟩ := List.mem_flatMap.mp hpiece
    obtain ⟨hwhole, hout⟩ := exists_mem_cut_covers.mp ⟨piece, hcut, hcovers⟩
    exact ⟨⟨vma, hvma, hwhole, (prot_of_mem_cut hcut).symm⟩, hout⟩
  · rintro ⟨⟨vma, hvma, hcovers, rfl⟩, hout⟩
    obtain ⟨piece, hcut, hpiece⟩ := exists_mem_cut_covers.mpr ⟨hcovers, hout⟩
    exact ⟨piece, List.mem_flatMap.mpr ⟨vma, hvma, hcut⟩, hpiece, prot_of_mem_cut hcut⟩

section
variable (hsplit : (splitOverlappingVmas vmas start stop).2 = true)
include hsplit

lemma splitOverlappingVmas_perm : ((splitOverlappingVmas vmas start stop).1.filter (·.active)).Perm
      ((vmas.filter (·.active)).flatMap (·.cut start stop)) :=
  splitLoop_perm [] vmas hsplit

lemma assigns_split : Assigns (splitOverlappingVmas vmas start stop).1 addr prot ↔
    Assigns vmas addr prot ∧ ¬(start ≤ addr ∧ addr < stop) := by
  rw [assigns_of_perm (splitOverlappingVmas_perm hsplit), assigns_flatMap_cut, assigns_filter]

lemma overlaps_split (hvma : vma ∈ (splitOverlappingVmas vmas start stop).1) :
    vma.overlaps start stop = false := by
  cases hactive : vma.active with
  | false => simp [overlaps, hactive]
  | true =>
    have hmem := (splitOverlappingVmas_perm hsplit).mem_iff.mp (List.mem_filter.mpr ⟨hvma, hactive⟩)
    obtain ⟨whole, -, hcut⟩ := List.mem_flatMap.mp hmem
    exact overlaps_of_mem_cut hcut

end

lemma start_lt_stop_of_mem_cut {piece : VmaRegion} (hvma : vma.start < vma.stop)
    (hcut : piece ∈ vma.cut start stop) (hactive : piece.active) : piece.start < piece.stop := by
  have htrim : (vma.trim start stop).active →
      (vma.trim start stop).start < (vma.trim start stop).stop := by
    rw [trim]
    split_ifs with hoverlaps hleft hright
    · exact fun _ => hvma
    · exact fun _ => hleft
    · exact fun _ => hright
    · exact False.elim
  rw [cut] at hcut
  split_ifs at hcut with hstraddles
  · rcases List.mem_cons.mp hcut with rfl | hcut
    · exact htrim hactive
    · obtain rfl := List.mem_singleton.mp hcut
      exact (straddles_iff.mp hstraddles).2.2.2.2
  · cases hcut
  · obtain rfl := List.mem_singleton.mp hcut
    exact htrim hactive

lemma pairwise_cut (vma : VmaRegion) (hle : start ≤ stop) :
    (vma.cut start stop).Pairwise Disjoint := by
  rw [cut]
  split_ifs with hstraddles
  · refine List.pairwise_pair.mpr fun addr hlower => ?_
    refine Bool.eq_false_iff.mpr fun hupper => ?_
    have hlt := ((covers_trim_of_straddles hstraddles).mp hlower).2
    have hge := ((covers_upper hstraddles).mp hupper).2
    omega
  · exact .nil
  · exact List.pairwise_singleton _ _

lemma Separate.split (hsep : Separate vmas) (hle : start ≤ stop)
    (hsplit : (splitOverlappingVmas vmas start stop).2) :
    Separate (splitOverlappingVmas vmas start stop).1 := by
  have hperm := splitOverlappingVmas_perm hsplit
  refine ⟨fun piece hpiece hactive => ?_, ?_⟩
  · have hmem := hperm.mem_iff.mp (List.mem_filter.mpr ⟨hpiece, hactive⟩)
    obtain ⟨vma, hvma, hcut⟩ := List.mem_flatMap.mp hmem
    obtain ⟨hvma, hvma'⟩ := List.mem_filter.mp hvma
    exact start_lt_stop_of_mem_cut (hsep.nonempty vma hvma hvma') hcut hactive
  · rw [hperm.pairwise_iff fun h => Std.Symm.symm _ _ h, List.pairwise_flatMap]
    refine ⟨fun vma _ => pairwise_cut vma hle, hsep.disjoint.imp ?_⟩
    intro first second hdisjoint piece hpiece piece' hpiece' addr hcovers
    refine Bool.eq_false_iff.mpr fun hcovers' => ?_
    obtain ⟨hfirst, -⟩ := exists_mem_cut_covers.mp ⟨piece, hpiece, hcovers⟩
    obtain ⟨hsecond, -⟩ := exists_mem_cut_covers.mp ⟨piece', hpiece', hcovers'⟩
    cases (hdisjoint addr hfirst).symm.trans hsecond

lemma Separate.not_covers {rest : List VmaRegion} (hsep : Separate (before ++ vma :: rest))
    (hcovers : vma.covers addr) (hother : other ∈ before ++ rest) : other.covers addr = false := by
  refine Bool.eq_false_iff.mpr fun hcovers' => ?_
  have hpairs := hsep.disjoint
  rw [List.filter_append, List.filter_cons_of_pos (covers_iff.mp hcovers).1,
    List.pairwise_middle fun h => Std.Symm.symm _ _ h, List.pairwise_cons,
    ← List.filter_append] at hpairs
  have hdisjoint := hpairs.1 other (mem_filter_active_of_covers hother hcovers')
  cases (hdisjoint addr hcovers).symm.trans hcovers'

lemma Separate.not_overlaps_of_straddles {rest : List VmaRegion}
    (hsep : Separate (before ++ vma :: rest)) (hstraddles : vma.straddles start stop)
    (hother : other ∈ before ++ rest) : other.overlaps start stop = false := by
  refine Bool.eq_false_iff.mpr fun hoverlaps => ?_
  obtain ⟨hactive, hbelow, habove, hleft, hright⟩ := straddles_iff.mp hstraddles
  obtain ⟨hactive', hbelow', habove'⟩ := overlaps_iff.mp hoverlaps
  have hmem : other ∈ before ++ vma :: rest := by
    rcases List.mem_append.mp hother with hmem | hmem <;> simp [hmem]
  have hnonempty := hsep.nonempty other hmem hactive'
  -- the later of the two starts is in both regions
  have hcovers : vma.covers (max other.start start) := covers_iff.mpr ⟨hactive, by omega, by omega⟩
  have hcovers' : other.covers (max other.start start) :=
    covers_iff.mpr ⟨hactive', by omega, by omega⟩
  cases (hsep.not_covers hcovers hother).symm.trans hcovers'

lemma Separate.of_cons (hsep : Separate (vma :: vmas)) : Separate vmas where
  nonempty other hother := hsep.nonempty other (.tail _ hother)
  disjoint := hsep.disjoint.sublist ((List.sublist_cons_self vma vmas).filter _)

lemma Separate.freeAfter_isSome (hsep : Separate vmas) {free : Nat} (hfree : 0 < free) :
    (freeAfter start stop free vmas).isSome := by
  induction vmas generalizing free with
  | nil => rfl
  | cons vma rest ih =>
    obtain ⟨free, rfl⟩ := Nat.exists_eq_add_one.mpr hfree
    simp only [freeAfter]
    split_ifs with hstraddles
    · have hrest : ∀ other ∈ rest, other.overlaps start stop = false := fun other hother =>
        Separate.not_overlaps_of_straddles (show Separate ([] ++ vma :: rest) from hsep)
          hstraddles hother
      rw [freeAfter_of_not_overlaps hrest]
      rfl
    · exact ih hsep.of_cons (Nat.succ_pos _)
    · exact ih hsep.of_cons hfree

lemma split_eq_freeAfter (vmas : List VmaRegion) (start stop : Nat) :
    freeAfter start stop (inactive vmas) vmas = if (splitOverlappingVmas vmas start stop).2 then
        some (inactive (splitOverlappingVmas vmas start stop).1)
      else none :=
  freeAfter_splitLoop [] vmas

lemma split_isSome_iff : (splitOverlappingVmas vmas start stop).2 ↔
    (freeAfter start stop (inactive vmas) vmas).isSome := by
  rw [split_eq_freeAfter]
  cases (splitOverlappingVmas vmas start stop).2 <;> simp

/-! ## Adding a fixed range and removing one -/

lemma Separate.place (hsep : Separate vmas) (hlt : start < stop)
    (hfree : ∀ vma ∈ vmas, vma.overlaps start stop = false)
    (hplaced : Placed ⟨start, stop, prot, true⟩ vmas next) :
    Separate next ∧ ∀ addr, lookup next addr =
      if start ≤ addr ∧ addr < stop then some prot else lookup vmas addr := by
  have hperm := hplaced.filter_perm rfl
  have hnew : ∀ vma ∈ vmas.filter (·.active), Disjoint ⟨start, stop, prot, true⟩ vma := by
    intro vma hvma addr hcovers
    refine Bool.eq_false_iff.mpr fun hcovers' => ?_
    obtain ⟨-, hle, hlt⟩ := covers_iff.mp hcovers
    obtain ⟨hactive, hle', hlt'⟩ := covers_iff.mp hcovers'
    have hoverlaps := overlaps_iff.mpr ⟨hactive, hle'.trans_lt hlt, hle.trans_lt hlt'⟩
    exact Bool.noConfusion ((hfree vma (List.mem_filter.mp hvma).1).symm.trans hoverlaps)
  have hnext : Separate next := by
    refine ⟨fun vma hvma hactive => ?_, ?_⟩
    · rcases List.mem_cons.mp (hperm.mem_iff.mp (List.mem_filter.mpr ⟨hvma, hactive⟩)) with
        rfl | hmem
      · exact hlt
      · exact hsep.nonempty vma (List.mem_filter.mp hmem).1 hactive
    · rw [hperm.pairwise_iff fun h => Std.Symm.symm _ _ h, List.pairwise_cons]
      exact ⟨hnew, hsep.disjoint⟩
  have hassigns : ∀ addr found, Assigns next addr found ↔
      ((start ≤ addr ∧ addr < stop) ∧ prot = found) ∨ Assigns vmas addr found := by
    intro addr found
    rw [assigns_of_perm hperm, ← @assigns_filter vmas]
    simp [Assigns, covers_iff]
  refine ⟨hnext, fun addr => ?_⟩
  split
  next hin => exact hnext.lookup_eq_some.mpr ((hassigns addr prot).mpr (.inl ⟨hin, rfl⟩))
  next hout =>
    refine hsep.lookup_congr hnext fun found => ?_
    rw [hassigns]
    simp [hout]

end

namespace VmState

variable {state : VmState} {start stop prot : Nat}

lemma add_fixed_cases (state : VmState) (start stop prot : Nat) :
    ((splitOverlappingVmas state.vmas start stop).2 ∧ (state.add start stop prot true).1.vmas =
        (insertVma (splitOverlappingVmas state.vmas start stop).1 start stop prot).1 ∧
      (state.add start stop prot true).2 =
        (insertVma (splitOverlappingVmas state.vmas start stop).1 start stop prot).2) ∨
    ((splitOverlappingVmas state.vmas start stop).2 = false ∧
      (state.add start stop prot true).1.vmas = (splitOverlappingVmas state.vmas start stop).1 ∧
      (state.add start stop prot true).2 = false) := by
  cases hsplit : (splitOverlappingVmas state.vmas start stop).2 with
  | true => exact .inl ⟨rfl, by simp [add, hsplit], by simp [add, hsplit]⟩
  | false => exact .inr ⟨rfl, by simp [add, hsplit], by simp [add, hsplit]⟩

lemma placed_of_add (hlt : start < stop) (hadd : (state.add start stop prot true).2) :
    (splitOverlappingVmas state.vmas start stop).2 ∧
      Placed ⟨start, stop, prot, true⟩ (splitOverlappingVmas state.vmas start stop).1
        (state.add start stop prot true).1.vmas := by
  obtain ⟨hsplit, hvmas, hplaced⟩ | ⟨-, -, hfail⟩ := state.add_fixed_cases start stop prot
  · refine ⟨hsplit, ?_⟩
    obtain ⟨next, hinsert, hnext⟩ | ⟨hinsert, -⟩ :=
      insertVma_cases (splitOverlappingVmas state.vmas start stop).1 hlt prot
    · rwa [hvmas, hinsert]
    · rw [hplaced, hinsert] at hadd
      cases hadd
  · rw [hfail] at hadd
    cases hadd

lemma add_fixed_failed (hadd : (state.add start stop prot true).2 = false) :
    (state.add start stop prot true).1.vmas = (splitOverlappingVmas state.vmas start stop).1 ∧
      ((splitOverlappingVmas state.vmas start stop).2 = false ∨
        (splitOverlappingVmas state.vmas start stop).2 ∧ start < stop ∧
          inactive (splitOverlappingVmas state.vmas start stop).1 = 0) := by
  obtain ⟨hsplit, hvmas, hplaced⟩ | ⟨hsplit, hvmas, -⟩ := state.add_fixed_cases start stop prot
  · rcases Nat.lt_or_ge start stop with hlt | hge
    · obtain ⟨next, hinsert, -⟩ | ⟨hinsert, hfull⟩ :=
        insertVma_cases (splitOverlappingVmas state.vmas start stop).1 hlt prot
      · rw [hplaced, hinsert] at hadd
        cases hadd
      · exact ⟨by rw [hvmas, hinsert], .inr ⟨hsplit, hlt, inactive_eq_zero hfull⟩⟩
    · rw [hplaced, insertVma, if_pos hge] at hadd
      cases hadd
  · exact ⟨hvmas, .inl hsplit⟩

end VmState

namespace Registry

variable {registry : Registry} {root start stop : Nat} {state : VmState}

section
variable (hstate : registry.stateOf root = some state)
include hstate

lemma vmaQuery_eq_lookup (addr : Nat) : registry.vmaQuery root addr = lookup state.vmas addr := by
  rw [vmaQuery, hstate, bind_some, VmState.query, lookup]

lemma stateOf_vmaAdd (start stop prot : Nat) (mapFixed : Bool) :
    (registry.vmaAdd root start stop prot mapFixed).1.stateOf root =
        some (state.add start stop prot mapFixed).1 ∧
      (registry.vmaAdd root start stop prot mapFixed).2 =
        (state.add start stop prot mapFixed).2 := by
  rw [vmaAdd, stateOf_withState_self, hstate]
  exact ⟨rfl, rfl⟩

lemma stateOf_vmaRemoveRange (start stop : Nat) :
    (registry.vmaRemoveRange root start stop).stateOf root =
      some (state.removeRange start stop) := by
  rw [vmaRemoveRange, stateOf_withState_self, hstate]
  rfl

end

/-- Adding a fixed range and removing one edit the map of disjoint regions as expected. -/
structure EditsMap (registry : Registry) (root start stop : Nat) : Prop where
  added : ∀ prot, (registry.vmaAdd root start stop prot true).2 = true →
    (∃ next, (registry.vmaAdd root start stop prot true).1.stateOf root = some next ∧
      Separate next.vmas) ∧
    ∀ addr, (registry.vmaAdd root start stop prot true).1.vmaQuery root addr =
      if start ≤ addr ∧ addr < stop then some prot else registry.vmaQuery root addr
  removed : (∃ state, registry.stateOf root = some state ∧ ∃ vma ∈ state.vmas, vma.active = false) →
    (∃ next, (registry.vmaRemoveRange root start stop).stateOf root = some next ∧
      ∀ vma ∈ next.vmas, vma.overlaps start stop = false) ∧
    ∀ addr, ¬ (start ≤ addr ∧ addr < stop) →
      (registry.vmaRemoveRange root start stop).vmaQuery root addr = registry.vmaQuery root addr

lemma lookup_split (hsep : Separate state.vmas) (hle : start ≤ stop)
    (hsplit : (splitOverlappingVmas state.vmas start stop).2) {addr : Nat}
    (hout : ¬(start ≤ addr ∧ addr < stop)) :
    lookup (splitOverlappingVmas state.vmas start stop).1 addr = lookup state.vmas addr :=
  hsep.lookup_congr (hsep.split hle hsplit) fun prot => by
    rw [assigns_split hsplit, and_iff_left hout]

theorem vmaEdits_editMap (hstate : registry.stateOf root = some state) (hsep : Separate state.vmas)
    (hlt : start < stop) : registry.EditsMap root start stop := by
  refine ⟨fun prot hadd => ?_, ?_⟩
  · obtain ⟨hnext, hflag⟩ := stateOf_vmaAdd hstate start stop prot true
    rw [hflag] at hadd
    obtain ⟨hsplit, hplaced⟩ := VmState.placed_of_add hlt hadd
    obtain ⟨hseparate, hlookup⟩ := (hsep.split hlt.le hsplit).place hlt
      (fun vma hvma => overlaps_split hsplit hvma) hplaced
    refine ⟨⟨_, hnext, hseparate⟩, fun addr => ?_⟩
    rw [vmaQuery_eq_lookup hnext, vmaQuery_eq_lookup hstate, hlookup]
    split
    · rfl
    next hout => exact lookup_split hsep hlt.le hsplit hout
  · rintro ⟨state', hstate', vma, hvma, hinactive⟩
    cases hstate.symm.trans hstate'
    have hnext := stateOf_vmaRemoveRange hstate start stop
    have hsplit : (splitOverlappingVmas state.vmas start stop).2 = true :=
      split_isSome_iff.mpr (hsep.freeAfter_isSome
        (List.countP_pos_iff.mpr ⟨vma, hvma, by simp [hinactive]⟩))
    refine ⟨⟨_, hnext, fun vma hvma => overlaps_split hsplit hvma⟩, fun addr hout => ?_⟩
    rw [vmaQuery_eq_lookup hnext, vmaQuery_eq_lookup hstate]
    exact lookup_split hsep hlt.le hsplit hout

def oneRegion : VmState := ⟨⟨0x1000, 0x4000, 3, true⟩ :: List.replicate 1023 .empty, 0, 0⟩

lemma separate_oneRegion : Separate oneRegion.vmas := by
  have hfilter : oneRegion.vmas.filter (·.active) = [⟨0x1000, 0x4000, 3, true⟩] := by
    rw [oneRegion, List.filter_cons_of_pos rfl, List.filter_replicate_of_neg (by decide)]
  refine ⟨fun vma hvma hactive => ?_, ?_⟩
  · have hmem := List.mem_filter.mpr ⟨hvma, hactive⟩
    rw [hfilter, List.mem_singleton] at hmem
    subst hmem
    decide
  · rw [hfilter]
    exact List.pairwise_singleton _ _

theorem vmaEdits_editMap_oneRegion : (ofSlots [⟨7, true, oneRegion⟩]).EditsMap 7 0x2000 0x3000 :=
  vmaEdits_editMap (stateOf_ofSlots 7 oneRegion []) separate_oneRegion (by decide)

end Registry

end KarteOs.Mm

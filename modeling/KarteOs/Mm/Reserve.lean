import KarteOs.Mm.VmaSpec

/-! # Reservation of mmap addresses

`reserve_mmap_addr` starts at the bump pointer and jumps to the end of the
regions in its way until a range fits. Nothing that it jumps over would have
fit, so it finds the first fit, and every jump leaves a region behind, so it
ends.
-/

namespace KarteOs.Mm.VmState

open List Option

variable {state next : VmState} {len fuel start stop prot : Nat} {addr : Option Nat}

lemma mmapCandidate_pos (state : VmState) : 0 < state.mmapCandidate := by
  rw [mmapCandidate]
  split
  next hpos => exact hpos
  · decide

lemma Aligned.mmapCandidate (hstate : state.Aligned) : state.mmapCandidate % pageSize = 0 := by
  rw [VmState.mmapCandidate]
  split
  · exact hstate.next
  · decide

lemma overlaps_iff : state.overlaps start stop ↔ ∃ vma ∈ state.vmas, vma.overlaps start stop := by
  simp [overlaps]

lemma refused_iff (state : VmState) (len : Nat) :
    (Process.userMmapLimit < (checkedAdd state.mmapCandidate len).getD 0 ∨
      (checkedAdd state.mmapCandidate len).getD 0 = 0) ↔
      Process.userMmapLimit < state.mmapCandidate + len := by
  have hpos := state.mmapCandidate_pos
  rw [checkedAdd]
  split
  · simp only [getD_some]; omega
  next hover =>
    refine iff_of_true (.inr rfl) ?_
    simp only [usizeRange, Process.userMmapLimit] at hover ⊢
    omega

lemma checkedAdd_candidate (hfits : state.mmapCandidate + len ≤ Process.userMmapLimit) :
    checkedAdd state.mmapCandidate len = some (state.mmapCandidate + len) := by
  rw [checkedAdd, if_pos]
  simp only [Process.userMmapLimit, usizeRange] at *
  omega

lemma reserveLoop_of_limit (hlimit : Process.userMmapLimit < state.mmapCandidate + len) :
    reserveLoop len (fuel + 1) state = some (state, none) := by
  simp only [reserveLoop]
  rw [if_pos ((refused_iff state len).mpr hlimit)]

lemma reserveLoop_of_free (hfits : state.mmapCandidate + len ≤ Process.userMmapLimit)
    (hfree : state.overlaps state.mmapCandidate (state.mmapCandidate + len) = false) :
    reserveLoop len (fuel + 1) state =
      some ({ state with nextMmapAddr := state.mmapCandidate + len },
        some state.mmapCandidate) := by
  simp only [reserveLoop]
  rw [if_neg ((refused_iff state len).not.mpr hfits.not_gt), checkedAdd_candidate hfits]
  simp [getD_some, hfree]

lemma reserveLoop_of_conflict (fuel : Nat)
    (hfits : state.mmapCandidate + len ≤ Process.userMmapLimit)
    (hconflict : state.overlaps state.mmapCandidate (state.mmapCandidate + len)) :
    ∃ vma ∈ state.vmas, vma.overlaps state.mmapCandidate (state.mmapCandidate + len) ∧
      reserveLoop len (fuel + 1) state =
        reserveLoop len fuel { state with nextMmapAddr := wrappingAlignUp vma.stop } := by
  obtain ⟨first, hfirst, hoverlaps⟩ := overlaps_iff.mp hconflict
  cases hmax : ((state.vmas.filter fun vma => vma.overlaps state.mmapCandidate
      (state.mmapCandidate + len)).map (·.stop)).max? with
  | none =>
    rw [max?_eq_none_iff, map_eq_nil_iff, filter_eq_nil_iff] at hmax
    exact absurd hoverlaps (hmax first hfirst)
  | some stop =>
    obtain ⟨vma, hvma, rfl⟩ := List.mem_map.mp (max?_mem hmax)
    obtain ⟨hmem, hin⟩ := mem_filter.mp hvma
    refine ⟨vma, hmem, hin, ?_⟩
    simp only [reserveLoop]
    rw [if_neg ((refused_iff state len).not.mpr hfits.not_gt), checkedAdd_candidate hfits]
    simp [getD_some, hconflict, hmax]

lemma reserveLoop_cases (len fuel : Nat) (state : VmState) :
    (Process.userMmapLimit < state.mmapCandidate + len ∧
      reserveLoop len (fuel + 1) state = some (state, none)) ∨
    (state.mmapCandidate + len ≤ Process.userMmapLimit ∧
      state.overlaps state.mmapCandidate (state.mmapCandidate + len) = false ∧
      reserveLoop len (fuel + 1) state =
        some ({ state with nextMmapAddr := state.mmapCandidate + len }, some state.mmapCandidate)) ∨
    ∃ vma ∈ state.vmas, vma.overlaps state.mmapCandidate (state.mmapCandidate + len) ∧
      reserveLoop len (fuel + 1) state =
        reserveLoop len fuel { state with nextMmapAddr := wrappingAlignUp vma.stop } := by
  by_cases hlimit : Process.userMmapLimit < state.mmapCandidate + len
  · exact .inl ⟨hlimit, reserveLoop_of_limit hlimit⟩
  · have hfits := not_lt.mp hlimit
    cases hconflict : state.overlaps state.mmapCandidate (state.mmapCandidate + len) with
    | false => exact .inr (.inl ⟨hfits, rfl, reserveLoop_of_free hfits hconflict⟩)
    | true => exact .inr (.inr (reserveLoop_of_conflict fuel hfits hconflict))

/-! ## What a reservation does -/

/-- The regions stay as they are, and an address that is handed out starts a
range without regions below the limit. -/
structure Reserves (len : Nat) (state next : VmState) (addr : Option Nat) : Prop where
  vmas : next.vmas = state.vmas
  aligned : state.Aligned → len % pageSize = 0 →
    next.Aligned ∧ ∀ a, addr = some a → a % pageSize = 0

lemma reserveLoop_spec (hrun : reserveLoop len fuel state = some (next, addr)) :
    Reserves len state next addr := by
  induction fuel generalizing state with
  | zero => cases hrun
  | succ fuel ih =>
    obtain ⟨-, hround⟩ | ⟨-, -, hround⟩ | ⟨vma, -, -, hround⟩ := reserveLoop_cases len fuel state
    all_goals rw [hround] at hrun
    · cases hrun
      exact ⟨rfl, fun h _ => ⟨h, nofun⟩⟩
    · cases hrun
      refine ⟨rfl, fun hstate hlen => ⟨⟨?_, hstate.regions⟩, ?_⟩⟩
      · have hcandidate := hstate.mmapCandidate
        simp only [pageSize] at *
        omega
      · rintro a ha
        exact some.inj ha ▸ hstate.mmapCandidate
    · have hrest := ih hrun
      exact ⟨hrest.vmas, fun hstate => hrest.aligned ⟨wrappingAlignUp_mod _, hstate.regions⟩⟩

/-! ## First fit -/

def Fits (state : VmState) (len a : Nat) : Prop :=
  a + len ≤ Process.userMmapLimit ∧ state.overlaps a (a + len) = false

/-- The lowest range of the length that fits at or above the bump pointer. -/
structure FirstFit (state : VmState) (len a : Nat) : Prop where
  above : state.mmapCandidate ≤ a
  fits : state.Fits len a
  least : ∀ b, state.mmapCandidate ≤ b → state.Fits len b → a ≤ b

variable {vma : VmaRegion} {vmas : List VmaRegion}

section
variable (hstate : state.Aligned)
include hstate

lemma mmapCandidate_jump (hvma : vma ∈ state.vmas)
    (hoverlaps : vma.overlaps state.mmapCandidate (state.mmapCandidate + len)) :
    { state with nextMmapAddr := wrappingAlignUp vma.stop }.mmapCandidate = vma.stop := by
  obtain ⟨hactive, -, hlt⟩ := VmaRegion.overlaps_iff.mp hoverlaps
  have haligned := hstate.regions vma hvma hactive
  rw [wrappingAlignUp_eq_self haligned.stop_mod haligned.stop_lt]
  exact if_pos (Nat.zero_lt_of_lt hlt)

lemma firstFit_jump (hvma : vma ∈ state.vmas)
    (hoverlaps : vma.overlaps state.mmapCandidate (state.mmapCandidate + len)) (a : Nat) :
    { state with nextMmapAddr := wrappingAlignUp vma.stop }.FirstFit len a ↔
      state.FirstFit len a := by
  obtain ⟨hactive, hbelow, habove⟩ := VmaRegion.overlaps_iff.mp hoverlaps
  have hcandidate := mmapCandidate_jump hstate hvma hoverlaps
  have hjump : ∀ b, state.mmapCandidate ≤ b → state.Fits len b → vma.stop ≤ b := by
    intro b hle hfits
    by_contra hlt
    have hin : state.overlaps b (b + len) :=
      overlaps_iff.mpr ⟨vma, hvma, VmaRegion.overlaps_iff.mpr ⟨hactive, by omega, by omega⟩⟩
    rw [hfits.2] at hin
    cases hin
  constructor
  · intro hfirst
    have hle := hfirst.above
    rw [hcandidate] at hle
    refine ⟨by omega, hfirst.fits, fun b hb hfits => hfirst.least b ?_ hfits⟩
    rw [hcandidate]
    exact hjump b hb hfits
  · intro hfirst
    refine ⟨?_, hfirst.fits, fun b hb hfits => hfirst.least b ?_ hfits⟩
    · rw [hcandidate]
      exact hjump a hfirst.above hfirst.fits
    · rw [hcandidate] at hb
      omega

lemma reserveLoop_firstFit (hrun : reserveLoop len fuel state = some (next, addr)) (a : Nat) :
    addr = some a ↔ state.FirstFit len a := by
  induction fuel generalizing state with
  | zero => cases hrun
  | succ fuel ih =>
    obtain ⟨hlimit, hround⟩ | ⟨hfits, hfree, hround⟩ | ⟨vma, hvma, hoverlaps, hround⟩ :=
      reserveLoop_cases len fuel state
    all_goals rw [hround] at hrun
    · cases hrun
      refine iff_of_false nofun fun hfirst => ?_
      have hle := hfirst.fits.1
      have habove := hfirst.above
      omega
    · cases hrun
      rw [some.injEq]
      constructor
      · rintro rfl
        exact ⟨le_rfl, ⟨hfits, hfree⟩, fun b hb _ => hb⟩
      · intro hfirst
        exact le_antisymm hfirst.above (hfirst.least _ le_rfl ⟨hfits, hfree⟩)
    · rw [← firstFit_jump hstate hvma hoverlaps]
      exact ih ⟨wrappingAlignUp_mod _, hstate.regions⟩ hrun

end

/-! ## The loop ends -/

def regionsAbove (state : VmState) (addr : Nat) : List VmaRegion :=
  state.vmas.filter fun vma => vma.active && decide (addr < vma.stop)

lemma regionsAbove_jump (hvma : vma ∈ state.vmas)
    (hoverlaps : vma.overlaps state.mmapCandidate (state.mmapCandidate + len)) :
    (state.regionsAbove vma.stop).length < (state.regionsAbove state.mmapCandidate).length := by
  obtain ⟨hactive, -, hlt⟩ := VmaRegion.overlaps_iff.mp hoverlaps
  have hfilter : state.regionsAbove vma.stop =
      (state.regionsAbove state.mmapCandidate).filter fun other =>
        decide (vma.stop < other.stop) := by
    rw [regionsAbove, regionsAbove, List.filter_filter]
    refine filter_congr fun other _ => ?_
    rw [Bool.eq_iff_iff]
    simp only [Bool.and_eq_true, decide_eq_true_eq]
    constructor
    · exact fun ⟨hother, hstop⟩ => ⟨hstop, hother, by omega⟩
    · exact fun ⟨hstop, hother, _⟩ => ⟨hother, hstop⟩
  rw [hfilter, length_filter_lt_length_iff_exists]
  exact ⟨vma, mem_filter.mpr ⟨hvma, by simpa [hactive] using hlt⟩, by simp⟩

lemma reserveLoop_total (hstate : state.Aligned)
    (hfuel : (state.regionsAbove state.mmapCandidate).length < fuel) :
    ∃ result, reserveLoop len fuel state = some result := by
  induction fuel generalizing state with
  | zero => omega
  | succ fuel ih =>
    obtain ⟨-, hround⟩ | ⟨-, -, hround⟩ | ⟨vma, hvma, hoverlaps, hround⟩ :=
      reserveLoop_cases len fuel state
    · exact ⟨_, hround⟩
    · exact ⟨_, hround⟩
    · rw [hround]
      refine ih ⟨wrappingAlignUp_mod _, hstate.regions⟩ ?_
      rw [mmapCandidate_jump hstate hvma hoverlaps]
      exact (regionsAbove_jump hvma hoverlaps).trans_le (by omega)

lemma reserveMmapAddr_total (hstate : state.Aligned) (len : Nat) :
    ∃ result, state.reserveMmapAddr len = some result :=
  reserveLoop_total hstate (Nat.lt_succ_of_le (length_filter_le ..))

/-! ## Entering a range that fits -/

lemma splitLoop_of_free (hfree : ∀ vma ∈ vmas, vma.overlaps start stop = false)
    (remaining i : Nat) : splitLoop start stop remaining i vmas = (vmas, true) := by
  induction remaining generalizing i with
  | zero => rfl
  | succ remaining ih =>
    have hentry : (vmas.getD i .empty).overlaps start stop = false := by
      cases hactive : (vmas.getD i .empty).active with
      | true => exact hfree _ (getD_mem hactive)
      | false => rw [VmaRegion.overlaps, hactive, Bool.false_and, Bool.false_and]
    rw [splitLoop, hentry]
    exact ih (i + 1)

lemma insertVma_placed_iff : (insertVma vmas start stop prot).2 ↔
    stop ≤ start ∨ ∃ vma ∈ vmas, vma.active = false := by
  rw [insertVma]
  split
  next hempty => exact iff_of_true rfl (.inl hempty)
  next hnonempty =>
    split
    next next hupdate =>
      obtain ⟨before, old, after, rfl, -, hold, -⟩ := FirstMatch.updateFirst_eq_some hupdate
      exact iff_of_true rfl (.inr ⟨old, by simp, by simpa using hold⟩)
    next hnone =>
      refine iff_of_false Bool.false_ne_true ?_
      rintro (hempty | ⟨vma, hvma, hinactive⟩)
      · exact hnonempty hempty
      · have hactive := FirstMatch.updateFirst_eq_none hnone vma hvma
        simp [hinactive] at hactive

lemma add_placed_iff {mapFixed : Bool} (hfree : state.overlaps start stop = false) :
    (state.add start stop prot mapFixed).2 ↔
      stop ≤ start ∨ ∃ vma ∈ state.vmas, vma.active = false := by
  have hnone : ∀ vma ∈ state.vmas, vma.overlaps start stop = false := by
    intro vma hvma
    by_contra hoverlaps
    have hany := overlaps_iff.mpr ⟨vma, hvma, Bool.eq_true_of_not_eq_false hoverlaps⟩
    rw [hfree] at hany
    cases hany
  have hsplit : (if mapFixed then splitOverlappingVmas state.vmas start stop
      else (state.vmas, true)) = (state.vmas, true) := by
    split
    exacts [splitLoop_of_free hnone .., rfl]
  simp only [add, hsplit, if_true]
  exact insertVma_placed_iff

end KarteOs.Mm.VmState

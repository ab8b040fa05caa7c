import KarteOs.Mm.VmaSpec

/-! # Cutting a range out of the table

`split_overlapping_vmas` visits the entries in order. An entry is trimmed in
place; a region around the range also leaves an upper part, which goes to the
first inactive entry. The loop stops at the first upper part that finds none.
What it does to the regions, to the inactive entries and to the lookups is
derived from one induction over its rounds.
-/

namespace KarteOs.Mm

open FirstMatch VmaRegion List

namespace VmaRegion

variable {vma : VmaRegion} {start stop addr : Nat}

section
variable (vma : VmaRegion)

def straddles (start stop : Nat) : Bool :=
  vma.overlaps start stop && decide (vma.start < start ∧ stop < vma.stop)

/-- The region meets `[start, stop)` and reaches beyond it on neither side. -/
def inside (start stop : Nat) : Bool :=
  vma.overlaps start stop && decide (start ≤ vma.start ∧ vma.stop ≤ stop)

def trim (start stop : Nat) : VmaRegion :=
  if !vma.overlaps start stop then vma
  else if vma.start < start then { vma with stop := start }
  else if stop < vma.stop then { vma with start := stop }
  else { vma with active := false }

def upper (stop : Nat) : VmaRegion := ⟨stop, vma.stop, vma.prot, true⟩

def cut (start stop : Nat) : List VmaRegion :=
  if vma.straddles start stop then [vma.trim start stop, vma.upper stop]
  else if vma.inside start stop then []
  else [vma.trim start stop]

end

lemma straddles_iff : vma.straddles start stop ↔
    vma.active ∧ vma.start < stop ∧ start < vma.stop ∧ vma.start < start ∧ stop < vma.stop := by
  simp [straddles, overlaps_iff, and_assoc]

lemma inside_iff : vma.inside start stop ↔
    vma.active ∧ vma.start < stop ∧ start < vma.stop ∧ start ≤ vma.start ∧ vma.stop ≤ stop := by
  simp [inside, overlaps_iff, and_assoc]

lemma trim_of_not_overlaps (h : vma.overlaps start stop = false) : vma.trim start stop = vma := by
  rw [trim, h, Bool.not_false, if_pos rfl]

section
variable (vma : VmaRegion)

lemma trim_prot (start stop : Nat) : (vma.trim start stop).prot = vma.prot := by
  rw [trim]
  split_ifs <;> rfl

lemma trim_active (start stop : Nat) :
    (vma.trim start stop).active = (vma.active && !vma.inside start stop) := by
  cases hoverlaps : vma.overlaps start stop with
  | false => rw [trim_of_not_overlaps hoverlaps, inside, hoverlaps, Bool.false_and, Bool.not_false,
      Bool.and_true]
  | true =>
    simp only [trim, inside, hoverlaps, Bool.true_and, Bool.not_true, Bool.false_eq_true, if_false]
    split_ifs with hleft hright
    · simp [Nat.not_le.mpr hleft]
    · simp [Nat.not_le.mpr hright]
    · simp [not_lt.mp hleft, not_lt.mp hright]

lemma overlaps_trim (start stop : Nat) : (vma.trim start stop).overlaps start stop = false := by
  cases hoverlaps : vma.overlaps start stop with
  | false => rw [trim_of_not_overlaps hoverlaps, hoverlaps]
  | true =>
    simp only [trim, hoverlaps, Bool.not_true, Bool.false_eq_true, if_false]
    split_ifs <;> simp [overlaps]

lemma overlaps_upper (start stop : Nat) : (vma.upper stop).overlaps start stop = false := by
  simp [upper, overlaps]

end

lemma covers_trim_of_straddles (h : vma.straddles start stop) :
    (vma.trim start stop).covers addr ↔ vma.covers addr ∧ addr < start := by
  obtain ⟨hactive, -, habove, hleft, -⟩ := straddles_iff.mp h
  simp only [trim, (Bool.and_eq_true_iff.mp h).1, Bool.not_true, Bool.false_eq_true, if_false,
    if_pos hleft, covers_iff, hactive, true_and]
  omega

lemma covers_upper (h : vma.straddles start stop) :
    (vma.upper stop).covers addr ↔ vma.covers addr ∧ stop ≤ addr := by
  obtain ⟨hactive, hbelow, -, -, -⟩ := straddles_iff.mp h
  simp only [upper, covers_iff, hactive, true_and]
  omega

lemma covers_trim (h : vma.straddles start stop = false) :
    (vma.trim start stop).covers addr ↔ vma.covers addr ∧ ¬(start ≤ addr ∧ addr < stop) := by
  cases hoverlaps : vma.overlaps start stop with
  | false =>
    rw [trim_of_not_overlaps hoverlaps, iff_self_and]
    rintro hcovers ⟨hle, hlt⟩
    obtain ⟨hactive, hstart, hstop⟩ := covers_iff.mp hcovers
    have hmeets := overlaps_iff.mpr ⟨hactive, hstart.trans_lt hlt, hle.trans_lt hstop⟩
    cases hoverlaps.symm.trans hmeets
  | true =>
    obtain ⟨hactive, hbelow, habove⟩ := overlaps_iff.mp hoverlaps
    have hone : ¬(vma.start < start ∧ stop < vma.stop) := fun hboth =>
      Bool.noConfusion (h.symm.trans (straddles_iff.mpr ⟨hactive, hbelow, habove, hboth⟩))
    simp only [trim, hoverlaps, Bool.not_true, Bool.false_eq_true, if_false]
    split_ifs with hleft hright
    all_goals
      simp only [covers_iff, hactive, true_and, Bool.false_eq_true, false_and, false_iff]
      omega

lemma exists_mem_cut_covers : (∃ piece ∈ vma.cut start stop, piece.covers addr) ↔
    vma.covers addr ∧ ¬(start ≤ addr ∧ addr < stop) := by
  rw [cut]
  split_ifs with hstraddles hinside
  · simp only [mem_cons, not_mem_nil, or_false, exists_eq_or_imp, exists_eq_left,
      covers_trim_of_straddles hstraddles, covers_upper hstraddles, ← and_or_left]
    exact and_congr_right fun _ => by omega
  · simp only [not_mem_nil, false_and, exists_false, false_iff, covers_iff]
    have hbounds := inside_iff.mp hinside
    omega
  · simp only [mem_singleton, exists_eq_left]
    exact covers_trim (Bool.eq_false_iff.mpr hstraddles)

lemma cut_of_not_overlaps (h : vma.overlaps start stop = false) : vma.cut start stop = [vma] := by
  simp [cut, straddles, inside, h, trim_of_not_overlaps h]

variable {piece : VmaRegion} (hpiece : piece ∈ vma.cut start stop)
include hpiece

lemma eq_of_mem_cut : piece = vma.trim start stop ∨ piece = vma.upper stop := by
  rw [cut] at hpiece
  split_ifs at hpiece
  · simpa using hpiece
  · cases hpiece
  · exact .inl (mem_singleton.mp hpiece)

lemma overlaps_of_mem_cut : piece.overlaps start stop = false := by
  obtain rfl | rfl := eq_of_mem_cut hpiece
  · exact overlaps_trim vma start stop
  · exact overlaps_upper vma start stop

lemma prot_of_mem_cut : piece.prot = vma.prot := by
  obtain rfl | rfl := eq_of_mem_cut hpiece
  · exact trim_prot vma start stop
  · rfl

end VmaRegion

def Placed (vma : VmaRegion) (vmas next : List VmaRegion) : Prop :=
  ∃ before old after, vmas = before ++ old :: after ∧ old.active = false ∧
    next = before ++ vma :: after

section
variable {vma : VmaRegion} {vmas next first second : List VmaRegion} {start stop prot : Nat}

lemma Placed.length_eq (h : Placed vma vmas next) : next.length = vmas.length := by
  obtain ⟨before, old, after, rfl, -, rfl⟩ := h
  simp

lemma Placed.filter_perm (h : Placed vma vmas next) (hactive : vma.active) :
    (next.filter (·.active)).Perm (vma :: vmas.filter (·.active)) := by
  obtain ⟨before, old, after, rfl, hold, rfl⟩ := h
  simp only [filter_append, filter_cons, hactive, hold, if_true, Bool.false_eq_true, if_false]
  exact perm_middle

lemma Placed.split (h : Placed vma (first ++ second) next) :
    (∃ first', Placed vma first first' ∧ next = first' ++ second) ∨
      ∃ second', Placed vma second second' ∧ next = first ++ second' := by
  obtain ⟨before, old, after, heq, hold, rfl⟩ := h
  rcases append_eq_append_iff.mp heq with ⟨mid, rfl, hsecond⟩ | ⟨mid, rfl, hmid⟩
  · exact .inr ⟨mid ++ vma :: after, ⟨mid, old, after, hsecond, hold, rfl⟩, by simp⟩
  · cases mid with
    | nil =>
      exact .inr ⟨vma :: after, ⟨[], old, after, by simpa using hmid.symm, hold, rfl⟩, by simp⟩
    | cons x mid =>
      obtain ⟨rfl, rfl⟩ := cons.inj hmid
      exact .inl ⟨before ++ vma :: mid, ⟨before, old, mid, rfl, hold, rfl⟩, by simp⟩

lemma Placed.append {first' second' : List VmaRegion}
    (h : Placed vma first first' ∧ second' = second ∨ first' = first ∧ Placed vma second second') :
    Placed vma (first ++ second) (first' ++ second') := by
  obtain ⟨⟨before, old, after, rfl, hold, rfl⟩, rfl⟩ |
    ⟨rfl, before, old, after, rfl, hold, rfl⟩ := h
  · exact ⟨before, old, after ++ second', by simp, hold, by simp⟩
  · exact ⟨first' ++ before, old, after, by simp, hold, by simp⟩

lemma insertVma_cases (vmas : List VmaRegion) (hlt : start < stop) (prot : Nat) :
    (∃ next, insertVma vmas start stop prot = (next, true) ∧
      Placed ⟨start, stop, prot, true⟩ vmas next) ∨
    insertVma vmas start stop prot = (vmas, false) ∧ ∀ vma ∈ vmas, vma.active := by
  rw [insertVma, if_neg hlt.not_ge]
  split
  next next hupdate =>
    obtain ⟨before, old, after, rfl, rfl, hold, -⟩ := updateFirst_eq_some hupdate
    exact .inl ⟨_, rfl, before, old, after, rfl, by simpa using hold, rfl⟩
  next hupdate =>
    exact .inr ⟨rfl, fun vma hvma => by simpa using updateFirst_eq_none hupdate vma hvma⟩

end

variable {start stop : Nat}

lemma splitLoop_append (before : List VmaRegion) (vma : VmaRegion) (rest : List VmaRegion) :
    splitLoop start stop (rest.length + 1) before.length (before ++ vma :: rest) =
      if vma.straddles start stop then
        let placed := insertVma (before ++ vma.trim start stop :: rest) stop vma.stop vma.prot
        if placed.2 then splitLoop start stop rest.length (before.length + 1) placed.1
        else (placed.1, false)
      else
        splitLoop start stop rest.length (before.length + 1)
          (before ++ vma.trim start stop :: rest) := by
  have hget : (before ++ vma :: rest).getD before.length .empty = vma := by simp
  have hset : ∀ new, (before ++ vma :: rest).set before.length new = before ++ new :: rest := by
    simp
  simp only [splitLoop, hget, hset]
  cases hoverlaps : vma.overlaps start stop with
  | false => simp [straddles, hoverlaps, trim_of_not_overlaps hoverlaps]
  | true =>
    simp only [straddles, trim, hoverlaps, Bool.not_true, Bool.false_eq_true,
      if_false, Bool.true_and, decide_eq_true_eq]
    split_ifs <;> first | rfl | omega

lemma splitLoop_induction {motive : List VmaRegion → List VmaRegion → List VmaRegion × Bool → Prop}
    (done : ∀ before, motive before [] (before, true))
    (trim : ∀ before vma rest result, vma.straddles start stop = false →
      motive (before ++ [vma.trim start stop]) rest result → motive before (vma :: rest) result)
    (place : ∀ before vma rest before' rest' result, vma.straddles start stop →
      (Placed (vma.upper stop) (before ++ [vma.trim start stop]) before' ∧ rest' = rest ∨
      before' = before ++ [vma.trim start stop] ∧ Placed (vma.upper stop) rest rest') →
      motive before' rest' result → motive before (vma :: rest) result)
    (stuck : ∀ before vma rest, vma.straddles start stop →
      (∀ other ∈ before ++ vma :: rest, other.active) →
      motive before (vma :: rest) (before ++ vma.trim start stop :: rest, false))
    (before after : List VmaRegion) :
    motive before after (splitLoop start stop after.length before.length (before ++ after)) := by
  induction hlength : after.length generalizing before after with
  | zero =>
    obtain rfl := eq_nil_of_length_eq_zero hlength
    rw [splitLoop, append_nil]
    exact done before
  | succ remaining ih =>
    obtain ⟨vma, rest, rfl⟩ := exists_cons_of_length_eq_add_one hlength
    obtain rfl : rest.length = remaining := by simpa using hlength
    have htrimmed : before ++ vma.trim start stop :: rest =
        (before ++ [vma.trim start stop]) ++ rest := by simp
    have hcount : (before ++ [vma.trim start stop]).length = before.length + 1 := by simp
    rw [splitLoop_append]
    cases hstraddles : vma.straddles start stop with
    | false =>
      rw [if_neg Bool.false_ne_true, htrimmed, ← hcount]
      exact trim before vma rest _ hstraddles (ih _ rest rfl)
    | true =>
      obtain ⟨hactive, -, -, -, habove⟩ := straddles_iff.mp hstraddles
      rw [if_pos rfl]
      obtain ⟨next, hinsert, hplaced⟩ | ⟨hinsert, hfull⟩ :=
        insertVma_cases (before ++ vma.trim start stop :: rest) habove vma.prot
      · simp only [hinsert, if_true]
        rw [htrimmed] at hplaced
        -- the upper part goes to an entry that was visited or to one that comes later
        obtain ⟨before', hbefore, rfl⟩ | ⟨rest', hrest, rfl⟩ := hplaced.split
        · rw [← hcount, ← hbefore.length_eq]
          exact place before vma rest before' rest _ hstraddles (.inl ⟨hbefore, rfl⟩)
            (ih before' rest rfl)
        · rw [← hcount]
          exact place before vma rest _ rest' _ hstraddles (.inr ⟨rfl, hrest⟩)
            (ih _ rest' hrest.length_eq)
      · simp only [hinsert, Bool.false_eq_true, if_false]
        refine stuck before vma rest hstraddles fun other hother => ?_
        rcases mem_append.mp hother with hmem | hmem
        · exact hfull other (mem_append_left _ hmem)
        · rcases mem_cons.mp hmem with rfl | hmem
          · exact hactive
          · exact hfull other (mem_append_right _ (.tail _ hmem))

/-! ## Inactive entries -/

def inactive (vmas : List VmaRegion) : Nat := vmas.countP fun vma => !vma.active

/-- The inactive entries that are left after cutting `[start, stop)` out of the table: in the
order of the table, a region around the range takes one, if there is one, and a region inside
the range adds one. -/
def freeAfter (start stop : Nat) : Nat → List VmaRegion → Option Nat
  | free, [] => some free
  | free, vma :: rest =>
    if vma.straddles start stop then
      match free with
      | 0 => none
      | free + 1 => freeAfter start stop free rest
    else if vma.inside start stop then freeAfter start stop (free + 1) rest
    else freeAfter start stop free rest

section
variable {vma : VmaRegion} {vmas next first second : List VmaRegion} {start stop free : Nat}

lemma inactive_append : inactive (first ++ second) = inactive first + inactive second :=
  countP_append

lemma inactive_cons : inactive (vma :: vmas) = inactive vmas + if vma.active then 0 else 1 := by
  rw [inactive, countP_cons]
  cases vma.active <;> rfl

lemma inactive_eq_zero (hfull : ∀ vma ∈ vmas, vma.active) : inactive vmas = 0 :=
  countP_eq_zero.mpr fun vma hvma => by simp [hfull vma hvma]

lemma Placed.inactive_eq (h : Placed vma vmas next) (hactive : vma.active) :
    inactive vmas = inactive next + 1 := by
  obtain ⟨before, old, after, rfl, hold, rfl⟩ := h
  simp only [inactive_append, inactive_cons, hactive, hold, if_true, Bool.false_eq_true, if_false]
  omega

lemma freeAfter_of_not_overlaps (hfree : ∀ vma ∈ vmas, vma.overlaps start stop = false) :
    freeAfter start stop free vmas = some free := by
  induction vmas with
  | nil => rfl
  | cons vma rest ih =>
    have hvma := hfree vma (.head _)
    simp only [freeAfter, straddles, inside, hvma, Bool.false_and, Bool.false_eq_true, if_false]
    exact ih fun other hother => hfree other (.tail _ hother)

lemma Placed.freeAfter_eq (h : Placed vma vmas next) (hvma : vma.overlaps start stop = false) :
    freeAfter start stop free next = freeAfter start stop free vmas := by
  obtain ⟨before, old, after, rfl, hold, rfl⟩ := h
  have hinactive : old.overlaps start stop = false := by simp [overlaps, hold]
  induction before generalizing free with
  | nil => simp [freeAfter, straddles, inside, hvma, hinactive]
  | cons first rest ih =>
    simp only [cons_append, freeAfter]
    split_ifs
    · cases free with
      | zero => rfl
      | succ free => exact ih
    · exact ih
    · exact ih

lemma inactive_trim (before rest : List VmaRegion) (vma : VmaRegion) (start stop : Nat) :
    inactive (before ++ [vma.trim start stop] ++ rest) =
      inactive (before ++ vma :: rest) + if vma.inside start stop then 1 else 0 := by
  simp only [append_assoc, singleton_append, inactive_append, inactive_cons, trim_active]
  cases hinside : vma.inside start stop with
  | false => simp
  | true =>
    have hactive := (inside_iff.mp hinside).1
    simp [hactive, Nat.add_assoc]

lemma inside_of_straddles (hstraddles : vma.straddles start stop) :
    vma.inside start stop = false := by
  obtain ⟨-, -, -, hleft, -⟩ := straddles_iff.mp hstraddles
  refine Bool.eq_false_iff.mpr fun hinside => ?_
  obtain ⟨-, -, -, hle, -⟩ := inside_iff.mp hinside
  omega

lemma freeAfter_splitLoop (before after : List VmaRegion) :
    freeAfter start stop (inactive (before ++ after)) after =
      if (splitLoop start stop after.length before.length (before ++ after)).2 then
        some (inactive (splitLoop start stop after.length before.length (before ++ after)).1)
      else none := by
  refine splitLoop_induction (motive := fun before after result =>
    freeAfter start stop (inactive (before ++ after)) after =
      if result.2 then some (inactive result.1) else none) ?_ ?_ ?_ ?_ before after
  · intro before
    simp [freeAfter]
  · intro before vma rest result hstraddles ih
    rw [← ih, inactive_trim]
    simp only [freeAfter, hstraddles, Bool.false_eq_true, if_false]
    split_ifs
    · rfl
    · rfl
  · intro before vma rest before' rest' result hstraddles hplaced ih
    have htrim := inactive_trim before rest vma start stop
    rw [inside_of_straddles hstraddles, if_neg Bool.false_ne_true, Nat.add_zero] at htrim
    have hone : inactive (before ++ vma :: rest) = inactive (before' ++ rest') + 1 := by
      rw [← htrim]
      exact (Placed.append hplaced).inactive_eq rfl
    have hsame : freeAfter start stop (inactive (before' ++ rest')) rest' =
        freeAfter start stop (inactive (before' ++ rest')) rest := by
      obtain ⟨-, rfl⟩ | ⟨-, hrest⟩ := hplaced
      · rfl
      · exact hrest.freeAfter_eq (overlaps_upper vma start stop)
    rw [← ih, hsame, hone]
    simp [freeAfter, hstraddles]
  · intro before vma rest hstraddles hfull
    simp [freeAfter, hstraddles, inactive_eq_zero hfull]

end

lemma splitLoop_perm (before after : List VmaRegion)
    (hsplit : (splitLoop start stop after.length before.length (before ++ after)).2) :
    ((splitLoop start stop after.length before.length (before ++ after)).1.filter (·.active)).Perm
      (before.filter (·.active) ++ (after.filter (·.active)).flatMap (·.cut start stop)) := by
  refine splitLoop_induction (motive := fun before after result => result.2 →
    (result.1.filter (·.active)).Perm (before.filter (·.active) ++
      (after.filter (·.active)).flatMap (·.cut start stop))) ?_ ?_ ?_ ?_ before after hsplit
  · intro before _
    simp
  · intro before vma rest result hstraddles ih hresult
    refine (ih hresult).trans (Perm.of_eq ?_)
    rw [filter_append, append_assoc, filter_cons, filter_cons, filter_nil, trim_active]
    cases hactive : vma.active with
    | false => simp
    | true =>
      simp only [Bool.true_and, flatMap_cons, cut, hstraddles,
        Bool.false_eq_true, if_false, if_true]
      cases vma.inside start stop <;> simp
  · intro before vma rest before' rest' result hstraddles hplaced ih hresult
    refine (ih hresult).trans ?_
    have hactive := (straddles_iff.mp hstraddles).1
    have htrim : (vma.trim start stop).active := by
      rw [trim_active, hactive, inside_of_straddles hstraddles]
      rfl
    have hbefore : (before ++ [vma.trim start stop]).filter (·.active) =
        before.filter (·.active) ++ [vma.trim start stop] := by simp [htrim]
    have hpieces : before.filter (·.active) ++
        ((vma :: rest).filter (·.active)).flatMap (·.cut start stop) =
        (before ++ [vma.trim start stop]).filter (·.active) ++
          vma.upper stop :: (rest.filter (·.active)).flatMap (·.cut start stop) := by
      rw [hbefore, filter_cons_of_pos hactive, flatMap_cons, cut, if_pos hstraddles]
      simp
    rw [hpieces]
    obtain ⟨hplaced, rfl⟩ | ⟨rfl, hplaced⟩ := hplaced
    · exact ((hplaced.filter_perm rfl).append_right _).trans perm_middle.symm
    · refine Perm.append_left _ (((hplaced.filter_perm rfl).flatMap_right _).trans ?_)
      rw [flatMap_cons, cut_of_not_overlaps (overlaps_upper vma start stop), singleton_append]
  · intro before vma rest hstraddles hfull hresult
    cases hresult

variable {vma old : VmaRegion} {vmas next : List VmaRegion} {start stop addr : Nat}

def lookup (vmas : List VmaRegion) (addr : Nat) : Option Nat :=
  (vmas.find? (·.covers addr)).map (·.prot)

lemma lookup_replace (before rest : List VmaRegion) (hcovers : vma.covers addr = old.covers addr)
    (hprot : vma.prot = old.prot) :
    lookup (before ++ vma :: rest) addr = lookup (before ++ old :: rest) addr := by
  simp only [lookup, find?_append, find?_cons, hcovers]
  cases before.find? (·.covers addr) with
  | some found => rfl
  | none => cases old.covers addr <;> simp [hprot]

lemma Placed.lookup_eq (h : Placed vma vmas next) (hcovers : vma.covers addr = false) :
    lookup next addr = lookup vmas addr := by
  obtain ⟨before, old, after, rfl, hold, rfl⟩ := h
  have hinactive : old.covers addr = false := by simp [covers, hold]
  simp [lookup, find?_append, hcovers, hinactive]

lemma covers_trim_of_plain (haddr : ¬(start ≤ addr ∧ addr < stop))
    (hstraddles : vma.straddles start stop) (hplain : vma.covers addr → addr < stop) :
    (vma.trim start stop).covers addr = vma.covers addr ∧ (vma.upper stop).covers addr = false := by
  constructor
  · rw [Bool.eq_iff_iff, covers_trim_of_straddles hstraddles, and_iff_left_iff_imp]
    intro hcovers
    have hlt := hplain hcovers
    omega
  · refine Bool.eq_false_iff.mpr fun hcovers => ?_
    obtain ⟨hvma, hle⟩ := (covers_upper hstraddles).mp hcovers
    exact (hplain hvma).not_ge hle

lemma splitLoop_lookup (haddr : ¬(start ≤ addr ∧ addr < stop)) (before after : List VmaRegion)
    (hplain : ∀ vma ∈ after, vma.straddles start stop → vma.covers addr → addr < stop) :
    lookup (splitLoop start stop after.length before.length (before ++ after)).1 addr =
      lookup (before ++ after) addr := by
  refine splitLoop_induction (motive := fun before after result =>
    (∀ vma ∈ after, vma.straddles start stop → vma.covers addr → addr < stop) →
      lookup result.1 addr = lookup (before ++ after) addr) ?_ ?_ ?_ ?_ before after hplain
  · intro before _
    simp
  · intro before vma rest result hstraddles ih hplain
    rw [ih fun other hother => hplain other (.tail _ hother), append_assoc, singleton_append]
    refine lookup_replace before rest ?_ (trim_prot vma start stop)
    rw [Bool.eq_iff_iff, covers_trim hstraddles, and_iff_left haddr]
  · intro before vma rest before' rest' result hstraddles hplaced ih hplain
    obtain ⟨htrim, hupper⟩ :=
      covers_trim_of_plain haddr hstraddles (hplain vma (.head _) hstraddles)
    have hrest : ∀ other ∈ rest', other.straddles start stop → other.covers addr → addr < stop := by
      intro other hother hother' hcovers
      obtain ⟨-, rfl⟩ | ⟨-, before, old, after, rfl, -, rfl⟩ := hplaced
      · exact hplain other (.tail _ hother) hother' hcovers
      · rcases mem_append.mp hother with hmem | hmem
        · exact hplain other (by simp [hmem]) hother' hcovers
        · rcases mem_cons.mp hmem with rfl | hmem
          · cases hupper.symm.trans hcovers
          · exact hplain other (by simp [hmem]) hother' hcovers
    rw [ih hrest, (Placed.append hplaced).lookup_eq hupper, append_assoc, singleton_append]
    exact lookup_replace before rest htrim (trim_prot vma start stop)
  · intro before vma rest hstraddles _ hplain
    obtain ⟨htrim, -⟩ := covers_trim_of_plain haddr hstraddles (hplain vma (.head _) hstraddles)
    exact lookup_replace before rest htrim (trim_prot vma start stop)

end KarteOs.Mm

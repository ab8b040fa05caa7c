import Mathlib.Order.Lattice

/-! # Tables of range locks

A table is a list of entries, each a shared or an exclusive lock of one owner on
a half-open range. It stands for a map from owners and offsets to the strongest
lock held there. The lemmas say when appending an entry, or dropping whole
entries, changes that map on the range asked for and nowhere else.
-/

namespace RangeLock

open List Option

inductive Kind
  | shared
  | exclusive
deriving DecidableEq

/-- Two locks of different owners on one offset exclude each other. -/
def Clash (first second : Kind) : Prop := first = .exclusive ∨ second = .exclusive
deriving Decidable

structure Entry (Owner Offset : Type*) where
  owner : Owner
  kind : Kind
  start : Offset
  stop : Offset
deriving DecidableEq

section
variable {Owner Offset : Type*} {offset : Offset}

/-- What each owner holds at each offset. -/
abbrev LockMap (Owner Offset : Type*) := Owner → Offset → Option Kind

/-- Another owner holds, somewhere in the range, a lock that excludes this kind. -/
def Blocked (map : LockMap Owner Offset) (owner : Owner) (kind : Kind)
    (range : Offset → Prop) : Prop :=
  ∃ other offset held, other ≠ owner ∧ range offset ∧ map other offset = some held ∧ Clash held kind

variable (map : LockMap Owner Offset)

open Classical in
/-- The owner's part of the map is set on the range and kept elsewhere. -/
noncomputable def assign (owner : Owner) (value : Option Kind)
    (range : Offset → Prop) : LockMap Owner Offset := fun other offset =>
  if other = owner ∧ range offset then value else map other offset

lemma assign_self (owner : Owner) (value : Option Kind) {range : Offset → Prop}
    (hoffset : range offset) : assign map owner value range owner offset = value :=
  if_pos ⟨rfl, hoffset⟩

lemma assign_of_not {owner other : Owner} (value : Option Kind) {range : Offset → Prop}
    (houtside : ¬(other = owner ∧ range offset)) :
    assign map owner value range other offset = map other offset :=
  if_neg houtside

end

variable {Owner Offset : Type*} [LinearOrder Offset]

/-- The half-open range between two offsets. -/
def Within (start stop offset : Offset) : Prop := start ≤ offset ∧ offset < stop
deriving Decidable

namespace Entry

def Covers (entry : Entry Owner Offset) : Offset → Prop := Within entry.start entry.stop

instance (entry : Entry Owner Offset) (offset : Offset) : Decidable (entry.Covers offset) :=
  inferInstanceAs (Decidable (Within _ _ _))

/-- The test on the end points: each range starts before the other one stops. -/
def Overlaps (entry : Entry Owner Offset) (start stop : Offset) : Prop :=
  entry.start < stop ∧ start < entry.stop
deriving Decidable

lemma overlaps_iff_exists {entry : Entry Owner Offset} {start stop : Offset}
    (hentry : entry.start < entry.stop) (hrange : start < stop) :
    entry.Overlaps start stop ↔ ∃ offset, entry.Covers offset ∧ Within start stop offset := by
  constructor
  · rintro ⟨hstart, hstop⟩
    exact ⟨max entry.start start, ⟨le_max_left .., max_lt hentry hstop⟩,
      le_max_right .., max_lt hstart hrange⟩
  · rintro ⟨offset, ⟨hle, hlt⟩, hstart, hstop⟩
    exact ⟨hle.trans_lt hstop, hstart.trans_lt hlt⟩

end Entry

variable [DecidableEq Owner]

/-- The strongest lock of the owner whose range covers the offset. -/
def held (entries : List (Entry Owner Offset)) : LockMap Owner Offset := fun owner offset =>
  if ∃ entry ∈ entries, entry.owner = owner ∧ entry.Covers offset ∧ entry.kind = .exclusive then
    some .exclusive
  else if ∃ entry ∈ entries, entry.owner = owner ∧ entry.Covers offset then some .shared
  else none

variable {entries : List (Entry Owner Offset)} {owner : Owner} {offset : Offset} {kind : Kind}

lemma held_eq_exclusive_iff : held entries owner offset = some .exclusive ↔
    ∃ entry ∈ entries, entry.owner = owner ∧ entry.Covers offset ∧ entry.kind = .exclusive := by
  unfold held
  split
  next hexclusive => exact iff_of_true rfl hexclusive
  next hexclusive =>
    refine iff_of_false ?_ hexclusive
    split <;> simp

lemma held_eq_none_iff : held entries owner offset = none ↔
    ∀ entry ∈ entries, entry.owner = owner → ¬entry.Covers offset := by
  unfold held
  split
  next hexclusive =>
    obtain ⟨entry, hmem, howner, hcovers, _⟩ := hexclusive
    exact iff_of_false (some_ne_none _) fun hnone => hnone entry hmem howner hcovers
  · split
    next hcovered =>
      obtain ⟨entry, hmem, howner, hcovers⟩ := hcovered
      exact iff_of_false (some_ne_none _) fun hnone => hnone entry hmem howner hcovers
    next hcovered =>
      exact iff_of_true rfl fun entry hmem howner hcovers => hcovered ⟨entry, hmem, howner, hcovers⟩

lemma held_congr {first second : List (Entry Owner Offset)}
    (hexclusive : held first owner offset = some .exclusive ↔
      held second owner offset = some .exclusive)
    (hnone : held first owner offset = none ↔ held second owner offset = none) :
    held first owner offset = held second owner offset := by
  rcases hfirst : held first owner offset with _ | _ | _
  · exact (hnone.mp hfirst).symm
  · rcases hsecond : held second owner offset with _ | _ | _
    · rw [hnone.mpr hsecond] at hfirst
      cases hfirst
    · rfl
    · rw [hexclusive.mpr hsecond] at hfirst
      cases hfirst
  · exact (hexclusive.mp hfirst).symm

lemma exists_held_of_mem {entry : Entry Owner Offset} (hmem : entry ∈ entries)
    (hcovers : entry.Covers offset) : ∃ kind, held entries entry.owner offset = some kind ∧
      (entry.kind = .exclusive → kind = .exclusive) := by
  rcases hheld : held entries entry.owner offset with _ | kind
  · exact absurd hcovers (held_eq_none_iff.mp hheld entry hmem rfl)
  · refine ⟨kind, rfl, fun hkind => ?_⟩
    rw [held_eq_exclusive_iff.mpr ⟨entry, hmem, rfl, hcovers, hkind⟩] at hheld
    exact (some.inj hheld).symm

lemma exists_mem_of_held (hheld : held entries owner offset = some kind) :
    ∃ entry ∈ entries, entry.owner = owner ∧ entry.Covers offset ∧ entry.kind = kind := by
  cases kind with
  | exclusive => exact held_eq_exclusive_iff.mp hheld
  | shared =>
    have hcovered : ¬held entries owner offset = none := by simp [hheld]
    rw [held_eq_none_iff] at hcovered
    push Not at hcovered
    obtain ⟨entry, hmem, howner, hcovers⟩ := hcovered
    refine ⟨entry, hmem, howner, hcovers, ?_⟩
    cases hkind : entry.kind with
    | shared => rfl
    | exclusive =>
      rw [held_eq_exclusive_iff.mpr ⟨entry, hmem, howner, hcovers, hkind⟩] at hheld
      cases hheld

lemma blocked_held_iff {range : Offset → Prop} : Blocked (held entries) owner kind range ↔
    ∃ entry ∈ entries, entry.owner ≠ owner ∧ (∃ offset, entry.Covers offset ∧ range offset) ∧
      Clash entry.kind kind := by
  constructor
  · rintro ⟨other, offset, strength, hother, hrange, hheld, hclash⟩
    obtain ⟨entry, hmem, rfl, hcovers, rfl⟩ := exists_mem_of_held hheld
    exact ⟨entry, hmem, hother, ⟨offset, hcovers, hrange⟩, hclash⟩
  · rintro ⟨entry, hmem, hother, ⟨offset, hcovers, hrange⟩, hclash⟩
    obtain ⟨strength, hheld, hstrength⟩ := exists_held_of_mem hmem hcovers
    exact ⟨entry.owner, offset, strength, hother, hrange, hheld, hclash.imp_left hstrength⟩

section
variable {entry : Entry Owner Offset}

lemma held_append_of_not (houtside : ¬(owner = entry.owner ∧ entry.Covers offset)) :
    held (entries ++ [entry]) owner offset = held entries owner offset := by
  refine held_congr ?_ ?_
  · simp only [held_eq_exclusive_iff, mem_append, mem_singleton]
    grind
  · simp only [held_eq_none_iff, mem_append, mem_singleton]
    grind

lemma held_append_shared (hcovers : entry.Covers offset) (hkind : entry.kind = .shared) :
    held (entries ++ [entry]) entry.owner offset = some .shared ↔
      held entries entry.owner offset ≠ some .exclusive := by
  have hsome : held (entries ++ [entry]) entry.owner offset ≠ none := by
    intro hnone
    exact held_eq_none_iff.mp hnone entry (by simp) rfl hcovers
  have hexclusive : held (entries ++ [entry]) entry.owner offset = some .exclusive ↔
      held entries entry.owner offset = some .exclusive := by
    simp only [held_eq_exclusive_iff, mem_append, mem_singleton]
    constructor
    · rintro ⟨found, hmem | rfl, hfound⟩
      · exact ⟨found, hmem, hfound⟩
      · rw [hkind] at hfound
        cases hfound.2.2
    · rintro ⟨found, hmem, hfound⟩
      exact ⟨found, .inl hmem, hfound⟩
  rcases hheld : held (entries ++ [entry]) entry.owner offset with _ | _ | _
  · exact absurd hheld hsome
  · refine iff_of_true rfl fun hbefore => ?_
    rw [hexclusive.mpr hbefore] at hheld
    cases hheld
  · exact iff_of_false (by simp) fun hbefore => hbefore (hexclusive.mp hheld)

/-- Appending an entry is an assignment unless it is shared and the owner holds
an exclusive lock somewhere in its range, which stays. -/
lemma held_append_eq_assign_iff : held (entries ++ [entry]) =
      assign (held entries) entry.owner (some entry.kind) entry.Covers ↔ entry.kind = .exclusive ∨
      ∀ offset, entry.Covers offset → held entries entry.owner offset ≠ some .exclusive := by
  constructor
  · intro heq
    cases hkind : entry.kind with
    | exclusive => exact .inl rfl
    | shared =>
      refine .inr fun offset hcovers => (held_append_shared hcovers hkind).mp ?_
      rw [heq, assign_self _ _ _ hcovers, hkind]
  · intro hsafe
    funext other offset
    by_cases hinside : other = entry.owner ∧ entry.Covers offset
    · obtain ⟨rfl, hcovers⟩ := hinside
      rw [assign_self _ _ _ hcovers]
      cases hkind : entry.kind with
      | exclusive => exact held_eq_exclusive_iff.mpr ⟨_, by simp, rfl, hcovers, hkind⟩
      | shared =>
        refine (held_append_shared hcovers hkind).mpr ?_
        exact (hsafe.resolve_left (by simp [hkind])) offset hcovers
    · rw [assign_of_not _ _ hinside, held_append_of_not hinside]

end

/-- The table without the owner's entries that overlap the range. -/
def dropOverlapping (entries : List (Entry Owner Offset)) (owner : Owner)
    (start stop : Offset) : List (Entry Owner Offset) :=
  entries.filter fun entry => ¬(entry.owner = owner ∧ entry.Overlaps start stop)

variable {start stop : Offset}

/-- Every offset that a dropped entry covers outside the range is covered as
strongly by an entry that is kept. -/
def Backed (entries : List (Entry Owner Offset)) (owner : Owner) (start stop : Offset) : Prop :=
  ∀ entry ∈ entries, entry.owner = owner → entry.Overlaps start stop →
    ∀ offset, entry.Covers offset → ¬Within start stop offset →
      ∃ other ∈ entries, other.owner = owner ∧ ¬other.Overlaps start stop ∧
        other.Covers offset ∧ (entry.kind = .exclusive → other.kind = .exclusive)

lemma mem_dropOverlapping {entry : Entry Owner Offset} :
    entry ∈ dropOverlapping entries owner start stop ↔
      entry ∈ entries ∧ (entry.owner = owner → ¬entry.Overlaps start stop) := by
  simp [dropOverlapping, imp_iff_not_or]

lemma held_dropOverlapping_other {other : Owner} (hother : other ≠ owner) :
    held (dropOverlapping entries owner start stop) other offset = held entries other offset := by
  refine held_congr ?_ ?_
  · simp only [held_eq_exclusive_iff, mem_dropOverlapping]
    grind
  · simp only [held_eq_none_iff, mem_dropOverlapping]
    grind

lemma held_dropOverlapping_inside (hinside : Within start stop offset) :
    held (dropOverlapping entries owner start stop) owner offset = none := by
  refine held_eq_none_iff.mpr fun entry hmem howner hcovers => ?_
  exact (mem_dropOverlapping.mp hmem).2 howner
    ⟨hcovers.1.trans_lt hinside.2, hinside.1.trans_lt hcovers.2⟩

/-- Dropping whole entries clears the range and nothing else exactly when what
they cover outside the range is backed by entries that stay. -/
lemma held_dropOverlapping_eq_assign_iff : held (dropOverlapping entries owner start stop) =
      assign (held entries) owner none (Within start stop) ↔ Backed entries owner start stop := by
  constructor
  · intro heq entry hmem howner _ offset hcovers houtside
    obtain ⟨kind, hheld, hkind⟩ := exists_held_of_mem hmem hcovers
    have hkept : held (dropOverlapping entries owner start stop) owner offset = some kind := by
      rw [heq, assign_of_not _ _ fun hinside => houtside hinside.2, ← howner, hheld]
    obtain ⟨other, hother, hsame, hcover, rfl⟩ := exists_mem_of_held hkept
    obtain ⟨hmem', hapart⟩ := mem_dropOverlapping.mp hother
    exact ⟨other, hmem', hsame, hapart hsame, hcover, hkind⟩
  · intro hbacked
    funext other offset
    by_cases hinside : other = owner ∧ Within start stop offset
    · obtain ⟨rfl, hrange⟩ := hinside
      rw [assign_self _ _ _ hrange, held_dropOverlapping_inside hrange]
    · rw [assign_of_not _ _ hinside]
      by_cases hother : other = owner
      · subst hother
        have houtside : ¬Within start stop offset := fun hrange => hinside ⟨rfl, hrange⟩
        -- an entry that is dropped has a stand-in; one that is kept stands for itself
        have hstand : ∀ entry ∈ entries, entry.owner = other → entry.Covers offset →
            ∃ kept ∈ dropOverlapping entries other start stop, kept.owner = other ∧
              kept.Covers offset ∧ (entry.kind = .exclusive → kept.kind = .exclusive) := by
          intro entry hmem howner hcovers
          by_cases hoverlap : entry.Overlaps start stop
          · obtain ⟨kept, hkept, hsame, hapart, hcover, hkind⟩ :=
              hbacked entry hmem howner hoverlap offset hcovers houtside
            exact ⟨kept, mem_dropOverlapping.mpr ⟨hkept, fun _ => hapart⟩, hsame, hcover, hkind⟩
          · exact ⟨entry, mem_dropOverlapping.mpr ⟨hmem, fun _ => hoverlap⟩, howner, hcovers, id⟩
        refine held_congr ?_ ?_
        · rw [held_eq_exclusive_iff, held_eq_exclusive_iff]
          constructor
          · rintro ⟨entry, hmem, hentry⟩
            exact ⟨entry, (mem_dropOverlapping.mp hmem).1, hentry⟩
          · rintro ⟨entry, hmem, howner, hcovers, hkind⟩
            obtain ⟨kept, hkept, hsame, hcover, hstrong⟩ := hstand entry hmem howner hcovers
            exact ⟨kept, hkept, hsame, hcover, hstrong hkind⟩
        · rw [held_eq_none_iff, held_eq_none_iff]
          constructor
          · intro hnone entry hmem howner hcovers
            obtain ⟨kept, hkept, hsame, hcover, _⟩ := hstand entry hmem howner hcovers
            exact hnone kept hkept hsame hcover
          · intro hnone entry hmem howner
            exact hnone entry (mem_dropOverlapping.mp hmem).1 howner
      · exact held_dropOverlapping_other hother

end RangeLock

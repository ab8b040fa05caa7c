import KarteOs.Driver.FdTable

/-! # The pipe table and its reference counts

Every end of a pipe has a count of the descriptors that refer to it. The last
one to go marks the end closed; when both ends have none left the slot is free.
`Tracks` says that the counts are right for a given number of descriptors.
-/

namespace KarteOs.Driver

open Function Option

def maxPipes : Nat := 16

structure PipeTable where
  pipes : Nat → Option Pipe
  refs : Nat → PipeEnd → Nat

lemma Pipe.closedAt_close (p : Pipe) (side waiters : PipeEnd) :
    (p.close side).pipe.closedAt waiters = (decide (waiters = side) || p.closedAt waiters) := by
  cases side <;> cases waiters <;> rfl

namespace PipeTable

def new : PipeTable :=
  { pipes := fun _ => none, refs := fun _ _ => 0 }

variable (t : PipeTable)

def allocPipe : Option (Nat × PipeTable) :=
  ((List.range maxPipes).find? fun i => (t.pipes i).isNone).map fun i =>
    (i, { pipes := update t.pipes i (some .new)
          refs := update t.refs i fun _ => 1 })

def setRefs (i : Nat) (side : PipeEnd) (count : Nat) : PipeTable :=
  { t with refs := update t.refs i (update (t.refs i) side count) }

def inc (i : Nat) (side : PipeEnd) : PipeTable :=
  t.setRefs i side (t.refs i side + 1)

def tryFree (i : Nat) : PipeTable :=
  if t.refs i .read = 0 ∧ t.refs i .write = 0 then
    { t with pipes := update t.pipes i none }
  else t

def closeEnd (i : Nat) (side : PipeEnd) : PipeTable :=
  let t := t.setRefs i side (t.refs i side - 1)
  if t.refs i side = 0 then
    tryFree { t with
      pipes := update t.pipes i ((t.pipes i).map fun p => (p.close side).pipe) } i
  else t

def incRefFor (desc : FileDescriptor) : PipeTable :=
  match desc.pipeEnd with
  | some (i, side) => t.inc i side
  | none => t

def dropRefFor (desc : FileDescriptor) : PipeTable :=
  match desc.pipeEnd with
  | some (i, side) => t.closeEnd i side
  | none => t

/-- The counts are those of `entries`, an end is closed when it has none left
and a slot is free when neither end has. -/
structure Tracks (t : PipeTable) (entries : Nat → PipeEnd → Nat) : Prop where
  refs : ∀ i side, t.refs i side = entries i side
  closed : ∀ i p, t.pipes i = some p → ∀ side, p.closedAt side = true ↔ entries i side = 0
  freed : ∀ i, t.pipes i = none ↔ ∀ side, entries i side = 0

lemma new_tracks : new.Tracks fun _ _ => 0 where
  refs := fun _ _ => rfl
  closed := fun _ _ hp => by simp [new] at hp
  freed := fun _ => by simp [new]

lemma closeEnd_eq (t : PipeTable) (i : Nat) (side : PipeEnd) : t.closeEnd i side =
    { t.setRefs i side (t.refs i side - 1) with
      pipes := update t.pipes i
        (if t.refs i side - 1 = 0 then
          if t.refs i side.other = 0 then none else (t.pipes i).map fun p => (p.close side).pipe
        else t.pipes i) } := by
  have hself : (t.setRefs i side (t.refs i side - 1)).refs i side = t.refs i side - 1 := by
    simp [setRefs]
  have hother : (t.setRefs i side (t.refs i side - 1)).refs i side.other = t.refs i side.other := by
    simp [setRefs, side.other_ne]
  have hboth := PipeEnd.both_iff
    (fun waiters => (t.setRefs i side (t.refs i side - 1)).refs i waiters = 0) side
  simp only [hself, hother] at hboth
  simp only [closeEnd, tryFree, hself, hboth]
  by_cases hlast : t.refs i side - 1 = 0
  · by_cases hfree : t.refs i side.other = 0
    · simp [hlast, hfree, setRefs]
    · simp [hlast, hfree, setRefs]
  · simp [hlast, setRefs]

namespace Tracks

variable {t : PipeTable} {entries next : Nat → PipeEnd → Nat} {i : Nat} {side : PipeEnd}

section
variable (h : t.Tracks entries)
include h

lemma congr (hnext : ∀ i side, next i side = entries i side) : t.Tracks next := by
  obtain rfl : next = entries := funext fun i => funext (hnext i)
  exact h

lemma isSome (hpos : 0 < entries i side) : ∃ p, t.pipes i = some p := by
  refine ne_none_iff_exists'.mp fun hnone => ?_
  exact absurd ((h.freed i).mp hnone side) (Nat.ne_of_gt hpos)

lemma inc (hpos : 0 < entries i side)
    (hnext : ∀ j other, next j other = entries j other + if j = i ∧ other = side then 1 else 0) :
    (t.inc i side).Tracks next := by
  have hzero : ∀ j other, next j other = 0 ↔ entries j other = 0 := by
    intro j other
    rw [hnext]
    split
    next hhere =>
      obtain ⟨rfl, rfl⟩ := hhere
      omega
    · simp
  refine ⟨fun j other => ?_, fun j p hp other => ?_, fun j => ?_⟩
  · rw [hnext, ← h.refs]
    rcases eq_or_ne j i with rfl | hj
    · rcases eq_or_ne other side with rfl | hother
      · simp [PipeTable.inc, setRefs]
      · simp [PipeTable.inc, setRefs, hother]
    · simp [PipeTable.inc, setRefs, hj]
  · rw [hzero]
    exact h.closed j p hp other
  · simp only [hzero]
    exact h.freed j

lemma allocPipe {after : PipeTable} (halloc : t.allocPipe = some (i, after))
    (hnext : ∀ j other, next j other = entries j other + if j = i then 1 else 0) :
    after.Tracks next ∧ ∀ other, entries i other = 0 := by
  obtain ⟨found, hfound, heq⟩ := map_eq_some_iff.mp halloc
  obtain ⟨rfl, rfl⟩ := Prod.mk.inj heq
  have hnone : t.pipes found = none := by simpa using List.find?_some hfound
  have hunused := (h.freed found).mp hnone
  refine ⟨⟨fun j other => ?_, fun j p hp other => ?_, fun j => ?_⟩, hunused⟩
  · rcases eq_or_ne j found with rfl | hj
    · simp [hnext, hunused other]
    · simp [hnext, hj, h.refs]
  · rcases eq_or_ne j found with rfl | hj
    · obtain rfl : Pipe.new = p := by simpa using hp
      cases other <;> simp [hnext, Pipe.closedAt, Pipe.new]
    · simp only [update_of_ne hj] at hp
      simp [hnext, hj, h.closed j p hp]
  · rcases eq_or_ne j found with rfl | hj
    · simpa [hnext] using ⟨.read⟩
    · simp [hnext, hj, h.freed j]

lemma closeEnd
    (hnext : ∀ j other, entries j other = next j other + if j = i ∧ other = side then 1 else 0) :
    (t.closeEnd i side).Tracks next := by
  have hself : entries i side = next i side + 1 := by simp [hnext]
  have hother : entries i side.other = next i side.other := by simp [hnext, side.other_ne]
  have hlast : t.refs i side - 1 = next i side := by rw [h.refs, hself, Nat.add_sub_cancel]
  obtain ⟨p, hp⟩ := h.isSome (hself ▸ Nat.succ_pos _ : 0 < entries i side)
  have hfreed : (∀ waiters, next i waiters = 0) ↔ next i side = 0 ∧ next i side.other = 0 := by
    refine ⟨fun hall => ⟨hall _, hall _⟩, fun ⟨hone, htwo⟩ waiters => ?_⟩
    rcases waiters.eq_or_other side with rfl | rfl
    · exact hone
    · exact htwo
  rw [closeEnd_eq, hlast, h.refs, hother, hp]
  refine ⟨fun j waiters => ?_, fun j q hq waiters => ?_, fun j => ?_⟩
  · rcases eq_or_ne j i with rfl | hj
    · rcases waiters.eq_or_other side with rfl | rfl
      · simp [setRefs]
      · simp [setRefs, side.other_ne, h.refs, hother]
    · simp [setRefs, hj, h.refs, hnext]
  · rcases eq_or_ne j i with rfl | hj
    · simp only [update_self] at hq
      split at hq
      next hzero =>
        split at hq
        · cases hq
        next hopen =>
          cases hq
          rcases waiters.eq_or_other side with rfl | rfl
          · simp [Pipe.closedAt_close, hzero]
          · simp [Pipe.closedAt_close, side.other_ne, h.closed j p hp, hother]
      next hmore =>
        cases hq
        rw [h.closed j p hp waiters]
        rcases waiters.eq_or_other side with rfl | rfl
        · simp [hself, hmore]
        · rw [hother]
    · simp only [update_of_ne hj] at hq
      simp [h.closed j q hq, hnext, hj]
  · rcases eq_or_ne j i with rfl | hj
    · rw [hfreed]
      simp only [update_self]
      split
      next hzero =>
        split
        next hnone => simp [hzero, hnone]
        next hopen => simp [hopen]
      next hmore => simp [hmore]
    · simp [hj, h.freed, hnext]

end

variable {desc : FileDescriptor} (h : t.Tracks entries)
include h

lemma incRefFor (hopen : ∀ i side, desc.pipeEnd = some (i, side) → 0 < entries i side)
    (hnext : ∀ j other, next j other =
      entries j other + if desc.pipeEnd = some (j, other) then 1 else 0) :
    (t.incRefFor desc).Tracks next := by
  unfold PipeTable.incRefFor
  split
  next i side hend =>
    refine h.inc (hopen i side hend) fun j other => ?_
    rw [hnext, hend]
    simp [eq_comm]
  next hend => exact h.congr fun j other => by simp [hnext, hend]

lemma dropRefFor (hnext : ∀ j other, entries j other =
      next j other + if desc.pipeEnd = some (j, other) then 1 else 0) :
    (t.dropRefFor desc).Tracks next := by
  unfold PipeTable.dropRefFor
  split
  next i side hend =>
    refine h.closeEnd fun j other => ?_
    rw [hnext, hend]
    simp [eq_comm]
  next hend => exact h.congr fun j other => by simp [hnext, hend]

lemma dropAll {descs : List FileDescriptor} (hnext : ∀ j other, entries j other =
      next j other + descs.countP fun desc => desc.pipeEnd = some (j, other)) :
    (descs.foldl PipeTable.dropRefFor t).Tracks next := by
  induction descs generalizing t entries with
  | nil => exact h.congr fun j other => by simp [hnext]
  | cons desc descs ih =>
    refine ih (h.dropRefFor fun j other => ?_) fun j other => rfl
    rw [hnext, List.countP_cons, Nat.add_assoc]
    simp

end Tracks

end PipeTable

end KarteOs.Driver

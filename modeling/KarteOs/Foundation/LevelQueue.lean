import Mathlib.Data.BitVec
import Mathlib.Data.Fintype.BigOperators

/-! # Queues with priority levels

A family of first-in first-out queues indexed by level, seen as the multiset
of everything queued, and a bitmap with one bit per non-empty level. Pushing,
popping and erasing at one level are single insertions and deletions of the
multiset; the bitmap stays exact if the touched level's bit is written.
-/

namespace LevelQueue

open List BitVec Finset Function Multiset

universe u v

section
variable {ι : Type u} [Fintype ι] {α : Type v}

/-- Everything queued, whatever its level. -/
def tokens (queues : ι → List α) : Multiset α :=
  ∑ level, (queues level : Multiset α)

variable {queues : ι → List α} {token : α}

lemma mem_tokens : token ∈ tokens queues ↔ ∃ level, token ∈ queues level := by
  simp [tokens, mem_sum]

variable [DecidableEq ι] {level : ι}

lemma tokens_update (queues : ι → List α) (level : ι) (items : List α) :
    tokens (update queues level items) + (queues level : Multiset α) =
      tokens queues + (items : Multiset α) := by
  have hupdate : (fun other => (update queues level items other : Multiset α)) =
      update (fun other => (queues other : Multiset α)) level items := by
    funext other
    rcases eq_or_ne other level with rfl | hother
    · simp
    · simp [hother]
  unfold tokens
  rw [hupdate, sum_update_of_mem (mem_univ level),
    ← sum_sdiff (subset_univ {level}), Finset.sum_singleton,
    add_comm _ (items : Multiset α), add_assoc]

lemma tokens_push (queues : ι → List α) (level : ι) (token : α) :
    tokens (Function.update queues level (queues level ++ [token])) = token ::ₘ tokens queues := by
  have hupdate := tokens_update queues level (queues level ++ [token])
  rw [← Multiset.coe_add, ← add_assoc, add_right_comm] at hupdate
  rw [add_right_cancel hupdate, Multiset.coe_singleton, add_comm, Multiset.singleton_add]

lemma tokens_pop {rest : List α} (hfront : queues level = token :: rest) :
    tokens queues = token ::ₘ tokens (update queues level rest) := by
  have hupdate := tokens_update queues level rest
  rw [hfront, ← cons_coe, add_cons, ← cons_add] at hupdate
  exact (add_right_cancel hupdate).symm

lemma tokens_erase [DecidableEq α] (hmem : token ∈ queues level) : tokens queues =
    token ::ₘ tokens (update queues level ((queues level).erase token)) := by
  have hupdate := tokens_update queues level ((queues level).erase token)
  have hperm : (queues level : Multiset α) = token ::ₘ ((queues level).erase token : Multiset α) :=
    coe_eq_coe.mpr (perm_cons_erase hmem)
  rw [hperm, add_cons, ← cons_add] at hupdate
  exact (add_right_cancel hupdate).symm

lemma eq_of_mem_of_nodup [DecidableEq α] {other : ι} (hnodup : (tokens queues).Nodup)
    (hlevel : token ∈ queues level) (hother : token ∈ queues other) : other = level := by
  by_contra hne
  rw [tokens_erase hlevel, Multiset.nodup_cons] at hnodup
  refine hnodup.1 (mem_tokens.mpr ⟨other, ?_⟩)
  rwa [update_of_ne hne]

end

variable {levels : Nat} {α : Type v}

/-- The bitmap has the bit of a level exactly when that level is not empty. -/
def Tracks (bitmap : BitVec levels) (queues : Fin levels → List α) : Prop :=
  ∀ level : Fin levels, bitmap.getLsbD level = !(queues level).isEmpty

/-- The lowest bit set. -/
def lowest (bitmap : BitVec levels) : Option (Fin levels) :=
  (List.finRange levels).find? fun level => bitmap.getLsbD level

variable {queues : Fin levels → List α} {level : Fin levels} {items : List α}

lemma Tracks.update {bitmap next : BitVec levels} (htracks : Tracks bitmap queues)
    (hother : ∀ other : Fin levels, other ≠ level →
      next.getLsbD other = bitmap.getLsbD other) (hlevel : next.getLsbD level = !items.isEmpty) :
    Tracks next (update queues level items) := by
  intro other
  rcases eq_or_ne other level with rfl | hne
  · simpa using hlevel
  · rw [update_of_ne hne, hother other hne, htracks other]

lemma getLsbD_setBit (bitmap : BitVec levels) (level other : Fin levels) :
    (bitmap ||| BitVec.ofNat levels 1 <<< level.val).getLsbD other =
      (bitmap.getLsbD other || decide (other = level)) := by
  have hpow : BitVec.ofNat levels 1 <<< level.val = twoPow levels level := rfl
  rw [getLsbD_or, hpow, getLsbD_twoPow]
  simp [Fin.ext_iff, eq_comm, level.isLt]

lemma getLsbD_clearBit (bitmap : BitVec levels) (level other : Fin levels) :
    (bitmap &&& ~~~(BitVec.ofNat levels 1 <<< level.val)).getLsbD other =
      (bitmap.getLsbD other && decide (other ≠ level)) := by
  have hpow : BitVec.ofNat levels 1 <<< level.val = twoPow levels level := rfl
  rw [getLsbD_and, getLsbD_not, hpow, getLsbD_twoPow]
  simp [Fin.ext_iff, eq_comm, level.isLt, other.isLt]

variable {bitmap : BitVec levels} (htracks : Tracks bitmap queues)
include htracks

lemma Tracks.setBit (level : Fin levels) (hitems : items ≠ []) :
    Tracks (bitmap ||| BitVec.ofNat levels 1 <<< level.val)
      (Function.update queues level items) := by
  refine htracks.update (fun other hne => ?_) ?_
  · rw [getLsbD_setBit, decide_eq_false hne, Bool.or_false]
  · rw [getLsbD_setBit]
    simp [hitems]

lemma Tracks.shorten (hlevel : queues level ≠ []) (items : List α) :
    Tracks (if items.isEmpty then bitmap &&& ~~~(BitVec.ofNat levels 1 <<< level.val) else bitmap)
      (Function.update queues level items) := by
  refine htracks.update (fun other hne => ?_) ?_
  · split
    · rw [getLsbD_clearBit, decide_eq_true hne, Bool.and_true]
    · rfl
  · split
    next hempty =>
      rw [getLsbD_clearBit]
      simp [hempty]
    next hempty => simp [htracks level, hlevel, hempty]

lemma Tracks.lowest_ne_nil (hlowest : lowest bitmap = some level) : queues level ≠ [] := by
  have hbit := find?_some hlowest
  rw [htracks level] at hbit
  simpa using hbit

lemma Tracks.eq_nil_of_lt_lowest {other : Fin levels} (hlowest : lowest bitmap = some level)
    (hlt : other < level) : queues other = [] := by
  obtain ⟨-, i, hi, hlevel, hbefore⟩ := find?_eq_some_iff_getElem.mp hlowest
  rw [getElem_finRange] at hlevel
  have hother : other.val < i := by
    rw [← hlevel] at hlt
    exact hlt
  have hbit := hbefore other.val hother
  rw [getElem_finRange] at hbit
  change (!bitmap.getLsbD other.val) = true at hbit
  rw [htracks other] at hbit
  simpa using hbit

lemma Tracks.eq_nil_of_lowest_none (hlowest : lowest bitmap = none) (level : Fin levels) :
    queues level = [] := by
  have hbit := find?_eq_none.mp hlowest level (mem_finRange level)
  rw [htracks level] at hbit
  simpa using hbit

end LevelQueue

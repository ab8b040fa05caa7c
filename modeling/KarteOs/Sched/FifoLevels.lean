import KarteOs.Foundation.Run
import KarteOs.Sched.Starvation

/-! # The ready queue as a multi-level FIFO

What the queue is for: one first-in first-out list per level, picks from the
first level that is not empty, and at times a batch task that moves up. The
bitmap and the starvation clock of `ReadyQueue` implement it: in every history
that queues a slot at most once, each operation does what the lists do.
-/

namespace KarteOs.Sched

open Transition Function LevelQueue List

inductive QueueResult where
  | pushed
  | popped (token : Option Nat)
  | removed (found : Bool)
deriving DecidableEq

abbrev QueueEvent := QueueOp × QueueResult

namespace QueueEvent

def entering : QueueEvent → Multiset Nat
  | (.push token _, _) => {token}
  | _ => 0

def leaving : QueueEvent → Multiset Nat
  | (.popNext, .popped (some token)) => {token}
  | (.remove token, .removed true) => {token}
  | _ => 0

end QueueEvent

namespace FifoLevels

abbrev Lists := Fin 32 → List Nat

/-- The oldest slot of level 31 may move to the tail of level 24. -/
inductive Promotes : Lists → Lists → Prop
  | stay (lists : Lists) : Promotes lists lists
  | move {lists : Lists} {token : Nat} {rest : List Nat} : lists 31 = token :: rest →
      Promotes lists (update (update lists 31 rest) 24 (lists 24 ++ [token]))

inductive Step : Lists → QueueEvent → Lists → Prop
  | push (lists : Lists) (token : Nat) (prio : Nat) (level : Fin 32) :
      level.val = min prio 31 →
      Step lists (.push token prio, .pushed) (update lists level (lists level ++ [token]))
  | popNone {lists promoted : Lists} : Promotes lists promoted → (∀ level, promoted level = []) →
      Step lists (.popNext, .popped none) promoted
  | popSome {lists promoted : Lists} {level : Fin 32} {token : Nat} {rest : List Nat} :
      Promotes lists promoted → promoted level = token :: rest →
      (∀ other < level, promoted other = []) →
      Step lists (.popNext, .popped (some token)) (update promoted level rest)
  | remove (lists : Lists) (token : Nat) :
      Step lists (.remove token, .removed (decide (∃ level, token ∈ lists level)))
        fun level => (lists level).erase token

end FifoLevels

namespace ReadyQueue

variable {q : ReadyQueue}

/-- What the operation returns; `remove` says whether it found the slot. -/
def result (q : ReadyQueue) : QueueOp → QueueResult
  | .push _ _ => .pushed
  | .popNext => .popped q.popNext.1
  | .remove token => .removed
      ((List.finRange 32).find? fun level => decide (token ∈ q.queues level)).isSome

def Fresh (q : ReadyQueue) : QueueOp → Prop
  | .push token _ => token ∉ q.tokens
  | _ => True

instance decidableFresh (q : ReadyQueue) : (op : QueueOp) → Decidable (q.Fresh op)
  | .push token _ => decidable_of_iff (¬ ∃ level, token ∈ q.queues level)
      (not_congr mem_tokens.symm)
  | .popNext => .isTrue trivial
  | .remove _ => .isTrue trivial

def history (q : ReadyQueue) : List QueueOp → List QueueEvent
  | [] => []
  | op :: ops => (op, q.result op) :: (q.apply op).history ops

lemma promote_promotes (q : ReadyQueue) : FifoLevels.Promotes q.queues q.promote.queues := by
  unfold promote
  split
  · split
    · exact .stay _
    next token rest hfront => exact .move hfront
  · exact .stay _

lemma popNext_step (hq : q.WellFormed) :
    FifoLevels.Step q.queues (.popNext, .popped q.popNext.1) q.popNext.2.queues := by
  have hwf := promote_wellFormed hq
  have hmoves := q.promote_promotes
  simp only [popNext]
  generalize q.promote = promoted at hwf hmoves
  split
  next hlowest => exact .popNone hmoves (hwf.eq_nil_of_lowest_none hlowest)
  next level hlowest =>
    obtain ⟨hempty, -⟩ | ⟨token, rest, hfront, hpick⟩ := promoted.pickFrom_cases level
    · exact absurd hempty (hwf.lowest_ne_nil hlowest)
    · rw [hpick]
      exact .popSome hmoves hfront fun other hlt => hwf.eq_nil_of_lt_lowest hlowest hlt

lemma queues_remove (hnodup : q.tokens.Nodup) (token : Nat) :
    (q.remove token).queues = fun level => (q.queues level).erase token := by
  funext level
  unfold remove
  split
  next hnone =>
    have hmiss := find?_eq_none.mp hnone level (mem_finRange level)
    exact (erase_of_not_mem (by simpa using hmiss)).symm
  next found hfind =>
    have hfound : token ∈ q.queues found := by simpa using find?_some hfind
    rcases eq_or_ne level found with rfl | hne
    · exact update_self _ _ _
    · have hmiss : token ∉ q.queues level := fun hmem => hne (eq_of_mem_of_nodup hnodup hfound hmem)
      rw [erase_of_not_mem hmiss]
      exact update_of_ne hne _ _

lemma result_remove (q : ReadyQueue) (token : Nat) :
    q.result (.remove token) = .removed (decide (∃ level, token ∈ q.queues level)) := by
  have hfound : ((finRange 32).find? fun level => decide (token ∈ q.queues level)).isSome =
      decide (∃ level, token ∈ q.queues level) := by
    rw [Bool.eq_iff_iff, find?_isSome]
    simp
  rw [result, hfound]

lemma result_remove_tokens (q : ReadyQueue) (token : Nat) :
    q.result (.remove token) = .removed (decide (token ∈ q.tokens)) := by
  rw [result_remove]
  simp [tokens, mem_tokens]

/-- The queue as the proofs see it: the bitmap is exact and no slot is queued twice. -/
structure Exact (q : ReadyQueue) : Prop where
  wellFormed : q.WellFormed
  nodup : q.tokens.Nodup

lemma new_exact : new.Exact := ⟨new_wellFormed, by simp⟩

variable {op : QueueOp} {ops : List QueueOp}

section
variable (hq : q.Exact)
include hq

lemma fifoLevels_step (hfresh : q.Fresh op) :
    FifoLevels.Step q.queues (op, q.result op) (q.apply op).queues := by
  cases op with
  | push token prio =>
    have hmiss : token ∉ q.queues (level prio) := fun hmem => hfresh (mem_tokens.mpr ⟨_, hmem⟩)
    simp only [apply, result, push, hmiss, if_false]
    exact .push q.queues token prio _ rfl
  | popNext => exact popNext_step hq.wellFormed
  | remove token =>
    rw [result_remove, apply, queues_remove hq.nodup]
    exact .remove q.queues token

lemma tokens_apply (hfresh : q.Fresh op) : QueueEvent.entering (op, q.result op) + q.tokens =
    (q.apply op).tokens + QueueEvent.leaving (op, q.result op) := by
  cases op with
  | push token prio =>
    rw [apply, tokens_push hfresh]
    simp [QueueEvent.entering, QueueEvent.leaving]
  | popNext =>
    obtain ⟨hnone, hbefore, hafter⟩ | ⟨token, hsome, htokens⟩ := (popNext_spec hq.wellFormed).2
    · simp [apply, result, QueueEvent.entering, QueueEvent.leaving, hnone, hbefore, hafter]
    · rw [result, hsome, htokens, apply, QueueEvent.entering, QueueEvent.leaving, zero_add,
        add_comm, Multiset.singleton_add]
      simp
  | remove token =>
    rw [result_remove_tokens, apply, tokens_remove]
    by_cases hmem : token ∈ q.tokens
    · simp [QueueEvent.entering, QueueEvent.leaving, hmem, add_comm, Multiset.singleton_add,
        Multiset.cons_erase]
    · simp [QueueEvent.entering, QueueEvent.leaving, hmem]

lemma apply_exact (hfresh : q.Fresh op) : (q.apply op).Exact := by
  have htokens := tokens_apply hq hfresh
  constructor
  · cases op with
    | push token prio => exact push_wellFormed hq.wellFormed token _
    | popNext => exact (popNext_spec hq.wellFormed).1
    | remove token => exact remove_wellFormed hq.wellFormed token
  · cases op with
    | push token prio =>
      rw [apply, tokens_push hfresh]
      exact Multiset.nodup_cons.mpr ⟨hfresh, hq.nodup⟩
    | popNext | remove token =>
      refine Multiset.nodup_of_le ?_ hq.nodup
      rw [show q.tokens = _ from (zero_add _).symm.trans htokens]
      exact Multiset.le_add_right _ _

lemma fifoLevels_run (hfresh : Allowed Fresh apply q ops) :
    Run FifoLevels.Step q.queues (q.history ops) (ops.foldl apply q).queues := by
  induction ops generalizing q with
  | nil => exact .nil _
  | cons op ops ih =>
    exact .cons (fifoLevels_step hq hfresh.1) (ih (apply_exact hq hfresh.1) hfresh.2)

lemma tokens_run (hfresh : Allowed Fresh apply q ops) :
    ((q.history ops).map QueueEvent.entering).sum + q.tokens =
      (ops.foldl apply q).tokens + ((q.history ops).map QueueEvent.leaving).sum := by
  induction ops generalizing q with
  | nil => simp [history]
  | cons op ops ih =>
    have hrest := ih (apply_exact hq hfresh.1) hfresh.2
    have hfirst := tokens_apply hq hfresh.1
    simp only [history, map_cons, sum_cons, foldl_cons]
    rw [add_right_comm, hfirst, add_right_comm, add_comm _ (sum _), hrest, add_assoc,
      add_comm (sum _)]

end

/-- The queue is the multi-level FIFO after a list of operations. -/
structure RefinesFifo (ops : List QueueOp) : Prop where
  /-- The lists give the same results and hold the same slots. -/
  behaves : Run FifoLevels.Step (fun _ => []) (new.history ops) (ops.foldl apply new).queues
  bitmap : ∀ level : Fin 32, (ops.foldl apply new).bitmap.getLsbD level = true ↔
    (ops.foldl apply new).queues level ≠ []
  /-- A pick finds nothing only when nothing is queued. -/
  starved : (ops.foldl apply new).popNext.1 = none →
    ∀ level, (ops.foldl apply new).queues level = []
  /-- No slot is queued twice. -/
  nodup : (ops.foldl apply new).tokens.Nodup
  /-- What was pushed is queued, was picked or was removed. -/
  conserved : ((new.history ops).map QueueEvent.entering).sum =
    (ops.foldl apply new).tokens + ((new.history ops).map QueueEvent.leaving).sum

theorem readyQueue_refinesFifo {ops : List QueueOp} (hfresh : Allowed Fresh apply new ops) :
    RefinesFifo ops := by
  have hexact : (ops.foldl apply new).Exact :=
    hfresh.invariant (fun _ _ hq hop => apply_exact hq hop) new_exact
  refine ⟨fifoLevels_run new_exact hfresh, fun level => ?_, fun hnone level => ?_, hexact.nodup, ?_⟩
  · rw [hexact.wellFormed level]
    simp
  · obtain ⟨-, hempty, -⟩ | ⟨token, hsome, -⟩ := (popNext_spec hexact.wellFormed).2
    · refine eq_nil_iff_forall_not_mem.mpr fun token hmem => ?_
      have htoken : token ∈ (ops.foldl apply new).tokens := mem_tokens.mpr ⟨level, hmem⟩
      rw [hempty] at htoken
      exact Multiset.notMem_zero token htoken
    · cases hnone.symm.trans hsome
  · simpa using tokens_run new_exact hfresh

theorem readyQueue_refinesFifo_batch :
    RefinesFifo [.push 1 31, .push 2 24, .push 3 200, .popNext, .remove 3, .push 2 0] :=
  readyQueue_refinesFifo (by decide)

end ReadyQueue

end KarteOs.Sched

import KarteOs.Foundation.LevelQueue

/-! # Scheduling classes and the ready queue

The four scheduling classes of `sched/class.rs` and the 32-level
priority-bitmap ready queue of `sched/ready_queue.rs`, with its starvation
protection for batch tasks. A queue is well formed if its bitmap is exact; the
operations are then insertions and deletions of the multiset of queued slots.
-/

namespace KarteOs.Sched

open Function LevelQueue List

/-- The real-time level is a byte; it is clamped only when a priority is computed. -/
inductive SchedClass
  | rtFifo (level : Nat)
  | rtRoundRobin (level : Nat)
  | normal
  | aiBatch
deriving DecidableEq

def rtLevels : Nat := 16
def normalPrio : Nat := 24
def aiBatchPrio : Nat := 31
def aiBatchBoostPrio : Nat := normalPrio
def aiBatchStarvationTicks : Nat := 64

namespace SchedClass

def priority : SchedClass → Nat
  | rtFifo level | rtRoundRobin level => max 1 (min level rtLevels) - 1
  | normal => normalPrio
  | aiBatch => aiBatchPrio

/-- Ticks before a running task is requeued; first-in first-out tasks never expire. -/
def quantum : SchedClass → Nat
  | rtFifo _ => 2 ^ 64 - 1
  | rtRoundRobin _ => 4
  | normal | aiBatch => 2

end SchedClass

/-- One queue of scheduler slots per level, and one bit per non-empty level. -/
structure ReadyQueue where
  bitmap : BitVec 32
  queues : Fin 32 → List Nat
  /-- Consecutive picks that left a ready batch task waiting. -/
  batchStarved : Nat

namespace ReadyQueue

def new : ReadyQueue :=
  { bitmap := 0#32, queues := fun _ => [], batchStarved := 0 }

def batchLevel : Fin 32 := ⟨aiBatchPrio, by decide⟩
def boostedLevel : Fin 32 := ⟨aiBatchBoostPrio, by decide⟩

def level (prio : Nat) : Fin 32 := ⟨min prio 31, by omega⟩

variable (q : ReadyQueue)

def push (token prio : Nat) : ReadyQueue :=
  { q with
    queues :=
      if token ∈ q.queues (level prio) then q.queues
      else update q.queues (level prio) (q.queues (level prio) ++ [token])
    bitmap := q.bitmap ||| 1#32 <<< (level prio).val }

/-- Move the longest-waiting batch task to the tail of the normal band once it
has been passed over often enough. -/
def promote : ReadyQueue :=
  if aiBatchStarvationTicks ≤ q.batchStarved then
    match q.queues batchLevel with
    | [] => q
    | token :: rest =>
      let queues := update q.queues batchLevel rest
      let bitmap :=
        if rest.isEmpty then q.bitmap &&& ~~~(1#32 <<< batchLevel.val) else q.bitmap
      { queues := update queues boostedLevel (queues boostedLevel ++ [token])
        bitmap := bitmap ||| 1#32 <<< boostedLevel.val
        batchStarved := 0 }
  else q

def pickFrom (level : Fin 32) : Option Nat × ReadyQueue :=
  match q.queues level with
  | [] => (none, q)
  | token :: rest =>
    (some token, { q with
      queues := update q.queues level rest
      bitmap := if rest.isEmpty then q.bitmap &&& ~~~(1#32 <<< level.val) else q.bitmap })

def starvation (level : Fin 32) : Nat :=
  if level = batchLevel ∨ level = boostedLevel then 0
  else if q.queues batchLevel ≠ [] then (q.batchStarved + 1) % 2 ^ 32
  else 0

def popNext : Option Nat × ReadyQueue :=
  let q := q.promote
  match lowest q.bitmap with
  | none => (none, q)
  | some level =>
    match q.pickFrom level with
    | (none, picked) => (none, picked)
    | (some token, picked) =>
      (some token, { picked with batchStarved := picked.starvation level })

def remove (token : Nat) : ReadyQueue :=
  match (List.finRange 32).find? fun level => decide (token ∈ q.queues level) with
  | none => q
  | some level =>
    let rest := (q.queues level).erase token
    { q with
      queues := update q.queues level rest
      bitmap := if rest.isEmpty then q.bitmap &&& ~~~(1#32 <<< level.val) else q.bitmap }

def tokens : Multiset Nat :=
  LevelQueue.tokens q.queues

def WellFormed : Prop :=
  Tracks q.bitmap q.queues

lemma new_wellFormed : new.WellFormed := by
  intro level
  simp [new]

@[simp] lemma tokens_new : new.tokens = 0 := by simp [tokens, LevelQueue.tokens, new]

variable {q : ReadyQueue}

lemma push_wellFormed (hq : q.WellFormed) (token prio : Nat) : (q.push token prio).WellFormed := by
  unfold push WellFormed
  split
  next hmem =>
    have hlevel : q.queues (level prio) ≠ [] := ne_nil_of_mem hmem
    have hsame := hq.setBit (level prio) hlevel
    rwa [update_eq_self] at hsame
  · exact hq.setBit (level prio) (by simp)

lemma remove_queues (q : ReadyQueue) (token : Nat) (level : Fin 32) :
    (q.remove token).queues level = q.queues level ∨
      (q.remove token).queues level = (q.queues level).erase token := by
  unfold remove
  split
  · exact .inl rfl
  next found _ =>
    rcases eq_or_ne level found with rfl | hlevel
    · exact .inr (update_self ..)
    · exact .inl (update_of_ne hlevel ..)

lemma tokens_push {token : Nat} (htoken : token ∉ q.tokens) (prio : Nat) :
    (q.push token prio).tokens = token ::ₘ q.tokens := by
  have hlevel : token ∉ q.queues (level prio) := fun hmem =>
    htoken (LevelQueue.mem_tokens.mpr ⟨_, hmem⟩)
  simp only [push, tokens, hlevel, if_false]
  exact LevelQueue.tokens_push q.queues (level prio) token

lemma promote_wellFormed (hq : q.WellFormed) : q.promote.WellFormed := by
  unfold promote
  split
  · split
    · exact hq
    next token rest hfront =>
      have hshort := Tracks.shorten hq (by simp [hfront] : q.queues batchLevel ≠ []) rest
      exact hshort.setBit boostedLevel (by simp)
  · exact hq

lemma tokens_promote (q : ReadyQueue) : q.promote.tokens = q.tokens := by
  unfold promote
  split
  · split
    · rfl
    next token rest hfront =>
      simp only [tokens]
      rw [LevelQueue.tokens_push, ← LevelQueue.tokens_pop hfront]
  · rfl

lemma pickFrom_cases (q : ReadyQueue) (level : Fin 32) :
    (q.queues level = [] ∧ q.pickFrom level = (none, q)) ∨
      ∃ token rest, q.queues level = token :: rest ∧ q.pickFrom level = (some token, { q with
          queues := update q.queues level rest
          bitmap := if rest.isEmpty then q.bitmap &&& ~~~(1#32 <<< level.val) else q.bitmap }) := by
  unfold pickFrom
  split
  next hempty => exact .inl ⟨hempty, rfl⟩
  next token rest hfront => exact .inr ⟨token, rest, hfront, rfl⟩

lemma popNext_spec (hq : q.WellFormed) : q.popNext.2.WellFormed ∧
    ((q.popNext.1 = none ∧ q.tokens = 0 ∧ q.popNext.2.tokens = 0) ∨
      ∃ token, q.popNext.1 = some token ∧ q.tokens = token ::ₘ q.popNext.2.tokens) := by
  have hwf := promote_wellFormed hq
  rw [← tokens_promote q]
  simp only [popNext]
  generalize q.promote = promoted at hwf
  split
  next hlowest =>
    have hempty : promoted.tokens = 0 := Multiset.eq_zero_of_forall_notMem fun token htoken => by
      obtain ⟨level, hlevel⟩ := LevelQueue.mem_tokens.mp htoken
      rw [hwf.eq_nil_of_lowest_none hlowest level] at hlevel
      cases hlevel
    exact ⟨hwf, .inl ⟨rfl, hempty, hempty⟩⟩
  next level hlowest =>
    have hlevel := hwf.lowest_ne_nil hlowest
    obtain ⟨hempty, _⟩ | ⟨token, tail, hfront, hpick⟩ := promoted.pickFrom_cases level
    · exact absurd hempty hlevel
    · rw [hpick]
      exact ⟨.shorten hwf hlevel tail, .inr ⟨token, rfl, LevelQueue.tokens_pop hfront⟩⟩

lemma remove_wellFormed (hq : q.WellFormed) (token : Nat) : (q.remove token).WellFormed := by
  unfold remove
  split
  · exact hq
  next level hfind =>
    have hmem : token ∈ q.queues level := by simpa using find?_some hfind
    exact .shorten hq (ne_nil_of_mem hmem) _

lemma tokens_remove (q : ReadyQueue) (token : Nat) :
    (q.remove token).tokens = q.tokens.erase token := by
  unfold remove
  split
  next hnone =>
    refine (Multiset.erase_of_notMem fun hmem => ?_).symm
    obtain ⟨level, hlevel⟩ := LevelQueue.mem_tokens.mp hmem
    have hfind := find?_eq_none.mp hnone level (mem_finRange level)
    simp [hlevel] at hfind
  next level hfind =>
    have hmem : token ∈ q.queues level := by simpa using find?_some hfind
    simp only [tokens]
    rw [LevelQueue.tokens_erase hmem, Multiset.erase_cons_head]

end ReadyQueue

end KarteOs.Sched

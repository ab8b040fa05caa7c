import Mathlib.Algebra.Order.BigOperators.Group.Finset
import Mathlib.Order.Interval.Finset.Fin
import KarteOs.Sched.ReadyQueue

/-! # Starvation protection of batch tasks

A batch task that waits while other tasks are picked is moved to the tail of
the normal band once the starvation clock has counted enough picks, and from
there it is served before anything that is queued later. The clock also starts
again whenever the pick came from the normal band itself, so the promise is
kept only while normal tasks are not picked.
-/

namespace KarteOs.Sched

open Function List Nat

inductive QueueOp
  | push (token prio : Nat)
  | remove (token : Nat)
  | popNext
deriving DecidableEq

namespace ReadyQueue

def apply (q : ReadyQueue) : QueueOp → ReadyQueue
  | .push token prio => q.push token prio
  | .remove token => q.remove token
  | .popNext => q.popNext.2

variable {q : ReadyQueue} {level : Fin 32} {token : Nat}

lemma apply_wellFormed (hq : q.WellFormed) (op : QueueOp) : (q.apply op).WellFormed := by
  cases op with
  | push token prio => exact push_wellFormed hq token prio
  | remove token => exact remove_wellFormed hq token
  | popNext => exact (popNext_spec hq).1

/-! ## What a pick does -/

/-- A pick takes the front of the first level that is not empty after the
promotion, and sets the clock. -/
structure Picks (q : ReadyQueue) (level : Fin 32) (token : Nat) (rest : List Nat) : Prop where
  front : q.promote.queues level = token :: rest
  above : ∀ other < level, q.promote.queues other = []
  token : q.popNext.1 = some token
  queues : q.popNext.2.queues = update q.promote.queues level rest
  clock : q.popNext.2.batchStarved =
    if level = batchLevel ∨ level = boostedLevel then 0
    else if q.popNext.2.queues batchLevel ≠ [] then (q.promote.batchStarved + 1) % 2 ^ 32
    else 0

lemma popNext_picks (hq : q.WellFormed) (hlevel : q.promote.queues level ≠ []) :
    ∃ level token rest, q.Picks level token rest := by
  have hwf := promote_wellFormed hq
  cases hlowest : LevelQueue.lowest q.promote.bitmap with
  | none => exact absurd (hwf.eq_nil_of_lowest_none hlowest level) hlevel
  | some lowest =>
    obtain ⟨hempty, -⟩ | ⟨token, rest, hfront, hpick⟩ := q.promote.pickFrom_cases lowest
    · exact absurd hempty (hwf.lowest_ne_nil hlowest)
    · have hpop : q.popNext = (some token, { (q.promote.pickFrom lowest).2 with
          batchStarved := (q.promote.pickFrom lowest).2.starvation lowest }) := by
        simp [popNext, hlowest, hpick]
      rw [hpick] at hpop
      exact ⟨lowest, token, rest, hfront, fun other => hwf.eq_nil_of_lt_lowest hlowest,
        by rw [hpop], by rw [hpop], by rw [hpop]; rfl⟩

lemma promote_of_not_starved (hclock : q.batchStarved < aiBatchStarvationTicks) :
    q.promote = q := by
  rw [promote, if_neg (Nat.not_le.mpr hclock)]

lemma promote_of_starved {rest : List Nat} (hclock : aiBatchStarvationTicks ≤ q.batchStarved)
    (hbatch : q.queues batchLevel = token :: rest) :
    q.promote.queues = update (update q.queues batchLevel rest) boostedLevel
        (q.queues boostedLevel ++ [token]) ∧ q.promote.batchStarved = 0 := by
  have hne : boostedLevel ≠ batchLevel := by decide
  constructor
  · simp [promote, if_pos hclock, hbatch, update_of_ne hne]
  · simp [promote, if_pos hclock, hbatch]

lemma promote_cases (q : ReadyQueue) :
    q.promote = q ∨ ∃ token rest, q.queues batchLevel = token :: rest ∧
      q.promote.queues = update (update q.queues batchLevel rest) boostedLevel
        (q.queues boostedLevel ++ [token]) := by
  by_cases hclock : q.batchStarved < aiBatchStarvationTicks
  · exact .inl (promote_of_not_starved hclock)
  · cases hbatch : q.queues batchLevel with
    | nil => exact .inl (by simp [promote, hbatch, ite_self])
    | cons token rest =>
      exact .inr ⟨token, rest, rfl, (promote_of_starved (Nat.not_lt.mp hclock) hbatch).1⟩

lemma promote_queues_above (q : ReadyQueue) (hlevel : level < boostedLevel) :
    q.promote.queues level = q.queues level := by
  have hbatch : level ≠ batchLevel := (hlevel.trans (by decide)).ne
  obtain hsame | ⟨token, rest, -, hqueues⟩ := q.promote_cases
  · rw [hsame]
  · rw [hqueues, update_of_ne hlevel.ne, update_of_ne hbatch]

/-! ## Waiting in the normal band -/

def before (q : ReadyQueue) (token : Nat) : Nat :=
  ∑ level ∈ Finset.Iio boostedLevel, (q.queues level).length + (q.queues boostedLevel).idxOf token

/-- The task is in the normal band with at most `count` tasks before it. -/
def WaitsBehind (q : ReadyQueue) (token count : Nat) : Prop :=
  token ∈ q.queues boostedLevel ∧ q.before token ≤ count

lemma before_le {next : ReadyQueue}
    (habove : ∀ level < boostedLevel, (next.queues level).length ≤ (q.queues level).length)
    (hindex : (next.queues boostedLevel).idxOf token ≤ (q.queues boostedLevel).idxOf token) :
    next.before token ≤ q.before token :=
  Nat.add_le_add (Finset.sum_le_sum fun level hlevel => habove level (Finset.mem_Iio.mp hlevel))
    hindex

end ReadyQueue

def QueueOp.Yields (token : Nat) : QueueOp → Prop
  | .push _ prio => ReadyQueue.boostedLevel ≤ ReadyQueue.level prio
  | .remove other => other ≠ token
  | .popNext => True

namespace ReadyQueue

variable {q : ReadyQueue} {token count other : Nat}

lemma WaitsBehind.push (hq : q.WaitsBehind token count) {prio : Nat}
    (hprio : boostedLevel ≤ level prio) : (q.push other prio).WaitsBehind token count := by
  obtain ⟨hmem, hbefore⟩ := hq
  have habove : ∀ level < boostedLevel, (q.push other prio).queues level = q.queues level := by
    intro level hlevel
    simp only [ReadyQueue.push]
    split
    · rfl
    · exact update_of_ne (hlevel.trans_le hprio).ne _ _
  have hband : ∃ tail, (q.push other prio).queues boostedLevel = q.queues boostedLevel ++ tail := by
    simp only [ReadyQueue.push]
    split
    · exact ⟨[], (append_nil _).symm⟩
    · by_cases hlevel : boostedLevel = ReadyQueue.level prio
      · rw [← hlevel, update_self]
        exact ⟨[other], rfl⟩
      · rw [update_of_ne hlevel]
        exact ⟨[], (append_nil _).symm⟩
  obtain ⟨tail, hband⟩ := hband
  refine ⟨hband ▸ mem_append_left _ hmem, le_trans (before_le ?_ ?_) hbefore⟩
  · intro level hlevel
    rw [habove level hlevel]
  · rw [hband, idxOf_append_of_mem hmem]

lemma idxOf_erase_le {items : List Nat} (hmem : token ∈ items) (hne : other ≠ token) :
    (items.erase other).idxOf token ≤ items.idxOf token := by
  induction items with
  | nil => cases hmem
  | cons item items ih =>
    by_cases hitem : item = other
    · subst hitem
      rw [erase_cons_head, idxOf_cons_ne _ hne]
      exact le_succ _
    · rw [erase_cons_tail (by simpa using hitem)]
      by_cases htoken : item = token
      · subst htoken
        rw [idxOf_cons_self]
        exact Nat.zero_le _
      · rw [idxOf_cons_ne _ htoken, idxOf_cons_ne _ htoken]
        exact succ_le_succ (ih ((mem_cons.mp hmem).resolve_left (Ne.symm htoken)))

lemma WaitsBehind.remove (hq : q.WaitsBehind token count) (hne : other ≠ token) :
    (q.remove other).WaitsBehind token count := by
  obtain ⟨hmem, hbefore⟩ := hq
  refine ⟨?_, le_trans (before_le ?_ ?_) hbefore⟩
  · rcases q.remove_queues other boostedLevel with heq | heq
    · exact heq ▸ hmem
    · exact heq ▸ (mem_erase_of_ne hne.symm).mpr hmem
  · intro level _
    rcases q.remove_queues other level with heq | heq
    · rw [heq]
    · rw [heq]
      exact length_erase_le
  · rcases q.remove_queues other boostedLevel with heq | heq
    · rw [heq]
    · rw [heq]
      exact idxOf_erase_le hmem hne

lemma WaitsBehind.promote (hq : q.WaitsBehind token count) : q.promote.WaitsBehind token count := by
  obtain ⟨hmem, hbefore⟩ := hq
  obtain hsame | ⟨batch, rest, -, hqueues⟩ := q.promote_cases
  · rw [hsame]
    exact ⟨hmem, hbefore⟩
  · have hband : q.promote.queues boostedLevel = q.queues boostedLevel ++ [batch] := by
      rw [hqueues, update_self]
    refine ⟨hband ▸ mem_append_left _ hmem, le_trans (before_le ?_ ?_) hbefore⟩
    · intro level hlevel
      rw [q.promote_queues_above hlevel]
    · rw [hband, idxOf_append_of_mem hmem]

lemma WaitsBehind.popNext (hwf : q.WellFormed) (hq : q.promote.WaitsBehind token count) :
    q.popNext.1 = some token ∨ 0 < count ∧ q.popNext.2.WaitsBehind token (count - 1) := by
  obtain ⟨hmem, hbefore⟩ := hq
  obtain ⟨level, picked, rest, hpicks⟩ := popNext_picks hwf (ne_nil_of_mem hmem)
  have hlevel : level ≤ boostedLevel := by
    by_contra hlt
    rw [hpicks.above boostedLevel (not_le.mp hlt)] at hmem
    cases hmem
  suffices hnext : q.popNext.1 ≠ some token → token ∈ q.popNext.2.queues boostedLevel ∧
      q.popNext.2.before token < q.promote.before token by
    by_cases hserved : q.popNext.1 = some token
    · exact .inl hserved
    · obtain ⟨hwaits, hlt⟩ := hnext hserved
      exact .inr ⟨by omega, hwaits, by omega⟩
  intro hserved
  rw [hpicks.token] at hserved
  rcases hlevel.lt_or_eq with hlevel | rfl
  -- Picked from a level above the band: that level is one shorter.
  · have hband : q.popNext.2.queues boostedLevel = q.promote.queues boostedLevel := by
      rw [hpicks.queues, update_of_ne hlevel.ne']
    refine ⟨hband ▸ hmem, ?_⟩
    simp only [before, hband]
    refine Nat.add_lt_add_right (Finset.sum_lt_sum ?_ ⟨level, Finset.mem_Iio.mpr hlevel, ?_⟩) _
    · intro other _
      rw [hpicks.queues]
      rcases eq_or_ne other level with rfl | hother
      · rw [update_self, hpicks.front]
        exact le_succ _
      · rw [update_of_ne hother]
    · rw [hpicks.queues, update_self, hpicks.front]
      exact lt_succ_self _
  -- Picked from the band itself: the task moves up one place.
  · have hne : picked ≠ token := fun heq => hserved (congrArg some heq)
    have hband : q.popNext.2.queues boostedLevel = rest := by rw [hpicks.queues, update_self]
    rw [hpicks.front] at hmem
    refine ⟨hband ▸ (mem_cons.mp hmem).resolve_left hne.symm, ?_⟩
    have habove : ∀ other ∈ Finset.Iio boostedLevel,
        (q.popNext.2.queues other).length = (q.promote.queues other).length := by
      intro other hother
      rw [hpicks.queues, update_of_ne (Finset.mem_Iio.mp hother).ne]
    rw [before, before, Finset.sum_congr rfl habove, hband, hpicks.front, idxOf_cons_ne _ hne]
    exact lt_succ_self _

end ReadyQueue

def pops (ops : List QueueOp) : Nat :=
  ops.count .popNext

namespace ReadyQueue

def served (q : ReadyQueue) : List QueueOp → List Nat
  | [] => []
  | .popNext :: ops => q.popNext.1.toList ++ q.popNext.2.served ops
  | op :: ops => (q.apply op).served ops

variable {q : ReadyQueue} {token count : Nat} {op : QueueOp}

lemma WaitsBehind.apply (hq : q.WaitsBehind token count) (hpop : op ≠ .popNext)
    (hyields : op.Yields token) : (q.apply op).WaitsBehind token count := by
  cases op with
  | push other prio => exact hq.push hyields
  | remove other => exact hq.remove hyields
  | popNext => exact absurd rfl hpop

lemma WaitsBehind.mem_served {ops : List QueueOp} (hwf : q.WellFormed)
    (hq : q.WaitsBehind token count) (hyields : ∀ op ∈ ops, op.Yields token)
    (hpops : count < pops ops) : token ∈ q.served ops := by
  induction ops generalizing q count with
  | nil => exact absurd hpops (Nat.not_lt_zero _)
  | cons op ops ih =>
    have hrest : ∀ other ∈ ops, other.Yields token := fun other hother =>
      hyields other (.tail _ hother)
    have hwf' := apply_wellFormed hwf op
    by_cases hop : op = .popNext
    · subst hop
      rw [pops, count_cons_self] at hpops
      obtain hserved | ⟨hpos, hwaits⟩ := WaitsBehind.popNext hwf hq.promote
      · simp [served, hserved]
      · exact mem_append_right _ (ih hwf' hwaits hrest (by simp only [pops]; omega))
    · have hnext := hq.apply hop (hyields op (.head _))
      rw [pops, count_cons_of_ne hop] at hpops
      have hmem := ih hwf' hnext hrest hpops
      cases op with
      | push other prio | remove other => exact hmem
      | popNext => exact absurd rfl hop

/-! ## The starvation clock -/

/-- The next pick is not from the normal band: a task waits above it, or the
band is empty and nothing is promoted into it. -/
def KeepsClock (q : ReadyQueue) : Prop :=
  (∃ level < boostedLevel, q.queues level ≠ []) ∨
    q.batchStarved < aiBatchStarvationTicks ∧ q.queues boostedLevel = []
deriving Decidable

lemma Picks.keepsClock_iff {level : Fin 32} {rest : List Nat} (hpicks : q.Picks level token rest)
    (hbatch : q.queues batchLevel ≠ []) : q.KeepsClock ↔ level ≠ boostedLevel := by
  constructor
  · rintro (⟨above, habove, hne⟩ | ⟨hclock, hempty⟩) rfl
    · rw [← q.promote_queues_above habove] at hne
      exact hne (hpicks.above above habove)
    · have hfront := hpicks.front
      rw [promote_of_not_starved hclock, hempty] at hfront
      cases hfront
  · intro hne
    rcases lt_or_gt_of_ne hne with hlt | hgt
    · refine .inl ⟨level, hlt, ?_⟩
      rw [← q.promote_queues_above hlt, hpicks.front]
      exact cons_ne_nil _ _
    · have hempty := hpicks.above boostedLevel hgt
      have hclock : q.batchStarved < aiBatchStarvationTicks := by
        by_contra hstarved
        obtain ⟨batch, others, hbatch⟩ := exists_cons_of_ne_nil hbatch
        rw [(promote_of_starved (Nat.not_lt.mp hstarved) hbatch).1, update_self] at hempty
        exact append_ne_nil_of_right_ne_nil _ (cons_ne_nil _ _) hempty
      rw [promote_of_not_starved hclock] at hempty
      exact .inr ⟨hclock, hempty⟩

lemma promote_batch_subset (q : ReadyQueue) :
    q.promote.queues batchLevel ⊆ q.queues batchLevel := by
  have hne : batchLevel ≠ boostedLevel := by decide
  obtain hsame | ⟨batch, rest, hbatch, hqueues⟩ := q.promote_cases
  · rw [hsame]
    exact Subset.refl _
  · rw [hqueues, update_of_ne hne, update_self, hbatch]
    exact subset_cons_self _ _

lemma popNext_clock (hwf : q.WellFormed) (hbefore : q.queues batchLevel ≠ [])
    (hafter : q.popNext.2.queues batchLevel ≠ []) (hserved : q.popNext.1 = some token)
    (htoken : token ∉ q.queues batchLevel) : q.KeepsClock ∧ q.popNext.2.batchStarved =
        (if q.batchStarved < aiBatchStarvationTicks then q.batchStarved + 1 else 1) ∨
      ¬q.KeepsClock ∧ q.popNext.2.batchStarved = 0 := by
  have hsome : ∃ level, q.promote.queues level ≠ [] := by
    obtain hsame | ⟨batch, rest, -, hqueues⟩ := q.promote_cases
    · exact ⟨batchLevel, by rw [hsame]; exact hbefore⟩
    · exact ⟨boostedLevel, by rw [hqueues, update_self]; simp⟩
  obtain ⟨_, hlevel⟩ := hsome
  obtain ⟨level, picked, rest, hpicks⟩ := popNext_picks hwf hlevel
  obtain rfl : picked = token := Option.some.inj (hpicks.token.symm.trans hserved)
  have hnotBatch : level ≠ batchLevel := by
    rintro rfl
    exact htoken (q.promote_batch_subset (hpicks.front ▸ (.head _)))
  have hclock := hpicks.clock
  by_cases hboosted : level = boostedLevel
  · rw [if_pos (.inr hboosted)] at hclock
    exact .inr ⟨fun hkeeps => (hpicks.keepsClock_iff hbefore).mp hkeeps hboosted, hclock⟩
  · rw [if_neg (not_or.mpr ⟨hnotBatch, hboosted⟩), if_pos hafter] at hclock
    refine .inl ⟨(hpicks.keepsClock_iff hbefore).mpr hboosted, ?_⟩
    split
    next hrunning =>
      rw [hclock, promote_of_not_starved hrunning]
      exact mod_eq_of_lt (by simp only [aiBatchStarvationTicks] at hrunning; omega)
    next hstarved =>
      obtain ⟨batch, others, hbatch⟩ := exists_cons_of_ne_nil hbefore
      rw [hclock, (promote_of_starved (Nat.not_lt.mp hstarved) hbatch).2]
      exact mod_eq_of_lt (by decide)

lemma apply_clock (hop : op ≠ .popNext) : (q.apply op).batchStarved = q.batchStarved := by
  cases op with
  | push other prio => rfl
  | remove other =>
    simp only [apply, remove]
    split <;> rfl
  | popNext => exact absurd rfl hop

def Undisturbed (q : ReadyQueue) : List QueueOp → Prop
  | [] => True
  | op :: ops => (op = .popNext → q.KeepsClock) ∧ (q.apply op).Undisturbed ops

end ReadyQueue

/-! ## Runs of the queue -/

/-- A queue, with the tokens that have been at its batch level. -/
structure BatchWatch where
  queue : ReadyQueue
  seen : List Nat

namespace BatchWatch

open ReadyQueue

def boot : BatchWatch :=
  { queue := new, seen := [] }

def apply (w : BatchWatch) (op : QueueOp) : BatchWatch :=
  { queue := w.queue.apply op, seen := w.seen ++ (w.queue.apply op).queues batchLevel }

def replay (w : BatchWatch) (ops : List QueueOp) : BatchWatch :=
  ops.foldl apply w

structure Inv (w : BatchWatch) : Prop where
  wellFormed : w.queue.WellFormed
  batch : w.queue.queues batchLevel ⊆ w.seen

lemma boot_inv : boot.Inv where
  wellFormed := new_wellFormed
  batch := nil_subset _

variable {w : BatchWatch}

lemma Inv.apply (hw : w.Inv) (op : QueueOp) : (w.apply op).Inv where
  wellFormed := apply_wellFormed hw.wellFormed op
  batch := subset_append_right _ _

lemma Inv.replay (hw : w.Inv) (ops : List QueueOp) : (w.replay ops).Inv := by
  induction ops generalizing w with
  | nil => exact hw
  | cons op ops ih => exact ih (hw.apply op)

/-- An operation that, if it is a pick, returns a token that never was at the
batch level. -/
def Overlooks (w : BatchWatch) : QueueOp → Prop
  | .popNext => ∃ token ∈ w.queue.popNext.1, token ∉ w.seen
  | _ => True

/-- The batch level is never empty, and no pick returns a token that was there. -/
def Skipped (w : BatchWatch) : List QueueOp → Prop
  | [] => w.queue.queues batchLevel ≠ []
  | op :: ops => w.queue.queues batchLevel ≠ [] ∧ w.Overlooks op ∧ (w.apply op).Skipped ops

lemma Skipped.batch_ne_nil {ops : List QueueOp} (hops : w.Skipped ops) :
    w.queue.queues batchLevel ≠ [] := by
  cases ops with
  | nil => exact hops
  | cons op ops => exact hops.1

variable {ops : List QueueOp}

lemma Skipped.pop (hw : w.Inv) (hops : w.Skipped (.popNext :: ops)) :
    w.queue.KeepsClock ∧ (w.apply .popNext).queue.batchStarved =
        (if w.queue.batchStarved < aiBatchStarvationTicks then w.queue.batchStarved + 1 else 1) ∨
      ¬w.queue.KeepsClock ∧ (w.apply .popNext).queue.batchStarved = 0 := by
  obtain ⟨hbefore, ⟨token, hserved, htoken⟩, hrest⟩ := hops
  exact popNext_clock hw.wellFormed hbefore hrest.batch_ne_nil hserved
    fun hmem => htoken (hw.batch hmem)

lemma clock_of_undisturbed (hw : w.Inv) (hops : w.Skipped ops) (hkeeps : w.queue.Undisturbed ops)
    (hroom : w.queue.batchStarved + pops ops ≤ aiBatchStarvationTicks) :
    (w.replay ops).queue.batchStarved = w.queue.batchStarved + pops ops := by
  induction ops generalizing w with
  | nil => rfl
  | cons op ops ih =>
    have hrest := ih (hw.apply op) hops.2.2 hkeeps.2
    by_cases hop : op = .popNext
    · subst hop
      rw [pops, count_cons_self] at hroom ⊢
      obtain ⟨-, hclock⟩ | ⟨hlost, -⟩ := hops.pop hw
      · rw [if_pos (by omega)] at hclock
        rw [hclock] at hrest
        simp only [pops] at hrest
        exact (hrest (by omega)).trans (by omega)
      · exact absurd (hkeeps.1 rfl) hlost
    · rw [pops, count_cons_of_ne hop] at hroom ⊢
      have hclock : (w.apply op).queue.batchStarved = w.queue.batchStarved := apply_clock hop
      rw [hclock] at hrest
      exact hrest hroom

lemma undisturbed_of_clock (hw : w.Inv) (hops : w.Skipped ops)
    (hpops : pops ops < aiBatchStarvationTicks)
    (hlimit : aiBatchStarvationTicks ≤ (w.replay ops).queue.batchStarved) :
    w.queue.Undisturbed ops ∧ (w.replay ops).queue.batchStarved = w.queue.batchStarved + pops ops ∧
      (0 < pops ops → (w.replay ops).queue.batchStarved ≤ aiBatchStarvationTicks) := by
  induction ops generalizing w with
  | nil => exact ⟨trivial, rfl, fun hpos => absurd hpos (Nat.lt_irrefl 0)⟩
  | cons op ops ih =>
    have hrest := ih (hw.apply op) hops.2.2
    change aiBatchStarvationTicks ≤ ((w.apply op).replay ops).queue.batchStarved at hlimit
    change _ ∧ ((w.apply op).replay ops).queue.batchStarved = _ ∧
      (_ → ((w.apply op).replay ops).queue.batchStarved ≤ _)
    by_cases hop : op = .popNext
    · subst hop
      rw [pops, count_cons_self] at hpops ⊢
      simp only [pops] at hrest
      obtain ⟨hundisturbed, hfinal, hle⟩ := hrest (by omega) hlimit
      obtain ⟨hkeeps, hclock⟩ | ⟨-, hclock⟩ := hops.pop hw
      · split at hclock
        · exact ⟨⟨fun _ => hkeeps, hundisturbed⟩, by omega, fun _ => by omega⟩
        · omega
      · omega
    · rw [pops, count_cons_of_ne hop] at hpops ⊢
      obtain ⟨hundisturbed, hfinal, hle⟩ := hrest hpops hlimit
      have hclock : (w.apply op).queue.batchStarved = w.queue.batchStarved := apply_clock hop
      exact ⟨⟨fun heq => absurd heq hop, hundisturbed⟩, hclock ▸ hfinal, hle⟩

lemma limit_le_clock_iff (hw : w.Inv) (hops : w.Skipped ops)
    (hpops : pops ops = aiBatchStarvationTicks) :
    aiBatchStarvationTicks ≤ (w.replay ops).queue.batchStarved ↔
      (w.queue.batchStarved = 0 ∨ aiBatchStarvationTicks ≤ w.queue.batchStarved) ∧
        w.queue.Undisturbed ops := by
  induction ops generalizing w with
  | nil => cases hpops
  | cons op ops ih =>
    by_cases hop : op = .popNext
    -- The first pick starts the count; the rest is fewer picks than the limit.
    · subst hop
      rw [pops, count_cons_self] at hpops
      change _ ≤ ((w.apply .popNext).replay ops).queue.batchStarved ↔ _
      have hcount : pops ops + 1 = aiBatchStarvationTicks := hpops
      have hstep := hops.pop hw
      constructor
      · intro hlimit
        obtain ⟨hundisturbed, hfinal, hle⟩ :=
          undisturbed_of_clock (hw.apply .popNext) hops.2.2 (by omega) hlimit
        have hpos : 0 < pops ops := by
          simp only [aiBatchStarvationTicks] at hcount
          omega
        have hbound := hle hpos
        obtain ⟨hkeeps, hclock⟩ | ⟨-, hclock⟩ := hstep
        · refine ⟨?_, fun _ => hkeeps, hundisturbed⟩
          split at hclock
          · exact .inl (by omega)
          · exact .inr (by omega)
        · omega
      · rintro ⟨hstart, hkeeps, hundisturbed⟩
        obtain ⟨-, hclock⟩ | ⟨hlost, -⟩ := hstep
        · have hone : (w.apply .popNext).queue.batchStarved = 1 := by
            rw [hclock]
            split <;> omega
          rw [clock_of_undisturbed (hw.apply .popNext) hops.2.2 hundisturbed (by omega)]
          omega
        · exact absurd (hkeeps rfl) hlost
    · have hclock : (w.apply op).queue.batchStarved = w.queue.batchStarved := apply_clock hop
      rw [pops, count_cons_of_ne hop] at hpops
      rw [← hclock]
      refine (ih (hw.apply op) hops.2.2 hpops).trans (and_congr_right fun _ => ?_)
      exact ⟨fun hrest => ⟨fun heq => absurd heq hop, hrest⟩, fun hall => hall.2⟩

end BatchWatch

namespace ReadyQueue

variable {q : ReadyQueue} {token : Nat}

def ahead (q : ReadyQueue) : Nat :=
  ∑ level ∈ Finset.Iio boostedLevel, (q.queues level).length + (q.queues boostedLevel).length

/-- The next pick moves the oldest batch task to the tail of the normal band,
where it is served after at most the tasks at or above the band, unless
something is queued above the band or the task is removed. -/
def Boosts (q : ReadyQueue) : Prop :=
  ∃ token rest, q.queues batchLevel = token :: rest ∧ q.promote.queues batchLevel = rest ∧
    q.promote.queues boostedLevel = q.queues boostedLevel ++ [token] ∧
    ∀ later : List QueueOp, (∀ op ∈ later, op.Yields token) →
      q.ahead < pops (.popNext :: later) → token ∈ q.served (.popNext :: later)

lemma waitsBehind_ahead (hband : q.promote.queues boostedLevel = q.queues boostedLevel ++ [token]) :
    q.promote.WaitsBehind token q.ahead := by
  have habove : ∀ level ∈ Finset.Iio boostedLevel,
      (q.promote.queues level).length = (q.queues level).length := by
    intro level hlevel
    rw [q.promote_queues_above (Finset.mem_Iio.mp hlevel)]
  refine ⟨by simp [hband], ?_⟩
  rw [before, ahead, Finset.sum_congr rfl habove, hband]
  refine Nat.add_le_add_left ?_ _
  have hlt := idxOf_lt_length_of_mem (mem_append_right (q.queues boostedLevel)
    (mem_singleton_self token))
  rw [length_append, length_singleton] at hlt
  exact Nat.lt_succ_iff.mp hlt

lemma boosts_iff (hwf : q.WellFormed) (hbatch : q.queues batchLevel ≠ []) :
    q.Boosts ↔ aiBatchStarvationTicks ≤ q.batchStarved := by
  constructor
  · rintro ⟨token, rest, hfront, hshort, -⟩
    by_contra hrunning
    rw [promote_of_not_starved (Nat.not_le.mp hrunning), hfront] at hshort
    exact cons_ne_self _ _ hshort
  · intro hstarved
    obtain ⟨token, rest, hfront⟩ := exists_cons_of_ne_nil hbatch
    have hqueues := (promote_of_starved hstarved hfront).1
    have hne : batchLevel ≠ boostedLevel := by decide
    have hband : q.promote.queues boostedLevel = q.queues boostedLevel ++ [token] := by
      rw [hqueues, update_self]
    refine ⟨token, rest, hfront, ?_, hband, ?_⟩
    · rw [hqueues, update_of_ne hne, update_self]
    · intro later hlater hpops
      rw [pops, count_cons_self] at hpops
      obtain hserved | ⟨hpos, hwaits⟩ := WaitsBehind.popNext hwf (waitsBehind_ahead hband)
      · simp [served, hserved]
      · exact mem_append_right _ (hwaits.mem_served (apply_wellFormed hwf .popNext) hlater
          (by simp only [pops]; omega))

end ReadyQueue

namespace BatchWatch

open ReadyQueue

lemma Skipped.replay {w : BatchWatch} {ops : List QueueOp} (hops : w.Skipped ops) :
    (w.replay ops).queue.queues batchLevel ≠ [] := by
  induction ops generalizing w with
  | nil => exact hops
  | cons op ops ih => exact ih hops.2.2

instance (w : BatchWatch) (op : QueueOp) : Decidable (w.Overlooks op) := by
  unfold Overlooks
  split <;> infer_instance

instance decidableSkipped : ∀ (w : BatchWatch) (ops : List QueueOp), Decidable (w.Skipped ops)
  | w, [] => inferInstanceAs (Decidable (w.queue.queues batchLevel ≠ []))
  | w, op :: ops =>
    have := decidableSkipped (w.apply op) ops
    inferInstanceAs (Decidable (_ ≠ [] ∧ w.Overlooks op ∧ (w.apply op).Skipped ops))

instance decidableUndisturbed :
    ∀ (q : ReadyQueue) (ops : List QueueOp), Decidable (q.Undisturbed ops)
  | _, [] => .isTrue trivial
  | q, op :: ops =>
    have := decidableUndisturbed (q.apply op) ops
    inferInstanceAs (Decidable ((op = .popNext → q.KeepsClock) ∧ (q.apply op).Undisturbed ops))

/-- After as many picks as the limit that all passed over a waiting batch task,
the next pick boosts it exactly if none of them was from the normal band and
the clock had not already counted some picks before. -/
theorem boosts_after_skips_iff (past window : List QueueOp)
    (hskipped : (boot.replay past).Skipped window) (hpops : pops window = aiBatchStarvationTicks) :
    (boot.replay (past ++ window)).queue.Boosts ↔ ((boot.replay past).queue.batchStarved = 0 ∨
        aiBatchStarvationTicks ≤ (boot.replay past).queue.batchStarved) ∧
      (boot.replay past).queue.Undisturbed window := by
  have hinv := boot_inv.replay past
  have happend : boot.replay (past ++ window) = (boot.replay past).replay window :=
    foldl_append
  rw [happend, boosts_iff (hinv.replay window).wellFormed hskipped.replay]
  exact limit_le_clock_iff hinv hskipped hpops

def twoTasks (prio : Nat) : List QueueOp :=
  [.push 1 prio, .push 2 aiBatchPrio]

/-- The first task is picked and queued again at its priority, over and over. -/
def rounds (prio : Nat) : List QueueOp :=
  (List.replicate aiBatchStarvationTicks [.popNext, .push 1 prio]).flatten

theorem boosts_after_skips_iff_rtTask : (boot.replay (twoTasks 0)).Skipped (rounds 0) ∧
    pops (rounds 0) = aiBatchStarvationTicks ∧
    (boot.replay (twoTasks 0 ++ rounds 0)).queue.Boosts := by
  have hskipped : (boot.replay (twoTasks 0)).Skipped (rounds 0) := by decide +kernel
  have hpops : pops (rounds 0) = aiBatchStarvationTicks := by decide +kernel
  refine ⟨hskipped, hpops, (boosts_after_skips_iff _ _ hskipped hpops).mpr ⟨.inl rfl, ?_⟩⟩
  decide +kernel

/-- A normal task that is picked again and again keeps the clock at zero. -/
theorem normal_task_starves_batch_task :
    (boot.replay (twoTasks normalPrio)).Skipped (rounds normalPrio) ∧
      pops (rounds normalPrio) = aiBatchStarvationTicks ∧
      ¬ (boot.replay (twoTasks normalPrio ++ rounds normalPrio)).queue.Boosts := by
  refine ⟨by decide +kernel, by decide +kernel, ?_⟩
  have hinv := boot_inv.replay (twoTasks normalPrio ++ rounds normalPrio)
  rw [boosts_iff hinv.wellFormed (by decide +kernel)]
  decide +kernel

end BatchWatch

end KarteOs.Sched

import Mathlib.Algebra.Order.Ring.Nat
import KarteOs.Foundation.OrderedMap
import KarteOs.Foundation.Run

/-! # Election of the leading brain

`arbiter.rs` runs a simplified bully election: a follower whose leader is
silent for longer than the lease stands as a candidate, a brain answers a
weaker candidate by standing itself, and a candidate with two votes leads. The
role of a brain and the leader it names agree, except where a heartbeat arrives
that a leader does not expect, or that carries the brain's own id.
-/

namespace KarteOs.Fabric

open Transition

inductive Verb where
  | elect
  | victory
  | heartbeat
deriving DecidableEq

def leaseTimeoutMs : Nat := 3000

inductive Role where
  | follower
  | candidate
  | leader
deriving DecidableEq

structure Arbiter where
  selfId : Nat
  selfPriority : Nat
  role : Role
  leaderId : Option Nat
  term : Nat
  lastHeartbeatMs : Nat
  /-- The candidate each voter is for. -/
  votes : OrderedMap Nat Nat
  elections : Nat

namespace Arbiter

def new (selfId selfPriority : Nat) : Arbiter :=
  ⟨selfId, selfPriority, .follower, none, 0, 0, .empty, 0⟩

/-- `start_election`: the next term, a vote for oneself, and the role of a candidate. -/
def startElection (a : Arbiter) (_nowMs : Nat) : Arbiter × Option Verb :=
  ({ a with
      term := (a.term + 1) % 2 ^ 32
      role := .candidate
      leaderId := none
      votes := OrderedMap.empty.insert a.selfId a.selfId
      elections := (a.elections + 1) % 2 ^ 32 },
    some .elect)

variable (votes : OrderedMap Nat Nat)

def votesFor (cand : Nat) : Nat :=
  (votes.entries.countP fun vote => decide (vote.2 = cand)) % 2 ^ 32

/-- The better of the best candidate so far and the next one: more votes, then the
greater id. -/
def better (best : Option (Nat × Nat)) (vote : Nat × Nat) : Option (Nat × Nat) :=
  let count := (best.map Prod.fst).getD 0
  if count < votesFor votes vote.2 ∨ (votesFor votes vote.2 = count ∧
      (best.map fun found => decide (found.2 < vote.2)).getD true = true) then
    some (votesFor votes vote.2, vote.2)
  else best

def best : Option (Nat × Nat) :=
  votes.entries.foldl (better votes) none

variable (a : Arbiter)

def follow (leader : Nat) : Arbiter :=
  { a with
    leaderId := some leader
    role := if leader = a.selfId then .leader else .follower }

def resolve (_nowMs : Nat) : Arbiter × Option Verb :=
  if a.role ≠ .candidate then (a, none)
  else
    match best a.votes with
    | some (count, cand) => if 2 ≤ count then (a.follow cand, some .victory) else (a, none)
    | none => (a, none)

/-- `tick`: a follower whose leader's lease is over stands for election. -/
def tick (nowMs : Nat) : Arbiter × Option Verb :=
  match a.role with
  | .follower =>
    if a.leaderId.isSome ∧ leaseTimeoutMs < nowMs - a.lastHeartbeatMs then a.startElection nowMs
    else (a, none)
  | .candidate => a.resolve nowMs
  | .leader => (a, some .heartbeat)

def vote (cand : Nat) : Arbiter := { a with votes := a.votes.insert a.selfId cand }

/-- `on_elect`: a weaker candidate is answered by one's own candidature. Between equals the
greater id counts, and a candidature that starts there is not announced. -/
def onElect (cand priority nowMs : Nat) : Arbiter × Option Verb :=
  if a.selfPriority < priority then (a.vote cand, none)
  else if priority < a.selfPriority then a.startElection nowMs
  else if a.selfId < cand then (a.vote cand, none)
  -- the source drops the verb of this candidature
  else ((a.startElection nowMs).1, none)

def onHeartbeat (leader nowMs : Nat) : Arbiter :=
  { a with
    lastHeartbeatMs := nowMs
    leaderId := some leader
    role := if a.role = .candidate then .follower else a.role }

def onVictory (leader : Nat) : Arbiter := { a.follow leader with votes := .empty }

/-! ## Calls of a brain -/

inductive Call where
  | tick (nowMs : Nat)
  | startElection (nowMs : Nat)
  | onElect (cand priority nowMs : Nat)
  | resolve (nowMs : Nat)
  | onHeartbeat (leader nowMs : Nat)
  | onVictory (leader : Nat)

def apply (a : Arbiter) : Call → Arbiter
  | .tick nowMs => (a.tick nowMs).1
  | .startElection nowMs => (a.startElection nowMs).1
  | .onElect cand priority nowMs => (a.onElect cand priority nowMs).1
  | .resolve nowMs => (a.resolve nowMs).1
  | .onHeartbeat leader nowMs => a.onHeartbeat leader nowMs
  | .onVictory leader => a.onVictory leader

structure Consistent (a : Arbiter) : Prop where
  leads : a.role = .leader ↔ a.leaderId = some a.selfId
  stands : a.role = .candidate → a.leaderId = none

def Yields (a : Arbiter) : Call → Prop
  | .onHeartbeat leader nowMs =>
    a.role = .leader → leader ≠ a.selfId → (a.onHeartbeat leader nowMs).role ≠ .leader
  | _ => True

/-- After the call the brain is consistent, and it has yielded if it had to. -/
def Settles (a : Arbiter) (call : Call) : Prop := (a.apply call).Consistent ∧ a.Yields call

def Expects (a : Arbiter) : Call → Prop
  | .onHeartbeat leader _ => leader = a.selfId ↔ a.role = .leader
  | _ => True

variable {a : Arbiter} {nowMs : Nat} {votes : OrderedMap Nat Nat}

lemma startElection_consistent : (a.startElection nowMs).1.Consistent :=
  ⟨by simp [startElection], fun _ => rfl⟩

lemma follow_consistent (leader : Nat) : (a.follow leader).Consistent := by
  constructor
  · change (if leader = a.selfId then Role.leader else .follower) = .leader ↔
      some leader = some a.selfId
    split
    next heq => simp [heq]
    next hne => simp [hne]
  · change (if leader = a.selfId then Role.leader else .follower) = .candidate → _
    split
    · exact nofun
    · exact nofun

lemma foldl_better_le (given : List (Nat × Nat)) {start found : Option (Nat × Nat)}
    (hstart : ∀ count cand, start = some (count, cand) → count ≤ votes.entries.length)
    (hfound : given.foldl (better votes) start = found) (count cand : Nat)
    (hsome : found = some (count, cand)) : count ≤ votes.entries.length := by
  induction given generalizing start with
  | nil => exact hstart count cand (hfound.trans hsome)
  | cons vote given ih =>
    refine ih (fun count cand hbetter => ?_) hfound
    rw [better] at hbetter
    split at hbetter
    · cases hbetter
      exact (Nat.mod_le ..).trans List.countP_le_length
    · exact hstart count cand hbetter

lemma resolve_cases (a : Arbiter) (nowMs : Nat) :
    a.resolve nowMs = (a, none) ∨ a.role = .candidate ∧ 2 ≤ a.votes.entries.length ∧
      ∃ cand, a.resolve nowMs = (a.follow cand, some .victory) := by
  rw [resolve]
  split
  · exact .inl rfl
  next hrole =>
    split
    next count cand hbest =>
      split
      next hcount => exact .inr ⟨not_not.mp hrole, hcount.trans
        (foldl_better_le _ (fun _ _ hnone => by cases hnone) rfl _ _ hbest), cand, rfl⟩
      · exact .inl rfl
    · exact .inl rfl

lemma tick_cases (a : Arbiter) (nowMs : Nat) : a.tick nowMs = (a, none) ∨
    a.role = .follower ∧ a.tick nowMs = a.startElection nowMs ∨
    a.role = .candidate ∧ a.tick nowMs = a.resolve nowMs ∨
    a.role = .leader ∧ a.tick nowMs = (a, some .heartbeat) := by
  rw [tick]
  split
  next hrole =>
    split
    · exact .inr (.inl ⟨hrole, rfl⟩)
    · exact .inl rfl
  next hrole => exact .inr (.inr (.inl ⟨hrole, rfl⟩))
  next hrole => exact .inr (.inr (.inr ⟨hrole, rfl⟩))

lemma onElect_cases (a : Arbiter) (cand priority nowMs : Nat) :
    a.onElect cand priority nowMs = (a.vote cand, none) ∨
      (a.onElect cand priority nowMs).1 = (a.startElection nowMs).1 ∧
        (a.onElect cand priority nowMs).2 ∈ [none, some .elect] := by
  rw [onElect]
  split
  · exact .inl rfl
  · split
    · exact .inr ⟨rfl, by simp [startElection]⟩
    · split
      · exact .inl rfl
      · exact .inr ⟨rfl, by simp⟩

lemma Consistent.resolve (ha : a.Consistent) : (a.resolve nowMs).1.Consistent := by
  rcases resolve_cases a nowMs with hsame | ⟨-, -, cand, helected⟩
  · rwa [hsame]
  · rw [helected]
    exact follow_consistent cand

lemma Consistent.tick (ha : a.Consistent) : (a.tick nowMs).1.Consistent := by
  rcases tick_cases a nowMs with hsame | ⟨-, htick⟩ | ⟨-, htick⟩ | ⟨-, htick⟩
  · rwa [hsame]
  · rw [htick]
    exact startElection_consistent
  · rw [htick]
    exact ha.resolve
  · rwa [htick]

lemma Consistent.onElect (ha : a.Consistent) (cand priority : Nat) :
    (a.onElect cand priority nowMs).1.Consistent := by
  rcases onElect_cases a cand priority nowMs with hvote | ⟨hstands, -⟩
  · rw [hvote]
    exact ⟨ha.leads, ha.stands⟩
  · rw [hstands]
    exact startElection_consistent

lemma onHeartbeat_settles_iff (leader : Nat) :
    a.Settles (.onHeartbeat leader nowMs) ↔ a.Expects (.onHeartbeat leader nowMs) := by
  have hconsistent : (a.onHeartbeat leader nowMs).Consistent ↔
      (a.role = .leader ↔ leader = a.selfId) := by
    constructor
    · rintro ⟨hleads, -⟩
      cases hrole : a.role <;> simp_all [Arbiter.onHeartbeat]
    · intro hleads
      constructor <;> cases hrole : a.role <;> simp_all [Arbiter.onHeartbeat]
  constructor
  · rintro ⟨hafter, -⟩
    exact (hconsistent.mp hafter).symm
  · intro hexpects
    exact ⟨hconsistent.mpr hexpects.symm, fun hleads hother => absurd (hexpects.mpr hleads) hother⟩

lemma settles_iff (ha : a.Consistent) (call : Call) : a.Settles call ↔ a.Expects call := by
  cases call with
  | tick nowMs => exact iff_of_true ⟨ha.tick, trivial⟩ trivial
  | startElection nowMs => exact iff_of_true ⟨startElection_consistent, trivial⟩ trivial
  | onElect cand priority nowMs => exact iff_of_true ⟨ha.onElect cand priority, trivial⟩ trivial
  | resolve nowMs => exact iff_of_true ⟨ha.resolve, trivial⟩ trivial
  | onHeartbeat leader nowMs => exact onHeartbeat_settles_iff leader
  | onVictory leader =>
    have hfollow := follow_consistent (a := a) leader
    exact iff_of_true ⟨⟨hfollow.leads, hfollow.stands⟩, trivial⟩ trivial

/-- The role and the named leader agree after every call, and leaders yield to other
leaders, exactly if every heartbeat with a brain's own id finds it leading and every
other heartbeat does not. -/
theorem roles_consistent_iff (selfId selfPriority : Nat) (calls : List Call) :
    Allowed Settles apply (new selfId selfPriority) calls ↔
      Allowed Expects apply (new selfId selfPriority) calls := by
  -- settling is what keeps a brain consistent, so the two conditions agree call by call
  have hiff : ∀ (a : Arbiter) call, a.Consistent → (a.Settles call ↔ a.Expects call) :=
    fun a call ha => settles_iff ha call
  exact Allowed.iff_of_invariant hiff (fun a call _ hsettles => hsettles.1)
    ⟨by simp [new], fun hstands => by cases hstands⟩ calls

/-- A leader that hears another brain's heartbeat stays leader and names the other. -/
theorem leader_ignores_heartbeat :
    ¬ ∀ selfId selfPriority calls, Allowed Settles apply (new selfId selfPriority) calls := by
  intro hsettles
  obtain ⟨-, hheartbeat, -⟩ := hsettles 1 10 [.onVictory 1, .onHeartbeat 2 100]
  exact hheartbeat.2 rfl (by decide) rfl

end Arbiter

end KarteOs.Fabric

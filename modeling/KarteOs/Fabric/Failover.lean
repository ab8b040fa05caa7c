import KarteOs.Fabric.Arbiter
import KarteOs.Foundation.Broadcast

/-! # Failover of the leading brain

The brains of a group hear each other only through `on_elect`, `on_victory`
and `on_heartbeat`. A vote is kept by the voter under its own id and is sent to
nobody, so the candidate it is for never counts it: each candidate has its own
vote alone, two are needed, and a group whose leader falls silent never gets
another one.
-/

namespace KarteOs.Fabric

open Transition Broadcast Protocol

inductive ArbiterMsg where
  | elect (cand priority : Nat)
  | victory (leader : Nat)
  | heartbeat (leader : Nat)
deriving DecidableEq

namespace Arbiter

/-- A returned verb as a message: a candidature carries the sender's id and priority, a
victory the elected leader, a heartbeat the sender. -/
def toMsg (a : Arbiter) : Verb → Option ArbiterMsg
  | .elect => some (.elect a.selfId a.selfPriority)
  | .victory => a.leaderId.map .victory
  | .heartbeat => some (.heartbeat a.selfId)

def announced (result : Arbiter × Option Verb) : Arbiter × Option ArbiterMsg :=
  (result.1, result.2.bind result.1.toMsg)

def protocol : Protocol Arbiter ArbiterMsg where
  tick nowMs a := announced (a.tick nowMs)
  receive
    | .elect cand priority, nowMs, a => announced (a.onElect cand priority nowMs)
    | .victory leader, _, a => (a.onVictory leader, none)
    | .heartbeat leader, nowMs, a => (a.onHeartbeat leader nowMs, none)

abbrev Group := System Arbiter ArbiterMsg

/-- Two or more brains follow a leader that is not among them and is silent. -/
structure Orphaned (group : Group) (leader : Nat) : Prop where
  many : 2 ≤ group.nodes.length
  distinct : (group.nodes.map selfId).Nodup
  follow : ∀ a ∈ group.nodes, a.role = .follower ∧ a.leaderId = some leader
  gone : ∀ a ∈ group.nodes, a.selfId ≠ leader
  silent : group.flight = []

def AtMost (a b : Arbiter) : Prop :=
  a.selfPriority < b.selfPriority ∨ a.selfPriority = b.selfPriority ∧ a.selfId ≤ b.selfId

def Elected (group : Group) : Prop :=
  ∃ best ∈ group.nodes, (∀ a ∈ group.nodes, a.AtMost best) ∧ best.role = .leader ∧
    ∀ a ∈ group.nodes, a.selfId ≠ best.selfId → a.leaderId = some best.selfId

def FailsOver (group : Group) : Prop :=
  ∀ trace : Trace protocol.Step, trace.state 0 = group → Fair trace →
    ∃ time, Elected (trace.state time)

/-! ## Nobody is elected -/

/-- A brain that does not lead, and as a candidate knows of no vote but its own. -/
structure Alone (a : Arbiter) : Prop where
  subject : a.role ≠ .leader
  votes : a.role = .candidate → ∀ vote ∈ a.votes.entries, vote.1 = a.selfId

def Stands : ArbiterMsg → Prop
  | .elect _ _ => True
  | _ => False

/-- The result of a call keeps a brain alone, and announces a candidature at most. -/
def StaysAlone (result : Arbiter × Option ArbiterMsg) : Prop :=
  result.1.Alone ∧ ∀ msg, result.2 = some msg → Stands msg

variable {a : Arbiter} {nowMs : Nat}

lemma Alone.votes_length (ha : a.Alone) (hrole : a.role = .candidate) :
    a.votes.entries.length ≤ 1 := by
  by_contra hmany
  obtain ⟨first, second, rest, hentries⟩ : ∃ first second rest,
      a.votes.entries = first :: second :: rest := by
    match hentries : a.votes.entries with
    | [] | [_] => simp [hentries] at hmany
    | first :: second :: rest => exact ⟨first, second, rest, rfl⟩
  -- two entries of a sorted map have different keys
  have hsorted := a.votes.sorted
  rw [hentries] at hsorted
  have hlt : first.1 < second.1 := List.rel_of_pairwise_cons hsorted (.head _)
  rw [ha.votes hrole first (by simp [hentries]), ha.votes hrole second (by simp [hentries])] at hlt
  exact lt_irrefl _ hlt

lemma mem_insert_entries {votes : OrderedMap Nat Nat} {key value : Nat} {vote : Nat × Nat}
    (hvote : vote ∈ (votes.insert key value).entries) : vote.1 = key ∨ vote ∈ votes.entries := by
  have hget := OrderedMap.get_eq_some_iff.mpr hvote
  by_cases hkey : vote.1 = key
  · exact .inl hkey
  · rw [OrderedMap.get_insert_of_ne hkey] at hget
    exact .inr (OrderedMap.get_eq_some_iff.mp hget)

lemma startElection_alone : (a.startElection nowMs).1.Alone where
  subject hleads := by cases hleads
  votes _ vote hvote := by
    rcases mem_insert_entries hvote with hself | hnone
    exacts [hself, absurd hnone List.not_mem_nil]

lemma Alone.vote (ha : a.Alone) (cand : Nat) : (a.vote cand).Alone where
  subject := ha.subject
  votes hrole vote hvote := by
    -- whoever the vote is for, the voter files it under its own id
    rcases mem_insert_entries hvote with hself | hold
    exacts [hself, ha.votes hrole vote hold]

lemma Alone.resolve (ha : a.Alone) : a.resolve nowMs = (a, none) := by
  rcases resolve_cases a nowMs with hsame | ⟨hrole, hmany, -⟩
  · exact hsame
  · exact absurd (ha.votes_length hrole) (Nat.not_le.mpr hmany)

lemma startElection_announced : StaysAlone (announced (a.startElection nowMs)) := by
  have halone : (a.startElection nowMs).1.Alone := startElection_alone
  refine ⟨halone, fun msg hmsg => ?_⟩
  cases hmsg
  trivial

lemma Alone.quiet (ha : a.Alone) : StaysAlone (announced (a, none)) :=
  ⟨ha, fun _ hmsg => by cases hmsg⟩

lemma Alone.tick (ha : a.Alone) : StaysAlone (announced (a.tick nowMs)) := by
  rcases tick_cases a nowMs with hsame | ⟨-, htick⟩ | ⟨-, htick⟩ | ⟨hleads, -⟩
  · rw [hsame]
    exact ha.quiet
  · rw [htick]
    exact startElection_announced
  · rw [htick, ha.resolve]
    exact ha.quiet
  · exact absurd hleads ha.subject

lemma Alone.onElect (ha : a.Alone) (cand priority : Nat) :
    StaysAlone (announced (a.onElect cand priority nowMs)) := by
  rcases onElect_cases a cand priority nowMs with hvote | ⟨hstands, hverb⟩
  · rw [hvote]
    exact (ha.vote cand).quiet
  · refine ⟨?_, fun msg hmsg => ?_⟩
    · rw [announced, hstands]
      exact startElection_alone
    · rw [announced] at hmsg
      obtain ⟨verb, hsome, hmsg⟩ := Option.bind_eq_some_iff.mp hmsg
      rw [hsome] at hverb
      obtain rfl : verb = .elect := by simpa using hverb
      cases hmsg
      trivial

variable {group : Group} {leader : Nat}

section
variable (hgroup : Orphaned group leader)
include hgroup

variable (trace : Trace protocol.Step)

lemma Orphaned.alone (hstart : trace.state 0 = group) (time : Nat) :
    (trace.state time).Good Alone Stands := by
  refine Trace.good ?_ ?_ trace ?_ time
  · exact fun nowMs a ha => ha.tick
  · intro msg nowMs a hmsg ha
    cases msg with
    | elect cand priority => exact ha.onElect cand priority
    -- victories and heartbeats come from leaders, of which there is none
    | victory leader | heartbeat leader => exact absurd hmsg id
  · rw [hstart]
    constructor
    · intro a ha
      have hrole := (hgroup.follow a ha).1
      exact ⟨by simp [hrole], by simp [hrole]⟩
    · rw [hgroup.silent]
      exact fun entry hentry => absurd hentry List.not_mem_nil

lemma Orphaned.not_elected (hstart : trace.state 0 = group)
    (time : Nat) : ¬Elected (trace.state time) := by
  rintro ⟨best, hbest, -, hleads, -⟩
  exact ((hgroup.alone trace hstart time).nodes best hbest).subject hleads

lemma Orphaned.exists_fair : ∃ trace : Trace protocol.Step, trace.state 0 = group ∧ Fair trace :=
  have hnodes : 0 < group.nodes.length := lt_of_lt_of_le (by decide) hgroup.many
  ⟨inTurn protocol hnodes, rfl, inTurn_fair protocol hnodes⟩

end

/-- A group that has lost its leader never gets another one. -/
theorem orphaned_not_failsOver {group : Group} {leader : Nat} (hgroup : Orphaned group leader) :
    ¬ FailsOver group := by
  intro hfails
  obtain ⟨trace, hstart, hfair⟩ := hgroup.exists_fair
  obtain ⟨time, helected⟩ := hfails trace hstart hfair
  exact hgroup.not_elected trace hstart time helected

def twoBrains : Group := ⟨[(new 1 10).onVictory 3, (new 2 20).onVictory 3], []⟩

lemma twoBrains_orphaned : Orphaned twoBrains 3 where
  many := by decide
  distinct := by decide
  follow := by simp [twoBrains, onVictory, Arbiter.follow, new]
  gone := by simp [twoBrains, onVictory, Arbiter.follow, new]
  silent := rfl

theorem orphaned_not_failsOver_twoBrains : Orphaned twoBrains 3 ∧ ¬ FailsOver twoBrains :=
  ⟨twoBrains_orphaned, orphaned_not_failsOver twoBrains_orphaned⟩

/-- Brain 2 is never elected over brain 1. -/
theorem twoBrains_stay_leaderless : ¬ ∀ group leader, Orphaned group leader → FailsOver group := by
  intro hfails
  obtain ⟨trace, hstart, hfair⟩ := twoBrains_orphaned.exists_fair
  obtain ⟨time, helected⟩ := hfails twoBrains 3 twoBrains_orphaned trace hstart hfair
  exact twoBrains_orphaned.not_elected trace hstart time helected

end Arbiter

end KarteOs.Fabric

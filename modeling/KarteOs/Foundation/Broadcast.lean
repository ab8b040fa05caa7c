import Mathlib.Data.List.Basic
import KarteOs.Foundation.Run

/-! # Nodes that broadcast to each other

A group of nodes reacts to ticks of a clock and to messages; a reaction may
broadcast a message to all the others. Messages in flight are delivered one at
a time, in any order. An invariant of single nodes and of single messages holds
in every run, and there is an endless run in which every message is delivered
and every node ticks for ever.
-/

namespace Broadcast

open Transition List Nat

universe u v

variable {Node : Type u} {Msg : Type v}

/-- How a node reacts: its next state, and what it broadcasts. -/
structure Protocol (Node : Type u) (Msg : Type v) where
  tick : Nat → Node → Node × Option Msg
  receive : Msg → Nat → Node → Node × Option Msg

/-- The nodes, and the messages in flight with their receivers. -/
structure System (Node : Type u) (Msg : Type v) where
  nodes : List Node
  flight : List (Nat × Msg)

/-- A tick of a node, or the delivery of a message, at a time of the clock. -/
inductive Event (Msg : Type v) where
  | tick (who now : Nat)
  | deliver (who : Nat) (msg : Msg) (now : Nat)

/-- The time of an event. -/
def Event.now : Event Msg → Nat
  | .tick _ now => now
  | .deliver _ _ now => now

namespace System

/-- Everyone but the sender gets the message. -/
def toOthers (sys : System Node Msg) (sender : Nat) (msg : Msg) : List (Nat × Msg) :=
  ((List.range sys.nodes.length).filter (· ≠ sender)).map (·, msg)

/-- One node reacts. -/
def react (sys : System Node Msg) (who : Nat) (reaction : Node → Node × Option Msg) :
    System Node Msg :=
  match sys.nodes[who]? with
  | none => sys
  | some node =>
    ⟨sys.nodes.set who (reaction node).1,
      sys.flight ++ (reaction node).2.elim [] (sys.toOthers who)⟩

/-- All nodes and all messages in flight are good. -/
structure Good (node : Node → Prop) (msg : Msg → Prop) (sys : System Node Msg) : Prop where
  nodes : ∀ n ∈ sys.nodes, node n
  flight : ∀ entry ∈ sys.flight, msg entry.2

variable {sys : System Node Msg} {who : Nat} {reaction : Node → Node × Option Msg}

lemma react_nodes_length : (sys.react who reaction).nodes.length = sys.nodes.length := by
  rw [react]
  split
  · rfl
  · exact length_set

lemma react_flight : ∃ sent, (sys.react who reaction).flight = sys.flight ++ sent := by
  rw [react]
  split
  · exact ⟨[], (append_nil _).symm⟩
  · exact ⟨_, rfl⟩

lemma Good.react {node : Node → Prop} {msg : Msg → Prop} (hgood : sys.Good node msg)
    (hreaction : ∀ n, node n → node (reaction n).1 ∧ ∀ m, (reaction n).2 = some m → msg m) :
    (sys.react who reaction).Good node msg := by
  rw [System.react]
  split
  · exact hgood
  next n hn =>
    obtain ⟨hnode, hmsg⟩ := hreaction n (hgood.nodes n (mem_of_getElem? hn))
    refine ⟨fun n' hn' => ?_, fun entry hentry => ?_⟩
    · rcases mem_or_eq_of_mem_set hn' with hold | rfl
      exacts [hgood.nodes n' hold, hnode]
    · rcases mem_append.mp hentry with hold | hnew
      · exact hgood.flight entry hold
      · cases hsent : (reaction n).2 with
        | none =>
          rw [hsent] at hnew
          cases hnew
        | some m =>
          rw [hsent] at hnew
          obtain ⟨other, -, rfl⟩ := List.mem_map.mp hnew
          exact hmsg m hsent

end System

namespace Protocol

variable [DecidableEq Msg] (P : Protocol Node Msg)

/-- Only nodes of the group tick, and only messages in flight are delivered. -/
def Enabled (sys : System Node Msg) : Event Msg → Prop
  | .tick who _ => who < sys.nodes.length
  | .deliver who msg _ => (who, msg) ∈ sys.flight

def apply (sys : System Node Msg) : Event Msg → System Node Msg
  | .tick who now => sys.react who (P.tick now)
  | .deliver who msg now =>
    System.react { sys with flight := sys.flight.erase (who, msg) } who (P.receive msg now)

/-- The steps of the group. -/
def Step : System Node Msg → Event Msg → System Node Msg → Prop :=
  Guarded Enabled P.apply

variable {P} {sys : System Node Msg} {node : Node → Prop} {msg : Msg → Prop}

lemma apply_nodes_length (event : Event Msg) :
    (P.apply sys event).nodes.length = sys.nodes.length := by
  cases event with
  | tick who now | deliver who msg now => exact System.react_nodes_length

section
variable (htick : ∀ now n, node n → node (P.tick now n).1 ∧ ∀ m, (P.tick now n).2 = some m → msg m)
include htick

variable (hreceive : ∀ m now n, msg m → node n →
  node (P.receive m now n).1 ∧ ∀ m', (P.receive m now n).2 = some m' → msg m')
include hreceive

lemma apply_good {event : Event Msg} (henabled : Enabled sys event) (hgood : sys.Good node msg) :
    (P.apply sys event).Good node msg := by
  cases event with
  | tick who now => exact hgood.react (htick now)
  | deliver who m now =>
    have hrest : System.Good node msg { sys with flight := sys.flight.erase (who, m) } :=
      ⟨hgood.nodes, fun entry hentry => hgood.flight entry (mem_of_mem_erase hentry)⟩
    exact hrest.react fun n => hreceive m now n (hgood.flight _ henabled)

lemma Trace.good (trace : Trace P.Step) (hgood : (trace.state 0).Good node msg) (time : Nat) :
    (trace.state time).Good node msg := by
  refine trace.invariant_from _ hgood (fun time _ hgood => ?_) (Nat.zero_le time)
  obtain ⟨henabled, hnext⟩ := trace.steps time
  rw [hnext]
  exact apply_good htick hreceive henabled hgood

end

/-! ## A fair run -/

/-- Reliable delivery, and a clock that goes on for every node. -/
structure Fair (trace : Trace P.Step) : Prop where
  delivers : ∀ time who msg, (who, msg) ∈ (trace.state time).flight →
    ∃ later, time ≤ later ∧ ∃ now, trace.label later = .deliver who msg now
  ticks : ∀ who < (trace.state 0).nodes.length, ∀ time now,
    ∃ later, time ≤ later ∧ ∃ now', now ≤ now' ∧ trace.label later = .tick who now'
  clock : ∀ time later, time ≤ later → (trace.label time).now ≤ (trace.label later).now

/-- Ticks of all nodes in turn, and between them the oldest message. -/
def turn (sys : System Node Msg) (time : Nat) : Event Msg :=
  if time % 2 = 0 then .tick (time / 2 % sys.nodes.length) time
  else
    match sys.flight with
    | [] => .tick 0 time
    | (who, msg) :: _ => .deliver who msg time

omit [DecidableEq Msg] in
lemma turn_now (sys : System Node Msg) (time : Nat) : (turn sys time).now = time := by
  rw [turn]
  split
  · rfl
  · split
    · rfl
    · rfl

omit [DecidableEq Msg] in
lemma turn_enabled (hnodes : 0 < sys.nodes.length) (time : Nat) : Enabled sys (turn sys time) := by
  rw [turn]
  split
  · exact mod_lt _ hnodes
  · split
    · exact hnodes
    next who msg rest hflight =>
      rw [Enabled, hflight]
      exact .head _

variable (P) (start : System Node Msg)

/-- The states of the run in turn. -/
def rounds : Nat → System Node Msg
  | 0 => start
  | time + 1 => P.apply (rounds time) (turn (rounds time) time)

variable {start} {time who : Nat} {msg : Msg}

lemma rounds_nodes_length (time : Nat) :
    (rounds P start time).nodes.length = start.nodes.length := by
  induction time with
  | zero => rfl
  | succ time ih => rw [rounds, apply_nodes_length, ih]

/-- The run in turn. -/
def inTurn (hnodes : 0 < start.nodes.length) : Trace P.Step where
  state := rounds P start
  label time := turn (rounds P start time) time
  steps time := ⟨turn_enabled (by rwa [rounds_nodes_length]) time, rfl⟩

lemma rounds_tick (htime : time % 2 = 0) :
    ∃ sent, (rounds P start (time + 1)).flight = (rounds P start time).flight ++ sent := by
  rw [rounds, turn, if_pos htime]
  exact System.react_flight

lemma rounds_deliver {rest : List (Nat × Msg)} (htime : time % 2 = 1)
    (hflight : (rounds P start time).flight = (who, msg) :: rest) :
    turn (rounds P start time) time = .deliver who msg time ∧
      ∃ sent, (rounds P start (time + 1)).flight = rest ++ sent := by
  have hturn : turn (rounds P start time) time = .deliver who msg time := by
    rw [turn, if_neg (by omega), hflight]
  refine ⟨hturn, ?_⟩
  rw [rounds, hturn, apply, hflight, erase_cons_head]
  exact System.react_flight

lemma rounds_delivers (ahead : List (Nat × Msg)) {behind : List (Nat × Msg)}
    (hflight : (rounds P start time).flight = ahead ++ (who, msg) :: behind) :
    ∃ later, time ≤ later ∧ turn (rounds P start later) later = .deliver who msg later := by
  induction ahead generalizing time behind with
  | nil =>
    rcases mod_two_eq_zero_or_one time with heven | hodd
    · obtain ⟨sent, hsent⟩ := rounds_tick P heven
      rw [hflight, nil_append] at hsent
      exact ⟨time + 1, le_succ time, (rounds_deliver P (by omega) hsent).1⟩
    · exact ⟨time, Nat.le_refl _, (rounds_deliver P hodd hflight).1⟩
  | cons first ahead ih =>
    -- the first message goes at the next odd time
    have hodd : ∃ odd, time ≤ odd ∧ odd % 2 = 1 ∧ ∃ behind,
        (rounds P start odd).flight = first :: (ahead ++ (who, msg) :: behind) := by
      rcases mod_two_eq_zero_or_one time with heven | hodd
      · obtain ⟨sent, hsent⟩ := rounds_tick P heven
        rw [hflight] at hsent
        exact ⟨time + 1, le_succ time, by omega, behind ++ sent, by rw [hsent]; simp⟩
      · exact ⟨time, Nat.le_refl _, hodd, behind, hflight⟩
    obtain ⟨odd, hle, hodd, behind', hflight'⟩ := hodd
    obtain ⟨-, sent, hsent⟩ := rounds_deliver P hodd hflight'
    rw [append_assoc, cons_append] at hsent
    obtain ⟨later, hlater, hdeliver⟩ := ih hsent
    exact ⟨later, Nat.le_trans hle (Nat.le_trans (le_succ odd) hlater), hdeliver⟩

lemma inTurn_fair (hnodes : 0 < start.nodes.length) : Fair (inTurn P hnodes) where
  delivers time who msg hmem := by
    obtain ⟨ahead, behind, hflight⟩ := append_of_mem hmem
    obtain ⟨later, hlater, hdeliver⟩ := rounds_delivers P ahead hflight
    exact ⟨later, hlater, later, hdeliver⟩
  ticks who hwho time now := by
    -- a round of all nodes past both times
    have hwho : who < start.nodes.length := hwho
    have hround := Nat.le_mul_of_pos_left (time + now) hnodes
    refine ⟨2 * (start.nodes.length * (time + now) + who), by omega,
      2 * (start.nodes.length * (time + now) + who), by omega, ?_⟩
    · change turn (rounds P start _) _ = _
      rw [turn, if_pos (Nat.mul_mod_right ..), rounds_nodes_length,
        Nat.mul_div_cancel_left _ (by decide), Nat.mul_add_mod, Nat.mod_eq_of_lt hwho]
  clock time later hle := by
    change (turn _ time).now ≤ (turn _ later).now
    rwa [turn_now, turn_now]

end Protocol

end Broadcast

import Mathlib.Data.UInt
import KarteOs.Foundation.KeyedTable

/-! # Call tracking of the compact binary transport

`mcp_cb.rs` tracks calls by their sequence number: a number that is in flight
or done is not begun again, a call that is past its deadline may be retried,
and the result of a finished call is kept for replay. Calls run at most once
between a `begin` and its deadline, and never again once they are complete.
-/

namespace KarteOs.Fabric

open KeyedTable FirstMatch List Option

inductive CallState where
  | inFlight
  | done
  | timedOut
deriving DecidableEq

structure CallTracker where
  seq : UInt8
  state : CallState
  deadlineMs : Nat
  cachedResult : Option (List UInt8)
deriving DecidableEq

structure CallTable where
  calls : List CallTracker
  timeoutMs : Nat

namespace CallTable

def new (timeoutMs : Nat) : CallTable := ⟨[], timeoutMs⟩

def sweepCall (nowMs : Nat) (c : CallTracker) : CallTracker :=
  if c.state = .inFlight ∧ c.deadlineMs ≤ nowMs then { c with state := .timedOut } else c

variable (t : CallTable)

def sweep (nowMs : Nat) : CallTable × Nat :=
  ({ t with calls := t.calls.map (sweepCall nowMs) },
    t.calls.countP fun c => decide (c.state = .inFlight ∧ c.deadlineMs ≤ nowMs))

def deadline (nowMs : Nat) : Nat := (nowMs + t.timeoutMs) % 2 ^ 64

def start (seq : UInt8) (nowMs : Nat) : CallTracker :=
  ⟨seq, .inFlight, t.deadline nowMs, none⟩

def reopen (nowMs : Nat) (c : CallTracker) : CallTracker :=
  { c with state := .inFlight, deadlineMs := t.deadline nowMs, cachedResult := none }

def beginSwept (seq : UInt8) (nowMs : Nat) : CallTable × Bool :=
  match find CallTracker.seq t.calls seq with
  | some c =>
    if c.state = .inFlight ∨ c.state = .done then (t, false)
    else
      ({ t with calls :=
          (updateFirst (fun c => decide (c.seq = seq)) (t.reopen nowMs) t.calls).getD t.calls },
        true)
  | none => ({ t with calls := t.calls ++ [t.start seq nowMs] }, true)

def begin (seq : UInt8) (nowMs : Nat) : CallTable × Bool :=
  (t.sweep nowMs).1.beginSwept seq nowMs

def complete (seq : UInt8) (result : List UInt8) : CallTable × Bool :=
  match updateFirst (fun c => decide (c.seq = seq ∧ c.state = .inFlight))
      (fun c => { c with state := .done, cachedResult := some result }) t.calls with
  | some calls => ({ t with calls }, true)
  | none => (t, false)

def replay (seq : UInt8) : Option (List UInt8) :=
  (t.calls.find? fun c => decide (c.seq = seq ∧ c.state = .done)).bind (·.cachedResult)

/-! ## What the operations do to one number -/

def lookup (t : CallTable) (seq : UInt8) : Option CallTracker := find CallTracker.seq t.calls seq

def Distinct (t : CallTable) : Prop := KeyedTable.Distinct CallTracker.seq t.calls

variable {t : CallTable} {seq other : UInt8} {nowMs : Nat} {result : List UInt8}

@[simp]
lemma sweepCall_seq (c : CallTracker) : (sweepCall nowMs c).seq = c.seq := by
  rw [sweepCall]
  split <;> rfl

variable {c : CallTracker}

lemma sweepCall_of_done (hdone : c.state = .done) : sweepCall nowMs c = c :=
  if_neg fun h => by cases hdone.symm.trans h.1

lemma lookup_sweep : (t.sweep nowMs).1.lookup seq = (t.lookup seq).map (sweepCall nowMs) :=
  find_map sweepCall_seq

lemma Distinct.sweep (ht : t.Distinct) : (t.sweep nowMs).1.Distinct := .map sweepCall_seq ht

structure Begins (t next : CallTable) (seq : UInt8) (nowMs : Nat) : Prop where
  free : ∀ c, t.lookup seq = some c → c.state = .timedOut
  lookup : ∀ other, next.lookup other =
    if other = seq then some (t.start seq nowMs) else t.lookup other
  timeout : next.timeoutMs = t.timeoutMs
  distinct : next.Distinct

lemma beginSwept_cases (ht : t.Distinct) (seq : UInt8) (nowMs : Nat) :
    (t.beginSwept seq nowMs = (t, false) ∧ ∃ c, t.lookup seq = some c ∧ c.state ≠ .timedOut) ∨
      ∃ next, t.beginSwept seq nowMs = (next, true) ∧ Begins t next seq nowMs := by
  cases hfind : t.lookup seq with
  | none =>
    have hnone : find CallTracker.seq t.calls (t.start seq nowMs).seq = none := hfind
    have hbegin : t.beginSwept seq nowMs =
        ({ t with calls := t.calls ++ [t.start seq nowMs] }, true) := by
      rw [beginSwept, show find CallTracker.seq t.calls seq = none from hfind]
    refine .inr ⟨_, hbegin, by simp [hfind], fun other => ?_, rfl,
      KeyedTable.Distinct.push hnone ht⟩
    exact find_push hnone
  | some c =>
    rw [beginSwept, show find CallTracker.seq t.calls seq = some c from hfind]
    cases hstate : c.state with
    | inFlight | done => exact .inl ⟨by simp [hstate], c, rfl, by simp [hstate]⟩
    | timedOut =>
      cases hupdate : updateFirst (fun c => decide (c.seq = seq)) (t.reopen nowMs) t.calls with
      | none =>
        have hmiss := find_of_updateFirst_none hupdate hfind
        exact absurd (key_of_find hfind) (of_decide_eq_false hmiss)
      | some calls =>
        have hkey : ∀ c, (t.reopen nowMs c).seq = c.seq := fun _ => rfl
        obtain ⟨x, hx, hnew⟩ := KeyedTable.Distinct.updateFirst_some ht
          (fun c hc => of_decide_eq_true hc) hkey hupdate
        have hseq : x.seq = seq := of_decide_eq_true hx
        refine .inr ⟨{ t with calls }, by simp [hstate], ?_, fun other => ?_, rfl, hnew.distinct⟩
        · intro c' hc'
          exact some.inj (hfind.symm.trans hc') ▸ hstate
        · rw [CallTable.lookup, hnew.new, reopen, hseq]
          rfl

/-- `complete` finishes the call with the number if it is in flight. -/
structure Completes (t next : CallTable) (seq : UInt8) (result : List UInt8) : Prop where
  open_ : ∃ c, t.lookup seq = some c ∧ c.state = .inFlight ∧ ∀ other, next.lookup other =
    if other = seq then some { c with state := .done, cachedResult := some result }
    else t.lookup other
  timeout : next.timeoutMs = t.timeoutMs
  distinct : next.Distinct

lemma complete_cases (ht : t.Distinct) (seq : UInt8) (result : List UInt8) :
    t.complete seq result = (t, false) ∨
      ∃ next, t.complete seq result = (next, true) ∧ Completes t next seq result := by
  rw [complete]
  split
  next calls hupdate =>
    obtain ⟨x, hx, hnew⟩ := KeyedTable.Distinct.updateFirst_some ht
      (fun c hc => (of_decide_eq_true hc).1)
      (f := fun c => { c with state := .done, cachedResult := some result }) (fun _ => rfl) hupdate
    exact .inr ⟨_, rfl, ⟨x, hnew.old, (of_decide_eq_true hx).2, hnew.new⟩, rfl, hnew.distinct⟩
  · exact .inl rfl

inductive Call where
  | begin (seq : UInt8) (nowMs : Nat)
  | complete (seq : UInt8) (result : List UInt8)
  | sweep (nowMs : Nat)

def Call.clock : Call → Option Nat
  | .begin _ nowMs => some nowMs
  | .complete _ _ => none
  | .sweep nowMs => some nowMs

def next (t : CallTable) : Call → CallTable
  | .begin seq nowMs => (t.begin seq nowMs).1
  | .complete seq result => (t.complete seq result).1
  | .sweep nowMs => (t.sweep nowMs).1

def after (t : CallTable) (calls : List Call) : CallTable := calls.foldl next t

lemma after_append (t : CallTable) (first second : List Call) :
    t.after (first ++ second) = (t.after first).after second :=
  foldl_append

lemma next_distinct (ht : t.Distinct) (call : Call) :
    (t.next call).Distinct ∧ (t.next call).timeoutMs = t.timeoutMs := by
  cases call with
  | begin seq nowMs =>
    obtain ⟨hbegin, -⟩ | ⟨next, hbegin, hnext⟩ := beginSwept_cases ht.sweep seq nowMs
    · rw [next, begin, hbegin]
      exact ⟨ht.sweep, rfl⟩
    · rw [CallTable.next, begin, hbegin]
      exact ⟨hnext.distinct, hnext.timeout⟩
  | complete seq result =>
    obtain hcomplete | ⟨next, hcomplete, hnext⟩ := complete_cases ht seq result
    · rw [next, hcomplete]
      exact ⟨ht, rfl⟩
    · rw [CallTable.next, hcomplete]
      exact ⟨hnext.distinct, hnext.timeout⟩
  | sweep nowMs => exact ⟨ht.sweep, rfl⟩

lemma after_distinct (ht : t.Distinct) (calls : List Call) :
    (t.after calls).Distinct ∧ (t.after calls).timeoutMs = t.timeoutMs := by
  induction calls generalizing t with
  | nil => exact ⟨ht, rfl⟩
  | cons call rest ih =>
    obtain ⟨hnext, htimeout⟩ := next_distinct ht call
    obtain ⟨hrest, hsame⟩ := ih hnext
    exact ⟨hrest, hsame.trans htimeout⟩

lemma distinct_new (timeoutMs : Nat) : (new timeoutMs).Distinct := .nil

lemma begin_of_taken (ht : t.Distinct) (hc : t.lookup seq = some c)
    (hstate : (sweepCall nowMs c).state ≠ .timedOut) :
    t.begin seq nowMs = ((t.sweep nowMs).1, false) := by
  have hswept : (t.sweep nowMs).1.lookup seq = some (sweepCall nowMs c) := by
    rw [lookup_sweep, hc, map_some]
  obtain ⟨hbegin, -⟩ | ⟨next, -, hnext⟩ := beginSwept_cases ht.sweep seq nowMs
  · exact hbegin
  · exact absurd (hnext.free _ hswept) hstate

section
variable {good : CallTracker → Prop} {clocks : Nat → Prop}
  (hsweep : ∀ c nowMs, clocks nowMs → good c → good (sweepCall nowMs c))
  (htaken : ∀ c, good c → c.state ≠ .timedOut)
  (hcomplete : ∀ c result, good c → c.state = .inFlight →
    good { c with state := .done, cachedResult := some result })
include hsweep htaken hcomplete

/-- A property of the tracker of one number that the sweeps of the clock values in question
keep, and that rules out a new start, is kept by every call that observes such a clock value;
`complete` has to keep it as well. -/
lemma next_keeps (ht : t.Distinct) {call : Call}
    (hclock : ∀ nowMs, call.clock = some nowMs → clocks nowMs)
    (hgood : ∃ c, t.lookup seq = some c ∧ good c) :
    ∃ c, (t.next call).lookup seq = some c ∧ good c := by
  obtain ⟨c, hc, hgood⟩ := hgood
  have hswept : ∀ nowMs, clocks nowMs → ∃ c, (t.sweep nowMs).1.lookup seq = some c ∧ good c := by
    intro nowMs hnow
    refine ⟨sweepCall nowMs c, ?_, hsweep c nowMs hnow hgood⟩
    rw [lookup_sweep, hc, map_some]
  cases call with
  | begin other nowMs =>
    obtain ⟨c', hc', hgood'⟩ := hswept nowMs (hclock nowMs rfl)
    obtain ⟨hbegin, -⟩ | ⟨next, hbegin, hnext⟩ := beginSwept_cases ht.sweep other nowMs
    · rw [next, begin, hbegin]
      exact ⟨c', hc', hgood'⟩
    · rw [CallTable.next, begin, hbegin]
      have hne : seq ≠ other := by
        rintro rfl
        exact htaken c' hgood' (hnext.free c' hc')
      exact ⟨c', by rw [hnext.lookup, if_neg hne, hc'], hgood'⟩
  | complete other result =>
    obtain hfail | ⟨next, hdone, hnext⟩ := complete_cases ht other result
    · rw [next, hfail]
      exact ⟨c, hc, hgood⟩
    · rw [CallTable.next, hdone]
      obtain ⟨x, hx, hopen, hlookup⟩ := hnext.open_
      by_cases heq : seq = other
      · subst heq
        cases hc.symm.trans hx
        exact ⟨_, by rw [hlookup, if_pos rfl], hcomplete c result hgood hopen⟩
      · exact ⟨c, by rw [hlookup, if_neg heq, hc], hgood⟩
  | sweep nowMs => exact hswept nowMs (hclock nowMs rfl)

lemma after_keeps (ht : t.Distinct) {calls : List Call}
    (hclocks : ∀ nowMs ∈ calls.filterMap Call.clock, clocks nowMs)
    (hgood : ∃ c, t.lookup seq = some c ∧ good c) :
    ∃ c, (t.after calls).lookup seq = some c ∧ good c := by
  induction calls generalizing t with
  | nil => exact hgood
  | cons call rest ih =>
    refine ih (next_distinct ht call).1 (fun nowMs hmem => ?_)
      (next_keeps hsweep htaken hcomplete ht (fun nowMs hclock => ?_) hgood)
    · obtain ⟨call', hcall', hclock⟩ := mem_filterMap.mp hmem
      exact hclocks nowMs (mem_filterMap.mpr ⟨call', .tail _ hcall', hclock⟩)
    · exact hclocks nowMs (mem_filterMap.mpr ⟨call, .head _, hclock⟩)

end

def Finished (result : List UInt8) (c : CallTracker) : Prop :=
  c.state = .done ∧ c.cachedResult = some result

lemma after_finished (ht : t.Distinct) (hgood : ∃ c, t.lookup seq = some c ∧ Finished result c)
    (calls : List Call) : ∃ c, (t.after calls).lookup seq = some c ∧ Finished result c := by
  refine after_keeps (fun c nowMs (_ : True) hdone => ?_) (fun c hdone htimed => ?_)
    (fun c result' hdone hopen => ?_) ht (fun _ _ => trivial) hgood
  · rwa [sweepCall_of_done hdone.1]
  · cases hdone.1.symm.trans htimed
  · cases hdone.1.symm.trans hopen

def Pending (deadline : Nat) (c : CallTracker) : Prop :=
  c.state = .done ∨ c.state = .inFlight ∧ c.deadlineMs = deadline

variable {deadline : Nat}

lemma sweepCall_of_pending (hpending : Pending deadline c) (hlt : nowMs < deadline) :
    sweepCall nowMs c = c := by
  rcases hpending with hdone | ⟨-, rfl⟩
  · exact sweepCall_of_done hdone
  · exact if_neg fun h => h.2.not_gt hlt

lemma Pending.not_timedOut (hpending : Pending deadline c) : c.state ≠ .timedOut := by
  rcases hpending with hdone | ⟨hopen, -⟩
  · simp [hdone]
  · simp [hopen]

lemma after_pending (ht : t.Distinct) (hgood : ∃ c, t.lookup seq = some c ∧ Pending deadline c)
    {calls : List Call} (hclocks : ∀ nowMs ∈ calls.filterMap Call.clock, nowMs < deadline) :
    ∃ c, (t.after calls).lookup seq = some c ∧ Pending deadline c := by
  refine after_keeps (fun c nowMs hlt hpending => ?_) (fun c hpending => hpending.not_timedOut)
    (fun c result _ _ => .inl rfl) ht hclocks hgood
  rwa [sweepCall_of_pending hpending hlt]

/-- Calls run at most once until their deadline and never again once they are complete. -/
structure Idempotent (timeoutMs : Nat) (calls : List Call) : Prop where
  distinct : (((new timeoutMs).after calls).calls.map (·.seq)).Nodup
  /-- Between two starts of a number its first deadline passed and no `complete` succeeded. -/
  retried : ∀ before between later seq first second,
    calls = before ++ .begin seq first :: (between ++ .begin seq second :: later) →
    (((new timeoutMs).after before).begin seq first).2 = true →
    (((new timeoutMs).after (before ++ .begin seq first :: between)).begin seq second).2 = true →
    (∃ nowMs ∈ (between ++ [Call.begin seq second]).filterMap Call.clock,
      first + timeoutMs ≤ nowMs) ∧
      ∀ front rest result, between = front ++ .complete seq result :: rest →
        (((new timeoutMs).after (before ++ .begin seq first :: front)).complete seq result).2 =
          false
  /-- A call that is complete is replayed and never begun again. -/
  replayed : ∀ before later seq result, calls = before ++ .complete seq result :: later →
    (((new timeoutMs).after before).complete seq result).2 = true →
    ((new timeoutMs).after calls).replay seq = some result ∧
      ∀ nowMs, (((new timeoutMs).after calls).begin seq nowMs).2 = false

section
variable (ht : t.Distinct)
include ht

lemma finished_of_complete (hcomplete : (t.complete seq result).2) :
    ∃ c, (t.next (.complete seq result)).lookup seq = some c ∧ Finished result c := by
  obtain hfail | ⟨next, hdone, hnext⟩ := complete_cases ht seq result
  · rw [hfail] at hcomplete
    cases hcomplete
  · obtain ⟨x, -, -, hlookup⟩ := hnext.open_
    rw [CallTable.next, hdone]
    exact ⟨_, by rw [hlookup, if_pos rfl], rfl, rfl⟩

lemma pending_of_begin (hbegin : (t.begin seq nowMs).2) (hclock : nowMs + t.timeoutMs < 2 ^ 64) :
    ∃ c, (t.next (.begin seq nowMs)).lookup seq = some c ∧ Pending (nowMs + t.timeoutMs) c := by
  obtain ⟨hfail, -⟩ | ⟨next, hdone, hnext⟩ := beginSwept_cases ht.sweep seq nowMs
  · rw [begin, hfail] at hbegin
    cases hbegin
  · rw [CallTable.next, begin, hdone]
    exact ⟨_, by rw [hnext.lookup, if_pos rfl], .inr ⟨rfl, Nat.mod_eq_of_lt hclock⟩⟩

section
variable (hdone : ∃ c, t.lookup seq = some c ∧ Finished result c)
include hdone

lemma begin_of_finished (nowMs : Nat) : (t.begin seq nowMs).2 = false := by
  obtain ⟨c, hc, hdone⟩ := hdone
  rw [begin_of_taken ht hc]
  rw [sweepCall_of_done hdone.1, hdone.1]
  simp

lemma replay_of_finished : t.replay seq = some result := by
  obtain ⟨c, hc, hstate, hresult⟩ := hdone
  have hseq := key_of_find hc
  rw [replay, KeyedTable.Distinct.find?_eq (k := seq) ht fun c hc => (of_decide_eq_true hc).1,
    ← lookup, hc, filter_some, if_pos (by simp [hseq, hstate]), bind_some, hresult]

end

lemma deadline_of_begin_again {first second : Nat} {between : List Call}
    (hfirst : (t.begin seq first).2) (hclock : first + t.timeoutMs < 2 ^ 64)
    (hsecond : (((t.next (.begin seq first)).after between).begin seq second).2) :
    ∃ nowMs ∈ (between ++ [Call.begin seq second]).filterMap Call.clock,
      first + t.timeoutMs ≤ nowMs := by
  by_contra hearly
  push Not at hearly
  -- no clock value reached the deadline, so the first call is still pending
  have hbetween : ∀ nowMs ∈ between.filterMap Call.clock, nowMs < first + t.timeoutMs :=
    fun nowMs hmem => hearly nowMs (by simp [filterMap_append, hmem])
  obtain ⟨c, hc, hstill⟩ :=
    after_pending (next_distinct ht _).1 (pending_of_begin ht hfirst hclock) hbetween
  have hlt := hearly second (by simp [filterMap_append, Call.clock])
  have hopen : (sweepCall second c).state ≠ .timedOut := by
    rw [sweepCall_of_pending hstill hlt]
    exact hstill.not_timedOut
  have htaken := begin_of_taken (after_distinct (next_distinct ht _).1 between).1 hc hopen
  cases hsecond.symm.trans (congrArg Prod.snd htaken)

lemma replayed_of_complete (hcomplete : (t.complete seq result).2) (later : List Call) :
    ((t.next (.complete seq result)).after later).replay seq = some result ∧
      ∀ nowMs, (((t.next (.complete seq result)).after later).begin seq nowMs).2 = false := by
  have hnext := (next_distinct ht (.complete seq result)).1
  have hdone := after_finished hnext (finished_of_complete ht hcomplete) later
  have hlater := (after_distinct hnext later).1
  exact ⟨replay_of_finished hlater hdone, begin_of_finished hlater hdone⟩

end

theorem callTable_idempotent {timeoutMs : Nat} {calls : List Call}
    (hclocks : ∀ nowMs ∈ calls.filterMap Call.clock, nowMs + timeoutMs < 2 ^ 64) :
    Idempotent timeoutMs calls := by
  have hdistinct := fun calls => after_distinct (distinct_new timeoutMs) calls
  have htimeout : ∀ calls, ((new timeoutMs).after calls).timeoutMs = timeoutMs :=
    fun calls => (hdistinct calls).2
  refine ⟨pairwise_map.mpr (hdistinct calls).1, ?_, ?_⟩
  · rintro before between later seq first second rfl hfirst hsecond
    constructor
    · have hclock : first + timeoutMs < 2 ^ 64 :=
        hclocks first (by simp [filterMap_append, Call.clock])
      rw [after_append] at hsecond
      have hdeadline := deadline_of_begin_again (hdistinct before).1 hfirst
        (by rwa [htimeout]) hsecond
      rwa [htimeout] at hdeadline
    · rintro front rest result rfl
      refine Bool.eq_false_iff.mpr fun hcomplete => ?_
      -- a completed call would never have been begun again
      have hcalls : before ++ Call.begin seq first :: (front ++ .complete seq result :: rest) =
          before ++ Call.begin seq first :: front ++ .complete seq result :: rest := by simp
      rw [hcalls, after_append] at hsecond
      have hagain := (replayed_of_complete (hdistinct _).1 hcomplete rest).2 second
      cases hsecond.symm.trans hagain
  · rintro before later seq result rfl hcomplete
    rw [after_append]
    exact replayed_of_complete (hdistinct before).1 hcomplete later

/-- A call times out, is retried and completes. -/
theorem callTable_idempotent_retry : Idempotent 1000
    [.begin 2 100, .sweep 1200, .begin 2 1300, .complete 2 [1], .begin 2 1400] :=
  callTable_idempotent (by decide)

end CallTable

end KarteOs.Fabric

import KarteOs.Fabric.CallTable

/-! # Starting new calls

A call that timed out frees its sequence number, a call that completed keeps
it. Numbers are bytes, so a run that completes a call with each of the 256
numbers leaves a table that never starts a call again.
-/

namespace KarteOs.Fabric.CallTable

open KeyedTable List Option Nat

variable {t : CallTable} {seq : UInt8} {nowMs timeoutMs : Nat} {calls : List Call}

/-- Some call can be started at a time that is not before any time of the run. -/
def Startable (timeoutMs : Nat) (calls : List Call) : Prop :=
  ∃ seq nowMs, nowMs < 2 ^ 64 ∧ (∀ past ∈ calls.filterMap Call.clock, past ≤ nowMs) ∧
    (((new timeoutMs).after calls).begin seq nowMs).2 = true

def CompletedIn (timeoutMs : Nat) (calls : List Call) (seq : UInt8) : Prop :=
  ∃ before result later, calls = before ++ .complete seq result :: later ∧
    (((new timeoutMs).after before).complete seq result).2 = true

variable {c : CallTracker} {call : Call}

lemma lookup_next (ht : t.Distinct) (hc : (t.next call).lookup seq = some c) :
    (∃ old, t.lookup seq = some old ∧ (c = old ∨ ∃ nowMs, c = sweepCall nowMs old)) ∨
      (∃ nowMs, call = .begin seq nowMs ∧ c = t.start seq nowMs) ∨
      ∃ old result, call = .complete seq result ∧ (t.complete seq result).2 ∧
        t.lookup seq = some old ∧ c = { old with state := .done, cachedResult := some result } := by
  have hswept : ∀ {nowMs}, (t.sweep nowMs).1.lookup seq = some c →
      ∃ old, t.lookup seq = some old ∧ (c = old ∨ ∃ nowMs, c = sweepCall nowMs old) := by
    intro nowMs hsweep
    rw [lookup_sweep, map_eq_some_iff] at hsweep
    obtain ⟨old, hold, rfl⟩ := hsweep
    exact ⟨old, hold, .inr ⟨nowMs, rfl⟩⟩
  cases call with
  | begin other nowMs =>
    obtain ⟨hbegin, -⟩ | ⟨next, hbegin, hnext⟩ := beginSwept_cases ht.sweep other nowMs
    · rw [CallTable.next, begin, hbegin] at hc
      exact .inl (hswept hc)
    · rw [CallTable.next, begin, hbegin, hnext.lookup] at hc
      split at hc
      next heq =>
        subst heq
        exact .inr (.inl ⟨nowMs, rfl, (some.inj hc).symm⟩)
      · exact .inl (hswept hc)
  | complete other result =>
    obtain hfail | ⟨next, hdone, hnext⟩ := complete_cases ht other result
    · rw [CallTable.next, hfail] at hc
      exact .inl ⟨c, hc, .inl rfl⟩
    · obtain ⟨old, hold, -, hlookup⟩ := hnext.open_
      rw [CallTable.next, hdone, hlookup] at hc
      split at hc
      next heq =>
        subst heq
        exact .inr (.inr ⟨old, result, rfl, by rw [hdone], hold, (some.inj hc).symm⟩)
      · exact .inl ⟨c, hc, .inl rfl⟩
  | sweep nowMs => exact .inl (hswept hc)

/-- What is known of a tracker in a run: its deadline is a clock value, and it is done only if
the run completed it. -/
structure Accounted (timeoutMs : Nat) (calls : List Call) (c : CallTracker) : Prop where
  deadline : c.deadlineMs < 2 ^ 64
  done : c.state = .done → CompletedIn timeoutMs calls c.seq

lemma CompletedIn.snoc (hdone : CompletedIn timeoutMs calls seq) (call : Call) :
    CompletedIn timeoutMs (calls ++ [call]) seq := by
  obtain ⟨before, result, later, rfl, hcomplete⟩ := hdone
  exact ⟨before, result, later ++ [call], by simp, hcomplete⟩

lemma Accounted.snoc (hc : Accounted timeoutMs calls c) (call : Call) :
    Accounted timeoutMs (calls ++ [call]) c :=
  ⟨hc.deadline, fun hdone => (hc.done hdone).snoc call⟩

lemma Accounted.sweepCall (hc : Accounted timeoutMs calls c) (nowMs : Nat) :
    Accounted timeoutMs calls (sweepCall nowMs c) := by
  rw [CallTable.sweepCall]
  split
  · exact ⟨hc.deadline, fun hdone => by cases hdone⟩
  · exact hc

lemma accounted_of_lookup (hc : ((new timeoutMs).after calls).lookup seq = some c) :
    Accounted timeoutMs calls c := by
  induction calls using reverseRecOn generalizing c with
  | nil => cases hc
  | append_singleton calls call ih =>
    have hdistinct := (after_distinct (distinct_new timeoutMs) calls).1
    rw [after_append] at hc
    obtain ⟨old, hold, rfl | ⟨nowMs, rfl⟩⟩ | ⟨nowMs, -, rfl⟩ |
      ⟨old, result, rfl, hcomplete, hold, rfl⟩ := lookup_next hdistinct hc
    · exact (ih hold).snoc call
    · exact ((ih hold).snoc call).sweepCall nowMs
    · exact ⟨mod_lt _ (by decide), nofun⟩
    · obtain rfl : old.seq = seq := key_of_find hold
      exact ⟨(ih hold).deadline, fun _ => ⟨calls, result, [], rfl, hcomplete⟩⟩

lemma begin_of_expired (ht : t.Distinct) (hexpired : ∀ c, t.lookup seq = some c →
    c.state ≠ .done ∧ c.deadlineMs ≤ nowMs) : (t.begin seq nowMs).2 := by
  have hswept : (t.sweep nowMs).1.Distinct := ht.sweep
  obtain ⟨-, c, hc, hstate⟩ | ⟨next, hbegin, -⟩ := beginSwept_cases hswept seq nowMs
  · rw [lookup_sweep, map_eq_some_iff] at hc
    obtain ⟨old, hold, rfl⟩ := hc
    obtain ⟨hdone, hdeadline⟩ := hexpired old hold
    refine absurd ?_ hstate
    cases hold : old.state with
    | inFlight => simp [sweepCall, hold, hdeadline]
    | done => exact absurd hold hdone
    | timedOut => simp [sweepCall, hold]
  · rw [begin, hbegin]

lemma not_startable_of_finished (hdone : ∀ seq, ∃ result c,
    ((new timeoutMs).after calls).lookup seq = some c ∧ Finished result c) :
    ¬Startable timeoutMs calls := by
  rintro ⟨seq, nowMs, -, -, hbegin⟩
  obtain ⟨result, hfinished⟩ := hdone seq
  rw [begin_of_finished (after_distinct (distinct_new timeoutMs) calls).1 hfinished] at hbegin
  cases hbegin

/-- A new call can be started after a run exactly when some number was never completed. -/
theorem startable_iff (hclocks : ∀ past ∈ calls.filterMap Call.clock, past < 2 ^ 64) :
    Startable timeoutMs calls ↔ ∃ seq, ¬ CompletedIn timeoutMs calls seq := by
  have hdistinct := fun calls => (after_distinct (distinct_new timeoutMs) calls).1
  constructor
  · rintro ⟨seq, nowMs, -, -, hbegin⟩
    refine ⟨seq, ?_⟩
    rintro ⟨before, result, later, rfl, hcomplete⟩
    rw [after_append] at hbegin
    have hagain := (replayed_of_complete (hdistinct before) hcomplete later).2 nowMs
    cases hbegin.symm.trans hagain
  · rintro ⟨seq, hopen⟩
    -- every deadline is a clock value, so the last one is late enough
    refine ⟨seq, 2 ^ 64 - 1, by decide, fun past hpast => le_pred_of_lt (hclocks past hpast),
      begin_of_expired (hdistinct calls) fun c hc => ?_⟩
    have haccounted := accounted_of_lookup hc
    refine ⟨fun hdone => hopen ?_, le_pred_of_lt haccounted.deadline⟩
    rw [← show c.seq = seq from key_of_find hc]
    exact haccounted.done hdone

theorem startable_iff_timedOut : Startable 1000 [.begin 2 100, .sweep 1200] ↔
    ∃ seq, ¬ CompletedIn 1000 [.begin 2 100, .sweep 1200] seq :=
  startable_iff (by decide)

/-! ## A run that uses up the numbers -/

def serve (seqs : List UInt8) : List Call :=
  seqs.flatMap fun seq => [.begin seq 0, .complete seq []]

lemma complete_of_inFlight {result : List UInt8} (hc : t.lookup seq = some c)
    (hopen : c.state = .inFlight) : (t.complete seq result).2 := by
  rw [complete]
  split
  · rfl
  next hupdate =>
    have hmiss := find_of_updateFirst_none hupdate hc
    exact absurd ⟨key_of_find hc, hopen⟩ (of_decide_eq_false hmiss)

lemma finished_of_beginComplete (ht : t.Distinct) (hfree : t.lookup seq = none) :
    ∃ c, (t.after [.begin seq 0, .complete seq []]).lookup seq = some c ∧ Finished [] c := by
  have hswept : (t.sweep 0).1.Distinct := ht.sweep
  obtain ⟨-, c, hc, -⟩ | ⟨next, hbegin, hnext⟩ := beginSwept_cases hswept seq 0
  · rw [lookup_sweep, hfree] at hc
    cases hc
  · have hstarted : (t.next (.begin seq 0)).lookup seq = some ((t.sweep 0).1.start seq 0) := by
      rw [CallTable.next, begin, hbegin, hnext.lookup, if_pos rfl]
    exact finished_of_complete (next_distinct ht _).1 (complete_of_inFlight hstarted rfl)

lemma unused_of_next (ht : t.Distinct) (hfree : t.lookup seq = none)
    (hcall : ∀ nowMs, call ≠ .begin seq nowMs) : (t.next call).lookup seq = none := by
  refine eq_none_iff_forall_not_mem.mpr fun c hc => ?_
  obtain ⟨old, hold, -⟩ | ⟨nowMs, rfl, -⟩ | ⟨old, result, -, -, hold, -⟩ := lookup_next ht hc
  · cases hfree.symm.trans hold
  · exact hcall nowMs rfl
  · cases hfree.symm.trans hold

lemma unused_of_beginComplete (ht : t.Distinct) {other : UInt8} (hne : other ≠ seq)
    (hfree : t.lookup other = none) :
    (t.after [.begin seq 0, .complete seq []]).lookup other = none := by
  have hbegun : (t.next (.begin seq 0)).lookup other = none :=
    unused_of_next ht hfree fun nowMs heq => hne (Call.begin.inj heq).1.symm
  have hcall : ∀ nowMs, Call.complete seq [] ≠ .begin other nowMs := nofun
  exact unused_of_next (next_distinct ht _).1 hbegun hcall

lemma finished_of_serve {seqs : List UInt8} (hnodup : seqs.Nodup) (ht : t.Distinct)
    (hfree : ∀ seq ∈ seqs, t.lookup seq = none) :
    ∀ seq ∈ seqs, ∃ c, (t.after (serve seqs)).lookup seq = some c ∧ Finished [] c := by
  induction seqs generalizing t with
  | nil => exact fun seq hseq => absurd hseq not_mem_nil
  | cons first rest ih =>
    obtain ⟨hfirst, hrest⟩ := nodup_cons.mp hnodup
    have hserve : t.after (serve (first :: rest)) =
        (t.after [.begin first 0, .complete first []]).after (serve rest) := after_append t _ _
    have hnext := (after_distinct ht [.begin first 0, .complete first []]).1
    intro seq hseq
    rw [hserve]
    rcases mem_cons.mp hseq with rfl | hseq
    · exact after_finished hnext (finished_of_beginComplete ht (hfree seq (.head _))) _
    · refine ih hrest hnext (fun other hother => unused_of_beginComplete ht ?_ ?_) seq hseq
      · rintro rfl
        exact hfirst hother
      · exact hfree other (.tail _ hother)

def allSeqs : List UInt8 := (List.range 256).map UInt8.ofNat

lemma nodup_allSeqs : allSeqs.Nodup := by
  refine Nodup.map_on (fun a ha b hb heq => ?_) nodup_range
  have hmod := congrArg UInt8.toNat heq
  simp only [UInt8.toNat_ofNat'] at hmod
  rwa [mod_eq_of_lt (mem_range.mp ha), mod_eq_of_lt (mem_range.mp hb)] at hmod

/-- Once every number is done the table starts no call. -/
theorem not_startable_serve_allSeqs : ¬ Startable 1000 (serve allSeqs) :=
  not_startable_of_finished fun seq =>
    ⟨[], finished_of_serve nodup_allSeqs (distinct_new 1000) (fun _ _ => rfl) seq
      (List.mem_map.mpr ⟨_, mem_range.mpr seq.toNat_lt, UInt8.ofNat_toNat⟩)⟩

end KarteOs.Fabric.CallTable

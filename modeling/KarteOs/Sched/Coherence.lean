import KarteOs.Sched.Scheduler

/-! # Coherence of the task table

A task is ready exactly when it is queued, and recycled slots are empty.
`Coherent` does not mention the current task: blocking, exiting and requeueing
leave a coherent table in which no user task runs, and dispatching puts one
task back on the processor. Every operation rewrites the node of one slot and
its membership in the queue and in the free list; `Rewrites` says so once.
-/

namespace KarteOs.Sched

open ReadyQueue List

namespace Scheduler

structure Coherent (s : Scheduler) : Prop where
  wellFormed : s.ready.WellFormed
  nodup : s.ready.tokens.Nodup
  queued : ∀ slot, slot ∈ s.ready.tokens ↔ ∃ n, s.node slot = some n ∧ n.state = .ready
  user : ∀ slot n, s.node slot = some n → n.state = .ready ∨ n.state = .blocked →
    ∃ procIdx, n.kind = .user procIdx
  idle : ∃ n, s.node idleSlot = some n ∧ n.kind = .idle
  free_nodup : s.free.Nodup
  free_empty : ∀ slot ∈ s.free, ∃ n, s.node slot = some n ∧ n.kind = .empty

def Parked (s : Scheduler) : Prop :=
  ∀ slot n procIdx, s.node slot = some n → n.kind = .user procIdx → n.state ≠ .running

/-- The current task is the idle task or the one running user task. -/
structure Dispatched (s : Scheduler) : Prop where
  current : s.current = idleSlot ∨ s.userRunning = true
  only : ∀ slot n procIdx, s.node slot = some n → n.kind = .user procIdx → n.state = .running →
    slot = s.current

/-- `next` differs from `s` in the node of one slot, which became `n`, and in
the membership of that slot in the ready queue and in the free list. -/
structure Rewrites (s : Scheduler) (slot : Nat) (n : TaskNode) (next : Scheduler) : Prop where
  node_self : next.node slot = some n
  node_other : ∀ other, other ≠ slot → next.node other = s.node other
  wellFormed : next.ready.WellFormed
  nodup : next.ready.tokens.Nodup
  queued_self : slot ∈ next.ready.tokens ↔ n.state = .ready
  queued_other : ∀ other, other ≠ slot → (other ∈ next.ready.tokens ↔ other ∈ s.ready.tokens)
  user : n.state = .ready ∨ n.state = .blocked → ∃ procIdx, n.kind = .user procIdx
  idle : slot = idleSlot → n.kind = .idle
  free_nodup : next.free.Nodup
  free_self : slot ∈ next.free → n.kind = .empty
  free_other : ∀ other ∈ next.free, other ≠ slot → other ∈ s.free

lemma Rewrites.coherent {s next : Scheduler} {slot : Nat} {n : TaskNode}
    (hrw : s.Rewrites slot n next) (hs : s.Coherent) : next.Coherent where
  wellFormed := hrw.wellFormed
  nodup := hrw.nodup
  queued := by
    intro other
    rcases eq_or_ne other slot with rfl | hne
    · simp [hrw.queued_self, hrw.node_self]
    · rw [hrw.queued_other other hne, hrw.node_other other hne, hs.queued]
  user := by
    intro other m hother hstate
    rcases eq_or_ne other slot with rfl | hne
    · rw [hrw.node_self] at hother
      cases hother
      exact hrw.user hstate
    · rw [hrw.node_other other hne] at hother
      exact hs.user other m hother hstate
  idle := by
    rcases eq_or_ne idleSlot slot with heq | hne
    · exact ⟨n, heq ▸ hrw.node_self, hrw.idle heq.symm⟩
    · obtain ⟨m, hm, hkind⟩ := hs.idle
      exact ⟨m, (hrw.node_other idleSlot hne).trans hm, hkind⟩
  free_nodup := hrw.free_nodup
  free_empty := by
    intro other hother
    rcases eq_or_ne other slot with rfl | hne
    · exact ⟨n, hrw.node_self, hrw.free_self hother⟩
    · rw [hrw.node_other other hne]
      exact hs.free_empty other (hrw.free_other other hother hne)

variable {s : Scheduler} {slot procIdx : Nat} {n m : TaskNode}

lemma Coherent.not_mem_free (hs : s.Coherent) (hnode : s.node slot = some n)
    (hkind : n.kind ≠ .empty) : slot ∉ s.free := by
  intro hmem
  obtain ⟨m, hm, hempty⟩ := hs.free_empty slot hmem
  cases hnode.symm.trans hm
  exact hkind hempty

lemma Coherent.ne_idle (hs : s.Coherent) (hnode : s.node slot = some n) (hkind : n.kind ≠ .idle) :
    slot ≠ idleSlot := by
  rintro rfl
  obtain ⟨m, hm, hidle⟩ := hs.idle
  cases hnode.symm.trans hm
  exact hkind hidle

lemma Coherent.not_queued (hs : s.Coherent) (hnode : s.node slot = some n)
    (hstate : n.state ≠ .ready) : slot ∉ s.ready.tokens := by
  intro hmem
  obtain ⟨m, hm, hready⟩ := (hs.queued slot).mp hmem
  cases hnode.symm.trans hm
  exact hstate hready

variable {f : TaskNode → TaskNode}

section
variable (hs : s.Coherent)
include hs

lemma Coherent.enqueue_rewrites (hnode : s.node slot = some n) (hstate : n.state ≠ .ready)
    (hidle : slot ≠ idleSlot) (hfree : slot ∉ s.free) (hfkind : (f n).kind = .user procIdx)
    (hfstate : (f n).state = .ready) (m : TaskNode) :
    s.Rewrites slot (f n) ((s.modifyNode slot f).enqueue slot m) := by
  have hslot := hs.not_queued hnode hstate
  have htokens : ((s.modifyNode slot f).enqueue slot m).ready.tokens = slot ::ₘ s.ready.tokens :=
    tokens_push hslot _
  exact
    { node_self := node_modifyNode_self hnode f
      node_other := fun other hne => node_modifyNode_of_ne s hne f
      wellFormed := push_wellFormed hs.wellFormed slot _
      nodup := htokens ▸ Multiset.nodup_cons.mpr ⟨hslot, hs.nodup⟩
      queued_self := by simp [htokens, hfstate]
      queued_other := by
        intro other hne
        simp [htokens, hne]
      user := fun _ => ⟨procIdx, hfkind⟩
      idle := fun heq => absurd heq hidle
      free_nodup := hs.free_nodup
      free_self := fun hmem => absurd hmem hfree
      free_other := fun _ hmem _ => hmem }

lemma Coherent.enqueue_user_rewrites (hnode : s.node slot = some n) (hstate : n.state ≠ .ready)
    (hkind : n.kind = .user procIdx) (hfkind : (f n).kind = n.kind) (hfstate : (f n).state = .ready)
    (m : TaskNode) : s.Rewrites slot (f n) ((s.modifyNode slot f).enqueue slot m) :=
  hs.enqueue_rewrites hnode hstate (hs.ne_idle hnode (by simp [hkind]))
    (hs.not_mem_free hnode (by simp [hkind])) (hfkind.trans hkind) hfstate m

lemma mem_tokens_remove_iff (other : Nat) :
    other ∈ (s.ready.remove slot).tokens ↔ other ≠ slot ∧ other ∈ s.ready.tokens := by
  rw [tokens_remove, hs.nodup.mem_erase_iff]

lemma Coherent.nodup_remove (slot : Nat) : (s.ready.remove slot).tokens.Nodup := by
  rw [tokens_remove]
  exact hs.nodup.erase slot

variable (hnode : s.node slot = some n)
include hnode

lemma Coherent.withdraw_rewrites (hkind : n.kind = .user procIdx)
    (hfkind : (f n).kind = .user procIdx) (hfstate : (f n).state ≠ .ready) :
    s.Rewrites slot (f n) { s.modifyNode slot f with ready := s.ready.remove slot } where
  node_self := node_modifyNode_self hnode f
  node_other := fun other hne => node_modifyNode_of_ne s hne f
  wellFormed := remove_wellFormed hs.wellFormed slot
  nodup := hs.nodup_remove slot
  queued_self := by simp [mem_tokens_remove_iff hs, hfstate]
  queued_other := by
    intro other hne
    simp [mem_tokens_remove_iff hs, hne]
  user := fun _ => ⟨procIdx, hfkind⟩
  idle := fun heq => absurd heq (hs.ne_idle hnode (by simp [hkind]))
  free_nodup := hs.free_nodup
  free_self := fun hmem => absurd hmem (hs.not_mem_free hnode (by simp [hkind]))
  free_other := fun _ hmem _ => hmem

lemma Coherent.exitSlot_rewrites (hkind : n.kind = .user procIdx) :
    s.Rewrites slot { n with state := .exited, kind := .empty } (s.exitSlot slot) := by
  have hfree : slot ∉ s.free := hs.not_mem_free hnode (by simp [hkind])
  simp only [exitSlot, hnode]
  exact
    { node_self := node_modifyNode_self hnode _
      node_other := fun other hne => node_modifyNode_of_ne s hne _
      wellFormed := remove_wellFormed hs.wellFormed slot
      nodup := hs.nodup_remove slot
      queued_self := by simp [mem_tokens_remove_iff hs]
      queued_other := by
        intro other hne
        simp [mem_tokens_remove_iff hs, hne]
      user := by simp
      idle := fun heq => absurd heq (hs.ne_idle hnode (by simp [hkind]))
      free_nodup := nodup_cons.mpr ⟨hfree, hs.free_nodup⟩
      free_self := fun _ => rfl
      free_other := by
        intro other hmem hne
        exact (mem_cons.mp hmem).resolve_left hne }

lemma Coherent.modifyNode_rewrites (hkind : (f n).kind = n.kind)
    (hready : (f n).state = .ready ↔ n.state = .ready)
    (huser : (f n).state = .blocked → ∃ procIdx, n.kind = .user procIdx) :
    s.Rewrites slot (f n) (s.modifyNode slot f) where
  node_self := node_modifyNode_self hnode f
  node_other := fun other hne => node_modifyNode_of_ne s hne f
  wellFormed := hs.wellFormed
  nodup := hs.nodup
  queued_self := by
    rw [hready]
    show slot ∈ s.ready.tokens ↔ n.state = .ready
    simp [hs.queued, hnode]
  queued_other := fun _ _ => Iff.rfl
  user := by
    rw [hkind, hready]
    rintro (hstate | hstate)
    · exact hs.user slot n hnode (.inl hstate)
    · exact huser hstate
  idle := by
    rintro rfl
    obtain ⟨m, hm, hidle⟩ := hs.idle
    cases hnode.symm.trans hm
    exact hkind.trans hidle
  free_nodup := hs.free_nodup
  free_self := by
    intro hmem
    obtain ⟨m, hm, hempty⟩ := hs.free_empty slot hmem
    cases hnode.symm.trans hm
    exact hkind.trans hempty
  free_other := fun _ hmem _ => hmem

end

variable {ready : ReadyQueue}

section
variable (hs : s.Coherent)
include hs

lemma Coherent.dispatch_rewrites (hready : ready.WellFormed)
    (htokens : s.ready.tokens = slot ::ₘ ready.tokens) (hnode : s.node slot = some n)
    (hstate : n.state = .ready) :
    s.Rewrites slot { n with state := .running } ({ s with ready }.dispatch slot) := by
  obtain ⟨procIdx, hkind⟩ := hs.user slot n hnode (.inl hstate)
  have hnodup := hs.nodup
  rw [htokens, Multiset.nodup_cons] at hnodup
  exact
    { node_self := node_modifyNode_self (s := { s with ready }) hnode _
      node_other := fun other hne => node_modifyNode_of_ne { s with ready } hne _
      wellFormed := hready
      nodup := hnodup.2
      queued_self := by
        show slot ∈ ready.tokens ↔ _
        simp [hnodup.1]
      queued_other := by
        intro other hne
        show other ∈ ready.tokens ↔ _
        simp [htokens, hne]
      user := by simp
      idle := fun heq => absurd heq (hs.ne_idle hnode (by simp [hkind]))
      free_nodup := hs.free_nodup
      free_self := fun hmem => absurd hmem (hs.not_mem_free hnode (by simp [hkind]))
      free_other := fun _ hmem _ => hmem }

lemma Coherent.dispatch_idle_rewrites (hready : ready.WellFormed)
    (hempty : s.ready.tokens = 0) (htokens : ready.tokens = 0) (hnode : s.node idleSlot = some n)
    (hkind : n.kind = .idle) :
    s.Rewrites idleSlot { n with state := .running } ({ s with ready }.dispatch idleSlot) where
  node_self := node_modifyNode_self (s := { s with ready }) hnode _
  node_other := fun other hne => node_modifyNode_of_ne { s with ready } hne _
  wellFormed := hready
  nodup := by
    show ready.tokens.Nodup
    simp [htokens]
  queued_self := by
    show idleSlot ∈ ready.tokens ↔ _
    simp [htokens]
  queued_other := by
    intro other _
    show other ∈ ready.tokens ↔ _
    simp [htokens, hempty]
  user := by simp
  idle := fun _ => hkind
  free_nodup := hs.free_nodup
  free_self := fun hmem => absurd hmem (hs.not_mem_free hnode (by simp [hkind]))
  free_other := fun _ hmem _ => hmem

lemma Coherent.dispatchNext_rewrites :
    ∃ next n, s.node next = some n ∧ (n.state = .ready ∨ next = idleSlot) ∧
      s.dispatchNext.current = next ∧
      s.Rewrites next { n with state := .running } s.dispatchNext := by
  obtain ⟨hwf, ⟨hpick, hempty, hrest⟩ | ⟨next, hpick, htokens⟩⟩ := popNext_spec hs.wellFormed
  · obtain ⟨n, hnode, hkind⟩ := hs.idle
    refine ⟨idleSlot, n, hnode, .inr rfl, ?_, ?_⟩
    · simp [dispatchNext, dispatch, hpick]
    · simpa [dispatchNext, hpick] using hs.dispatch_idle_rewrites hwf hempty hrest hnode hkind
  · have hqueued : next ∈ s.ready.tokens := by simp [htokens]
    obtain ⟨n, hnode, hstate⟩ := (hs.queued next).mp hqueued
    refine ⟨next, n, hnode, .inl hstate, ?_, ?_⟩
    · simp [dispatchNext, dispatch, hpick]
    · simpa [dispatchNext, hpick] using hs.dispatch_rewrites hwf htokens hnode hstate

lemma Coherent.dispatchNext (hparked : s.Parked) :
    s.dispatchNext.Coherent ∧ s.dispatchNext.Dispatched := by
  obtain ⟨next, n, hnode, hnext, hcurrent, hrw⟩ := hs.dispatchNext_rewrites
  refine ⟨hrw.coherent hs, ?_, ?_⟩
  · rcases hnext with hstate | rfl
    · obtain ⟨procIdx, hkind⟩ := hs.user next n hnode (.inl hstate)
      refine .inr (userRunning_iff.mpr ⟨{ n with state := .running }, procIdx, ?_, hkind, rfl⟩)
      rw [hcurrent]
      exact hrw.node_self
    · exact .inl hcurrent
  · intro slot m procIdx hm hkind hstate
    by_contra hne
    rw [hcurrent] at hne
    rw [hrw.node_other slot hne] at hm
    exact hparked slot m procIdx hm hkind hstate

end

lemma Dispatched.parked_of_idle (hcoherent : s.Coherent) (hs : s.Dispatched)
    (hidle : s.current = idleSlot) : s.Parked := by
  intro slot n procIdx hnode hkind hstate
  have hslot := hs.only slot n procIdx hnode hkind hstate
  exact hcoherent.ne_idle hnode (by simp [hkind]) (hslot.trans hidle)

variable {next : Scheduler}

lemma Dispatched.parked_of_rewrites (hs : s.Dispatched) (hrw : s.Rewrites s.current n next)
    (hstate : n.state ≠ .running) : next.Parked := by
  intro slot m procIdx hm hkind hrunning
  rcases eq_or_ne slot s.current with rfl | hne
  · rw [hrw.node_self] at hm
    cases hm
    exact hstate hrunning
  · rw [hrw.node_other slot hne] at hm
    exact hne (hs.only slot m procIdx hm hkind hrunning)

lemma Coherent.withReady (hs : s.Coherent) (hready : ready.WellFormed)
    (htokens : ready.tokens = s.ready.tokens) : { s with ready }.Coherent where
  wellFormed := hready
  nodup := by exact htokens ▸ hs.nodup
  queued := by
    intro slot
    rw [htokens]
    exact hs.queued slot
  user := hs.user
  idle := hs.idle
  free_nodup := hs.free_nodup
  free_empty := hs.free_empty

lemma requeueCurrent_of_running (hnode : s.node s.current = some n) (hrunning : s.userRunning) :
    s.requeueCurrent = (s.modifyNode s.current fun n =>
      { n with state := .ready, quantumLeft := n.schedClass.quantum }).enqueue s.current n := by
  simp [requeueCurrent, hnode, hrunning]

lemma requeueCurrent_of_not_running (hnot : ¬s.userRunning) : s.requeueCurrent = s := by
  unfold requeueCurrent
  split
  · rw [if_neg hnot]
  · rfl

section
variable (hs : s.Coherent)
include hs

lemma Coherent.requeueCurrent_cases : (¬s.userRunning ∧ s.requeueCurrent = s) ∨
    ∃ n, s.node s.current = some n ∧ n.state = .running ∧
      s.Rewrites s.current { n with state := .ready, quantumLeft := n.schedClass.quantum }
        s.requeueCurrent := by
  by_cases hrunning : s.userRunning
  · obtain ⟨n, procIdx, hnode, hkind, hstate⟩ := userRunning_iff.mp hrunning
    refine .inr ⟨n, hnode, hstate, ?_⟩
    rw [requeueCurrent_of_running hnode hrunning]
    exact hs.enqueue_user_rewrites hnode (by simp [hstate]) hkind
      (f := fun n => { n with state := .ready, quantumLeft := n.schedClass.quantum }) rfl rfl n
  · exact .inl ⟨hrunning, requeueCurrent_of_not_running hrunning⟩

lemma Coherent.requeueCurrent (hdispatched : s.Dispatched) :
    s.requeueCurrent.Coherent ∧ s.requeueCurrent.Parked := by
  obtain ⟨hnot, hsame⟩ | ⟨n, hnode, hstate, hrw⟩ := hs.requeueCurrent_cases
  · rw [hsame]
    exact ⟨hs, hdispatched.parked_of_idle hs (hdispatched.current.resolve_right hnot)⟩
  · exact ⟨hrw.coherent hs, hdispatched.parked_of_rewrites hrw (by simp)⟩

lemma Coherent.resumeCurrent_eq (hempty : s.ready.tokens = 0) : s.resumeCurrent = s := by
  have hcurrent : ∀ n, s.node s.current = some n → n.state ≠ .ready := by
    intro n hnode hstate
    have hqueued := (hs.queued s.current).mpr ⟨n, hnode, hstate⟩
    simp [hempty] at hqueued
  unfold resumeCurrent modifyNode
  congr
  refine ext_getElem? fun slot => ?_
  rw [getElem?_modify]
  split
  next heq =>
    subst heq
    cases hnode : s.nodes[s.current]? with
    | none => rfl
    | some n => simp [hcurrent n hnode]
  · simp

lemma Coherent.setClass_rewrites (hnode : s.node slot = some n) (schedClass : SchedClass) :
    s.Rewrites slot { n with schedClass, quantumLeft := schedClass.quantum }
      (s.setClass slot n schedClass) := by
  have hquiet := hs.modifyNode_rewrites hnode
    (f := fun n => { n with schedClass, quantumLeft := schedClass.quantum }) rfl Iff.rfl
    (fun hblocked => hs.user slot n hnode (.inr hblocked))
  unfold setClass
  split
  next hready =>
    have hnot : slot ∉ (s.ready.remove slot).tokens := by simp [mem_tokens_remove_iff hs]
    have htokens : ((s.ready.remove slot).push slot schedClass.priority).tokens =
        s.ready.tokens := by
      rw [tokens_push hnot, tokens_remove]
      exact Multiset.cons_erase ((hs.queued slot).mpr ⟨n, hnode, hready⟩)
    exact { hquiet with
      wellFormed := push_wellFormed (remove_wellFormed hs.wellFormed slot) slot _
      nodup := htokens.symm ▸ hs.nodup
      queued_self := htokens.symm ▸ hquiet.queued_self
      queued_other := fun other _ => htokens.symm ▸ Iff.rfl }
  · exact hquiet

end

def Mapped (s : Scheduler) (slotOf : Nat → Option Nat) : Prop :=
  ∀ slot n procIdx, s.node slot = some n → n.kind = .user procIdx → slotOf procIdx = some slot

variable {slotOf : Nat → Option Nat}

lemma Rewrites.mapped (hrw : s.Rewrites slot m next) (hnode : s.node slot = some n)
    (hkind : ∀ procIdx, m.kind = .user procIdx → n.kind = .user procIdx) (hs : s.Mapped slotOf) :
    next.Mapped slotOf := by
  intro other k procIdx hk hkkind
  rcases eq_or_ne other slot with rfl | hne
  · rw [hrw.node_self] at hk
    cases hk
    exact hs other n procIdx hnode (hkind procIdx hkkind)
  · rw [hrw.node_other other hne] at hk
    exact hs other k procIdx hk hkkind

lemma Mapped.dispatchNext (hcoherent : s.Coherent) (hs : s.Mapped slotOf) :
    s.dispatchNext.Mapped slotOf := by
  obtain ⟨next, n, hnode, _, _, hrw⟩ := hcoherent.dispatchNext_rewrites
  exact hrw.mapped hnode (fun _ => id) hs

lemma Mapped.requeueCurrent (hcoherent : s.Coherent) (hs : s.Mapped slotOf) :
    s.requeueCurrent.Mapped slotOf := by
  obtain ⟨_, hsame⟩ | ⟨n, hnode, _, hrw⟩ := hcoherent.requeueCurrent_cases
  · rw [hsame]
    exact hs
  · exact hrw.mapped hnode (fun _ => id) hs

lemma Rewrites.dispatched (hrw : s.Rewrites slot m next) (hnode : s.node slot = some n)
    (hcurrent : next.current = s.current)
    (hrunning : ∀ procIdx, m.kind = .user procIdx ∧ m.state = .running ↔
      n.kind = .user procIdx ∧ n.state = .running) (hs : s.Dispatched) : next.Dispatched := by
  constructor
  · rw [hcurrent]
    refine hs.current.imp_right fun huser => ?_
    obtain ⟨k, procIdx, hk, hkind, hstate⟩ := userRunning_iff.mp huser
    rw [userRunning_iff, hcurrent]
    rcases eq_or_ne s.current slot with heq | hne
    · rw [heq] at hk ⊢
      cases hnode.symm.trans hk
      obtain ⟨hmkind, hmstate⟩ := (hrunning procIdx).mpr ⟨hkind, hstate⟩
      exact ⟨m, procIdx, hrw.node_self, hmkind, hmstate⟩
    · exact ⟨k, procIdx, (hrw.node_other _ hne).trans hk, hkind, hstate⟩
  · intro other k procIdx hk hkind hstate
    rw [hcurrent]
    rcases eq_or_ne other slot with rfl | hne
    · rw [hrw.node_self] at hk
      cases hk
      obtain ⟨hnkind, hnstate⟩ := (hrunning procIdx).mp ⟨hkind, hstate⟩
      exact hs.only other n procIdx hnode hnkind hnstate
    · rw [hrw.node_other other hne] at hk
      exact hs.only other k procIdx hk hkind hstate

end Scheduler

end KarteOs.Sched

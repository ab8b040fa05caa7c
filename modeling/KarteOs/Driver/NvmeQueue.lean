import KarteOs.Driver.Nvme

/-! # The queues of the NVMe driver

The device fetches the commands from consecutive slots and posts one completion for each, into
consecutive slots, and inverts the phase tag on each pass. The driver tells a new entry from one
of an earlier pass by the tag alone.
-/

namespace KarteOs.Driver

open Function List Option Nat

abbrev queueDepth : Nat := 64

structure NvmeCompletion where
  cdw0 : Nat
  rsvd : Nat
  sqHead : Nat
  sqId : Nat
  cid : Nat
  status : Nat

structure NvmeQueue where
  sq : Nat → NvmeCmd
  cq : Nat → NvmeCompletion
  sqTail : Nat
  cqHead : Nat
  cqPhase : Nat

namespace NvmeQueue

/-- The queue after `alloc_buffers` has zeroed its memory. -/
def new : NvmeQueue := ⟨fun _ => ⟨0, 0, 0, 0, 0, 0⟩, fun _ => ⟨0, 0, 0, 0, 0, 0⟩, 0, 0, 1⟩

def submit (q : NvmeQueue) (cmd : NvmeCmd) : Nat × NvmeQueue :=
  (q.sqTail, { q with sq := update q.sq q.sqTail cmd, sqTail := (q.sqTail + 1) % queueDepth })

/-- One turn of the loop of `wait_for_completion`. -/
def poll (q : NvmeQueue) : Option (NvmeCompletion × NvmeQueue) :=
  let cqe := q.cq q.cqHead
  if cqe.status &&& 1 = q.cqPhase then
    let cqHead := (q.cqHead + 1) % queueDepth
    some (cqe, { q with cqHead, cqPhase := if cqHead = 0 then q.cqPhase ^^^ 1 else q.cqPhase })
  else none

end NvmeQueue

inductive NvmeEvent
  | submit (cmd : NvmeCmd)
  /-- The device reads the next command from its slot, which is free again then. -/
  | fetch
  /-- The device posts the completion of the next command it has fetched. -/
  | post (completion : NvmeCompletion)
  | poll

/-- The queue with the commands submitted and those that the device has fetched, the completions
posted and those that `wait_for_completion` has returned. -/
structure NvmeRun where
  queue : NvmeQueue
  submitted : List NvmeCmd
  fetched : List NvmeCmd
  posted : List NvmeCompletion
  returned : List NvmeCompletion

namespace NvmeRun

def new : NvmeRun := ⟨.new, [], [], [], []⟩

/-- The tag of the device's entry number `k`. -/
def tag (k : Nat) : Nat := (k / queueDepth + 1) % 2

/-- The tag in a slot after `count` entries: those from the device's next slot on are left from
the pass before. -/
def slotTag (count slot : Nat) : Nat :=
  (count / queueDepth + if slot < count % queueDepth then 1 else 0) % 2

variable (s : NvmeRun)

def tagged (completion : NvmeCompletion) : NvmeCompletion :=
  { completion with status := completion.status / 2 * 2 + tag s.posted.length }

def apply : NvmeEvent → NvmeRun
  | .submit cmd => { s with queue := (s.queue.submit cmd).2, submitted := s.submitted ++ [cmd] }
  | .fetch => { s with fetched := s.fetched ++ [s.queue.sq (s.fetched.length % queueDepth)] }
  | .post completion =>
    { s with
      queue.cq := update s.queue.cq (s.posted.length % queueDepth) (s.tagged completion)
      posted := s.posted ++ [s.tagged completion] }
  | .poll =>
    match s.queue.poll with
    | none => s
    | some (cqe, queue) => { s with queue, returned := s.returned ++ [cqe] }

/-- A queue holds one command less than it has slots. The driver submits while there is room,
waits for what it has submitted, and the device posts one completion for each command. -/
def Legal : NvmeEvent → Prop
  | .submit _ => s.submitted.length + 1 < s.returned.length + queueDepth
  | .fetch => s.fetched.length < s.submitted.length
  | .post _ => s.posted.length < s.fetched.length
  | .poll => s.returned.length < s.submitted.length

instance : DecidableRel Legal := by
  intro s event
  rcases event <;> dsimp only [Legal] <;> infer_instance

structure Matched : Prop where
  tail_eq : s.queue.sqTail = s.submitted.length % queueDepth
  head_eq : s.queue.cqHead = s.returned.length % queueDepth
  phase_eq : s.queue.cqPhase = tag s.returned.length
  returned_eq : s.returned = s.posted.take s.returned.length
  fetched_eq : s.fetched = s.submitted.take s.fetched.length
  posted_le : s.posted.length ≤ s.fetched.length
  submitted_lt : s.submitted.length < s.returned.length + queueDepth
  tags : ∀ slot < queueDepth, (s.queue.cq slot).status % 2 = slotTag s.posted.length slot
  unfetched : ∀ k cmd, s.fetched.length ≤ k → s.submitted[k]? = some cmd →
    s.queue.sq (k % queueDepth) = cmd
  unread : ∀ k c, s.returned.length ≤ k → s.posted[k]? = some c →
    s.queue.cq (k % queueDepth) = c

variable {s}

lemma tag_succ (k : Nat) :
    tag (k + 1) = if (k + 1) % queueDepth = 0 then tag k ^^^ 1 else tag k := by
  have hcases : tag k = 0 ∨ tag k = 1 := mod_two_eq_zero_or_one _
  split
  · rcases hcases with h | h
    · rw [h, Nat.zero_xor]
      simp only [tag, queueDepth] at *
      omega
    · rw [h, Nat.xor_self]
      simp only [tag, queueDepth] at *
      omega
  · simp only [tag, queueDepth] at *
    omega

lemma slotTag_succ {slot : Nat} (hslot : slot < queueDepth) (count : Nat) :
    slotTag (count + 1) slot =
      if slot = count % queueDepth then tag count else slotTag count slot := by
  simp only [slotTag, tag, queueDepth] at *
  split_ifs <;> omega

lemma slot_lt (k : Nat) : k % queueDepth < queueDepth := mod_lt _ (by decide)

section
variable {k n : Nat} (hlt : k < n) (hroom : n < k + queueDepth)
include hlt hroom

lemma slot_ne : k % queueDepth ≠ n % queueDepth := by
  simp only [queueDepth] at *
  omega

lemma slotTag_of_lt : slotTag n (k % queueDepth) = tag k := by
  simp only [slotTag, tag, queueDepth] at *
  split <;> omega

end

/-- What is known of the entries of a ring from `start` on stays known when the next one is
written behind them. -/
lemma entries_write {α : Type} {ring : Nat → α} {entries : List α} {start : Nat}
    (hroom : entries.length < start + queueDepth)
    (hring : ∀ k entry, start ≤ k → entries[k]? = some entry → ring (k % queueDepth) = entry)
    (added : α) (k : Nat) (entry : α) (hk : start ≤ k)
    (hentry : (entries ++ [added])[k]? = some entry) :
    update ring (entries.length % queueDepth) added (k % queueDepth) = entry := by
  have hle := (List.getElem?_eq_some_iff.mp hentry).1
  rw [length_append, length_singleton, Nat.lt_succ_iff] at hle
  rcases hle.eq_or_lt with rfl | hlt
  · rw [update_self]
    simpa using hentry
  · rw [update_of_ne (slot_ne hlt (by omega))]
    exact hring k entry hk (by rwa [getElem?_append_left hlt] at hentry)

namespace Matched

variable (h : s.Matched)
include h

lemma returned_le : s.returned.length ≤ s.posted.length :=
  (prefix_iff_eq_take.mpr h.returned_eq).length_le

lemma fetched_le : s.fetched.length ≤ s.submitted.length :=
  (prefix_iff_eq_take.mpr h.fetched_eq).length_le

lemma posted_lt : s.posted.length < s.returned.length + queueDepth :=
  (h.posted_le.trans h.fetched_le).trans_lt h.submitted_lt

/-- A turn finds the next completion if it has been posted; otherwise the slot has the tag of
the pass before. -/
lemma poll_eq : s.queue.poll.map Prod.fst = s.posted[s.returned.length]? := by
  have htag := h.tags _ (slot_lt s.returned.length)
  simp only [NvmeQueue.poll, and_one_is_mod, h.head_eq, h.phase_eq, htag]
  cases hnext : s.posted[s.returned.length]? with
  | some c =>
    have hlt := (List.getElem?_eq_some_iff.mp hnext).1
    rw [if_pos (slotTag_of_lt hlt h.posted_lt), h.unread _ c le_rfl hnext, map_some]
  | none =>
    have hlen : s.posted.length = s.returned.length :=
      Nat.le_antisymm (List.getElem?_eq_none_iff.mp hnext) h.returned_le
    have hne : slotTag s.returned.length (s.returned.length % queueDepth) ≠
        tag s.returned.length := by
      simp only [slotTag, tag, lt_irrefl, if_false]
      omega
    rw [hlen, if_neg hne, map_none]

lemma submit (cmd : NvmeCmd) (hlegal : s.Legal (.submit cmd)) :
    (s.apply (.submit cmd)).Matched where
  tail_eq := by simp [apply, NvmeQueue.submit, h.tail_eq, mod_add_mod]
  head_eq := h.head_eq
  phase_eq := h.phase_eq
  returned_eq := h.returned_eq
  fetched_eq := by simpa only [apply, take_append_of_le_length h.fetched_le] using h.fetched_eq
  posted_le := h.posted_le
  submitted_lt := by
    rw [apply, length_append]
    exact hlegal
  tags := h.tags
  unfetched := by
    have hreturned := h.returned_le.trans h.posted_le
    have hlt := h.submitted_lt
    simp only [apply, NvmeQueue.submit, h.tail_eq]
    exact entries_write (by omega) h.unfetched cmd
  unread := h.unread

lemma fetch (hlegal : s.Legal .fetch) : (s.apply .fetch).Matched := by
  have hlen : (s.apply .fetch).fetched.length = s.fetched.length + 1 := length_append
  have hcmd := List.getElem?_eq_getElem hlegal
  refine ⟨h.tail_eq, h.head_eq, h.phase_eq, h.returned_eq, ?_, ?_, h.submitted_lt, h.tags,
    fun k cmd hk => h.unfetched k cmd (le_of_succ_le (hlen.ge.trans hk)), h.unread⟩
  · rw [hlen, apply, h.unfetched _ _ le_rfl hcmd, take_succ_eq_append_getElem hlegal,
      ← h.fetched_eq]
  · rw [hlen]
    exact h.posted_le.trans (le_succ _)

lemma post (completion : NvmeCompletion) (hlegal : s.Legal (.post completion)) :
    (s.apply (.post completion)).Matched := by
  refine ⟨h.tail_eq, h.head_eq, h.phase_eq, ?_, h.fetched_eq, ?_, h.submitted_lt,
    fun slot hslot => ?_, h.unfetched, entries_write h.posted_lt h.unread _⟩
  · simpa only [apply, take_append_of_le_length h.returned_le] using h.returned_eq
  · rw [apply, length_append]
    exact hlegal
  · rw [apply, length_append, length_singleton, slotTag_succ hslot]
    by_cases hwritten : slot = s.posted.length % queueDepth
    · simp only [hwritten, update_self, if_pos, tagged, tag]
      omega
    · simp only [update_of_ne hwritten, if_neg hwritten]
      exact h.tags slot hslot

lemma poll : (s.apply .poll).Matched := by
  have hpoll := h.poll_eq
  rw [apply]
  cases hnext : s.queue.poll with
  | none => exact h
  | some result =>
    obtain ⟨cqe, queue⟩ := result
    rw [hnext, map_some] at hpoll
    obtain ⟨hlt, hcqe⟩ := List.getElem?_eq_some_iff.mp hpoll.symm
    have hqueue : queue = { s.queue with
        cqHead := (s.returned.length + 1) % queueDepth
        cqPhase := tag (s.returned.length + 1) } := by
      simp only [NvmeQueue.poll, h.head_eq, h.phase_eq, mod_add_mod, ← tag_succ] at hnext
      split at hnext
      · exact (Prod.mk.inj (some.inj hnext)).2.symm
      · cases hnext
    have hlen : (s.returned ++ [cqe]).length = s.returned.length + 1 := by simp
    subst hqueue
    refine ⟨h.tail_eq, ?_, ?_, ?_, h.fetched_eq, h.posted_le, ?_, h.tags, h.unfetched,
      fun k c hk => h.unread k c (le_of_succ_le (hlen.ge.trans hk))⟩
    · simp [hlen]
    · simp [hlen]
    · rw [hlen, take_succ_eq_append_getElem hlt, ← h.returned_eq, hcqe]
    · rw [hlen]
      exact h.submitted_lt.trans (by omega)

lemma apply {event : NvmeEvent} (hlegal : s.Legal event) : (s.apply event).Matched := by
  cases event with
  | submit cmd => exact h.submit cmd hlegal
  | fetch => exact h.fetch hlegal
  | post completion => exact h.post completion hlegal
  | poll => exact h.poll

end Matched

/-- After any legal events the completions returned are the first ones posted, in order, and the
commands fetched the first ones submitted. A turn of the waiting loop returns the next completion
just when it has been posted. A command is written to the slot of its number, and every command
that the device has yet to fetch stays in its own. -/
theorem run_matched (events : List NvmeEvent)
    (hevents : Transition.Allowed Legal apply new events) :
    ∃ s, s = events.foldl apply new ∧ s.returned <+: s.posted ∧ s.fetched <+: s.submitted ∧
      s.queue.poll.map Prod.fst = s.posted[s.returned.length]? ∧
      ∀ cmd, s.Legal (.submit cmd) →
        (s.queue.submit cmd).1 = s.submitted.length % queueDepth ∧
        (s.queue.submit cmd).2.sq (s.queue.submit cmd).1 = cmd ∧
        ∀ k waiting, s.fetched.length ≤ k → s.submitted[k]? = some waiting →
          s.queue.sq (k % queueDepth) = waiting ∧
          (s.queue.submit cmd).2.sq (k % queueDepth) = waiting := by
  have hnew : new.Matched := by
    constructor <;> simp [new, NvmeQueue.new, tag, slotTag]
  have h : (events.foldl apply new).Matched :=
    hevents.invariant (fun _ _ h hlegal => h.apply hlegal) hnew
  refine ⟨_, rfl, prefix_iff_eq_take.mpr h.returned_eq, prefix_iff_eq_take.mpr h.fetched_eq,
    h.poll_eq, fun cmd hlegal => ⟨h.tail_eq, update_self .., fun k waiting hk hwaiting => ?_⟩⟩
  refine ⟨h.unfetched k waiting hk hwaiting, (h.submit cmd hlegal).unfetched k waiting hk ?_⟩
  exact (getElem?_append_left (List.getElem?_eq_some_iff.mp hwaiting).1).trans hwaiting

/-- Seventy commands, each waited for before the next: both rings are used past their end. -/
def seventy : List NvmeEvent := (List.range 70).flatMap fun i =>
  [.submit ⟨2, i, 0, 0, 0, 0⟩, .fetch, .post ⟨i, 0, 0, 0, i % queueDepth, 0⟩, .poll]

theorem run_matched_seventy : ∃ s, s = seventy.foldl apply new ∧ s.returned.length = 70 ∧
    s.returned <+: s.posted ∧ s.fetched <+: s.submitted := by
  have hlegal : Transition.Allowed Legal apply new seventy := by decide +kernel
  have hlen : (seventy.foldl apply new).returned.length = 70 := by decide +kernel
  obtain ⟨s, hs, hreturned, hfetched, -⟩ := run_matched seventy hlegal
  exact ⟨s, hs, by rw [hs, hlen], hreturned, hfetched⟩

end NvmeRun

end KarteOs.Driver

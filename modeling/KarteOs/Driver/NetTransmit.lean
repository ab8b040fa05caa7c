import KarteOs.Foundation.Run
import KarteOs.Driver.VirtioNet
import KarteOs.Mm.Pte

/-! # Transmission over virtio

The device fetches the available descriptors in order, after any delay, and
transmits what it then finds in their buffers. Neither driver waits for it: the
riscv64 driver uses one buffer for everything, the x86_64 driver eight in turn. The
lemma says how many frames may be under way.
-/

namespace KarteOs.Driver.VirtioNet

open Mm Transition Blocks Function QueueMem SplitRing List

def QueueMem.content (mem : QueueMem) (id : Nat) : List UInt8 :=
  (window mem.data (mem.desc id).addr (mem.desc id).len).drop virtioNetHdrSize

structure TxSystem where
  mem : QueueMem
  /-- The counter of the x86_64 driver. -/
  nextDesc : Nat
  /-- How far the device has fetched. -/
  fetched : Nat
  /-- The frames the driver has accepted, and those the device has transmitted. -/
  accepted : List (List UInt8)
  transmitted : List (List UInt8)

inductive TxEvent
  | send (data : List UInt8)
  | fetch

def Fits (data : List UInt8) : Prop :=
  data ≠ [] ∧ virtioNetHdrSize + data.length ≤ netMaxPacketSize
deriving Decidable

namespace TxSystem

def boot : TxSystem := ⟨.zeroed, 0, 0, [], []⟩

def send (s : TxSystem) (data : List UInt8) : Arch → TxSystem
  | .riscv64 =>
    match sendPacket s.mem data with
    | none => s
    | some mem => { s with mem, accepted := s.accepted ++ [data] }
  | .x86_64 =>
    let result := sendRaw s.mem s.nextDesc data
    { s with
      mem := result.1
      nextDesc := result.2
      accepted := if Fits data then s.accepted ++ [data] else s.accepted }

def fetch (s : TxSystem) : TxSystem :=
  if s.fetched = s.mem.avail.idx then s
  else
    { s with
      fetched := advance queue s.fetched
      transmitted := s.transmitted ++ [s.mem.content (s.mem.avail.read queue s.fetched)] }

def apply (arch : Arch) (s : TxSystem) : TxEvent → TxSystem
  | .send data => s.send data arch
  | .fetch => s.fetch

def outstanding (s : TxSystem) : Nat := s.mem.avail.outstanding queue s.fetched

def drain (s : TxSystem) : TxSystem := fetch^[s.outstanding] s

/-- Once it has fetched all there is, the device has transmitted the accepted frames. -/
def Faithful (s : TxSystem) : Prop := s.drain.transmitted = s.accepted
deriving Decidable

def buffers : Arch → Nat
  | .riscv64 => 1
  | .x86_64 => queueSize

def Free (arch : Arch) (s : TxSystem) : TxEvent → Prop
  | .send data => Fits data → s.outstanding < buffers arch
  | .fetch => True

/-! ## Frames under way -/

/-- The descriptors under way are distinct, lie in their own buffers and hold the frames
that are accepted and not transmitted yet. -/
structure UnderWay (s : TxSystem) (pending : List Nat) : Prop where
  ring : s.mem.avail.Holds queue s.fetched pending
  nodup : pending.Nodup
  desc : ∀ id ∈ pending, (s.mem.desc id).addr = id * netMaxPacketSize ∧
    (s.mem.desc id).len ≤ netMaxPacketSize
  accepted : s.accepted = s.transmitted ++ pending.map s.mem.content

variable {s : TxSystem} {pending : List Nat} {id : Nat} {data : List UInt8} {arch : Arch}

lemma UnderWay.outstanding_eq (hs : s.UnderWay pending) : s.outstanding = pending.length :=
  hs.ring.outstanding_eq

lemma UnderWay.fetch (hs : s.UnderWay (id :: pending)) : s.fetch.UnderWay pending := by
  have hsome : s.fetched ≠ s.mem.avail.idx := fun heq =>
    cons_ne_nil _ _ (hs.ring.idx_eq_cursor_iff.mp heq.symm)
  rw [TxSystem.fetch, if_neg hsome]
  refine ⟨hs.ring.advance, (nodup_cons.mp hs.nodup).2,
    fun other hother => hs.desc other (.tail _ hother), ?_⟩
  rw [hs.ring.read]
  simpa using hs.accepted

lemma accepted_fetch (s : TxSystem) : s.fetch.accepted = s.accepted := by
  unfold TxSystem.fetch
  split <;> rfl

lemma UnderWay.faithful (hs : s.UnderWay pending) : s.Faithful := by
  have hdrained : ∀ pending (s : TxSystem), s.UnderWay pending →
      (.fetch^[pending.length] s).transmitted = s.accepted := by
    intro pending
    induction pending with
    | nil =>
      intro s hs
      simpa using hs.accepted.symm
    | cons id pending ih =>
      intro s hs
      rw [length_cons, Function.iterate_succ_apply, ih _ hs.fetch, accepted_fetch]
  rw [Faithful, drain, hs.outstanding_eq]
  exact hdrained pending s hs

lemma content_transmit_self (mem : QueueMem) (id : Nat) (data : List UInt8) :
    (mem.transmit id data).content id = data := by
  have hlength : virtioNetHdrSize + data.length =
      (replicate virtioNetHdrSize (0 : UInt8) ++ data).length := by simp
  simp only [content, transmit, makeAvailable, update_self]
  rw [hlength, window_patch_self]
  exact drop_left' (by simp)

lemma content_transmit_of_ne {mem : QueueMem} {other : Nat} (hne : other ≠ id)
    (haddr : (mem.desc other).addr = other * netMaxPacketSize)
    (hlen : (mem.desc other).len ≤ netMaxPacketSize)
    (hdata : virtioNetHdrSize + data.length ≤ netMaxPacketSize) :
    (mem.transmit id data).content other = mem.content other := by
  simp only [content, transmit, makeAvailable, update_of_ne hne, haddr]
  rw [window_patch_of_disjoint (buffers_disjoint hne hlen (by simpa using hdata))]

lemma UnderWay.transmit (hs : s.UnderWay pending) (hroom : pending.length < queueSize)
    (hid : id ∉ pending) (hfits : Fits data) (nextDesc : Nat) : UnderWay { s with
      mem := s.mem.transmit id data
      nextDesc
      accepted := s.accepted ++ [data] } (pending ++ [id]) := by
  have hne : ∀ other ∈ pending, other ≠ id := by
    rintro other hother rfl
    exact hid hother
  refine ⟨hs.ring.push hroom id, ?_, fun other hother => ?_, ?_⟩
  · rw [nodup_append]
    exact ⟨hs.nodup, nodup_singleton id, fun other hother last hlast => by
      rw [mem_singleton.mp hlast]; exact hne other hother⟩
  · simp only [QueueMem.transmit, QueueMem.makeAvailable]
    rcases mem_append.mp hother with hpending | hlast
    · rw [update_of_ne (hne other hpending)]
      exact hs.desc other hpending
    · rw [mem_singleton.mp hlast, update_self]
      exact ⟨rfl, hfits.2⟩
  · have hsame : pending.map (s.mem.transmit id data).content = pending.map s.mem.content :=
      map_congr_left fun other hother => content_transmit_of_ne (hne other hother)
        (hs.desc other hother).1 (hs.desc other hother).2 hfits.2
    change s.accepted ++ [data] =
      s.transmitted ++ (pending ++ [id]).map (s.mem.transmit id data).content
    rw [hs.accepted, map_append, hsame, map_singleton, content_transmit_self, append_assoc]

/-- The x86_64 driver goes through the descriptors in step with the ring. -/
structure InTurn (s : TxSystem) (pending : List Nat) : Prop where
  next : s.nextDesc % queueSize = s.mem.avail.idx % queueSize
  turn : ∀ position id, pending[position]? = some id → id = (s.fetched + position) % queueSize

/-- What holds in every state as long as a buffer is free at each frame. -/
def Kept (arch : Arch) (s : TxSystem) : Prop :=
  ∃ pending, s.UnderWay pending ∧ (arch = .x86_64 → s.InTurn pending)

lemma kept_boot (arch : Arch) : Kept arch boot := by
  refine ⟨[], ⟨⟨Nat.zero_le _, by decide, rfl, ?_⟩, nodup_nil, ?_, rfl⟩, fun _ => ⟨rfl, ?_⟩⟩
  · simp
  · simp
  · simp

lemma InTurn.fetch (hs : s.UnderWay (id :: pending)) (hturn : s.InTurn (id :: pending)) :
    s.fetch.InTurn pending := by
  have hsome : s.fetched ≠ s.mem.avail.idx := fun heq =>
    cons_ne_nil _ _ (hs.ring.idx_eq_cursor_iff.mp heq.symm)
  rw [TxSystem.fetch, if_neg hsome]
  refine ⟨hturn.next, fun position other hother => ?_⟩
  have hprevious := hturn.turn (position + 1) other (by simpa using hother)
  simp only [advance, queue, queueSize] at hprevious ⊢
  omega

lemma Kept.fetch (hs : Kept arch s) : Kept arch s.fetch := by
  obtain ⟨pending, hs, hturn⟩ := hs
  cases pending with
  | nil =>
    rw [TxSystem.fetch, if_pos (hs.ring.idx_eq_cursor_iff.mpr rfl).symm]
    exact ⟨[], hs, hturn⟩
  | cons id pending => exact ⟨pending, hs.fetch, fun harch => (hturn harch).fetch hs⟩

section
variable (hs : s.UnderWay pending) (hturn : s.InTurn pending)
include hs hturn

lemma InTurn.nextDesc_eq : s.nextDesc % queueSize = (s.fetched + pending.length) % queueSize := by
  rw [hturn.next, hs.ring.idx_eq]
  exact Nat.mod_mod_of_dvd _ queue.dvd

lemma InTurn.nextDesc_notMem
    (hroom : pending.length < queueSize) : s.nextDesc % queueSize ∉ pending := by
  intro hmem
  obtain ⟨position, hposition⟩ := mem_iff_getElem?.mp hmem
  have hlt : position < pending.length := (List.getElem?_eq_some_iff.mp hposition).1
  have heq := hturn.turn position _ hposition
  rw [hturn.nextDesc_eq hs] at heq
  exact slot_ne (g := queue) hlt hroom heq.symm

lemma InTurn.transmit (accepted : List (List UInt8)) : InTurn { s with
      mem := s.mem.transmit (s.nextDesc % queueSize) data
      nextDesc := (s.nextDesc + 1) % 65536
      accepted } (pending ++ [s.nextDesc % queueSize]) := by
  have hnext := hturn.next
  refine ⟨?_, fun position other hother => ?_⟩
  · simp only [QueueMem.transmit, QueueMem.makeAvailable, push, queue, queueSize] at *
    omega
  · rcases Nat.lt_trichotomy position pending.length with hlt | rfl | hgt
    · rw [getElem?_append_left hlt] at hother
      exact hturn.turn position other hother
    · obtain rfl : s.nextDesc % queueSize = other := by simpa using hother
      exact hturn.nextDesc_eq hs
    · have hlength := (List.getElem?_eq_some_iff.mp hother).1
      rw [length_append, length_singleton] at hlength
      omega

end

lemma Kept.send (hs : Kept arch s) (hfree : Free arch s (.send data)) :
    Kept arch (s.send data arch) := by
  obtain ⟨pending, hway, hturn⟩ := hs
  rw [Free, hway.outstanding_eq] at hfree
  cases arch with
  | riscv64 =>
    rw [TxSystem.send, sendPacket]
    split
    · exact ⟨pending, hway, hturn⟩
    next hsent =>
      split at hsent
      · cases hsent
      next hne =>
        split at hsent
        · cases hsent
        next hlen =>
          have hfits : Fits data := ⟨hne, Nat.not_lt.mp hlen⟩
          cases hsent
          obtain rfl : pending = [] := length_eq_zero_iff.mp (Nat.lt_one_iff.mp (hfree hfits))
          refine ⟨_, hway.transmit (by decide) not_mem_nil hfits s.nextDesc, ?_⟩
          exact nofun
  | x86_64 =>
    by_cases hfits : Fits data
    · have hsent : ¬(virtioNetHdrSize + data.length > netMaxPacketSize ∨ data = []) := by
        rintro (hlen | hempty)
        · exact Nat.not_lt.mpr hfits.2 hlen
        · exact hfits.1 hempty
      have hroom : pending.length < queueSize := hfree hfits
      simp only [TxSystem.send, sendRaw, if_neg hsent, if_pos hfits]
      exact ⟨_, hway.transmit hroom ((hturn rfl).nextDesc_notMem hway hroom) hfits _,
        fun _ => (hturn rfl).transmit hway _⟩
    · have hdropped : virtioNetHdrSize + data.length > netMaxPacketSize ∨ data = [] := by
        by_contra hnot
        rw [not_or] at hnot
        exact hfits ⟨hnot.2, Nat.not_lt.mp hnot.1⟩
      simp only [TxSystem.send, sendRaw, if_pos hdropped, if_neg hfits]
      exact ⟨pending, hway, hturn⟩

/-- In every run that sends a frame only while a buffer is free, the device transmits
the accepted frames, in order and as they were. -/
theorem run_faithful (arch : Arch) {events : List TxEvent}
    (hfree : Allowed (Free arch) (apply arch) boot events) :
    (events.foldl (apply arch) boot).Faithful := by
  have hstep : ∀ s event, Kept arch s → Free arch s event → Kept arch (s.apply arch event) := by
    intro s event hs hfree
    cases event with
    | send data => exact hs.send hfree
    | fetch => exact hs.fetch
  obtain ⟨pending, hway, _⟩ := Allowed.invariant hstep hfree (kept_boot arch)
  exact hway.faithful

instance (arch : Arch) (s : TxSystem) (event : TxEvent) : Decidable (Free arch s event) := by
  unfold Free
  split <;> infer_instance

def oneAtATime : List TxEvent := [.send [1], .fetch, .send [2]]

def eightFrames : List TxEvent := (List.range 8).map fun i => .send [UInt8.ofNat i]

theorem run_faithful_oneAtATime_eightFrames : (oneAtATime.foldl (apply .riscv64) boot).Faithful ∧
    (eightFrames.foldl (apply .x86_64) boot).Faithful :=
  ⟨run_faithful .riscv64 (by decide), run_faithful .x86_64 (by decide)⟩

/-- A frame sent before the device has fetched an earlier one from the same buffer takes
its place. -/
theorem buffers_overwritten :
    ¬([TxEvent.send [1], .send [2]].foldl (apply .riscv64) boot).Faithful ∧
      ¬((eightFrames ++ [TxEvent.send [8]]).foldl (apply .x86_64) boot).Faithful := by
  constructor
  · decide
  · decide

end TxSystem

end KarteOs.Driver.VirtioNet

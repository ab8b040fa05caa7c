import KarteOs.Foundation.Run
import KarteOs.Driver.VirtioNet

/-! # Reception over virtio

The device fetches available descriptors, writes frames into their buffers and gives
the descriptors back through the used ring, in any order and after any delay. For the
driver of each architecture the module states what a call owes the oldest used element,
and where the driver gives it.
-/

namespace KarteOs.Driver.VirtioNet

open Transition Blocks SplitRing List Option Nat

/-! ## The riscv64 driver -/

/-- What the device writes into the buffer of a descriptor, the header included. -/
structure Delivery where
  id : Nat
  bytes : List UInt8

def Delivery.elem (delivery : Delivery) : VringUsedElem := ⟨delivery.id, delivery.bytes.length⟩

def Delivery.frame (delivery : Delivery) : Option (List UInt8) :=
  if virtioNetHdrSize ≤ delivery.bytes.length then some (delivery.bytes.drop virtioNetHdrSize)
  else none

structure RxSystem where
  mem : QueueMem
  lastUsed : Nat
  /-- How far the device has fetched, and the descriptors it holds. -/
  fetched : Nat
  held : List Nat
  /-- What is delivered and not taken by a call yet. -/
  waiting : List Delivery
  /-- The frames the calls have returned, and those a queue would have returned. -/
  returned : List (List UInt8)
  expected : List (List UInt8)

inductive RxEvent
  | fetch
  | deliver (delivery : Delivery)
  | recv (bufLen : Nat)

namespace RxSystem

def boot : RxSystem := ⟨prepareRx .zeroed, 0, 0, [], [], [], []⟩

variable (s : RxSystem)

def fetch : RxSystem :=
  if s.fetched = s.mem.avail.idx then s
  else
    { s with
      fetched := advance queue s.fetched
      held := s.held ++ [s.mem.avail.read queue s.fetched] }

def deliver (delivery : Delivery) : RxSystem :=
  { s with
    mem := { s.mem with
      data := patch s.mem.data (s.mem.desc delivery.id).addr delivery.bytes
      used := s.mem.used.push queue delivery.elem }
    held := s.held.erase delivery.id
    waiting := s.waiting ++ [delivery] }

def recv (bufLen : Nat) : RxSystem :=
  let result := recvPacket s.mem s.lastUsed bufLen
  { s with
    mem := result.1
    lastUsed := result.2.1
    waiting := s.waiting.tail
    returned := s.returned ++ result.2.2.toList
    expected := s.expected ++ (s.waiting.head?.bind Delivery.frame).toList }

def apply : RxEvent → RxSystem
  | .fetch => s.fetch
  | .deliver delivery => s.deliver delivery
  | .recv bufLen => s.recv bufLen

/-- The device writes only into descriptors it holds and not past their end; the
caller's buffers take every frame. -/
def Conforming : RxEvent → Prop
  | .fetch => True
  | .deliver delivery =>
    delivery.id ∈ s.held ∧ delivery.bytes.length ≤ (s.mem.desc delivery.id).len
  | .recv bufLen => netMaxPacketSize - virtioNetHdrSize ≤ bufLen

/-- The frames are returned as by a queue, and each descriptor is in exactly one place:
available, held by the device, or waiting with a delivery. -/
def IsQueue : Prop :=
  s.returned = s.expected ∧
    (s.mem.avail.entries queue s.fetched ++ s.held ++ s.waiting.map Delivery.id).Perm
      (List.range queueSize)
deriving Decidable

/-- A call that finds an element is the first to return a frame, and the element is not
too short for one. -/
def FirstFrame : RxEvent → Prop
  | .recv _ => s.lastUsed ≠ s.mem.used.idx →
      s.returned = [] ∧ virtioNetHdrSize ≤ (s.mem.used.read queue s.lastUsed).len
  | _ => True

/-- The descriptors that are available or with the device, each with its own buffer. -/
structure Owned (s : RxSystem) (offered : List Nat) : Prop where
  ring : s.mem.avail.Holds queue s.fetched offered
  once : (offered ++ s.held ++ s.waiting.map Delivery.id).Perm (List.range queueSize)
  desc : ∀ id < queueSize,
    s.mem.desc id = ⟨id * netMaxPacketSize, netMaxPacketSize, vringDescFWrite, 0⟩

/-- Before the first frame is returned, the used ring and the buffers hold what waits. -/
structure Unread (s : RxSystem) : Prop where
  returned : s.returned = []
  expected : s.expected = []
  ring : s.mem.used.Holds queue s.lastUsed (s.waiting.map Delivery.elem)
  bytes : ∀ delivery ∈ s.waiting, delivery.bytes.length ≤ netMaxPacketSize ∧
    window s.mem.data (delivery.id * netMaxPacketSize) delivery.bytes.length = delivery.bytes

/-- Afterwards the cursor stays on the element that was returned. -/
structure Stuck (s : RxSystem) : Prop where
  returned : s.returned = s.expected
  some : s.returned ≠ []
  idx : s.mem.used.idx = s.waiting.length + 1

def Kept (s : RxSystem) : Prop :=
  s.lastUsed = 0 ∧ (∃ offered, s.Owned offered) ∧ (s.Unread ∨ s.Stuck)

variable {s : RxSystem} {offered : List Nat} {id bufLen : Nat} {delivery : Delivery}
  {rest : List Delivery}

lemma Owned.length_eq (hs : s.Owned offered) :
    offered.length + s.held.length + s.waiting.length = queueSize := by
  simpa [Nat.add_assoc] using hs.once.length_eq

lemma Owned.nodup (hs : s.Owned offered) : (offered ++ s.held ++ s.waiting.map Delivery.id).Nodup :=
  hs.once.nodup_iff.mpr nodup_range

lemma Kept.isQueue (hs : s.Kept) : s.IsQueue := by
  obtain ⟨_, ⟨offered, howned⟩, hphase⟩ := hs
  refine ⟨?_, by rw [howned.ring.entries_eq]; exact howned.once⟩
  rcases hphase with hunread | hstuck
  · rw [hunread.returned, hunread.expected]
  · exact hstuck.returned

lemma kept_boot : boot.Kept := by
  refine ⟨rfl, ⟨range queueSize, ⟨⟨by simp [queue], by decide, rfl, ?_⟩, by simp [boot], ?_⟩⟩,
    .inl ⟨rfl, rfl, ⟨Nat.zero_le _, by decide, rfl, ?_⟩, ?_⟩⟩
  · intro position id hid
    obtain ⟨hposition, rfl⟩ := List.getElem?_eq_some_iff.mp hid
    rw [length_range] at hposition
    have hslot : position % queue.size = position := mod_eq_of_lt hposition
    simp [boot, prepareRx, hslot, hposition]
  · intro id hid
    exact if_pos hid
  · simp [boot]
  · simp [boot]

lemma Kept.fetch (hs : s.Kept) : s.fetch.Kept := by
  obtain ⟨hcursor, ⟨offered, howned⟩, hphase⟩ := hs
  unfold RxSystem.fetch
  split
  · exact ⟨hcursor, ⟨offered, howned⟩, hphase⟩
  next hne =>
    cases offered with
    | nil => exact absurd (howned.ring.idx_eq_cursor_iff.mpr rfl).symm hne
    | cons id offered =>
      refine ⟨hcursor, ⟨offered, howned.ring.advance, ?_, howned.desc⟩, ?_⟩
      · rw [howned.ring.read]
        refine Perm.trans (Perm.append_right _ ?_) howned.once
        rw [← append_assoc]
        exact perm_append_singleton id (offered ++ s.held)
      · rcases hphase with hunread | hstuck
        · exact .inl ⟨hunread.returned, hunread.expected, hunread.ring, hunread.bytes⟩
        · exact .inr ⟨hstuck.returned, hstuck.some, hstuck.idx⟩

section
variable (hs : s.Owned offered)
include hs

lemma Owned.ne_of_held (hheld : id ∈ s.held)
    (hdelivery : delivery ∈ s.waiting) : delivery.id ≠ id := by
  rintro rfl
  exact (nodup_append.mp hs.nodup).2.2 _ (mem_append_right _ hheld) _
    (List.mem_map_of_mem hdelivery) rfl

lemma Owned.lt_of_held (hheld : id ∈ s.held) : id < queueSize :=
  mem_range.mp (hs.once.subset (mem_append_left _ (mem_append_right _ hheld)))

lemma Owned.deliver (hheld : delivery.id ∈ s.held) : (s.deliver delivery).Owned offered := by
  refine ⟨hs.ring, ?_, hs.desc⟩
  refine Perm.trans ?_ hs.once
  simp only [RxSystem.deliver, map_append, map_singleton, append_assoc]
  refine Perm.append_left offered ?_
  rw [← append_assoc]
  refine (perm_append_singleton ..).trans ?_
  rw [← cons_append]
  exact (perm_cons_erase hheld).symm.append_right _

end

lemma Unread.deliver (hs : s.Unread) (howned : s.Owned offered) (hheld : delivery.id ∈ s.held)
    (hlen : delivery.bytes.length ≤ (s.mem.desc delivery.id).len) :
    (s.deliver delivery).Unread := by
  have hdesc := howned.desc _ (howned.lt_of_held hheld)
  have hlength : delivery.bytes.length ≤ netMaxPacketSize := by rwa [hdesc] at hlen
  refine ⟨hs.returned, hs.expected, ?_, fun other hother => ?_⟩
  · have hroom : (s.waiting.map Delivery.elem).length < queueSize := by
      have hlength := howned.length_eq
      have hpos := length_pos_of_mem hheld
      rw [length_map]
      omega
    simpa [RxSystem.deliver] using hs.ring.push hroom delivery.elem
  · simp only [RxSystem.deliver, hdesc]
    rcases mem_append.mp hother with hwaiting | hlast
    · obtain ⟨hle, hbytes⟩ := hs.bytes other hwaiting
      refine ⟨hle, ?_⟩
      rw [window_patch_of_disjoint
        (buffers_disjoint (howned.ne_of_held hheld hwaiting) hle hlength)]
      exact hbytes
    · obtain rfl := mem_singleton.mp hlast
      exact ⟨hlength, window_patch_self ..⟩

lemma Stuck.deliver (hs : s.Stuck) (howned : s.Owned offered) (delivery : Delivery) :
    (s.deliver delivery).Stuck := by
  refine ⟨hs.returned, hs.some, ?_⟩
  have hlength := howned.length_eq
  simp only [RxSystem.deliver, push, hs.idx, length_append, length_singleton]
  exact mod_eq_of_lt (by simp only [queue, queueSize] at *; omega)

lemma Kept.deliver (hs : s.Kept) (hheld : delivery.id ∈ s.held)
    (hlen : delivery.bytes.length ≤ (s.mem.desc delivery.id).len) : (s.deliver delivery).Kept := by
  obtain ⟨hcursor, ⟨offered, howned⟩, hphase⟩ := hs
  refine ⟨hcursor, ⟨offered, howned.deliver hheld⟩, ?_⟩
  rcases hphase with hunread | hstuck
  · exact .inl (hunread.deliver howned hheld hlen)
  · exact .inr (hstuck.deliver howned delivery)

lemma recv_of_empty (hs : s.Unread) (hempty : s.lastUsed = s.mem.used.idx) (bufLen : Nat) :
    s.recv bufLen = s := by
  have hwaiting : s.waiting = [] := by simpa using hs.ring.idx_eq_cursor_iff.mp hempty.symm
  obtain ⟨mem, lastUsed, fetched, held, waiting, returned, expected⟩ := s
  subst hwaiting
  simp only [RxSystem.recv, recvPacket, if_pos hempty]
  simp

lemma recvPacket_frame {mem : QueueMem} {lastUsed : Nat} {elem : VringUsedElem}
    (hne : lastUsed ≠ mem.used.idx) (helem : mem.used.read queue lastUsed = elem)
    (hid : elem.id < queueSize) (hmin : virtioNetHdrSize ≤ elem.len)
    (hmax : elem.len ≤ netMaxPacketSize) (hbuf : netMaxPacketSize - virtioNetHdrSize ≤ bufLen) :
    recvPacket mem lastUsed bufLen =
      (mem.offer elem.id, lastUsed, some (mem.payload elem.id elem.len)) := by
  have hformed : ¬(elem.len < virtioNetHdrSize ∨ elem.len > netMaxPacketSize ∨
      elem.id ≥ queueSize) := by omega
  rw [recvPacket, if_neg hne]
  simp only [helem]
  rw [if_neg hformed, if_neg (by omega)]

lemma Owned.offer (hs : s.Owned offered) (hwaiting : s.waiting = delivery :: rest)
    (lastUsed : Nat) (returned expected : List (List UInt8)) : Owned { s with
      mem := s.mem.offer delivery.id, lastUsed, waiting := rest, returned, expected }
      (offered ++ [delivery.id]) := by
  have hlength := hs.length_eq
  rw [hwaiting, length_cons] at hlength
  refine ⟨hs.ring.push (Nat.lt_of_lt_of_eq (by omega) hlength) delivery.id, ?_, fun id hid => ?_⟩
  · refine Perm.trans ?_ hs.once
    simp only [hwaiting, map_cons, append_assoc, singleton_append]
    exact Perm.append_left offered perm_middle.symm
  · by_cases heq : id = delivery.id
    · subst heq
      exact Function.update_self ..
    · exact (Function.update_of_ne heq ..).trans (hs.desc id hid)

lemma Unread.recv (hs : s.Unread) (hcursor : s.lastUsed = 0) (howned : s.Owned offered)
    (hwaiting : s.waiting = delivery :: rest) (hmin : virtioNetHdrSize ≤ delivery.bytes.length)
    (hbuf : netMaxPacketSize - virtioNetHdrSize ≤ bufLen) : (s.recv bufLen).Kept := by
  have hring := hs.ring
  rw [hwaiting, map_cons] at hring
  have hne : s.lastUsed ≠ s.mem.used.idx := fun heq =>
    cons_ne_nil _ _ (hring.idx_eq_cursor_iff.mp heq.symm)
  obtain ⟨hmax, hbytes⟩ := hs.bytes delivery (by rw [hwaiting]; exact (.head _))
  have hid : delivery.id < queueSize := by
    refine mem_range.mp (howned.once.subset (mem_append_right _ ?_))
    rw [hwaiting]
    exact .head _
  have hframe : delivery.frame = some (s.mem.payload delivery.id delivery.bytes.length) := by
    rw [Delivery.frame, if_pos hmin, QueueMem.payload, ← drop_window, hbytes]
  have hcall := recvPacket_frame hne hring.read hid hmin hmax hbuf
  simp only [RxSystem.recv, hcall, hwaiting, hs.returned, hs.expected, tail_cons,
    head?_cons, bind_some, hframe]
  refine ⟨hcursor, ⟨_, howned.offer hwaiting _ _ _⟩, .inr ⟨rfl, cons_ne_nil _ _, ?_⟩⟩
  have hlength := hring.length_le
  have hidx := hring.idx_eq
  simp only [hcursor, length_cons, length_map, Nat.zero_add] at hidx hlength
  exact hidx.trans (mod_eq_of_lt (Nat.lt_of_le_of_lt hlength queue.lt))

lemma Kept.recv (hs : s.Kept) (hbuf : netMaxPacketSize - virtioNetHdrSize ≤ bufLen)
    (hfirst : s.FirstFrame (.recv bufLen)) : (s.recv bufLen).Kept := by
  have hkept := hs
  obtain ⟨hcursor, ⟨offered, howned⟩, hunread | hstuck⟩ := hs
  · by_cases hempty : s.lastUsed = s.mem.used.idx
    · rwa [recv_of_empty hunread hempty]
    · obtain ⟨_, hmin⟩ := hfirst hempty
      cases hwaiting : s.waiting with
      | nil =>
        have hnil := hunread.ring.idx_eq_cursor_iff.mpr (by rw [hwaiting]; rfl)
        exact absurd hnil.symm hempty
      | cons delivery rest =>
        have hring := hunread.ring
        rw [hwaiting, map_cons] at hring
        rw [hring.read] at hmin
        exact hunread.recv hcursor howned hwaiting hmin hbuf
  · have hne : s.lastUsed ≠ s.mem.used.idx := by
      rw [hcursor, hstuck.idx]
      exact (succ_ne_zero _).symm
    exact absurd (hfirst hne).1 hstuck.some

/-- In every run in which only one frame is returned and no element is too short, the
driver is a queue. -/
theorem run_isQueue {events : List RxEvent} {final : RxSystem}
    (hrun : Run (Guarded Conforming apply) boot events final)
    (hfirst : Allowed FirstFrame apply boot events) : final.IsQueue := by
  have hstep : ∀ s event, Kept s → Conforming s event → FirstFrame s event →
      Kept (s.apply event) := by
    intro s event hs hlegal hfirst
    cases event with
    | fetch => exact hs.fetch
    | deliver delivery => exact hs.deliver hlegal.1 hlegal.2
    | recv bufLen => exact hs.recv hlegal hfirst
  exact (hrun.invariant_of_allowed hstep hfirst kept_boot).isQueue

instance (s : RxSystem) (event : RxEvent) : Decidable (s.Conforming event) := by
  unfold Conforming
  split <;> infer_instance

instance (s : RxSystem) (event : RxEvent) : Decidable (s.FirstFrame event) := by
  unfold FirstFrame
  split <;> infer_instance

def oneFrame : List RxEvent := [.fetch, .deliver ⟨0, List.replicate 10 0 ++ [7]⟩, .recv 1514]

theorem run_isQueue_oneFrame : (oneFrame.foldl apply boot).IsQueue :=
  run_isQueue (Run.of_allowed (by decide)) (by decide)

def oneFrameTwoCalls : List RxEvent := oneFrame ++ [.recv 1514]

def shortElement : List RxEvent := [.fetch, .deliver ⟨0, [1]⟩, .recv 1514]

/-- A second call returns the frame again and offers its descriptor twice; the
descriptor of an element without a whole header is lost. -/
theorem frame_returned_twice : Allowed Conforming apply boot oneFrameTwoCalls ∧
    (oneFrameTwoCalls.foldl apply boot).returned = [[7], [7]] ∧
    ¬(oneFrameTwoCalls.foldl apply boot).IsQueue ∧
    Allowed Conforming apply boot shortElement ∧
    ¬(shortElement.foldl apply boot).IsQueue := by
  refine ⟨?_, ?_, ?_, ?_, ?_⟩ <;> decide

end RxSystem

/-! ## The x86_64 driver -/

structure RawRxSystem where
  mem : QueueMem
  lastSeen : Nat
  /-- The used elements no call has consumed yet. -/
  waiting : List VringUsedElem

inductive RawRxEvent
  | write (addr : Nat) (bytes : List UInt8)
  | publish (elem : VringUsedElem)
  | recv (bufLen : Nat)

/-- The element has a length that a buffer can hold and the caller's buffer can take. -/
def Readable (elem : VringUsedElem) (bufLen : Nat) : Prop :=
  virtioNetHdrSize ≤ elem.len ∧ elem.len ≤ netMaxPacketSize ∧ elem.len - virtioNetHdrSize ≤ bufLen
deriving Decidable

namespace RawRxSystem

def boot : RawRxSystem := ⟨prepareRxX86 .zeroed, 0, []⟩

variable (s : RawRxSystem)

def recv (bufLen : Nat) : RawRxSystem :=
  let result := recvRaw s.mem s.lastSeen bufLen
  ⟨result.1, result.2.1, s.waiting.tail⟩

/-- The device writes what it likes into the buffers and publishes any element. -/
def apply : RawRxEvent → RawRxSystem
  | .write addr bytes => { s with mem := { s.mem with data := patch s.mem.data addr bytes } }
  | .publish elem =>
    { s with
      mem := { s.mem with used := s.mem.used.push queue elem }
      waiting := s.waiting ++ [elem] }
  | .recv bufLen => s.recv bufLen

def Conforming : RawRxEvent → Prop
  | .publish _ => s.waiting.length < queueSize
  | _ => True

/-- The available ring after a call and what the call returns: the frame in the buffer
that the oldest element names, if it can be read; the descriptor is offered again. -/
def owed (bufLen : Nat) : SplitRing Nat × Received :=
  match s.waiting with
  | [] => (s.mem.avail, .none)
  | elem :: _ =>
    if elem.id < queueSize then
      (s.mem.avail.push queue elem.id,
        if Readable elem bufLen then .frame (s.mem.payload elem.id elem.len) else .none)
    else (s.mem.avail, .none)

def Right : RawRxEvent → Prop
  | .recv bufLen =>
    let result := recvRaw s.mem s.lastSeen bufLen
    (result.1.avail, result.2.2) = s.owed bufLen
  | _ => True

/-- The oldest element can be read, and the first buffer holds the same frame as its own;
or it cannot be read and names no descriptor. -/
def FromFirst : RawRxEvent → Prop
  | .recv bufLen => ∀ elem ∈ s.waiting.head?,
      if elem.id < queueSize then
        Readable elem bufLen ∧ s.mem.payload elem.id elem.len = s.mem.payload 0 elem.len
      else ¬Readable elem bufLen
  | _ => True

def Consistent : Prop := s.mem.used.Holds queue s.lastSeen s.waiting

variable {s : RawRxSystem} {elem : VringUsedElem} {rest : List VringUsedElem} {bufLen : Nat}
  {mem : QueueMem} {event : RawRxEvent}

lemma recvRaw_elem {lastSeen : Nat} (hring : mem.used.Holds queue lastSeen (elem :: rest))
    (bufLen : Nat) : recvRaw mem lastSeen bufLen = if Readable elem bufLen then
        if elem.id < queueSize then
          (mem.offer elem.id, advance queue lastSeen, .frame (mem.payload 0 elem.len))
        else (mem, advance queue lastSeen, .outOfBounds)
      else (mem, advance queue lastSeen, .none) := by
  have hne : mem.used.idx ≠ lastSeen := fun heq => cons_ne_nil _ _ (hring.idx_eq_cursor_iff.mp heq)
  rw [recvRaw, if_neg hne]
  simp only [hring.read]
  by_cases hreadable : Readable elem bufLen
  · obtain ⟨hmin, hmax, hbuf⟩ := id hreadable
    rw [if_pos hreadable, if_neg (by omega), if_neg (by omega)]
    by_cases hid : elem.id < queueSize
    · rw [if_pos hid, if_neg (Nat.not_le.mpr hid)]
    · rw [if_neg hid, if_pos (not_lt.mp hid)]
  · rw [if_neg hreadable]
    split
    · rfl
    next hlen =>
      rw [if_pos]
      by_contra hbuf
      exact hreadable ⟨by omega, by omega, by omega⟩

lemma recvRaw_empty {lastSeen : Nat} (hring : mem.used.Holds queue lastSeen []) (bufLen : Nat) :
    recvRaw mem lastSeen bufLen = (mem, lastSeen, .none) :=
  if_pos (hring.idx_eq_cursor_iff.mpr rfl)

lemma Consistent.recv (hs : s.Consistent) (bufLen : Nat) : (s.recv bufLen).Consistent := by
  obtain ⟨mem, lastSeen, waiting⟩ := s
  cases waiting with
  | nil =>
    simp only [RawRxSystem.recv, recvRaw_empty hs]
    exact hs
  | cons elem rest =>
    simp only [RawRxSystem.recv, recvRaw_elem hs]
    split
    · split
      · exact hs.advance
      · exact hs.advance
    · exact hs.advance

lemma Consistent.apply (hs : s.Consistent) (hlegal : s.Conforming event) :
    (s.apply event).Consistent := by
  cases event with
  | write addr bytes => exact hs
  | publish elem => exact hs.push hlegal elem
  | recv bufLen => exact hs.recv bufLen

lemma consistent_boot : boot.Consistent := by
  refine ⟨Nat.zero_le _, by decide, by decide, ?_⟩
  simp [boot]

lemma push_ne (ring : SplitRing Nat) (id : Nat) : ring ≠ ring.push queue id := by
  intro heq
  have hidx := congrArg idx heq
  simp only [push, queue] at hidx
  omega

lemma Consistent.right_iff (hs : s.Consistent) : s.Right event ↔ s.FromFirst event := by
  cases event with
  | write addr bytes | publish elem => exact Iff.rfl
  | recv bufLen =>
    obtain ⟨mem, lastSeen, waiting⟩ := s
    cases waiting with
    | nil => simp [Right, FromFirst, owed, recvRaw_empty hs]
    | cons elem rest =>
      simp only [Right, FromFirst, owed, recvRaw_elem hs, head?_cons, mem_def,
        some.injEq, forall_eq']
      by_cases hid : elem.id < queueSize
      · by_cases hreadable : Readable elem bufLen
        · simp [hid, hreadable, QueueMem.offer, QueueMem.makeAvailable, eq_comm]
        · simp [hid, hreadable, push_ne]
      · by_cases hreadable : Readable elem bufLen
        · simp [hid, hreadable]
        · simp [hid, hreadable]

/-- In every run the calls are right exactly where the first buffer holds the frame. -/
theorem run_right_iff {events : List RawRxEvent} (hdevice : Allowed Conforming apply boot events) :
    Allowed Right apply boot events ↔ Allowed FromFirst apply boot events :=
  Allowed.iff_of_good (fun _ _ hs _ => hs.right_iff) (fun _ _ hs hlegal => hs.apply hlegal)
    hdevice consistent_boot

instance (s : RawRxSystem) (event : RawRxEvent) : Decidable (s.Conforming event) := by
  unfold Conforming
  split <;> infer_instance

instance (s : RawRxSystem) (event : RawRxEvent) : Decidable (s.FromFirst event) := by
  unfold FromFirst
  split <;> infer_instance

def frameIn (id : Nat) : List RawRxEvent :=
  [.write (id * netMaxPacketSize + virtioNetHdrSize) [7], .publish ⟨id, 11⟩, .recv 4]

theorem run_right_iff_firstBuffer : Allowed Right apply boot (frameIn 0) :=
  (run_right_iff (by decide)).mpr (by decide)

/-- The frame is taken from the first buffer whatever the element names, the descriptor
of an element that is too short is not offered again, and a descriptor out of range
stops the kernel. -/
theorem first_buffer_returned :
    (Allowed Conforming apply boot (frameIn 1) ∧ ¬Allowed Right apply boot (frameIn 1)) ∧
      (Allowed Conforming apply boot [.publish ⟨0, 5⟩, .recv 4] ∧
        ¬Allowed Right apply boot [.publish ⟨0, 5⟩, .recv 4]) ∧
      (Allowed Conforming apply boot [.publish ⟨8, 11⟩, .recv 4] ∧
        ¬Allowed Right apply boot [.publish ⟨8, 11⟩, .recv 4]) := by
  refine ⟨⟨by decide, ?_⟩, ⟨by decide, ?_⟩, ⟨by decide, ?_⟩⟩
  · rintro ⟨_, _, hright, _⟩
    exact absurd (congrArg Prod.snd hright) (by decide)
  · rintro ⟨_, hright, _⟩
    exact absurd (congrArg (fun owed => owed.1.idx) hright) (by decide)
  · rintro ⟨_, hright, _⟩
    exact absurd (congrArg Prod.snd hright) (by decide)

end RawRxSystem

end KarteOs.Driver.VirtioNet

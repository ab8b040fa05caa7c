import KarteOs.Foundation.Blocks
import KarteOs.Foundation.Run

/-! # The network on the microcontroller

`net32.rs` lays its receive queue out with descriptors of 12 bytes, so that its used
ring begins at byte 4064. The device has descriptors of 16 bytes and its used ring at
the next multiple of 4096. It writes each element as two words of 32 bits, the number
of the descriptor and the length; the driver reads words of 16 bits.
-/

namespace KarteOs.Device.Net32

open Blocks Transition

abbrev queueSize : Nat := 8

def netMaxPacket : Nat := 1524

/-- The size of the header that the device puts before a frame. -/
def headerLen : Nat := 10

/-- The fields of `QueueMem` behind the descriptors, and the used ring where the device has it. -/
def availBuf : Nat := queueSize * 12

def usedBuf : Nat := availBuf + (4096 - queueSize * 16)

def dataBuf : Nat := usedBuf + 4096

def deviceUsed : Nat := 4096

def word (mem : Nat → UInt8) (offset : Nat) : UInt16 :=
  (mem offset).toUInt16 ||| (mem (offset + 1)).toUInt16 <<< 8

/-- The bytes of a number, the lowest first. -/
def leBytes (n : Nat) : Nat → List UInt8
  | 0 => []
  | width + 1 => .ofNat n :: leBytes (n / 256) width

def store (mem : Nat → UInt8) (writes : List (Nat × List UInt8)) : Nat → UInt8 :=
  writes.foldl (fun mem (start, bytes) => patch mem start bytes) mem

/-- `RX_MEM` by byte, and `RX`. -/
structure Rx where
  mem : Nat → UInt8
  availIdx : UInt16
  lastUsed : UInt16

namespace Rx

/-- After `setup_queue`: every descriptor is in the available ring. -/
def setup : Rx where
  mem := store (fun _ => 0) ((availBuf + 2, leBytes queueSize 2) ::
    (List.range queueSize).map fun i => (availBuf + 2 * (2 + i), leBytes i 2))
  availIdx := 8
  lastUsed := 0

variable (s : Rx)

def availSlot : Nat := availBuf + 2 * (2 + s.availIdx.toNat % queueSize)

def recvFrame (outLen : Nat) : Rx × Option (List UInt8) :=
  let uidx := word s.mem (usedBuf + 2)
  if uidx = s.lastUsed then (s, none)
  else
    let ent := usedBuf + 2 * (2 + s.lastUsed.toNat % queueSize * 4)
    let id := (word s.mem ent).toNat
    let len := (word s.mem (ent + 2)).toNat
    let rx := { s with lastUsed := s.lastUsed + 1 }
    if len < headerLen ∨ queueSize ≤ id then (rx, none)
    else
      let copyLen := min (len - headerLen) outLen
      ({ rx with
          mem := store s.mem [(s.availSlot, leBytes id 2),
            (availBuf + 2, leBytes (s.availIdx + 1).toNat 2)]
          availIdx := s.availIdx + 1 },
        some (window s.mem (dataBuf + (id * netMaxPacket + headerLen)) copyLen))

/-- The device puts a packet into the buffer of a descriptor and reports it in its used ring. -/
def deliver (count : UInt16) (id : Fin queueSize) (packet : List UInt8) : Rx :=
  { s with mem := store s.mem [(dataBuf + id * netMaxPacket, packet),
      (deviceUsed + 4 + count.toNat % queueSize * 8, leBytes id 4 ++ leBytes packet.length 4),
      (deviceUsed + 2, leBytes (count + 1).toNat 2)] }

/-- The count that the driver looks at is the one it has seen already. -/
structure Deaf : Prop where
  idx : s.mem (usedBuf + 2) = 0 ∧ s.mem (usedBuf + 3) = 0
  lastUsed : s.lastUsed = 0

variable {s}

lemma Deaf.recvFrame (h : s.Deaf) (outLen : Nat) : s.recvFrame outLen = (s, none) := by
  have hidx : word s.mem (usedBuf + 2) = s.lastUsed := by
    rw [word, h.idx.1, h.idx.2, h.lastUsed]
    rfl
  exact if_pos hidx

/-- Nothing that the device writes lies where the driver looks for the count. -/
lemma Deaf.deliver (h : s.Deaf) (count : UInt16) (id : Fin queueSize) (packet : List UInt8) :
    (s.deliver count id packet).Deaf := by
  have hbelow : ∀ i < deviceUsed, (s.deliver count id packet).mem i = s.mem i := by
    intro i hi
    have hdata : i < dataBuf + id * netMaxPacket :=
      Nat.lt_of_lt_of_le (Nat.lt_trans hi (by decide)) (Nat.le_add_right ..)
    simp only [Rx.deliver, store, List.foldl_cons, List.foldl_nil]
    rw [patch_of_outside (.inl (by omega)), patch_of_outside (.inl (by omega)),
      patch_of_outside (.inl hdata)]
  exact ⟨by rw [hbelow _ (by decide), hbelow _ (by decide)]; exact h.idx, h.lastUsed⟩

end Rx

inductive RxEvent
  | deliver (id : Fin queueSize) (packet : List UInt8)
  | recv (outLen : Nat)

/-- The queue with the device's count and the packets that it has reported and no call has
consumed. -/
structure Reception where
  rx : Rx
  count : UInt16
  pending : List (Fin queueSize × List UInt8)

namespace Reception

def boot : Reception := ⟨.setup, 0, []⟩

variable (s : Reception)

def apply : RxEvent → Reception
  | .deliver id packet =>
    ⟨s.rx.deliver s.count id packet, s.count + 1, s.pending ++ [(id, packet)]⟩
  | .recv outLen => ⟨(s.rx.recvFrame outLen).1, s.count, s.pending.tail⟩

end Reception

/-! ## UDP over IPv4 -/

def selfIp : List UInt8 := [10, 0, 2, 15]

def toBeBytes (w : UInt16) : List UInt8 := [(w >>> 8).toUInt8, w.toUInt8]

variable (mac gwMac : Vector UInt8 6) (dstIp : Vector UInt8 4) (dstPort srcPort : UInt16)
  (payload : List UInt8)

/-- The frame that `udp_send` passes on, by its stores in their order; `none` is the panic
at the last of them, for which the frame is too short. -/
def udpFrame : Option (List UInt8) :=
  let ipTotal : UInt16 := .ofNat (20 + 8 + payload.length)
  let f := [(0, gwMac.toList), (6, mac.toList), (12, toBeBytes 0x0800), (14, [0x45, 0]),
    (16, toBeBytes ipTotal), (19, toBeBytes 42), (22, toBeBytes 0x4000), (24, [64, 17]),
    (26, selfIp), (30, dstIp.toList), (34, toBeBytes srcPort), (36, toBeBytes dstPort),
    (38, toBeBytes (.ofNat (8 + payload.length))), (40, toBeBytes 0), (42, payload)].foldl
      (fun f (start, bytes) => patch f start bytes) fun _ => 0
  if payload.length ≤ 256 then some (window f 0 (14 + ipTotal.toNat)) else none

inductive Received
  | arp (ip mac : List UInt8)
  | udp (src : List UInt8) (sport : UInt16) (payload : List UInt8)
deriving DecidableEq

/-- What `poll` does with a frame of `n` bytes: it stores an address or calls back. -/
def received (f : Nat → UInt8) (n : Nat) : Option Received :=
  let word i := (f i).toUInt16 <<< 8 ||| (f (i + 1)).toUInt16
  if n < 34 then none
  else if word 12 = 0x0806 then
    if n ≥ 42 ∧ f 21 = 2 then some (.arp (window f 28 4) (window f 22 6)) else none
  else if word 12 = 0x0800 ∧ f 23 = 17 ∧ n ≥ 42 ∧ word 36 = 43110 ∧ (word 38).toNat ≥ 8 then
    some (.udp (window f 26 4) (word 34) (window f 42 (min ((word 38).toNat - 8) (n - 42))))
  else none

lemma received_eq_none {f : Nat → UInt8} (htype : f 12 = 8 ∧ f 13 = 0) (hproto : f 23 = 0)
    (n : Nat) : received f n = none := by
  simp only [received, htype, hproto]
  split <;> rfl

/-- Byte 23 is the protocol, but 17 is stored two bytes behind it: `poll` hears no such frame. -/
theorem udpFrame_unheard :
    if payload.length ≤ 256 then
      ∃ f, udpFrame mac gwMac dstIp dstPort srcPort payload = some f ∧ f[23]? = some 0 ∧
        ∀ buf, received (patch buf 0 f) f.length = none
    else udpFrame mac gwMac dstIp dstPort srcPort payload = none := by
  split
  next hfits =>
    have hlong : 23 < 14 + (UInt16.ofNat (20 + 8 + payload.length)).toNat := by
      rw [UInt16.toNat_ofNat']
      omega
    refine ⟨_, if_pos hfits, getElem?_window _ _ hlong, fun buf => ?_⟩
    have hbyte : ∀ m i, i ≤ 23 → patch buf 0 (window m 0 _) i = m (0 + i) := fun m i hi =>
      patch_of_getElem? i.zero_le (getElem?_window m 0 (Nat.lt_of_le_of_lt hi hlong))
    exact received_eq_none ⟨hbyte _ 12 (by decide), hbyte _ 13 (by decide)⟩
      (hbyte _ 23 (by decide)) _
  next hlong => exact if_neg hlong

/-- The frame has protocol 17, and at port 43110 `poll` passes its payload on. -/
def Heard : Prop :=
  ∃ f, udpFrame mac gwMac dstIp dstPort srcPort payload = some f ∧ f[23]? = some 17 ∧
    (dstPort = 43110 → ∀ buf,
      received (patch buf 0 f) f.length = some (.udp selfIp srcPort payload))

/-- Two bytes of payload for port 43110: bytes 22 to 25, and what an empty buffer gives. -/
theorem udp_unheard_hi : (udpFrame (.replicate 6 1) (.replicate 6 2) (.replicate 4 9) 43110 5
    [104, 105]).map (fun f => (f.extract 22 26, received (patch (fun _ => 0) 0 f) f.length)) =
      some ([64, 0, 64, 17], none) ∧
    ¬ Heard (.replicate 6 1) (.replicate 6 2) (.replicate 4 9) 43110 5 [104, 105] := by
  refine ⟨by decide, ?_⟩
  rintro ⟨f, hf, hproto, -⟩
  cases hf
  exact absurd hproto (by decide)

end KarteOs.Device.Net32

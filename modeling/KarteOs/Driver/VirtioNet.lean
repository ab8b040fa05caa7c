import KarteOs.Foundation.Blocks
import KarteOs.Foundation.SplitRing

/-! # The virtio network drivers

The drivers of both architectures keep a queue of eight descriptors in each
direction, each with a buffer of its own. The available ring offers descriptors to the
device, the used ring gives them back; indices count modulo 2^16.
-/

namespace KarteOs.Driver.VirtioNet

open SplitRing

def queueSize : Nat := 8

def virtioNetHdrSize : Nat := 10

def netMaxPacketSize : Nat := 1514 + virtioNetHdrSize

def vringDescFWrite : Nat := 2

def queue : RingGeometry := ⟨queueSize, 65536, by decide, by decide⟩

/-- A descriptor; the address counts from the start of the buffers. -/
structure VringDesc where
  addr : Nat
  len : Nat
  flags : Nat
  next : Nat
deriving DecidableEq

structure VringUsedElem where
  id : Nat
  len : Nat
deriving DecidableEq

structure QueueMem where
  desc : Nat → VringDesc
  avail : SplitRing Nat
  used : SplitRing VringUsedElem
  data : Nat → UInt8

lemma buffers_disjoint {id other len otherLen : Nat} (hne : other ≠ id)
    (hother : otherLen ≤ netMaxPacketSize) (hlen : len ≤ netMaxPacketSize) :
    other * netMaxPacketSize + otherLen ≤ id * netMaxPacketSize ∨
      id * netMaxPacketSize + len ≤ other * netMaxPacketSize := by
  rcases Nat.lt_or_gt_of_ne hne with hlt | hgt
  · have hbuffer := Nat.mul_le_mul_right netMaxPacketSize (Nat.succ_le_of_lt hlt)
    rw [Nat.succ_mul] at hbuffer
    exact .inl (by omega)
  · have hbuffer := Nat.mul_le_mul_right netMaxPacketSize (Nat.succ_le_of_lt hgt)
    rw [Nat.succ_mul] at hbuffer
    exact .inr (by omega)

namespace QueueMem

def zeroed : QueueMem :=
  ⟨fun _ => ⟨0, 0, 0, 0⟩, ⟨0, fun _ => 0⟩, ⟨0, fun _ => ⟨0, 0⟩⟩, fun _ => 0⟩

variable (mem : QueueMem)

def makeAvailable (id len flags : Nat) : QueueMem :=
  { mem with
    desc := Function.update mem.desc id ⟨id * netMaxPacketSize, len, flags, 0⟩
    avail := mem.avail.push queue id }

def offer (id : Nat) : QueueMem :=
  mem.makeAvailable id netMaxPacketSize vringDescFWrite

/-- Copy a frame behind an empty header into the buffer of a descriptor and send it. -/
def transmit (id : Nat) (frame : List UInt8) : QueueMem :=
  { mem with
    data := Blocks.patch mem.data (id * netMaxPacketSize)
      (List.replicate virtioNetHdrSize 0 ++ frame) }.makeAvailable id
    (virtioNetHdrSize + frame.length) 0

def payload (id len : Nat) : List UInt8 :=
  Blocks.window mem.data (id * netMaxPacketSize + virtioNetHdrSize) (len - virtioNetHdrSize)

end QueueMem

/-! ## The riscv64 driver -/

variable (mem : QueueMem)

def prepareRx : QueueMem :=
  { mem with
    desc := fun id =>
      if id < queueSize then ⟨id * netMaxPacketSize, netMaxPacketSize, vringDescFWrite, 0⟩
      else mem.desc id
    avail := ⟨queueSize, fun slot => if slot < queueSize then slot else mem.avail.slots slot⟩ }

/-- `send_packet`, without a result where it fails. It always uses descriptor 0. -/
def sendPacket (data : List UInt8) : Option QueueMem :=
  if data = [] then none
  else if virtioNetHdrSize + data.length > netMaxPacketSize then none
  else some (mem.transmit 0 data)

/-- `recv_packet`: the queue, the cursor and the frame, if there is one. -/
def recvPacket (lastUsed bufLen : Nat) : QueueMem × Nat × Option (List UInt8) :=
  if lastUsed = mem.used.idx then (mem, lastUsed, none)
  else
    let elem := mem.used.read queue lastUsed
    if elem.len < virtioNetHdrSize ∨ elem.len > netMaxPacketSize ∨ elem.id ≥ queueSize then
      (mem, advance queue lastUsed, none)
    else if elem.len - virtioNetHdrSize > bufLen then
      (mem, advance queue lastUsed, none)
    else (mem.offer elem.id, lastUsed, some (mem.payload elem.id elem.len))

/-! ## The x86_64 driver -/

def prepareRxX86 : QueueMem :=
  (List.range queueSize).foldl QueueMem.offer mem

def sendRaw (nextDesc : Nat) (data : List UInt8) : QueueMem × Nat :=
  if virtioNetHdrSize + data.length > netMaxPacketSize ∨ data = [] then (mem, nextDesc)
  else (mem.transmit (nextDesc % queueSize) data, (nextDesc + 1) % 65536)

/-- What `recv_raw` returns; an index out of bounds stops the kernel. -/
inductive Received
  | none
  | frame (bytes : List UInt8)
  | outOfBounds
deriving DecidableEq

def recvRaw (lastSeen bufLen : Nat) : QueueMem × Nat × Received :=
  if mem.used.idx = lastSeen then (mem, lastSeen, .none)
  else
    let elem := mem.used.read queue lastSeen
    if elem.len < virtioNetHdrSize ∨ elem.len > netMaxPacketSize then
      (mem, advance queue lastSeen, .none)
    else if elem.len - virtioNetHdrSize > bufLen then
      (mem, advance queue lastSeen, .none)
    -- the address of the buffer is taken after the copy
    else if elem.id ≥ queueSize then (mem, advance queue lastSeen, .outOfBounds)
    else (mem.offer elem.id, advance queue lastSeen, .frame (mem.payload 0 elem.len))

end KarteOs.Driver.VirtioNet

import KarteOs.Fabric.Wire
import KarteOs.Foundation.KeyedTable

/-! # The device registry table

`drt.rs` keeps the devices that were announced, each with its state: devices
that are silent become stale and then go offline, and come back with a
heartbeat or an announcement. The table has a version, which the dispatcher of
the wire raises when an operation says that something changed.
-/

namespace KarteOs.Fabric

open WireText KeyedTable

structure CapDesc where
  deviceId : List UInt8
  deviceType : List UInt8
  tools : List (List UInt8)
deriving DecidableEq

def lookupDesc (registry : List CapDesc) (deviceId : List UInt8) : Option CapDesc :=
  find CapDesc.deviceId registry deviceId

inductive DevState where
  | online
  | stale
  | offline
deriving DecidableEq

structure DrtEntry where
  desc : CapDesc
  state : DevState
  lastSeenMs : Nat
deriving DecidableEq

def heartbeatTimeoutMs : Nat := 1500

def staleTimeoutMs : Nat := 3000

namespace DrtEntry

def deviceId (e : DrtEntry) : List UInt8 := e.desc.deviceId

def seen (nowMs : Nat) (e : DrtEntry) : DrtEntry := { e with state := .online, lastSeenMs := nowMs }

def left (e : DrtEntry) : DrtEntry := { e with state := .offline }

def age (nowMs : Nat) (e : DrtEntry) : DrtEntry :=
  match e.state with
  | .online =>
    if heartbeatTimeoutMs ≤ nowMs - e.lastSeenMs then { e with state := .stale } else e
  | .stale =>
    if heartbeatTimeoutMs + staleTimeoutMs ≤ nowMs - e.lastSeenMs then
      { e with state := .offline }
    else e
  | .offline => e

lemma age_desc (nowMs : Nat) (e : DrtEntry) : (e.age nowMs).desc = e.desc := by
  rw [age]
  split
  · split <;> rfl
  · split <;> rfl
  · rfl

lemma age_age_state (e : DrtEntry) (nowMs delay : Nat) :
    ((e.age nowMs).age (nowMs + delay)).state = (e.age (nowMs + delay)).state ↔
      (e.state = .online → heartbeatTimeoutMs ≤ nowMs - e.lastSeenMs →
        nowMs + delay - e.lastSeenMs < heartbeatTimeoutMs + staleTimeoutMs) := by
  obtain ⟨desc, state, lastSeenMs⟩ := e
  cases state <;> grind [age]

lemma age_offline_iff (e : DrtEntry) (nowMs : Nat) :
    (e.state ≠ .offline → heartbeatTimeoutMs + staleTimeoutMs ≤ nowMs - e.lastSeenMs →
        (e.age nowMs).state = .offline) ↔
      (e.state = .online → nowMs - e.lastSeenMs < heartbeatTimeoutMs + staleTimeoutMs) := by
  obtain ⟨desc, state, lastSeenMs⟩ := e
  cases state <;> grind [age]

end DrtEntry

namespace Drt

variable (entries : List DrtEntry)

def announce (desc : CapDesc) (nowMs : Nat) : List DrtEntry × Bool :=
  match find DrtEntry.deviceId entries desc.deviceId with
  | some _ => (modify DrtEntry.deviceId entries desc.deviceId (·.seen nowMs), false)
  | none => (entries ++ [⟨desc, .online, nowMs⟩], true)

def heartbeat (deviceId : List UInt8) (nowMs : Nat) : List DrtEntry × Bool :=
  match find DrtEntry.deviceId entries deviceId with
  | some e =>
    (modify DrtEntry.deviceId entries deviceId (·.seen nowMs), decide (e.state ≠ .online))
  | none => (entries, false)

def bye (deviceId : List UInt8) : List DrtEntry × Bool :=
  match find DrtEntry.deviceId entries deviceId with
  | some e => (modify DrtEntry.deviceId entries deviceId (·.left), decide (e.state ≠ .offline))
  | none => (entries, false)

def tick (nowMs : Nat) : List DrtEntry := entries.map (·.age nowMs)

/-- A tick takes a device one state further at most: an earlier tick matters for a device that
is online and overdue then and silent for both timeouts at the later one, and a device that is
silent so long is offline after one tick unless it was online. -/
theorem tick_tick_iff (nowMs delay : Nat) :
    ((tick (tick entries nowMs) (nowMs + delay)).map (·.state) =
        (tick entries (nowMs + delay)).map (·.state) ↔
      ∀ e ∈ entries, e.state = .online → heartbeatTimeoutMs ≤ nowMs - e.lastSeenMs →
        nowMs + delay - e.lastSeenMs < heartbeatTimeoutMs + staleTimeoutMs) ∧
    ((∀ e ∈ entries, e.state ≠ .offline →
        heartbeatTimeoutMs + staleTimeoutMs ≤ nowMs - e.lastSeenMs →
        (e.age nowMs).state = .offline) ↔
      ∀ e ∈ entries, e.state = .online →
        nowMs - e.lastSeenMs < heartbeatTimeoutMs + staleTimeoutMs) := by
  constructor
  · simp only [tick, List.map_map, List.map_inj_left]
    exact forall₂_congr fun e _ => e.age_age_state nowMs delay
  · exact forall₂_congr fun e _ => e.age_offline_iff nowMs

end Drt

/-- The global table and its version, `DRT` and `TABLE_SEQ`. -/
structure DrtTable where
  entries : List DrtEntry
  seq : Nat
deriving DecidableEq

def nodeSuffix : List UInt8 := ascii "-node".toList

def remoteName : List UInt8 := ascii "remote".toList

def remoteDesc : CapDesc := ⟨remoteName, remoteName, []⟩

/-- The descriptor that an announcement enters: the registered one, or that of peer nodes. -/
def announcedDesc (registry : List CapDesc) (deviceId : List UInt8) : Option CapDesc :=
  match lookupDesc registry deviceId with
  | some desc => some desc
  | none => if nodeSuffix <:+ deviceId then some remoteDesc else none

/-- Last heard at 0: offline after ticks at 1500 and 4500, stale after the one at 4500 alone. -/
theorem tick_missed :
    (Drt.tick (Drt.tick [⟨remoteDesc, .online, 0⟩] 1500) 4500).map (·.state) = [.offline] ∧
      (Drt.tick [⟨remoteDesc, .online, 0⟩] 4500).map (·.state) = [.stale] := by
  decide

namespace DrtTable

def boot : DrtTable := ⟨[], 0⟩

def bumpIf (t : DrtTable) (result : List DrtEntry × Bool) : DrtTable × Bool :=
  (⟨result.1, if result.2 then (t.seq + 1) % 2 ^ 64 else t.seq⟩, result.2)

def handleWire (registry : List CapDesc) (t : DrtTable) (msg : List UInt8) (nowMs : Nat) :
    DrtTable × Bool :=
  match parseWire msg with
  | none => (t, false)
  | some (.announce, deviceId) =>
    match announcedDesc registry deviceId with
    | none => (t, false)
    | some desc => t.bumpIf (Drt.announce t.entries desc nowMs)
  | some (.heartbeat, deviceId) => t.bumpIf (Drt.heartbeat t.entries deviceId nowMs)
  | some (.bye, deviceId) => t.bumpIf (Drt.bye t.entries deviceId)

inductive Step where
  | wire (msg : List UInt8) (nowMs : Nat)
  | tick (nowMs : Nat)

def apply (registry : List CapDesc) (t : DrtTable) : Step → DrtTable
  | .wire msg nowMs => (t.handleWire registry msg nowMs).1
  | .tick nowMs => { t with entries := Drt.tick t.entries nowMs }

end DrtTable

end KarteOs.Fabric

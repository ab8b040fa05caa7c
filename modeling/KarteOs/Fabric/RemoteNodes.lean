import KarteOs.Fabric.Drt

/-! # Tracking of single devices

What the registry table is for: the presence of each device follows its own
messages and the clock. The table does this for the devices of the capability
registry. Peer nodes are all entered under one name, so that none of them is
found by its own, and what is kept says nothing about a single peer.
-/

namespace KarteOs.Fabric

open WireText KeyedTable List Option

/-- The state of one device, and when it was last heard of. -/
structure Presence where
  state : DevState
  lastSeenMs : Nat
deriving DecidableEq

namespace Presence

def age (nowMs : Nat) (p : Presence) : Presence :=
  match p.state with
  | .online => if nowMs - p.lastSeenMs < heartbeatTimeoutMs then p else { p with state := .stale }
  | .stale =>
    if nowMs - p.lastSeenMs < heartbeatTimeoutMs + staleTimeoutMs then p
    else { p with state := .offline }
  | .offline => p

def hear (verb : DrtVerb) (nowMs : Nat) (p : Option Presence) : Option Presence :=
  match verb with
  | .announce => some ⟨.online, nowMs⟩
  | .heartbeat => p.map fun _ => ⟨.online, nowMs⟩
  | .bye => p.map fun p => { p with state := .offline }

def follow (deviceId : List UInt8) (p : Option Presence) : DrtTable.Step → Option Presence
  | .tick nowMs => p.map (age nowMs)
  | .wire msg nowMs =>
    match parseWire msg with
    | none => p
    | some (verb, sender) => if sender = deviceId then hear verb nowMs p else p

lemma follow_wire {msg sender deviceId : List UInt8} {verb : DrtVerb}
    (hparse : parseWire msg = some (verb, sender)) (nowMs : Nat) (p : Option Presence) :
    follow deviceId p (.wire msg nowMs) = if deviceId = sender then hear verb nowMs p else p := by
  simp [follow, hparse, eq_comm]

end Presence

def DrtEntry.presence (e : DrtEntry) : Presence := ⟨e.state, e.lastSeenMs⟩

lemma DrtEntry.presence_age (nowMs : Nat) (e : DrtEntry) :
    (e.age nowMs).presence = e.presence.age nowMs := by
  obtain ⟨desc, state, lastSeenMs⟩ := e
  cases state with
  | online =>
    by_cases hold : heartbeatTimeoutMs ≤ nowMs - lastSeenMs
    · simp [DrtEntry.age, Presence.age, presence, hold, Nat.not_lt.mpr hold]
    · simp [DrtEntry.age, Presence.age, presence, hold, Nat.not_le.mp hold]
  | stale =>
    by_cases hold : heartbeatTimeoutMs + staleTimeoutMs ≤ nowMs - lastSeenMs
    · simp [DrtEntry.age, Presence.age, presence, hold, Nat.not_lt.mpr hold]
    · simp [DrtEntry.age, Presence.age, presence, hold, Nat.not_le.mp hold]
  | offline => rfl

namespace Drt

def present (entries : List DrtEntry) (deviceId : List UInt8) : Option Presence :=
  (find DrtEntry.deviceId entries deviceId).map (·.presence)

variable {entries : List DrtEntry} {sender deviceId : List UInt8} {nowMs : Nat}

lemma present_modify {f : DrtEntry → DrtEntry} {g : Presence → Presence}
    (hkey : ∀ e, (f e).deviceId = e.deviceId) (hpresence : ∀ e, (f e).presence = g e.presence) :
    present (modify DrtEntry.deviceId entries sender f) deviceId =
      if deviceId = sender then (present entries deviceId).map g else present entries deviceId := by
  rw [present, find_modify hkey]
  split
  next hid =>
    rw [hid, present, Option.map_map, Option.map_map]
    exact congrArg (Option.map · _) (funext hpresence)
  · rfl

lemma present_announce (desc : CapDesc) : present (announce entries desc nowMs).1 deviceId =
    if deviceId = desc.deviceId then some ⟨.online, nowMs⟩ else present entries deviceId := by
  rw [announce]
  split
  next e hfind =>
    refine (present_modify (f := .seen nowMs) (g := fun _ => ⟨.online, nowMs⟩)
      (fun _ => rfl) (fun _ => rfl)).trans ?_
    split
    next hid => rw [hid, present, hfind, map_some, map_some]
    · rfl
  next hfind =>
    rw [present, find_push hfind]
    change Option.map _ (if deviceId = desc.deviceId then _ else _) = _
    split
    · rfl
    · rfl

lemma present_heartbeat : present (heartbeat entries sender nowMs).1 deviceId =
    if deviceId = sender then Presence.hear .heartbeat nowMs (present entries deviceId)
    else present entries deviceId := by
  rw [heartbeat]
  split
  · exact present_modify (fun _ => rfl) (fun _ => rfl)
  next hfind =>
    split
    next hid => rw [hid, present, hfind, map_none]; rfl
    · rfl

lemma present_bye (nowMs : Nat) : present (bye entries sender).1 deviceId =
    if deviceId = sender then Presence.hear .bye nowMs (present entries deviceId)
    else present entries deviceId := by
  rw [bye]
  split
  · exact present_modify (fun _ => rfl) (fun _ => rfl)
  next hfind =>
    split
    next hid => rw [hid, present, hfind, map_none]; rfl
    · rfl

lemma present_tick : present (tick entries nowMs) deviceId =
    (present entries deviceId).map (Presence.age nowMs) := by
  have hkey : ∀ e : DrtEntry, (e.age nowMs).deviceId = e.deviceId :=
    fun e => congrArg CapDesc.deviceId (e.age_desc nowMs)
  rw [present, tick, find_map hkey, present, Option.map_map, Option.map_map]
  exact congrArg (Option.map · _) (funext fun e => e.presence_age nowMs)

end Drt

namespace DrtTable

variable {registry : List CapDesc} {t : DrtTable} {deviceId : List UInt8}

/-! ## Peer nodes -/

structure IsPeer (registry : List CapDesc) (deviceId : List UInt8) : Prop where
  suffix : nodeSuffix <:+ deviceId
  noBar : bar ∉ deviceId
  unregistered : lookupDesc registry deviceId = none

def OfPeers (peers : List (List UInt8)) : Step → Prop
  | .tick _ => True
  | .wire msg _ => ∃ verb, ∃ deviceId ∈ peers, parseWire msg = some (verb, deviceId)

def Announces : Step → Prop
  | .tick _ => False
  | .wire msg _ => ∃ deviceId, parseWire msg = some (.announce, deviceId)

def Step.nowMs : Step → Nat
  | .wire _ nowMs => nowMs
  | .tick nowMs => nowMs

/-- At every point of the run, the states read from the table are those that the peers' own
messages and the clock give. -/
def Tracks (view : List DrtEntry → List UInt8 → Option DevState) (registry : List CapDesc)
    (peers : List (List UInt8)) (steps : List Step) : Prop :=
  ∀ before, before <+: steps → ∀ deviceId ∈ peers,
    view (before.foldl (apply registry) boot).entries deviceId =
      (before.foldl (Presence.follow deviceId) none).map (·.state)

def kept (entries : List DrtEntry) (deviceId : List UInt8) : Option DevState :=
  (find DrtEntry.deviceId entries deviceId).map (·.state)

variable {peers : List (List UInt8)}

section
variable (hpeers : ∀ deviceId ∈ peers, IsPeer registry deviceId)
include hpeers

lemma present_apply_of_peers {step : Step} (hstep : OfPeers peers step) (hmem : deviceId ∈ peers)
    (hnone : Drt.present t.entries deviceId = none) :
    Drt.present (t.apply registry step).entries deviceId = none := by
  cases step with
  | tick nowMs =>
    rw [apply, Drt.present_tick, hnone]
    rfl
  | wire msg nowMs =>
    obtain ⟨verb, sender, hsender, hparse⟩ := hstep
    have hremote : announcedDesc registry sender = some remoteDesc := by
      simp [announcedDesc, (hpeers sender hsender).unregistered, (hpeers sender hsender).suffix]
    cases verb with
    | announce =>
      simp only [apply, handleWire, hparse, hremote]
      refine (Drt.present_announce remoteDesc).trans ?_
      have hname : deviceId ≠ remoteName := fun h =>
        (by decide : ¬nodeSuffix <:+ remoteName) (h ▸ (hpeers deviceId hmem).suffix)
      rw [← hnone]
      exact if_neg hname
    | heartbeat =>
      simp only [apply, handleWire, hparse]
      refine Drt.present_heartbeat.trans ?_
      rw [hnone]
      exact ite_self none
    | bye =>
      simp only [apply, handleWire, hparse]
      refine (Drt.present_bye nowMs).trans ?_
      rw [hnone]
      exact ite_self none

lemma present_run_of_peers
    {steps : List Step} (hsteps : ∀ step ∈ steps, OfPeers peers step) (hmem : deviceId ∈ peers) :
    Drt.present (steps.foldl (apply registry) boot).entries deviceId = none := by
  induction steps using reverseRecOn with
  | nil => rfl
  | append_singleton steps step ih =>
    rw [foldl_append]
    exact present_apply_of_peers hpeers (hsteps step (by simp)) hmem
      (ih fun step hstep => hsteps step (mem_append_left _ hstep))

end

lemma follow_quiet {steps : List Step} (hquiet : ∀ step ∈ steps, ¬Announces step) :
    steps.foldl (Presence.follow deviceId) none = none := by
  induction steps with
  | nil => rfl
  | cons step steps ih =>
    have hnone : Presence.follow deviceId none step = none := by
      have hstep := hquiet step (.head _)
      cases step with
      | tick nowMs => rfl
      | wire msg nowMs =>
        cases hparse : parseWire msg with
        | none => simp [Presence.follow, hparse]
        | some parsed =>
          obtain ⟨verb, sender⟩ := parsed
          rw [Presence.follow_wire hparse]
          cases verb with
          | announce => exact absurd ⟨sender, hparse⟩ hstep
          | heartbeat | bye => exact ite_self none
    rw [foldl_cons, hnone]
    exact ih fun step hstep => hquiet step (.tail _ hstep)

/-- Peers are tracked under their names exactly as long as none of them is announced. -/
theorem peers_tracked_iff (hpeers : ∀ deviceId ∈ peers, IsPeer registry deviceId)
    {steps : List Step} (hsteps : ∀ step ∈ steps, OfPeers peers step) :
    Tracks kept registry peers steps ↔ ∀ step ∈ steps, ¬ Announces step := by
  have hkept : ∀ before, before <+: steps → ∀ deviceId ∈ peers,
      kept (before.foldl (apply registry) boot).entries deviceId = none := by
    intro before hbefore deviceId hmem
    have hnone := present_run_of_peers hpeers
      (fun step hstep => hsteps step (hbefore.subset hstep)) hmem
    rw [Drt.present, map_eq_none_iff] at hnone
    rw [kept, hnone, map_none]
  constructor
  · intro htracks step hstep hannounces
    -- after the announcement its sender should be online
    obtain ⟨before, after, rfl⟩ := append_of_mem hstep
    cases step with
    | tick nowMs => exact hannounces
    | wire msg nowMs =>
      obtain ⟨sender, hparse⟩ := hannounces
      obtain ⟨verb, deviceId, hmem, hparse'⟩ := hsteps _ hstep
      cases hparse.symm.trans hparse'
      have hbefore : before ++ [.wire msg nowMs] <+: before ++ .wire msg nowMs :: after :=
        ⟨after, by simp⟩
      have hstate := htracks _ hbefore sender hmem
      rw [hkept _ hbefore sender hmem, foldl_append, foldl_cons, foldl_nil,
        Presence.follow_wire hparse, if_pos rfl] at hstate
      cases hstate
  · intro hquiet before hbefore deviceId hmem
    rw [hkept before hbefore deviceId hmem,
      follow_quiet fun step hstep => hquiet step (hbefore.subset hstep)]
    rfl

def peerA : List UInt8 := ascii "a-node".toList

lemma peerA_isPeer : IsPeer [] peerA := ⟨by decide, by decide, rfl⟩

def fromA (verb : DrtVerb) (nowMs : Nat) : Step := .wire (makeWire verb peerA 1) nowMs

lemma fromA_parse (verb : DrtVerb) : parseWire (makeWire verb peerA 1) = some (verb, peerA) :=
  parseWire_makeWire (by decide) peerA_isPeer.noBar (by decide)

lemma fromA_ofPeers (verb : DrtVerb) (nowMs : Nat) : OfPeers [peerA] (fromA verb nowMs) :=
  ⟨verb, peerA, by simp, fromA_parse verb⟩

theorem peers_tracked_iff_announced :
    ¬ Tracks kept [] [peerA] [fromA .announce 1, fromA .bye 2] := by
  rw [peers_tracked_iff (by simpa using peerA_isPeer) (by simp [fromA_ofPeers])]
  exact fun hquiet => hquiet _ (.head _) ⟨peerA, fromA_parse .announce⟩

/-- After the peer's bye the table is what it was after its announcement, so that no reading
of the table tells the two apart. -/
theorem peers_not_tracked :
    ¬ ∃ view, ∀ registry peers steps, (∀ deviceId ∈ peers, IsPeer registry deviceId) →
      (∀ step ∈ steps, OfPeers peers step) → steps.Pairwise (·.nowMs < ·.nowMs) →
      Tracks view registry peers steps := by
  rintro ⟨view, htracks⟩
  have hrun := htracks [] [peerA] [fromA .announce 1, fromA .bye 2] (by simpa using peerA_isPeer)
    (by simp [fromA_ofPeers]) (by simp [fromA, Step.nowMs])
  have hannounced : boot.apply [] (fromA .announce 1) = ⟨[⟨remoteDesc, .online, 1⟩], 1⟩ := by
    rw [fromA, apply, handleWire, fromA_parse]
    decide
  have hleft : (boot.apply [] (fromA .announce 1)).apply [] (fromA .bye 2) =
      boot.apply [] (fromA .announce 1) := by
    rw [hannounced, fromA, apply, handleWire, fromA_parse]
    decide
  have honline := hrun [fromA .announce 1] ⟨[fromA .bye 2], rfl⟩ peerA (by simp)
  have hoffline := hrun [fromA .announce 1, fromA .bye 2] ⟨[], rfl⟩ peerA (by simp)
  simp only [foldl_cons, foldl_nil, fromA, Presence.follow_wire (fromA_parse _),
    Presence.hear, if_true, map_some] at honline hoffline
  rw [← fromA, ← fromA, hleft, fromA, honline] at hoffline
  cases hoffline

end DrtTable

end KarteOs.Fabric

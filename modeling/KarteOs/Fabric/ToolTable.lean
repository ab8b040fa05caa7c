import KarteOs.Fabric.Drt
import KarteOs.Foundation.Run

/-! # The tool table and its version

Brains poll the version of the tool table to see whether the tools or devices
changed. The version misses a device that times out and a device that comes
back from offline with an announcement. Where neither happens, snapshots that
differ have different versions.
-/

namespace KarteOs.Fabric

open WireText KeyedTable Transition Drt

def textLe : List UInt8 → List UInt8 → Bool
  | [], _ => true
  | _ :: _, [] => false
  | a :: as, b :: bs => decide (a.toNat < b.toNat) || (decide (a = b) && textLe as bs)

def dedup : List (List UInt8) → List (List UInt8)
  | a :: b :: rest => if a = b then dedup (b :: rest) else a :: dedup (b :: rest)
  | rest => rest

structure ToolTableSnapshot where
  seq : Nat
  tools : List (List UInt8)
  devices : List (List UInt8)

def toolName (desc : CapDesc) (tool : List UInt8) : List UInt8 :=
  desc.deviceType ++ ascii ['_'] ++ tool

namespace DrtTable

def available (entries : List DrtEntry) : List CapDesc :=
  (entries.filter fun e => decide (e.state ≠ .offline)).map (·.desc)

def toolTable (t : DrtTable) : ToolTableSnapshot where
  seq := t.seq
  tools :=
    ((available t.entries).flatMap fun desc => desc.tools.map (toolName desc)).mergeSort textLe
  devices := dedup (((available t.entries).map (·.deviceType)).mergeSort textLe)

def Differ (first second : ToolTableSnapshot) : Prop :=
  first.tools ≠ second.tools ∨ first.devices ≠ second.devices

/-- No stale device times out, no device that is offline is announced, and the version has
not reached its greatest value. -/
def Steady (registry : List CapDesc) (t : DrtTable) : Step → Prop
  | .tick nowMs => ∀ e ∈ t.entries, e.state = .stale →
      nowMs - e.lastSeenMs < heartbeatTimeoutMs + staleTimeoutMs
  | .wire msg _ => t.seq + 1 < 2 ^ 64 ∧
      ∀ deviceId desc e, parseWire msg = some (.announce, deviceId) →
        announcedDesc registry deviceId = some desc →
        find DrtEntry.deviceId t.entries desc.deviceId = some e → e.state ≠ .offline

variable {registry : List CapDesc} {t first next : DrtTable} {entries : List DrtEntry}
  {deviceId : List UInt8} {nowMs : Nat}

lemma not_differ_of_available (hsame : available first.entries = available next.entries) :
    ¬Differ first.toolTable next.toolTable := by
  rintro (htools | hdevices)
  · exact htools (by rw [toolTable, toolTable, hsame])
  · exact hdevices (by rw [toolTable, toolTable, hsame])

lemma available_modify {f : DrtEntry → DrtEntry} {e : DrtEntry}
    (hfind : find DrtEntry.deviceId entries deviceId = some e) (hdesc : (f e).desc = e.desc)
    (hstate : (f e).state = .offline ↔ e.state = .offline) :
    available (modify DrtEntry.deviceId entries deviceId f) = available entries := by
  obtain ⟨before, after, -, hentries, hmodify⟩ := modify_of_find hfind f
  rw [hmodify, hentries]
  by_cases hoffline : e.state = .offline
  · simp [available, hoffline, hstate.mpr hoffline]
  · simp [available, hoffline, hstate.not.mpr hoffline, hdesc]

def Tells (t next : DrtTable) : Prop :=
  next.seq = t.seq ∧ available next.entries = available t.entries ∨ next.seq = t.seq + 1

lemma tells_bumpIf {result : List DrtEntry × Bool} (hseq : t.seq + 1 < 2 ^ 64)
    (hquiet : result.2 = false → available result.1 = available t.entries) :
    Tells t (t.bumpIf result).1 := by
  cases hchanged : result.2 with
  | true =>
    refine .inr ?_
    rw [bumpIf, hchanged]
    exact Nat.mod_eq_of_lt hseq
  | false =>
    refine .inl ⟨?_, hquiet hchanged⟩
    rw [bumpIf, hchanged]
    rfl

lemma announce_quiet {desc : CapDesc}
    (hback : ∀ e, find DrtEntry.deviceId entries desc.deviceId = some e → e.state ≠ .offline)
    (hold : (announce entries desc nowMs).2 = false) :
    available (announce entries desc nowMs).1 = available entries := by
  rw [announce] at hold ⊢
  split at hold
  next e hfind => exact available_modify hfind rfl (iff_of_false nofun (hback e hfind))
  · cases hold

lemma heartbeat_quiet (hold : (heartbeat entries deviceId nowMs).2 = false) :
    available (heartbeat entries deviceId nowMs).1 = available entries := by
  rw [heartbeat] at hold ⊢
  split at hold
  next e hfind =>
    have honline : e.state = .online := by simpa using hold
    exact available_modify hfind rfl (by simp [DrtEntry.seen, honline])
  · rfl

lemma bye_quiet (hold : (bye entries deviceId).2 = false) :
    available (bye entries deviceId).1 = available entries := by
  rw [bye] at hold ⊢
  split at hold
  next e hfind =>
    have hoffline : e.state = .offline := by simpa using hold
    exact available_modify hfind rfl (by simp [DrtEntry.left, hoffline])
  · rfl

lemma available_tick (hfresh : ∀ e ∈ entries, e.state = .stale →
      nowMs - e.lastSeenMs < heartbeatTimeoutMs + staleTimeoutMs) :
    available (tick entries nowMs) = available entries := by
  have hstate : ∀ e ∈ entries, (e.age nowMs).state = .offline ↔ e.state = .offline := by
    intro e he
    rw [DrtEntry.age]
    split
    next honline => split <;> simp [honline]
    next hstale => rw [if_neg (Nat.not_le.mpr (hfresh e he hstale))]
    · exact Iff.rfl
  rw [tick, available, List.filter_map, List.map_map]
  have hfilter : entries.filter ((fun e => decide (e.state ≠ .offline)) ∘ (·.age nowMs)) =
      entries.filter fun e => decide (e.state ≠ .offline) :=
    List.filter_congr fun e he => by simp [hstate e he]
  rw [hfilter]
  exact List.map_congr_left fun e _ => e.age_desc nowMs

lemma tells_of_steady {step : Step} (hsteady : Steady registry t step) :
    Tells t (t.apply registry step) := by
  cases step with
  -- a tick never changes the version
  | tick nowMs => exact .inl ⟨rfl, available_tick hsteady⟩
  | wire msg nowMs =>
    obtain ⟨hseq, hback⟩ := hsteady
    rw [apply, handleWire]
    split
    · exact .inl ⟨rfl, rfl⟩
    next deviceId hparse =>
      split
      · exact .inl ⟨rfl, rfl⟩
      next desc hdesc =>
        exact tells_bumpIf hseq (announce_quiet (hback deviceId desc · hparse hdesc))
    · exact tells_bumpIf hseq heartbeat_quiet
    · exact tells_bumpIf hseq bye_quiet

/-- Since `t` the version has grown, or the available devices are the same. -/
structure Since (t later : DrtTable) : Prop where
  le : t.seq ≤ later.seq
  shows : t.seq < later.seq ∨ available later.entries = available t.entries

lemma Since.tells {later : DrtTable} (hsince : Since t later) (htells : Tells later next) :
    Since t next := by
  rcases htells with ⟨hseq, hsame⟩ | hseq
  · exact ⟨hseq ▸ hsince.le, by rw [hseq, hsame]; exact hsince.shows⟩
  · have hlt : t.seq < next.seq := hseq ▸ Nat.lt_succ_of_le hsince.le
    exact ⟨hlt.le, .inl hlt⟩

lemma since_run {steps : List Step} (hsteady : Allowed (Steady registry) (apply registry) t steps) :
    Since t (steps.foldl (apply registry) t) :=
  hsteady.invariant (fun _ _ hsince hsteady => .tells hsince (tells_of_steady hsteady))
    ⟨le_rfl, .inr rfl⟩

/-- If the snapshots before and after some steps differ, the later one has the greater
version. -/
def Detects (registry : List CapDesc) (before after : List Step) : Prop :=
  let first := before.foldl (apply registry) boot
  let second := after.foldl (apply registry) first
  Differ first.toolTable second.toolTable → first.toolTable.seq < second.toolTable.seq

/-- In every run of steady steps, snapshots that differ have versions that differ. -/
theorem toolTable_version_detects (registry : List CapDesc) (before after : List Step)
    (hsteady : Allowed (Steady registry) (apply registry) boot (before ++ after)) :
    Detects registry before after := by
  intro hdiffer
  have hsince := since_run (allowed_append_iff.mp hsteady).2
  rcases hsince.shows with hseq | hsame
  · exact hseq
  · exact absurd hdiffer (not_differ_of_available hsame.symm)

/-! ## A device that times out -/

def gpioDesc : CapDesc :=
  ⟨ascii "gpio0".toList, ascii "gpio".toList, [ascii "read".toList]⟩

def announceGpio (nowMs : Nat) : Step := .wire (makeWire .announce gpioDesc.deviceId 1) nowMs

lemma announceGpio_apply (nowMs : Nat) :
    boot.apply [gpioDesc] (announceGpio nowMs) = ⟨[⟨gpioDesc, .online, nowMs⟩], 1⟩ := by
  rw [announceGpio, apply, handleWire, parseWire_makeWire (by decide) (by decide) (by decide)]
  rfl

theorem toolTable_version_detects_announce :
    Allowed (Steady [gpioDesc]) (apply [gpioDesc]) boot ([] ++ [announceGpio 0]) ∧
      Detects [gpioDesc] [] [announceGpio 0] := by
  have hsteady : Allowed (Steady [gpioDesc]) (apply [gpioDesc]) boot ([] ++ [announceGpio 0]) :=
    ⟨⟨by decide, fun _ _ _ _ _ hfind => by cases hfind⟩, trivial⟩
  exact ⟨hsteady, toolTable_version_detects [gpioDesc] [] [announceGpio 0] hsteady⟩

/-- The device is announced and falls silent: at 4500 ms its tool is gone from the table,
under the same version. -/
theorem timeout_keeps_version : ¬ ∀ registry before after, Detects registry before after := by
  intro hdetects
  have hfirst : [announceGpio 0].foldl (apply [gpioDesc]) boot = ⟨[⟨gpioDesc, .online, 0⟩], 1⟩ :=
    announceGpio_apply 0
  have hsecond : [Step.tick 1500, .tick 4500].foldl (apply [gpioDesc])
      ⟨[⟨gpioDesc, .online, 0⟩], 1⟩ = ⟨[⟨gpioDesc, .offline, 0⟩], 1⟩ := by decide
  have hseq := hdetects [gpioDesc] [announceGpio 0] [.tick 1500, .tick 4500]
  rw [Detects, hfirst, hsecond] at hseq
  exact absurd (hseq (.inl (by simp [toolTable, available, gpioDesc]))) (lt_irrefl 1)

end DrtTable

end KarteOs.Fabric

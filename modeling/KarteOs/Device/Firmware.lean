import KarteOs.Device.Frame
import KarteOs.Device.MqttClients

/-! # The receive loop of the devices

The microcontroller and the aarch64 node gather bytes from their serial port
into an array of 128 bytes, over as many polling rounds as it takes, and run
the tool of an invocation once its terminator has come. The receiver's id is
not looked at, the answer carries the number of the polling round, and frames
that do not fit are cut. Where the lines that arrive are short, and the
invocations among them meant for the device and numbered as its rounds, they are
answered as they should be: the array always holds the line begun.
-/

namespace KarteOs.Device

open WireText Fabric Transition List Option

/-! ## The MQTT ping of the sensor -/

/-- `recv_response` with the 18 bytes of the firmware: the kind of the response, if one comes
before the timeout, and the bytes that are left. -/
def recvResponse (stream : List UInt8) : Option (Option UInt8 × List UInt8) :=
  (recvInto 16 stream).map (Prod.map (Option.bind · head?) id)

def pings : Nat → List UInt8 → Option (Nat × List UInt8)
  | 0, stream => some (0, stream)
  | rounds + 1, stream =>
    match recvResponse stream with
    | none => none
    | some (some kind, rest) =>
      if kind &&& 0xf0 = 0xd0 then (pings rounds rest).map fun done => (done.1 + 1, done.2)
      else some (0, rest)
    | some (none, rest) => some (0, rest)

/-- `mqtt32::heartbeat`: the pings follow once the connection is acknowledged. -/
def heartbeat (rounds : Nat) (stream : List UInt8) : Option (Nat × List UInt8) :=
  match recvResponse stream with
  | none => none
  | some (some kind, rest) => if kind &&& 0xf0 = 0x20 then pings rounds rest else some (0, rest)
  | some (none, rest) => some (0, rest)

/-! ## The tools -/

def notPermitted : List UInt8 := ascii "err:tool-not-permitted".toList

/-- `run_tool` of the microcontroller: the result, and what is left of the serial stream,
which the ping reads. -/
def McuRole.runTool (role : McuRole) (tool : List UInt8) (seq : UInt32) (stream : List UInt8) :
    Option (List UInt8 × List UInt8) :=
  match role with
  | .sensor =>
    if tool = ascii "sensor.temp".toList then some (ascii "23.5".toList, stream)
    else if tool = ascii "sensor.humidity".toList then some (ascii "41".toList, stream)
    else if tool = ascii "mqtt.ping".toList then
      (heartbeat 1 stream).map fun done =>
        (if 0 < done.1 then ascii "mqtt-ok".toList else ascii "mqtt-fail".toList, done.2)
    else some (notPermitted, stream)
  | .relay =>
    if tool = ascii "actuator.on".toList then some (ascii "on".toList, stream)
    else if tool = ascii "actuator.off".toList then some (ascii "off".toList, stream)
    else if tool = ascii "actuator.status".toList then
      some (if seq % 2 = 0 then ascii "on".toList else ascii "off".toList, stream)
    else some (notPermitted, stream)
  | .other => some (notPermitted, stream)

def nodeRunTool (tool : List UInt8) : List UInt8 :=
  if tool = ascii "camera.snapshot".toList then ascii "640x480:ok".toList
  else if tool = ascii "npu.infer".toList then ascii "cls:cat:0.92".toList
  else if tool = ascii "node.info".toList then ascii "aarch64:el1:qemu-virt".toList
  else notPermitted

/-- The two kinds of firmware; the microcontroller's is built with a device id and a role. -/
inductive Board where
  | mcu (deviceId : List UInt8) (role : McuRole)
  | node

namespace Board

def deviceId : Board → List UInt8
  | .mcu deviceId _ => deviceId
  | .node => ascii "karte-a-node".toList

def announce (board : Board) (seq : UInt32) : Option (List UInt8) :=
  match board with
  | .mcu deviceId role => fmtAnnounce deviceId role.tools seq.toNat
  | .node =>
    nodeAnnounce board.deviceId (ascii "camera.snapshot,npu.infer,node.info".toList) seq.toNat

def runTool (board : Board) (tool : List UInt8) (seq : UInt32) (stream : List UInt8) :
    Option (List UInt8 × List UInt8) :=
  match board with
  | .mcu _ role => role.runTool tool seq stream
  | .node => some (nodeRunTool tool, stream)

def reply (board : Board) (seq : UInt32) (result : List UInt8) : Option (List UInt8) :=
  match board with
  | .mcu deviceId _ => build 96 (frameParts 'T' deviceId seq.toNat result)
  | .node => build 96 (frameParts 'T' board.deviceId seq.toNat result ++ [[newline]])

def takesFull : Board → Bool
  | .mcu _ _ => true
  | .node => false

end Board

/-! ## The receive loop -/

def isEnd (b : UInt8) : Bool := b == 0x0a || b == 0x0d

/-- The receive loop of one round, over the bytes that are there: the array, whether a
terminator came, and the bytes that are not read yet. -/
def poll (inv : List UInt8) : List UInt8 → List UInt8 × Bool × List UInt8
  | [] => (inv, false, [])
  | b :: rest =>
    if isEnd b then (inv, true, rest)
    -- bytes past the end of the array are dropped, and the loop goes on
    else poll (if inv.length < 128 then inv ++ [b] else inv) rest

def afterBars : Nat → List UInt8 → Option (List UInt8)
  | 0, rest => some rest
  | _ + 1, [] => none
  | bars + 1, b :: rest => if b = bar then afterBars bars rest else afterBars (bars + 1) rest

def invokeHead : List UInt8 := ascii "KRT1|I|".toList

def invokedTool (frame : List UInt8) : Option (List UInt8) :=
  if 10 ≤ frame.length ∧ frame.take 7 = invokeHead then afterBars 4 frame else none

def text (field : List UInt8) : List UInt8 := if field.toByteArray.IsValidUTF8 then field else []

structure Receiver where
  /-- Received, but not read yet. -/
  fifo : List UInt8
  inv : List UInt8
  seq : UInt32
  halted : Bool

/-- The bytes that arrive up to the end of a round's receive loop, and later in the round. -/
structure Round where
  arrivals : List UInt8
  late : List UInt8

/-- A tool that was run, and the result frame, unless building it panicked. -/
structure Invocation where
  tool : List UInt8
  reply : Option (List UInt8)
deriving DecidableEq

namespace Receiver

def boot : Receiver := ⟨[], [], 0, false⟩

def available (d : Receiver) (r : Round) : List UInt8 := d.fifo ++ r.arrivals

def polled (d : Receiver) (r : Round) : List UInt8 × Bool × List UInt8 := poll d.inv (d.available r)

def handled (board : Board) (d : Receiver) (r : Round) : Option (List UInt8) :=
  if (d.polled r).2.1 || (board.takesFull && decide (128 ≤ (d.polled r).1.length)) then
    some (d.polled r).1
  else none

def next (board : Board) (d : Receiver) (r : Round) (left : List UInt8) : Receiver where
  fifo := left
  inv := if (d.handled board r).isSome then [] else (d.polled r).1
  seq := d.seq + 1
  halted := false

def round (board : Board) (d : Receiver) (r : Round) : Receiver × Option Invocation :=
  if d.halted then (d, none)
  else
    -- a panic, in the announcement, the tool or the answer, halts the device
    match board.announce d.seq with
    | none => ({ d with halted := true }, none)
    | some _ =>
      match (d.handled board r).bind invokedTool with
      | none => (d.next board r ((d.polled r).2.2 ++ r.late), none)
      | some tool =>
        match board.runTool (text tool) d.seq ((d.polled r).2.2 ++ r.late) with
        | none => ({ d with halted := true }, some ⟨text tool, none⟩)
        | some (result, left) =>
          match board.reply d.seq result with
          | none => ({ d with halted := true }, some ⟨text tool, none⟩)
          | some frame => (d.next board r left, some ⟨text tool, some frame⟩)

end Receiver

/-! ## What a tool may be run for -/

/-- The stream of received bytes, read a line in a round: what was not looked at yet, the line
begun and the number of the round. -/
structure Reader where
  unread : List UInt8
  begun : List UInt8
  number : Nat

namespace Reader

def boot : Reader := ⟨[], [], 0⟩

variable (u : Reader) (r : Round)

def available : List UInt8 := u.unread ++ r.arrivals

def line : List UInt8 := u.begun ++ (u.available r).takeWhile fun b => !isEnd b

/-- The terminator of the line has come. -/
def complete : Bool := (u.available r).any isEnd

/-- What follows the line and its terminator. -/
def rest : List UInt8 := ((u.available r).dropWhile fun b => !isEnd b).tail

/-- A round reads at most one line. -/
def step : Reader where
  unread := u.rest r ++ r.late
  begun := if u.complete r then [] else u.line r
  number := u.number + 1

end Reader

/-- The line is an invocation with these fields. -/
structure IsInvoke (deviceId seqField tool line : List UInt8) : Prop where
  idBar : bar ∉ deviceId
  seqBar : bar ∉ seqField
  eq : line = invokeHead ++ (deviceId ++ bar :: (seqField ++ bar :: tool))

/-- A device and the stream that it receives. -/
structure Link where
  device : Receiver
  stream : Reader

namespace Link

def boot : Link := ⟨.boot, .boot⟩

def step (board : Board) (l : Link) (r : Round) : Link :=
  ⟨(l.device.round board r).1, l.stream.step r⟩

/-- A tool is run for a complete line of the stream that invokes it on this device, and the
result frame carries the line's sequence number. -/
def Answers (board : Board) (l : Link) (r : Round) : Prop :=
  ∀ run, (l.device.round board r).2 = some run → l.stream.complete r = true ∧
    ∃ seqField tool seq, IsInvoke board.deviceId seqField tool (l.stream.line r) ∧
      run.tool = text tool ∧ readDecimal (2 ^ 64) seqField = some seq ∧
      ∀ frame, run.reply = some frame → ∃ result, frame =
        ascii "KRT1|T|".toList ++ (board.deviceId ++ bar :: (decimal seq ++ bar :: result))

end Link

/-- The ping of the sensor reads from the stream. -/
def Board.Pings (board : Board) (tool : List UInt8) : Prop :=
  (∃ deviceId, board = .mcu deviceId .sensor) ∧ tool = ascii "mqtt.ping".toList

/-- The lines of the stream are shorter than the array. Those that look like invocations carry
the device's id and the number of the round, and are no ping of the sensor. -/
def Addressed (board : Board) (u : Reader) (r : Round) : Prop :=
  (u.line r).length < 128 ∧ (u.complete r → (invokedTool (u.line r)).isSome →
    ∃ seqField tool, IsInvoke board.deviceId seqField tool (u.line r) ∧
      readDecimal (2 ^ 64) seqField = some (u.number % 2 ^ 32) ∧ ¬board.Pings (text tool))

lemma poll_eq {inv stream : List UInt8}
    (hfits : (inv ++ stream.takeWhile fun b => !isEnd b).length ≤ 128) :
    poll inv stream = (inv ++ stream.takeWhile (fun b => !isEnd b), stream.any isEnd,
      (stream.dropWhile fun b => !isEnd b).tail) := by
  induction stream generalizing inv with
  | nil => simp [poll]
  | cons b stream ih =>
    rw [poll]
    split
    next hend => simp [hend]
    next hend =>
      simp only [takeWhile_cons, dropWhile_cons, any_cons, hend, Bool.not_false, if_true,
        Bool.false_or, length_append, length_cons] at hfits ⊢
      rw [if_pos (by omega), ih (by simp; omega), append_assoc, singleton_append]

lemma afterBars_field {field rest : List UInt8} (hfield : bar ∉ field) (bars : Nat) :
    afterBars (bars + 1) (field ++ bar :: rest) = afterBars bars rest := by
  induction field with
  | nil => simp [afterBars]
  | cons b field ih =>
    obtain ⟨hb, hfield⟩ := not_or.mp (mem_cons.not.mp hfield)
    rw [cons_append, afterBars, if_neg (Ne.symm hb), ih hfield]

lemma IsInvoke.invokedTool {deviceId seqField tool line field : List UInt8}
    (hline : IsInvoke deviceId seqField tool line)
    (hfield : Device.invokedTool line = some field) : field = tool := by
  have hhead : line = magic ++ bar :: (ascii ['I'] ++ bar ::
      (deviceId ++ bar :: (seqField ++ bar :: tool))) := hline.eq
  rw [Device.invokedTool] at hfield
  split at hfield
  · rw [hhead, afterBars_field (by decide), afterBars_field (by decide),
      afterBars_field hline.idBar, afterBars_field hline.seqBar, afterBars] at hfield
    exact (some.inj hfield).symm
  · cases hfield

variable {board : Board} {d : Receiver} {u : Reader} {r : Round}

lemma reply_eq {result frame : List UInt8} (hreply : board.reply d.seq result = some frame) :
    ∃ result, frame = ascii "KRT1|T|".toList ++
      (board.deviceId ++ bar :: (decimal d.seq.toNat ++ bar :: result)) := by
  have hdigits := u32Digits_eq d.seq.toNat_lt
  cases board with
  | mcu deviceId role =>
    refine ⟨result, ?_⟩
    rw [eq_of_build hreply, frameParts, hdigits]
    simp [Board.deviceId]
  | node =>
    refine ⟨result ++ [newline], ?_⟩
    rw [eq_of_build hreply, frameParts, hdigits]
    simp

namespace Receiver

lemma round_run {run : Invocation} (hrun : (d.round board r).2 = some run) :
    d.halted = false ∧ ∃ frame tool, d.handled board r = some frame ∧
      invokedTool frame = some tool ∧ run.tool = text tool ∧
      ∀ reply, run.reply = some reply → ∃ result, board.reply d.seq result = some reply := by
  rw [round] at hrun
  split at hrun
  · cases hrun
  next hlive =>
    refine ⟨Bool.eq_false_iff.mpr hlive, ?_⟩
    split at hrun
    · cases hrun
    · split at hrun
      · cases hrun
      next tool htool =>
        obtain ⟨frame, hframe, htool⟩ := bind_eq_some_iff.mp htool
        refine ⟨frame, tool, hframe, htool, ?_⟩
        split at hrun
        · cases hrun
          exact ⟨rfl, fun _ hreply => by cases hreply⟩
        next result left _ =>
          split at hrun
          · cases hrun
            exact ⟨rfl, fun _ hreply => by cases hreply⟩
          next reply hreply =>
            cases hrun
            refine ⟨rfl, fun sent hsent => ⟨result, ?_⟩⟩
            rw [hreply, ← hsent]

/-- A device that goes on has left in the stream what it has not polled, or what its tool has
left of that. -/
lemma round_next (hnext : (d.round board r).1.halted = false) :
    d.halted = false ∧ ∃ left, (d.round board r).1 = d.next board r left ∧
      (left = (d.polled r).2.2 ++ r.late ∨ ∃ frame tool result,
        d.handled board r = some frame ∧ invokedTool frame = some tool ∧
        board.runTool (text tool) d.seq ((d.polled r).2.2 ++ r.late) = some (result, left)) := by
  rw [round] at hnext ⊢
  split at hnext
  next hhalted => cases hnext.symm.trans hhalted
  next hlive =>
    refine ⟨Bool.eq_false_iff.mpr hlive, ?_⟩
    rw [if_neg hlive]
    split at hnext
    · cases hnext
    · split at hnext
      · exact ⟨_, rfl, .inl rfl⟩
      next tool htool =>
        obtain ⟨frame, hframe, hfield⟩ := bind_eq_some_iff.mp htool
        split at hnext
        · cases hnext
        next result left hrun =>
          split at hnext
          · cases hnext
          · exact ⟨left, rfl, .inr ⟨frame, tool, result, hframe, hfield, hrun⟩⟩

end Receiver

lemma runTool_left {tool stream result left : List UInt8} {seq : UInt32}
    (hping : ¬board.Pings tool) (hrun : board.runTool tool seq stream = some (result, left)) :
    left = stream := by
  cases board with
  | node => exact (Prod.mk.inj (some.inj hrun)).2.symm
  | mcu deviceId role =>
    have hsame : (role.runTool tool seq stream).map Prod.snd = some stream := by
      cases role with
      | sensor =>
        have hne : tool ≠ ascii "mqtt.ping".toList := fun htool => hping ⟨⟨deviceId, rfl⟩, htool⟩
        simp only [McuRole.runTool, if_neg hne]
        split_ifs <;> rfl
      | relay =>
        simp only [McuRole.runTool]
        split_ifs <;> rfl
      | other => rfl
    change role.runTool tool seq stream = _ at hrun
    rw [hrun] at hsame
    exact some.inj hsame

/-! ## The array holds the line begun -/

/-- A device that is not halted is where the reader of its stream is. -/
def Tracks (d : Receiver) (u : Reader) : Prop :=
  d.halted = false → d.fifo = u.unread ∧ d.inv = u.begun ∧ d.seq = .ofNat u.number

section
variable (hfifo : d.fifo = u.unread) (hinv : d.inv = u.begun) (hshort : (u.line r).length < 128)
include hfifo hinv hshort

lemma polled_eq : d.polled r = (u.line r, u.complete r, u.rest r) := by
  have havailable : d.available r = u.available r := congrArg (· ++ r.arrivals) hfifo
  rw [Receiver.polled, hinv, havailable]
  exact poll_eq hshort.le

lemma handled_eq (board : Board) :
    d.handled board r = if u.complete r then some (u.line r) else none := by
  simp [Receiver.handled, polled_eq hfifo hinv hshort, hshort.not_ge]

end

section
variable (htracks : Tracks d u) (haddressed : Addressed board u r)
include htracks haddressed

lemma Tracks.round : Tracks (d.round board r).1 (u.step r) := by
  intro hnext
  obtain ⟨hlive, left, hround, hleft⟩ := Receiver.round_next hnext
  obtain ⟨hfifo, hinv, hseq⟩ := htracks hlive
  obtain ⟨hshort, hinvokes⟩ := haddressed
  have hpolled := polled_eq hfifo hinv hshort
  have hhandled := handled_eq hfifo hinv hshort board
  have hrest : left = u.rest r ++ r.late := by
    rcases hleft with rfl | ⟨frame, field, result, hframe, hfield, hrun⟩
    · rw [hpolled]
    · obtain ⟨hcomplete, rfl⟩ : u.complete r ∧ u.line r = frame := by simpa [hhandled] using hframe
      obtain ⟨seqField, tool, hline, -, hping⟩ := hinvokes hcomplete (isSome_of_eq_some hfield)
      obtain rfl := hline.invokedTool hfield
      rw [runTool_left hping hrun, hpolled]
  rw [hround]
  refine ⟨hrest, ?_, ?_⟩
  · rw [Receiver.next, hhandled, hpolled, Reader.step]
    cases u.complete r <;> rfl
  · rw [Receiver.next, hseq, Reader.step, UInt32.ofNat_add]
    rfl

lemma Tracks.answers : Link.Answers board ⟨d, u⟩ r := by
  intro run hrun
  obtain ⟨hlive, frame, field, hframe, hfield, htool, hreply⟩ := Receiver.round_run hrun
  obtain ⟨hfifo, hinv, hseq⟩ := htracks hlive
  obtain ⟨hshort, hinvokes⟩ := haddressed
  obtain ⟨hcomplete, rfl⟩ : u.complete r ∧ u.line r = frame := by
    simpa [handled_eq hfifo hinv hshort board] using hframe
  obtain ⟨seqField, tool, hline, hnumber, -⟩ := hinvokes hcomplete (isSome_of_eq_some hfield)
  refine ⟨hcomplete, seqField, tool, _, hline, ?_, hnumber, fun sent hsent => ?_⟩
  · rw [htool, hline.invokedTool hfield]
  · obtain ⟨result, hresult⟩ := hreply sent hsent
    have hsent := reply_eq hresult
    rwa [hseq, UInt32.toNat_ofNat'] at hsent

end

lemma Tracks.run {rounds : List Round} (htracks : Tracks d u)
    (haddressed : Allowed (Addressed board) Reader.step u rounds) :
    Allowed (Link.Answers board) (Link.step board) ⟨d, u⟩ rounds := by
  induction rounds generalizing d u with
  | nil => trivial
  | cons r rounds ih =>
    exact ⟨htracks.answers haddressed.1, ih (htracks.round haddressed.1) haddressed.2⟩

/-- In every run on a stream of short lines, whose invocations are for this device and numbered
as its rounds, tools are run and answered as they should be. -/
theorem invocations_answered (board : Board) (rounds : List Round)
    (haddressed : Allowed (Addressed board) Reader.step .boot rounds) :
    Allowed (Link.Answers board) (Link.step board) .boot rounds :=
  Tracks.run (fun _ => ⟨rfl, rfl, rfl⟩) haddressed

/-- An invocation of the node that comes in two rounds, with the number of the second. -/
def twoRounds : List Round :=
  [⟨ascii "KRT1|I|karte-a-".toList, []⟩, ⟨ascii "node|1|node.info\n".toList, []⟩]

theorem invocations_answered_rounds :
    Allowed (Addressed .node) Reader.step .boot twoRounds ∧
      Allowed (Link.Answers .node) (Link.step .node) .boot twoRounds ∧
      ((Link.boot.step .node ⟨ascii "KRT1|I|karte-a-".toList, []⟩).device.round .node
        ⟨ascii "node|1|node.info\n".toList, []⟩).2 = some ⟨ascii "node.info".toList,
          some (ascii "KRT1|T|karte-a-node|1|aarch64:el1:qemu-virt\n".toList)⟩ := by
  have hping : ¬ Board.node.Pings (text (ascii "node.info".toList)) := by
    rintro ⟨⟨_, hboard⟩, -⟩
    cases hboard
  have haddressed : Allowed (Addressed .node) Reader.step .boot twoRounds := by
    refine ⟨⟨by decide, fun hcomplete => absurd hcomplete (by decide)⟩, ⟨by decide, fun _ _ => ?_⟩,
      trivial⟩
    exact ⟨ascii ['1'], _, ⟨by decide, by decide, by decide⟩, by decide, hping⟩
  exact ⟨haddressed, invocations_answered .node twoRounds haddressed, by decide⟩

def othersInvoke : List UInt8 := ascii "KRT1|I|esp32-1|7|node.info\n".toList

/-- The node runs the tool of another device's invocation, and answers number 0 to number 7. -/
theorem others_invocation_run :
    ¬ ∀ board rounds, Allowed (Link.Answers board) (Link.step board) .boot rounds := by
  intro hanswers
  obtain ⟨hround, -⟩ := hanswers .node [⟨othersInvoke, []⟩]
  have hrun : (Receiver.boot.round .node ⟨othersInvoke, []⟩).2 = some ⟨ascii "node.info".toList,
      some (ascii "KRT1|T|karte-a-node|0|aarch64:el1:qemu-virt\n".toList)⟩ := by decide
  obtain ⟨-, seqField, tool, seq, hline, -⟩ := hround _ hrun
  -- the line would have to begin with the node's own id
  have hfront : invokeHead ++ Board.node.deviceId <+: Reader.boot.line ⟨othersInvoke, []⟩ :=
    ⟨bar :: (seqField ++ bar :: tool), by rw [append_assoc]; exact hline.eq.symm⟩
  exact absurd hfront (by decide)

end KarteOs.Device

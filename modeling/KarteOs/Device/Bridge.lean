import Mathlib.Data.List.DropRight
import Mathlib.Data.List.Nodup
import KarteOs.Foundation.LineStream
import KarteOs.Foundation.Run

/-! # Calls over the device bridge

`fabric.py` gathers the serial lines of many devices, sends invocations and
waits for results. Results are kept by device, and their sequence numbers are
dropped: a result that comes late is taken for the answer to the next
invocation. Where a device is invoked only when nothing of its earlier
invocations is on its way, waiting returns the answer to the latest one.
-/

namespace KarteOs.Bridge

open LineStream Transition Function List Nat

abbrev Text := List Char

def isSpace (c : Char) : Bool :=
  c.toNat ∈ [9, 10, 11, 12, 13, 28, 29, 30, 31, 32, 0x85, 0xa0, 0x1680, 0x2000, 0x2001, 0x2002,
    0x2003, 0x2004, 0x2005, 0x2006, 0x2007, 0x2008, 0x2009, 0x200a, 0x2028, 0x2029, 0x202f,
    0x205f, 0x3000]

def strip (text : Text) : Text := (text.dropWhile isSpace).rdropWhile isSpace

structure Frame where
  verb : Text
  dev : Text
  seq : Text
  rest : Text
deriving DecidableEq

def parseKrt1 (line : Text) : Option Frame :=
  match line.splitOn '|' with
  | first :: verb :: dev :: seq :: more =>
    if first = "KRT1".toList then some ⟨verb, dev, seq, ['|'].intercalate more⟩ else none
  | _ => none

def readLine (line : Text) : Option Frame := parseKrt1 (strip line)

def resultVerb : Text := "T".toList

abbrev Sock := Nat

structure Fabric where
  buf : Sock → Text
  sockOf : Text → Option Sock
  reg : Text → Option (List Text)
  results : Text → Option Text

namespace Fabric

def new : Fabric := ⟨fun _ => [], fun _ => none, fun _ => none, fun _ => none⟩

/-- One line in `_read`: the first announcement registers a device, and a result replaces
the one that is kept. -/
def handleLine (s : Sock) (f : Fabric) (line : Text) : Fabric :=
  match readLine line with
  | none => f
  | some frame =>
    if frame.verb = "A".toList then
      if f.reg frame.dev = none then
        { f with
          reg := update f.reg frame.dev
            (some ((frame.rest.splitOn ',').filter (· ≠ [])))
          sockOf := update f.sockOf frame.dev (some s) }
      else f
    -- the sequence number is not looked at
    else if frame.verb = resultVerb then
      { f with results := update f.results frame.dev (some frame.rest) }
    else f

def read (f : Fabric) (s : Sock) (data : Text) : Fabric :=
  if data = [] then f
  else
    let lines := split '\n' (f.buf s ++ data)
    { lines.1.foldl (handleLine s) f with buf := update f.buf s lines.2 }

end Fabric

structure Pending where
  sock : Sock
  dev : Text
  seq : Nat
deriving DecidableEq

/-- The bridge with the devices and the lines on their way. -/
structure Bus where
  fabric : Fabric
  /-- Sent by a device, but not received yet. -/
  channel : Sock → Text
  pending : List Pending
  /-- The sequence number of the latest invocation of a device. -/
  latest : Text → Option Nat
  /-- The device's answer to that invocation, once it has given it. -/
  answered : Text → Option Text

namespace Bus

def start : Bus := ⟨.new, fun _ => [], [], fun _ => none, fun _ => none⟩

def recv (w : Bus) (event : Sock × Nat) : Bus :=
  { w with
    fabric := w.fabric.read event.1 ((w.channel event.1).take event.2)
    channel := update w.channel event.1 ((w.channel event.1).drop event.2) }

def pump (w : Bus) (events : List (Sock × Nat)) : Bus := events.foldl recv w

/-- `wait_result`: a look at the results and a pump in turn, until the time is over. -/
def waitResult (dev : Text) : Bus → List (List (Sock × Nat)) → Option Text × Bus
  | w, [] => (none, w)
  | w, events :: rounds =>
    match w.fabric.results dev with
    | some rest =>
      (some rest,
        { w with fabric :=
            { w.fabric with results := update w.fabric.results dev none } })
    | none => waitResult dev (w.pump events) rounds

/-- `invoke`: the line goes to the socket of the device, if it is registered. -/
def invoke (w : Bus) (dev : Text) (seq : Nat) : Bus :=
  { w with
    pending := w.pending ++ ((w.fabric.sockOf dev).map fun s => ⟨s, dev, seq⟩).toList
    latest := update w.latest dev (some seq)
    answered := update w.answered dev none }

def answerLine (dev : Text) (seq : Nat) (result : Text) : Text :=
  ['|'].intercalate ["KRT1".toList, resultVerb, dev, Nat.toDigits 10 seq] ++ '|' :: result

def send (w : Bus) (s : Sock) (line : Text) : Bus :=
  { w with channel := update w.channel s (w.channel s ++ (line ++ ['\n'])) }

end Bus

/-- The calls of the bridge, the answers of the devices and what else they print. -/
inductive Act where
  | invoke (dev tool : Text) (seq : Nat)
  | wait (dev : Text) (rounds : List (List (Sock × Nat)))
  | pump (events : List (Sock × Nat))
  | answer (call : Pending) (result : Text)
  | say (s : Sock) (line : Text)

namespace Bus

def step (w : Bus) : Act → Bus
  | .invoke dev _ seq => w.invoke dev seq
  | .wait dev rounds => (w.waitResult dev rounds).2
  | .pump events => w.pump events
  | .answer call result =>
    { w with
      pending := w.pending.erase call
      answered :=
        if w.latest call.dev = some call.seq then update w.answered call.dev (some result)
        else w.answered }.send call.sock (answerLine call.dev call.seq result)
  | .say s line => w.send s line

/-- Devices answer each invocation once, and nothing else that they print is a result. -/
def Legal (w : Bus) : Act → Prop
  | .answer call result => call ∈ w.pending ∧ '\n' ∉ result
  | .say _ line => '\n' ∉ line ∧ ∀ frame, readLine line = some frame → frame.verb ≠ resultVerb
  | _ => True

def unread (w : Bus) (s : Sock) : List Text := (split '\n' (w.fabric.buf s ++ w.channel s)).1

/-- No result of the device is kept or on its way to be kept. -/
def Quiet (w : Bus) (dev : Text) : Prop :=
  w.fabric.results dev = none ∧ ∀ s, ∀ line ∈ w.unread s, ∀ frame, readLine line = some frame →
    frame.verb = resultVerb → frame.dev ≠ dev

/-- A device is invoked only if its earlier invocations are answered and the answers were
read and taken. -/
def Calm (w : Bus) : Act → Prop
  | .invoke dev _ _ => (∀ call ∈ w.pending, call.dev ≠ dev) ∧ w.Quiet dev
  | _ => True

/-- The text is the answer of the device to its latest invocation, without blanks at the end. -/
def Answers (answered : Text → Option Text) (dev rest : Text) : Prop :=
  ∃ result, answered dev = some result ∧ rest = result.rdropWhile isSpace

/-- What a wait returns is the answer to the latest invocation of the device. -/
def Correlated (w : Bus) : Act → Prop
  | .wait dev rounds => ∀ rest, (w.waitResult dev rounds).1 = some rest →
      Answers w.answered dev rest
  | _ => True

/-! ## Lines as they are read -/

lemma mem_strip {c : Char} {text : Text} (hc : c ∈ strip text) : c ∈ text := by
  have hfront : strip text <+: text.dropWhile isSpace := rdropWhile_prefix _ _
  exact (dropWhile_suffix isSpace).subset (hfront.subset hc)

lemma strip_append {first bar : Char} {middle last : Text} (hfirst : isSpace first = false)
    (hbar : isSpace bar = false) : strip (first :: (middle ++ bar :: last)) =
      first :: (middle ++ bar :: last.rdropWhile isSpace) := by
  have hstart : (first :: (middle ++ bar :: last)).dropWhile isSpace =
      (first :: middle ++ [bar]) ++ last := by
    simp [hfirst]
  have hend : ((first :: middle ++ [bar]).reverse).dropWhile isSpace =
      (first :: middle ++ [bar]).reverse := by
    simp [hbar]
  rw [strip, hstart, rdropWhile, reverse_append, dropWhile_append]
  split
  next hempty =>
    rw [hend, reverse_reverse, rdropWhile, List.isEmpty_iff.mp hempty]
    simp
  · simp [rdropWhile]

variable {dev line result : Text} {frame : Frame}

lemma readLine_answerLine (hdev : '|' ∉ dev) (seq : Nat) (result : Text) :
    readLine (answerLine dev seq result) =
      some ⟨resultVerb, dev, toDigits 10 seq, result.rdropWhile isSpace⟩ := by
  have hline : answerLine dev seq result = 'K' :: ("RT1|T|".toList ++ dev ++ '|' ::
      toDigits 10 seq ++ '|' :: result) := by
    simp [answerLine, intercalate, intersperse, resultVerb]
  have hdigits : '|' ∉ toDigits 10 seq := by
    intro hbar
    have hdigit := isDigit_of_mem_toDigits (by decide) (by decide) hbar
    exact absurd hdigit (by decide)
  have hfields : 'K' :: ("RT1|T|".toList ++ dev ++ '|' :: toDigits 10 seq ++ '|' ::
      result.rdropWhile isSpace) = "KRT1".toList ++ '|' :: (resultVerb ++ '|' ::
        (dev ++ '|' :: (toDigits 10 seq ++ '|' :: result.rdropWhile isSpace))) := by
    simp [resultVerb]
  rw [readLine, hline, strip_append (by decide) (by decide), hfields, parseKrt1,
    splitOn_append_cons_self_of_not_mem (by decide),
    splitOn_append_cons_self_of_not_mem (by decide),
    splitOn_append_cons_self_of_not_mem hdev,
    splitOn_append_cons_self_of_not_mem hdigits]
  simp [intercalate_splitOn]

lemma mem_splitOn_of_parseKrt1 (hframe : parseKrt1 line = some frame) :
    frame.dev ∈ line.splitOn '|' := by
  rw [parseKrt1] at hframe
  split at hframe
  next first verb dev seq more hfields =>
    split at hframe
    · cases hframe
      simp [hfields]
    · cases hframe
  · cases hframe

/-! ## All that is on its way answers the latest invocation -/

structure IsName (dev : Text) : Prop where
  noBar : '|' ∉ dev
  oneLine : '\n' ∉ dev

lemma isName_of_readLine (hline : '\n' ∉ line) (hframe : readLine line = some frame) :
    IsName frame.dev := by
  have hfield := mem_splitOn_of_parseKrt1 hframe
  exact ⟨notMem_of_mem_splitOn hfield, fun h => hline (mem_strip (mem_of_mem_splitOn hfield h))⟩

/-- A line that is no result, or answers the latest invocation. -/
structure Fresh (answered : Text → Option Text) (line : Text) : Prop where
  oneLine : '\n' ∉ line
  answers : ∀ frame, readLine line = some frame → frame.verb = resultVerb →
    Answers answered frame.dev frame.rest

/-- What the bridge has of its devices: their names, and results that are up to date. -/
structure Sound (answered : Text → Option Text) (f : Fabric) : Prop where
  names : ∀ dev s, f.sockOf dev = some s → IsName dev
  results : ∀ dev rest, f.results dev = some rest → Answers answered dev rest

def Stream (answered : Text → Option Text) (stream : Text) : Prop :=
  ∃ lines, (∀ line ∈ lines, Fresh answered line) ∧ stream = join '\n' lines

structure InStep (w : Bus) : Prop where
  fabric : Sound w.answered w.fabric
  streams : ∀ s, Stream w.answered (w.fabric.buf s ++ w.channel s)
  pending : ∀ call ∈ w.pending, w.latest call.dev = some call.seq ∧
    w.answered call.dev = none ∧ IsName call.dev
  distinct : (w.pending.map Pending.dev).Nodup

variable {w : Bus} {f : Fabric} {answered : Text → Option Text} {lines : List Text} {s : Sock}

lemma Sound.register (hf : Sound answered f) (hname : IsName dev) (s : Sock)
    (reg : Text → Option (List Text)) :
    Sound answered { f with reg, sockOf := update f.sockOf dev (some s) } := by
  refine ⟨fun other sock hsock => ?_, hf.results⟩
  change update f.sockOf dev (some s) other = some sock at hsock
  by_cases hother : other = dev
  · exact hother ▸ hname
  · rw [update_of_ne hother] at hsock
    exact hf.names other sock hsock

lemma Sound.update_results (hf : Sound answered f) {kept : Option Text}
    (hkept : ∀ rest, kept = some rest → Answers answered dev rest) :
    Sound answered { f with results := update f.results dev kept } := by
  refine ⟨hf.names, fun other rest hrest => ?_⟩
  change update f.results dev kept other = some rest at hrest
  by_cases hother : other = dev
  · rw [hother, update_self] at hrest
    exact hother ▸ hkept rest hrest
  · rw [update_of_ne hother] at hrest
    exact hf.results other rest hrest

lemma handleLine_sound (s : Sock) (hline : Fresh answered line) (hf : Sound answered f) :
    Sound answered (f.handleLine s line) := by
  rw [Fabric.handleLine]
  split
  · exact hf
  next frame hframe =>
    split
    · split
      · exact hf.register (isName_of_readLine hline.oneLine hframe) s _
      · exact hf
    · split
      next hverb =>
        refine hf.update_results fun rest hrest => ?_
        cases hrest
        exact hline.answers frame hframe hverb
      · exact hf

lemma foldl_handleLine_sound (s : Sock) (hlines : ∀ line ∈ lines, Fresh answered line)
    (hf : Sound answered f) : Sound answered (lines.foldl (Fabric.handleLine s) f) := by
  induction lines generalizing f with
  | nil => exact hf
  | cons line lines ih =>
    exact ih (fun line h => hlines line (.tail _ h)) (handleLine_sound s (hlines line (.head _)) hf)

lemma read_buf_of_ne {other : Sock} (hne : other ≠ s) (data : Text) :
    (f.read s data).buf other = f.buf other := by
  rw [Fabric.read]
  split
  · rfl
  · exact update_of_ne hne _ _

lemma read_sound {data later : Text} (hf : Sound answered f)
    (hstream : Stream answered (f.buf s ++ (data ++ later))) :
    Sound answered (f.read s data) ∧ Stream answered ((f.read s data).buf s ++ later) := by
  rw [Fabric.read]
  split
  next hdata =>
    rw [hdata, nil_append] at hstream
    exact ⟨hf, hstream⟩
  · -- the complete lines come off the front of the stream, the others stay in the buffer
    obtain ⟨lines, hlines, hjoin⟩ := hstream
    rw [← append_assoc] at hjoin
    obtain ⟨rest, hsplit, hleft⟩ := split_of_join (fun line h => (hlines line h).oneLine) hjoin
    have hdone : Sound answered ((split '\n' (f.buf s ++ data)).1.foldl (.handleLine s) f) :=
      foldl_handleLine_sound s (fun line h => hlines line (by rw [hsplit]; simp [h])) hf
    refine ⟨⟨hdone.names, hdone.results⟩, rest, fun line h => hlines line ?_, ?_⟩
    · rw [hsplit]
      exact mem_append_right _ h
    · change update f.buf s _ s ++ later = _
      rw [update_self, hleft]

section
variable (hw : InStep w)
include hw

lemma InStep.recv (event : Sock × Nat) : InStep (w.recv event) := by
  obtain ⟨s, count⟩ := event
  have hstream := hw.streams s
  rw [← take_append_drop count (w.channel s)] at hstream
  obtain ⟨hfabric, hrest⟩ := read_sound hw.fabric hstream
  refine ⟨hfabric, fun other => ?_, hw.pending, hw.distinct⟩
  change Stream w.answered ((w.fabric.read s ((w.channel s).take count)).buf other ++
    update w.channel s ((w.channel s).drop count) other)
  by_cases hother : other = s
  · rw [hother, update_self]
    exact hrest
  · rw [read_buf_of_ne hother, update_of_ne hother]
    exact hw.streams other

lemma InStep.pump (events : List (Sock × Nat)) :
    InStep (w.pump events) ∧ (w.pump events).answered = w.answered := by
  induction events generalizing w with
  | nil => exact ⟨hw, rfl⟩
  | cons event events ih => exact ih (hw.recv event)

lemma InStep.waitResult (dev : Text) (rounds : List (List (Sock × Nat))) :
    InStep (w.waitResult dev rounds).2 ∧ ∀ rest, (w.waitResult dev rounds).1 = some rest →
      Answers w.answered dev rest := by
  induction rounds generalizing w with
  | nil => exact ⟨hw, fun rest hrest => by cases hrest⟩
  | cons events rounds ih =>
    rw [Bus.waitResult]
    split
    next found hfound =>
      constructor
      · exact ⟨hw.fabric.update_results fun _ hnone => (by cases hnone), hw.streams, hw.pending,
          hw.distinct⟩
      · intro rest hrest
        cases hrest
        exact hw.fabric.results dev found hfound
    · obtain ⟨hpump, hsame⟩ := hw.pump events
      have hrest := ih hpump
      rwa [hsame] at hrest

lemma InStep.send (s : Sock) (hline : Fresh w.answered line) : InStep (w.send s line) := by
  refine ⟨hw.fabric, fun other => ?_, hw.pending, hw.distinct⟩
  change Stream w.answered (w.fabric.buf other ++
    update w.channel s (w.channel s ++ (line ++ ['\n'])) other)
  by_cases hother : other = s
  · obtain ⟨lines, hlines, hjoin⟩ := hw.streams s
    refine ⟨lines ++ [line], fun sent hsent => ?_, ?_⟩
    · rcases mem_append.mp hsent with hold | hnew
      exacts [hlines sent hold, mem_singleton.mp hnew ▸ hline]
    · rw [hother, update_self, ← append_assoc, hjoin]
      simp [join]
  · rw [update_of_ne hother]
    exact hw.streams other

end

lemma oneLine_answerLine (hdev : '\n' ∉ dev) (hresult : '\n' ∉ result) (seq : Nat) :
    '\n' ∉ answerLine dev seq result := by
  have hdigits : '\n' ∉ toDigits 10 seq := fun h =>
    absurd (isDigit_of_mem_toDigits (by decide) (by decide) h) (by decide)
  simp [answerLine, intercalate, intersperse, resultVerb, hdev, hresult, hdigits]

lemma unread_eq (hlines : ∀ line ∈ lines, Fresh answered line)
    (hstream : w.fabric.buf s ++ w.channel s = join '\n' lines) : w.unread s = lines := by
  rw [unread, hstream, split_join fun line h => (hlines line h).oneLine]

lemma InStep.quiet (hw : InStep w) (hnone : w.answered dev = none) : w.Quiet dev := by
  have hother : ∀ other rest, Answers w.answered other rest → other ≠ dev := by
    rintro other rest ⟨result, hresult, -⟩ rfl
    cases hnone.symm.trans hresult
  refine ⟨?_, fun s line hline frame hframe hverb => ?_⟩
  · refine Option.eq_none_iff_forall_ne_some.mpr fun rest hrest => ?_
    exact hother dev rest (hw.fabric.results dev rest hrest) rfl
  · obtain ⟨lines, hlines, hjoin⟩ := hw.streams s
    rw [unread_eq hlines hjoin] at hline
    exact hother _ _ ((hlines line hline).answers frame hframe hverb)

/-- Another answer of a device only concerns what is kept of it, and of a quiet one nothing is. -/
lemma InStep.update_answered (hw : InStep w) (hquiet : w.Quiet dev) (kept : Option Text) :
    Sound (update w.answered dev kept) w.fabric ∧
      ∀ s, Stream (update w.answered dev kept) (w.fabric.buf s ++ w.channel s) := by
  obtain ⟨hresults, hunread⟩ := hquiet
  have hanswers : ∀ other rest, other ≠ dev → Answers w.answered other rest →
      Answers (update w.answered dev kept) other rest := by
    rintro other rest hother ⟨result, hresult, hrest⟩
    exact ⟨result, (update_of_ne hother _ _).trans hresult, hrest⟩
  refine ⟨⟨hw.fabric.names, fun other rest hrest => ?_⟩, fun s => ?_⟩
  · refine hanswers other rest ?_ (hw.fabric.results other rest hrest)
    rintro rfl
    cases hresults.symm.trans hrest
  · obtain ⟨lines, hlines, hjoin⟩ := hw.streams s
    refine ⟨lines, fun line hline => ⟨(hlines line hline).oneLine, ?_⟩, hjoin⟩
    intro frame hframe hverb
    refine hanswers _ _ ?_ ((hlines line hline).answers frame hframe hverb)
    exact hunread s line ((unread_eq hlines hjoin).symm ▸ hline) frame hframe hverb

lemma InStep.answer (hw : InStep w) {call : Pending} (hcall : call ∈ w.pending)
    (hresult : '\n' ∉ result) : InStep (w.step (.answer call result)) := by
  obtain ⟨hlatest, hnone, hname⟩ := hw.pending call hcall
  obtain ⟨hfabric, hstreams⟩ := hw.update_answered (hw.quiet hnone) (some result)
  rw [step, if_pos hlatest]
  refine InStep.send ⟨hfabric, hstreams, fun other hother => ?_,
    hw.distinct.sublist (erase_sublist.map _)⟩ call.sock
    ⟨oneLine_answerLine hname.oneLine hresult call.seq, ?_⟩
  · -- no other invocation of the device is pending
    obtain ⟨hne, hmem⟩ := (Nodup.of_map _ hw.distinct).mem_erase_iff.mp hother
    obtain ⟨hseq, hopen, hother⟩ := hw.pending other hmem
    have hdev : other.dev ≠ call.dev := fun hsame =>
      hne (inj_on_of_nodup_map hw.distinct hmem hcall hsame)
    exact ⟨hseq, (update_of_ne hdev _ _).trans hopen, hother⟩
  · intro frame hframe _
    rw [readLine_answerLine hname.noBar] at hframe
    cases hframe
    exact ⟨result, update_self .., rfl⟩

lemma InStep.invoke (hw : InStep w) {tool : Text} {seq : Nat}
    (hcalm : Calm w (.invoke dev tool seq)) : InStep (w.invoke dev seq) := by
  obtain ⟨hpending, hquiet⟩ := hcalm
  obtain ⟨hfabric, hstreams⟩ := hw.update_answered hquiet none
  refine ⟨hfabric, hstreams, fun call hcall => ?_, ?_⟩
  · rcases mem_append.mp hcall with hold | hnew
    · obtain ⟨hseq, hopen, hname⟩ := hw.pending call hold
      have hdev := hpending call hold
      exact ⟨(update_of_ne hdev _ _).trans hseq, (update_of_ne hdev _ _).trans hopen, hname⟩
    · obtain ⟨s, hs, rfl⟩ := Option.map_eq_some_iff.mp (Option.mem_toList.mp hnew)
      exact ⟨update_self .., update_self .., hw.fabric.names dev s hs⟩
  · rw [Bus.invoke]
    cases w.fabric.sockOf dev with
    | none => simpa using hw.distinct
    | some s =>
      rw [Option.map_some, Option.toList_some, map_append, map_singleton]
      refine nodup_append.mpr ⟨hw.distinct, nodup_singleton dev, ?_⟩
      simpa using hpending

lemma inStep_step (w : Bus) (act : Act) (hw : InStep w) (hact : Legal w act ∧ Calm w act) :
    InStep (w.step act) := by
  obtain ⟨hlegal, hcalm⟩ := hact
  cases act with
  | invoke dev tool seq => exact hw.invoke hcalm
  | wait dev rounds => exact (hw.waitResult dev rounds).1
  | pump events => exact (hw.pump events).1
  | answer call result => exact hw.answer hlegal.1 hlegal.2
  | say s line =>
    exact hw.send s ⟨hlegal.1, fun frame hframe hverb => absurd hverb (hlegal.2 frame hframe)⟩

lemma start_inStep : InStep start where
  fabric := ⟨fun _ _ hsock => (by cases hsock), fun _ _ hrest => (by cases hrest)⟩
  streams _ := ⟨[], fun _ h => absurd h not_mem_nil, rfl⟩
  pending _ h := absurd h not_mem_nil
  distinct := nodup_nil

/-- In every run that invokes devices only when they are calm, each wait returns the answer to
the latest invocation. -/
theorem results_correlated (acts : List Act)
    (hcalm : Allowed (fun w act => Legal w act ∧ Calm w act) step start acts) :
    Allowed Correlated step start acts := by
  refine hcalm.imp_of_good (fun w act (hw : InStep w) _ => ?_) inStep_step start_inStep
  cases act with
  | wait dev rounds => exact (hw.waitResult dev rounds).2
  | _ => trivial

lemma InStep.calm_of_first (hw : InStep w) (hfirst : w.latest dev = none)
    (hnone : w.answered dev = none) (tool : Text) (seq : Nat) :
    Calm w (.invoke dev tool seq) := by
  refine ⟨fun call hcall => ?_, hw.quiet hnone⟩
  rintro rfl
  cases hfirst.symm.trans (hw.pending call hcall).1

def hello : List Act := [.say 0 "KRT1|A|d|0|t".toList, .pump [(0, 20)]]

lemma hello_legal : Allowed (fun w act => Legal w act ∧ Calm w act) step start hello := by
  have hread : readLine "KRT1|A|d|0|t".toList =
      some ⟨"A".toList, "d".toList, "0".toList, "t".toList⟩ := by decide
  refine ⟨⟨⟨by decide, fun frame hframe => ?_⟩, trivial⟩, ⟨trivial, trivial⟩, trivial⟩
  cases hread.symm.trans hframe
  decide

def firstCall : List Act :=
  [.invoke "d".toList "t".toList 1, .answer ⟨0, "d".toList, 1⟩ "ok".toList,
    .wait "d".toList [[(0, 20)], []]]

theorem results_correlated_call :
    Allowed (fun w act => Legal w act ∧ Calm w act) step start (hello ++ firstCall) ∧
      Allowed Correlated step start (hello ++ firstCall) := by
  have hcalm : Allowed (fun w act => Legal w act ∧ Calm w act) step start (hello ++ firstCall) := by
    refine allowed_append_iff.mpr ⟨hello_legal, ⟨trivial, ?_⟩, ⟨⟨by decide, by decide⟩, trivial⟩,
      ⟨trivial, trivial⟩, trivial⟩
    have hhello : InStep (hello.foldl step start) :=
      Allowed.invariant inStep_step hello_legal start_inStep
    exact hhello.calm_of_first (by decide) (by decide) _ _
  exact ⟨hcalm, results_correlated _ hcalm⟩

def invokedSeqs (acts : List Act) : List Nat :=
  acts.filterMap fun act =>
    match act with
    | .invoke _ _ seq => some seq
    | _ => none

/-- A wait is over before the answer comes; the next invocation gets it. -/
def lateCall : List Act :=
  [.invoke "d".toList "t".toList 1, .wait "d".toList [[]], .invoke "d".toList "t".toList 2,
    .answer ⟨0, "d".toList, 1⟩ "ok".toList]

theorem late_answer_taken : ¬ ∀ acts, Allowed Legal step start acts → (invokedSeqs acts).Nodup →
    Allowed Correlated step start acts := by
  intro hcorrelated
  have hlegal : Allowed Legal step start
      (hello ++ lateCall ++ [.wait "d".toList [[(0, 20)], []]]) := by
    refine allowed_append_iff.mpr
      ⟨allowed_append_iff.mpr ⟨hello_legal.imp fun _ _ h => h.1, ?_⟩, ?_⟩
    · exact ⟨trivial, trivial, trivial, ⟨by decide, by decide⟩, trivial⟩
    · exact ⟨trivial, trivial⟩
  -- the second wait gets the answer to number 1, and number 2, the latest, has none
  have hwait := (allowed_append_iff.mp (hcorrelated _ hlegal (by decide))).2.1
  obtain ⟨result, hresult, -⟩ := hwait "ok".toList (by decide)
  have hnone : ((hello ++ lateCall).foldl step start).answered "d".toList = none := by decide
  cases hnone.symm.trans hresult

end Bus

end KarteOs.Bridge

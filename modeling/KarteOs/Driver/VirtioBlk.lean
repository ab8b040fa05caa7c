import KarteOs.Driver.SectorCache

/-! # The virtio block driver of x86_64

All requests use the same header, data page, status byte and descriptors. The
device executes published chains in order, at any time, and reads the header when
it does. A request that the driver has given up may still be executed later: then
it finds the header and the data of another request. If no such chain is left when
a call starts, a call that reports success has done what it was asked to do.

A step of the driver is one statement of the source; a device step is the
execution of one chain.
-/

namespace KarteOs.Driver

open Transition List Option

inductive BlkKind
  | blkIn
  | blkOut
deriving DecidableEq

structure BlkReq where
  kind : BlkKind
  sector : Nat
deriving DecidableEq

def blkOk : UInt8 := 0

def blkIoErr : UInt8 := 1

def blkNoStatus : UInt8 := 0xff

def pollLimit : Nat := 10000000

def BlockCall.isRead : BlockCall → Bool
  | .readBlock _ => true
  | .writeBlock _ _ => false

def BlockCall.req : BlockCall → BlkReq
  | .readBlock blockId => ⟨.blkIn, blockId⟩
  | .writeBlock blockId _ => ⟨.blkOut, blockId⟩

structure BlkMemory where
  req : BlkReq
  data : Sector
  status : UInt8
  /-- The data descriptor has `DESC_F_WRITE`. -/
  dataWritable : Bool
  availIdx : Nat
  /-- The chains that the device has taken. -/
  seenIdx : Nat
  medium : Nat → Sector
  capacity : Nat

inductive BlkStmt
  | copyIn
  | header
  | clearStatus
  | descriptors
  | publish
  | notify
deriving DecidableEq

def prepare : BlockCall → List BlkStmt
  | .readBlock _ => [.header, .clearStatus, .descriptors]
  | .writeBlock _ _ => [.copyIn, .header, .clearStatus, .descriptors]

namespace BlkMemory

def exec (m : BlkMemory) (call : BlockCall) : BlkStmt → BlkMemory
  | .copyIn =>
    match call with
    | .readBlock _ => m
    | .writeBlock _ data => { m with data }
  | .header => { m with req := call.req }
  | .clearStatus => { m with status := blkNoStatus }
  | .descriptors => { m with dataWritable := call.isRead }
  | .publish => { m with availIdx := (m.availIdx + 1) % 2 ^ 16 }
  | .notify => m

/-- The device executes the next chain: what it writes to the medium, if
anything, and its memory then. -/
def execute (m : BlkMemory) (fault : Bool) : BlkMemory × Option (Nat × Sector) :=
  let m := { m with seenIdx := (m.seenIdx + 1) % 2 ^ 16 }
  if fault || decide (m.capacity ≤ m.req.sector) then ({ m with status := blkIoErr }, none)
  else
    match m.req.kind, m.dataWritable with
    | .blkIn, true => ({ m with data := m.medium m.req.sector, status := blkOk }, none)
    | .blkOut, false =>
      ({ m with medium := Function.update m.medium m.req.sector m.data, status := blkOk },
        some (m.req.sector, m.data))
    | _, _ => ({ m with status := blkIoErr }, none)

end BlkMemory

/-- A call with all that the medium held, and all that was written to it, since
it began. -/
structure CallRecord where
  call : BlockCall
  moments : List (Nat → Sector)
  writes : List (Nat × Sector)

inductive BlkPhase
  | running (todo : List BlkStmt)
  | polling (left : Nat)
  | copyOut

abbrev BlkResult : Type := Except String (Option Sector)

structure BlkSystem where
  memory : BlkMemory
  active : Option (CallRecord × BlkPhase)
  returned : Option (CallRecord × BlkResult)

inductive BlkEvent
  | start (call : BlockCall)
  | driver
  | device (fault : Bool)

namespace BlkSystem

section
variable (s : BlkSystem) (record : CallRecord)

def finish (result : BlkResult) : BlkSystem :=
  { s with active := none, returned := some (record, result) }

def start (call : BlockCall) : BlkSystem :=
  { s with
    active := some (⟨call, [s.memory.medium], []⟩, .running (prepare call ++ [.publish, .notify])) }

def answered : BlkSystem :=
  match record.call with
  | .readBlock _ =>
    if s.memory.status = blkOk then { s with active := some (record, .copyOut) }
    else s.finish record (.error "blk read err")
  | .writeBlock _ _ =>
    if s.memory.status = blkOk then s.finish record (.ok none)
    else s.finish record (.error "blk write err")

def driverStep : BlkPhase → BlkSystem
  | .running (stmt :: todo) =>
    { s with
      memory := s.memory.exec record.call stmt
      active := some (record, .running todo) }
  | .running [] => { s with active := some (record, .polling pollLimit) }
  | .polling 0 => s.finish record (.error "blk timeout")
  | .polling (left + 1) =>
    if s.memory.status = blkNoStatus then { s with active := some (record, .polling left) }
    else s.answered record
  | .copyOut => s.finish record (.ok (some s.memory.data))

end

def observe (memory : BlkMemory) (write : Option (Nat × Sector)) (record : CallRecord) :
    CallRecord :=
  { record with
    moments := memory.medium :: record.moments
    writes := write.toList ++ record.writes }

variable (s : BlkSystem)

def deviceStep (fault : Bool) : BlkSystem :=
  let done := s.memory.execute fault
  { s with
    memory := done.1
    active := s.active.map fun call => (observe done.1 done.2 call.1, call.2) }

def apply : BlkEvent → BlkSystem
  | .start call => s.start call
  | .driver =>
    match s.active with
    | none => s
    | some (record, phase) => s.driverStep record phase
  | .device fault => s.deviceStep fault

def Pending : Prop :=
  s.memory.availIdx ≠ s.memory.seenIdx

def Possible : BlkEvent → Prop
  | .start _ => s.active = none
  | .driver => s.active.isSome = true
  | .device _ => s.Pending

def Fresh : BlkEvent → Prop
  | .start _ => s.active = none ∧ ¬ s.Pending
  | event => s.Possible event

end BlkSystem

/-- A read that reports success has copied what the sector held at some moment of
the call; a write has had its data, and nothing else, written to its sector. -/
def CallRecord.Sound (record : CallRecord) (result : BlkResult) : Prop :=
  match record.call, result with
  | _, .error _ => True
  | .readBlock blockId, .ok bytes => ∃ medium ∈ record.moments, bytes = some (medium blockId)
  | .writeBlock blockId data, .ok _ =>
    record.writes ≠ [] ∧ ∀ write ∈ record.writes, write = (blockId, data)

/-! ## The stages of a call -/

namespace BlkMemory

def Prepared (m : BlkMemory) (call : BlockCall) : BlkStmt → Prop
  | .copyIn => ∀ blockId data, call = .writeBlock blockId data → m.data = data
  | .header => m.req = call.req
  | .clearStatus => m.status = blkNoStatus
  | .descriptors => m.dataWritable = call.isRead
  | .publish => True
  | .notify => True

def Served (m : BlkMemory) (record : CallRecord) : Prop :=
  match record.call with
  | .readBlock blockId => ∃ medium ∈ record.moments, m.data = medium blockId
  | .writeBlock blockId data => record.writes = [(blockId, data)]

variable {m : BlkMemory} {call : BlockCall} {stmt : BlkStmt}

lemma exec_prepared {other : BlkStmt} (hother : other = stmt ∨ m.Prepared call other) :
    (m.exec call stmt).Prepared call other := by
  rcases hother with rfl | hother
  · cases other with
    | copyIn =>
      rintro blockId data rfl
      rfl
    | header | clearStatus | descriptors => rfl
    | publish | notify => trivial
  · cases stmt with
    | copyIn => cases call <;> cases other <;> first | exact hother | (rintro _ _ ⟨⟩; rfl)
    | header | clearStatus | descriptors | publish | notify =>
      cases other <;> first | exact hother | rfl

lemma exec_device (m : BlkMemory) (call : BlockCall) (stmt : BlkStmt) :
    (m.exec call stmt).medium = m.medium ∧ (m.exec call stmt).seenIdx = m.seenIdx := by
  cases stmt with
  | copyIn => cases call <;> exact ⟨rfl, rfl⟩
  | header | clearStatus | descriptors | publish | notify => exact ⟨rfl, rfl⟩

lemma exec_availIdx (hstmt : stmt ≠ .publish) : (m.exec call stmt).availIdx = m.availIdx := by
  cases stmt with
  | copyIn => cases call <;> rfl
  | publish => exact absurd rfl hstmt
  | header | clearStatus | descriptors | notify => rfl

lemma execute_cases (m : BlkMemory) (fault : Bool) : (m.execute fault).1.availIdx = m.availIdx ∧
    (m.execute fault).1.seenIdx = (m.seenIdx + 1) % 2 ^ 16 ∧
    ((m.execute fault).1.status = blkIoErr ∨
      (m.execute fault).1.status = blkOk ∧ m.req.kind = .blkIn ∧
        (m.execute fault).1.data = (m.execute fault).1.medium m.req.sector ∨
      (m.execute fault).1.status = blkOk ∧ m.req.kind = .blkOut ∧
        (m.execute fault).2 = some (m.req.sector, m.data)) := by
  unfold execute
  dsimp only
  split
  · exact ⟨rfl, rfl, .inl rfl⟩
  · split
    next hkind _ => exact ⟨rfl, rfl, .inr (.inl ⟨rfl, hkind, rfl⟩)⟩
    next hkind _ => exact ⟨rfl, rfl, .inr (.inr ⟨rfl, hkind, rfl⟩)⟩
    · exact ⟨rfl, rfl, .inl rfl⟩

end BlkMemory

def BlkPhase.Published : BlkPhase → Prop
  | .running todo => todo = [.notify] ∨ todo = []
  | .polling _ => True
  | .copyOut => True

/-- Before the chain is published, while it waits, and when it has been executed. -/
inductive CallStage (m : BlkMemory) (record : CallRecord) : BlkPhase → Prop
  | preparing {done todo : List BlkStmt} (hsplit : prepare record.call = done ++ todo)
      (hdone : ∀ stmt ∈ done, m.Prepared record.call stmt)
      (hidle : m.availIdx = m.seenIdx) (hwrites : record.writes = []) :
      CallStage m record (.running (todo ++ [.publish, .notify]))
  | waiting {phase : BlkPhase} (hphase : phase.Published) (hpolls : phase ≠ .copyOut)
      (hprepared : ∀ stmt ∈ prepare record.call, m.Prepared record.call stmt)
      (hpending : m.availIdx = (m.seenIdx + 1) % 2 ^ 16) (hwrites : record.writes = []) :
      CallStage m record phase
  | executed {phase : BlkPhase} (hphase : phase.Published) (hidle : m.availIdx = m.seenIdx)
      (hstatus : m.status ≠ blkNoStatus)
      (hcopy : phase = .copyOut → m.status = blkOk ∧ record.call.isRead = true)
      (hserved : m.status = blkOk → m.Served record) : CallStage m record phase

namespace BlkSystem

structure Inv (s : BlkSystem) : Prop where
  stage : ∀ record phase, s.active = some (record, phase) → CallStage s.memory record phase
  moment : ∀ record phase, s.active = some (record, phase) → s.memory.medium ∈ record.moments
  sound : ∀ record result, s.returned = some (record, result) → record.Sound result

variable {s : BlkSystem} {record : CallRecord} {phase : BlkPhase} {m : BlkMemory}

lemma finish_inv (s : BlkSystem) {result : BlkResult} (hresult : record.Sound result) :
    (s.finish record result).Inv := by
  refine ⟨?_, ?_, ?_⟩
  · intro other last hnone
    cases hnone
  · intro other last hnone
    cases hnone
  · intro other last heq
    cases heq
    exact hresult

lemma Inv.enter (hs : s.Inv) {memory : BlkMemory} (hstage : CallStage memory record phase)
    (hmoment : memory.medium ∈ record.moments) :
    ({ s with memory, active := some (record, phase) } : BlkSystem).Inv := by
  refine ⟨?_, ?_, hs.sound⟩
  · intro other last heq
    cases heq
    exact hstage
  · intro other last heq
    cases heq
    exact hmoment

lemma Inv.start (hs : s.Inv) (call : BlockCall) (hfresh : ¬s.Pending) : (s.start call).Inv :=
  hs.enter (.preparing (nil_append _).symm (fun _ hnil => absurd hnil not_mem_nil)
    (not_not.mp hfresh) rfl) (.head _)

lemma sound_of_served (hserved : m.Served record) :
    record.Sound (.ok (if record.call.isRead then some m.data else none)) := by
  obtain ⟨call, moments, writes⟩ := record
  cases call with
  | readBlock blockId =>
    obtain ⟨medium, hmedium, hdata⟩ := hserved
    exact ⟨medium, hmedium, congrArg some hdata⟩
  | writeBlock blockId data =>
    obtain rfl : writes = [(blockId, data)] := hserved
    exact ⟨cons_ne_nil _ _, fun write hwrite => mem_singleton.mp hwrite⟩

lemma Inv.answered (hs : s.Inv) (hactive : s.active = some (record, phase))
    (hidle : s.memory.availIdx = s.memory.seenIdx) (hstatus : s.memory.status ≠ blkNoStatus)
    (hserved : s.memory.status = blkOk → s.memory.Served record) : (s.answered record).Inv := by
  have hmoment := hs.moment record phase hactive
  unfold BlkSystem.answered
  split
  next blockId hcall =>
    split
    next hok =>
      have hread : record.call.isRead := hcall ▸ rfl
      exact hs.enter (.executed trivial hidle hstatus (fun _ => ⟨hok, hread⟩) hserved) hmoment
    · exact finish_inv s trivial
  next blockId data hcall =>
    split
    next hok =>
      have hsound := sound_of_served (hserved hok)
      rw [hcall] at hsound
      exact finish_inv s hsound
    · exact finish_inv s trivial

lemma Inv.prepareStep (hs : s.Inv) {done todo : List BlkStmt} {stmt : BlkStmt}
    (hactive : s.active = some (record, phase))
    (hsplit : prepare record.call = done ++ stmt :: todo)
    (hdone : ∀ stmt ∈ done, s.memory.Prepared record.call stmt)
    (hidle : s.memory.availIdx = s.memory.seenIdx) (hwrites : record.writes = []) : ({ s with
      memory := s.memory.exec record.call stmt
      active := some (record, .running (todo ++ [.publish, .notify])) } : BlkSystem).Inv := by
  have hstmt : stmt ≠ .publish := by
    rintro rfl
    have hmem : BlkStmt.publish ∈ prepare record.call := by
      rw [hsplit]
      exact mem_append_right done (.head _)
    cases hcall : record.call <;> simp [hcall, prepare] at hmem
  refine hs.enter (@CallStage.preparing _ _ (done ++ [stmt]) todo ?_ ?_ ?_ hwrites) ?_
  · rw [hsplit, append_assoc, singleton_append]
  · intro other hother
    refine BlkMemory.exec_prepared ?_
    rcases mem_append.mp hother with hold | hnew
    · exact .inr (hdone other hold)
    · exact .inl (mem_singleton.mp hnew)
  · rw [BlkMemory.exec_availIdx hstmt, (BlkMemory.exec_device ..).2, hidle]
  · rw [(BlkMemory.exec_device ..).1]
    exact hs.moment record phase hactive

lemma Inv.driverStep (hs : s.Inv) (hactive : s.active = some (record, phase)) :
    (s.driverStep record phase).Inv := by
  have hmoment := hs.moment record phase hactive
  cases hs.stage record phase hactive with
  | @preparing done todo hsplit hdone hidle hwrites =>
    cases todo with
    | nil =>
      have hall : ∀ stmt ∈ prepare record.call,
          (s.memory.exec record.call .publish).Prepared record.call stmt := by
        intro stmt hstmt
        rw [hsplit, append_nil] at hstmt
        exact BlkMemory.exec_prepared (.inr (hdone stmt hstmt))
      refine hs.enter (.waiting (.inl rfl) nofun hall ?_ hwrites) hmoment
      exact congrArg (fun idx => (idx + 1) % 2 ^ 16) hidle
    | cons stmt todo => exact hs.prepareStep hactive hsplit hdone hidle hwrites
  | waiting hphase hpolls hprepared hpending hwrites =>
    have hnone : s.memory.status = blkNoStatus := by
      have hmem : BlkStmt.clearStatus ∈ prepare record.call := by
        cases record.call <;> simp [prepare]
      exact hprepared _ hmem
    have hlater : ∀ {next : BlkPhase}, next.Published → next ≠ .copyOut →
        ({ s with active := some (record, next) } : BlkSystem).Inv := fun hnext hcopy =>
      hs.enter (.waiting hnext hcopy hprepared hpending hwrites) hmoment
    match phase, hphase with
    | .running [.notify], _ => exact hlater (.inr rfl) nofun
    | .running [], _ => exact hlater trivial nofun
    | .polling 0, _ => exact finish_inv s trivial
    | .polling (left + 1), _ =>
      rw [BlkSystem.driverStep, if_pos hnone]
      exact hlater trivial nofun
    | .copyOut, _ => exact absurd rfl hpolls
  | executed hphase hidle hstatus hcopy hserved =>
    have hlater : ∀ {next : BlkPhase}, next.Published → next ≠ .copyOut →
        ({ s with active := some (record, next) } : BlkSystem).Inv := fun hnext hne =>
      hs.enter (.executed hnext hidle hstatus (fun h => absurd h hne) hserved) hmoment
    match phase, hphase with
    | .running [.notify], _ => exact hlater (.inr rfl) nofun
    | .running [], _ => exact hlater trivial nofun
    | .polling 0, _ => exact finish_inv s trivial
    | .polling (left + 1), _ =>
      rw [BlkSystem.driverStep, if_neg hstatus]
      exact hs.answered hactive hidle hstatus hserved
    | .copyOut, _ =>
      obtain ⟨hok, hread⟩ := hcopy rfl
      have hsound := sound_of_served (hserved hok)
      rw [hread] at hsound
      exact finish_inv s hsound

lemma served_of_execute {fault : Bool}
    (hprepared : ∀ stmt ∈ prepare record.call, m.Prepared record.call stmt)
    (hwrites : record.writes = []) (hok : (m.execute fault).1.status = blkOk) :
    (m.execute fault).1.Served (observe (m.execute fault).1 (m.execute fault).2 record) := by
  obtain ⟨-, -, herror | ⟨-, hkind, hdata⟩ | ⟨-, hkind, hwrite⟩⟩ := m.execute_cases fault
  · rw [herror] at hok
    exact absurd hok (by decide)
  · obtain ⟨call, moments, writes⟩ := record
    cases call with
    | readBlock blockId =>
      have hreq : m.req = ⟨.blkIn, blockId⟩ := hprepared .header (by simp [prepare])
      rw [hreq] at hdata
      exact ⟨_, .head _, hdata⟩
    | writeBlock blockId data =>
      have hreq : m.req = ⟨.blkOut, blockId⟩ := hprepared .header (by simp [prepare])
      rw [hreq] at hkind
      cases hkind
  · obtain ⟨call, moments, writes⟩ := record
    obtain rfl : writes = [] := hwrites
    cases call with
    | readBlock blockId =>
      have hreq : m.req = ⟨.blkIn, blockId⟩ := hprepared .header (by simp [prepare])
      rw [hreq] at hkind
      cases hkind
    | writeBlock blockId data =>
      have hreq : m.req = ⟨.blkOut, blockId⟩ := hprepared .header (by simp [prepare])
      have hdata : m.data = data := hprepared .copyIn (by simp [prepare]) blockId data rfl
      rw [hreq, hdata] at hwrite
      rw [hwrite]
      rfl

lemma Inv.deviceStep (hs : s.Inv) (hpending : s.Pending) (fault : Bool) :
    (s.deviceStep fault).Inv := by
  obtain ⟨havail, hseen, hanswer⟩ := s.memory.execute_cases fault
  have hmemory : (s.deviceStep fault).memory = (s.memory.execute fault).1 := rfl
  refine ⟨?_, ?_, hs.sound⟩
  · intro record phase hactive
    rw [hmemory]
    obtain ⟨⟨old, current⟩, hold, heq⟩ := map_eq_some_iff.mp hactive
    cases heq
    cases hs.stage old current hold with
    | preparing hsplit hdone hidle hwrites => exact absurd hidle hpending
    | waiting hphase hpolls hprepared hcount hwrites =>
      refine .executed hphase ?_ ?_ (fun h => absurd h hpolls) (served_of_execute hprepared hwrites)
      · rw [havail, hseen, hcount]
      · rcases hanswer with hstatus | ⟨hstatus, -⟩ | ⟨hstatus, -⟩ <;> rw [hstatus] <;> decide
    | executed hphase hidle hstatus hcopy hserved => exact absurd hidle hpending
  · intro record phase hactive
    obtain ⟨⟨old, current⟩, hold, heq⟩ := map_eq_some_iff.mp hactive
    cases heq
    exact .head _

lemma Inv.apply (hs : s.Inv) {event : BlkEvent} (hfresh : s.Fresh event) : (s.apply event).Inv := by
  cases event with
  | start call => exact hs.start call hfresh.2
  | driver =>
    rw [BlkSystem.apply]
    split
    · exact hs
    next record phase hactive => exact hs.driverStep hactive
  | device fault => exact hs.deviceStep hfresh fault

def boot (memory : BlkMemory) : BlkSystem :=
  ⟨memory, none, none⟩

lemma boot_inv (memory : BlkMemory) : (boot memory).Inv := by
  refine ⟨?_, ?_, ?_⟩
  · intro record phase hnone
    cases hnone
  · intro record phase hnone
    cases hnone
  · intro record result hnone
    cases hnone

/-- If calls start only when no chain is waiting, a call that reports success has
done what it was asked to do, whenever the device executes the chains. -/
theorem run_callsSound {memory : BlkMemory} {events : List BlkEvent}
    (hrun : Transition.Run (Transition.Guarded Fresh apply) (boot memory) events s)
    {result : BlkResult} (hreturned : s.returned = some (record, result)) :
    record.Sound result := by
  have hinv : s.Inv := by
    refine hrun.invariant (fun _ _ _ hs hstep => ?_) (boot_inv memory)
    obtain ⟨hfresh, rfl⟩ := hstep
    exact hs.apply hfresh
  exact hinv.sound record result hreturned

def zeros : Sector :=
  Vector.replicate sectorSize 0

def ones : Sector :=
  Vector.replicate sectorSize 1

lemma zeros_ne_ones : zeros ≠ ones := by
  intro heq
  have hbyte := congrArg (fun sector : Sector => sector.get ⟨0, Nat.pos_of_neZero sectorSize⟩) heq
  simp [zeros, ones, Vector.get] at hbyte

def unused : BlkSystem :=
  boot ⟨⟨.blkIn, 0⟩, zeros, blkNoStatus, false, 0, 0, fun _ => zeros, 4⟩

/-- The device executes the chain of a write before the driver notifies it. -/
def promptWrite : List BlkEvent :=
  [.start (.writeBlock 1 ones), .driver, .driver, .driver, .driver, .driver, .device false,
    .driver, .driver, .driver]

theorem run_callsSound_promptWrite :
    ∃ record, (promptWrite.foldl apply unused).returned = some (record, .ok none) ∧
      record.call = .writeBlock 1 ones ∧ record.Sound (.ok none) := by
  have hrun : Run (Guarded Fresh apply) unused promptWrite
      (promptWrite.foldl apply unused) :=
    Run.of_allowed ⟨⟨rfl, fun hpending => hpending rfl⟩, rfl, rfl, rfl, rfl, rfl,
      by change 1 % 2 ^ 16 ≠ 0; decide, rfl, rfl, rfl, trivial⟩
  exact ⟨_, rfl, rfl, run_callsSound hrun rfl⟩

lemma run_timeout {left : Nat} (hstatus : s.memory.status = blkNoStatus)
    (hactive : s.active = some (record, .polling left)) :
    Run (Guarded Possible apply) s (replicate (left + 1) .driver)
      (s.finish record (.error "blk timeout")) := by
  have hpossible : s.Possible .driver := isSome_iff_exists.mpr ⟨_, hactive⟩
  induction left generalizing s with
  | zero =>
    refine .cons ⟨hpossible, ?_⟩ (.nil _)
    rw [BlkSystem.apply, hactive]
    rfl
  | succ left ih =>
    have hnext : ({ s with active := some (record, .polling left) } : BlkSystem) =
        s.apply .driver := by
      rw [BlkSystem.apply, hactive]
      exact (if_pos hstatus).symm
    exact .cons ⟨hpossible, hnext⟩ (ih hstatus rfl rfl)

def readUnanswered : List BlkEvent :=
  [.start (.readBlock 0), .driver, .driver, .driver, .driver, .driver, .driver]

/-- A write during which the device executes the chain of the read, after the
data has been copied, and then that of the write. -/
def lateRead : List BlkEvent :=
  [.start (.writeBlock 1 ones), .driver, .device false, .driver, .driver, .driver, .driver,
    .device false, .driver, .driver, .driver]

/-- After a read has timed out, a write reports success and has written what the
read has read. -/
theorem late_read_replaces_data : ∃ events s record,
    Transition.Run (Transition.Guarded Possible apply) unused events s ∧
      s.returned = some (record, .ok none) ∧ record.call = .writeBlock 1 ones ∧
      record.writes = [(1, zeros)] ∧ ¬ record.Sound (.ok none) := by
  have hread : Run (Guarded Possible apply) unused readUnanswered
      (readUnanswered.foldl apply unused) :=
    Run.of_allowed ⟨rfl, rfl, rfl, rfl, rfl, rfl, rfl, trivial⟩
  obtain ⟨record, hactive⟩ : ∃ record, (readUnanswered.foldl apply unused).active =
      some (record, .polling pollLimit) := ⟨_, rfl⟩
  have hgiveUp := run_timeout (s := readUnanswered.foldl apply unused) rfl hactive
  have hlate : Run (Guarded Possible apply)
      ((readUnanswered.foldl apply unused).finish record (.error "blk timeout")) lateRead
      (lateRead.foldl apply
        ((readUnanswered.foldl apply unused).finish record (.error "blk timeout"))) :=
    Run.of_allowed ⟨rfl, rfl, by change 1 % 2 ^ 16 ≠ 0; decide, rfl, rfl, rfl, rfl,
      by change 2 % 2 ^ 16 ≠ 1; decide, rfl, rfl, rfl, trivial⟩
  refine ⟨_, _, _, (hread.append hgiveUp).append hlate, rfl, rfl, rfl, fun hsound => ?_⟩
  have hwrite := hsound.2 (1, zeros) (.head _)
  exact zeros_ne_ones (Prod.mk.inj hwrite).2

end BlkSystem

end KarteOs.Driver

import KarteOs.Foundation.Blocks
import KarteOs.Foundation.FifoCache
import KarteOs.Foundation.Run
import KarteOs.Mm.Addr

/-! # The block adapter of ext4 and its sector cache

On x86_64 the ext4 library reads and writes byte ranges. The adapter turns them
into sector transfers: a part of a sector is read, changed and written back, and
every sector written also enters a cache that later reads consult first. The
adapter behaves as a flat array of bytes.
-/

namespace KarteOs.Driver

open Mm Blocks Transition Nat

def sectorSize : Nat := 512

instance : NeZero sectorSize := ⟨Nat.succ_ne_zero 511⟩

abbrev Sector : Type := Vector UInt8 sectorSize

inductive BlockError
  | ioError
  | noDevice
deriving DecidableEq

inductive BlockCall
  | readBlock (blockId : Nat)
  | writeBlock (blockId : Nat) (data : Sector)

def cacheCapacity : Nat := 2048

def ext4BlockSize : Nat := 4096

abbrev SectorCache : Type := FifoCache Nat Sector

structure Disk where
  sectors : Nat → Sector
  readFails : Nat → Bool
  writeFails : Nat → Bool

namespace Disk

def blockRead (disk : Disk) (sector : Nat) : Option Sector :=
  if disk.readFails sector then none else some (disk.sectors sector)

def blockWrite (disk : Disk) (sector : Nat) (data : Sector) : Option Disk :=
  if disk.writeFails sector then none
  else some { disk with sectors := Function.update disk.sectors sector data }

end Disk

structure KarteBlockDevice where
  cache : SectorCache
  maxDiskOffset : Nat
  disk : Disk

namespace KarteBlockDevice

def boot (disk : Disk) : KarteBlockDevice :=
  { cache := .new, maxDiskOffset := 0, disk }

def isOffsetValid (s : KarteBlockDevice) (offset : Nat) : Bool :=
  s.maxDiskOffset == 0 || decide (offset < s.maxDiskOffset)

def lastOffset (offset len : Nat) : Nat :=
  wrappingAdd (wrappingAdd offset len) (usizeRange - 1)

variable (s : KarteBlockDevice)

def fetch (sector : Nat) : Option Sector :=
  match s.cache.get sector with
  | some cached => some cached
  | none => s.disk.blockRead sector

def readLoop (s : KarteBlockDevice) (baseSector skip bufPos sectorIdx : Nat)
    (buf : Vector UInt8 ext4BlockSize) : Vector UInt8 ext4BlockSize :=
  if bufPos < ext4BlockSize then
    let srcStart := if sectorIdx = 0 then skip else 0
    let copyLen := min (sectorSize - srcStart) (ext4BlockSize - bufPos)
    match s.fetch (baseSector + sectorIdx) with
    | none => buf
    | some sector =>
      s.readLoop baseSector skip (bufPos + copyLen) (sectorIdx + 1)
        (splice buf bufPos (slice sector srcStart copyLen))
  else buf
termination_by ext4BlockSize - bufPos + (1 - sectorIdx)
decreasing_by
  simp only [sectorSize]
  split <;> omega

def readOffset (offset : Nat) : Vector UInt8 ext4BlockSize :=
  let zeros := Vector.replicate ext4BlockSize 0
  if !s.isOffsetValid (lastOffset offset ext4BlockSize) then zeros
  else s.readLoop (offset / sectorSize) (offset % sectorSize) 0 0 zeros

/-- The sector that a write of `count` bytes at `sectorOffset` changes: it need
not be read if all of it is written. -/
def sectorToChange (sector sectorOffset count : Nat) : Option Sector :=
  if sectorOffset ≠ 0 ∨ count ≠ sectorSize then s.fetch sector
  else some (Vector.replicate sectorSize 0)

/-- One turn of the loop of `write_offset`, for the bytes of one sector. -/
def writeSector (offset : Nat) (piece : List UInt8) : Option KarteBlockDevice :=
  let sectorIdx := offset / sectorSize
  let sectorOffset := offset % sectorSize
  match s.sectorToChange sectorIdx sectorOffset piece.length with
  | none => none
  | some old =>
    let sector := splice old sectorOffset piece
    match s.disk.blockWrite sectorIdx sector with
    | none => none
    | some disk =>
      some { s with disk, cache := s.cache.insert cacheCapacity sectorIdx sector }

/-- The loop of `write_offset` on the bytes that are left; it ends early if the
disk fails. -/
def writeLoop (s : KarteBlockDevice) (offset : Nat) (data : List UInt8) : KarteBlockDevice :=
  if data = [] then s
  else
    let bytesInSector := min (sectorSize - offset % sectorSize) data.length
    match s.writeSector offset (data.take bytesInSector) with
    | none => s
    | some next =>
      next.writeLoop (wrappingAdd offset bytesInSector) (data.drop bytesInSector)
termination_by data.length
decreasing_by
  rename_i hdata
  have hpos := List.length_pos_iff.mpr hdata
  have hmod : offset % sectorSize < sectorSize := Nat.mod_lt _ (Nat.pos_of_neZero sectorSize)
  rw [List.length_drop]
  omega

def writeOffset (offset : Nat) (data : List UInt8) : KarteBlockDevice :=
  if !s.isOffsetValid (lastOffset offset data.length) then s
  else s.writeLoop offset data

/-! ## The flat array behind the adapter -/

structure Holds (s : KarteBlockDevice) (flat : Nat → UInt8) : Prop where
  cache : s.cache.Sound cacheCapacity s.disk.sectors
  contents : flatten s.disk.sectors = flat
  limit : s.maxDiskOffset < usizeRange

def InLimit (s : KarteBlockDevice) (offset len : Nat) : Prop :=
  offset + len ≤ if s.maxDiskOffset = 0 then usizeRange else s.maxDiskOffset

def Serves (disk : Disk) (offset len : Nat) : Prop :=
  ∀ sector, offset / sectorSize ≤ sector → sector * sectorSize < offset + len →
    disk.readFails sector = false ∧ disk.writeFails sector = false

variable {s next : KarteBlockDevice} {flat : Nat → UInt8} {offset len sector bufPos : Nat}
  {piece data : List UInt8} {disk : Disk}

lemma Holds.fetch (hs : s.Holds flat) (hserves : s.disk.readFails sector = false) :
    s.fetch sector = some (s.disk.sectors sector) := by
  rw [KarteBlockDevice.fetch]
  split
  next cached hcached => rw [hs.cache.values _ _ hcached]
  · simp [Disk.blockRead, hserves]

structure SameDevice (s next : KarteBlockDevice) : Prop where
  maxDiskOffset : next.maxDiskOffset = s.maxDiskOffset
  readFails : next.disk.readFails = s.disk.readFails
  writeFails : next.disk.writeFails = s.disk.writeFails

lemma SameDevice.trans {middle : KarteBlockDevice} (hfirst : s.SameDevice middle)
    (hsecond : middle.SameDevice next) : s.SameDevice next :=
  ⟨hsecond.maxDiskOffset.trans hfirst.maxDiskOffset, hsecond.readFails.trans hfirst.readFails,
    hsecond.writeFails.trans hfirst.writeFails⟩

lemma writeSector_sameDevice (hnext : s.writeSector offset piece = some next) :
    s.SameDevice next := by
  unfold writeSector Disk.blockWrite at hnext
  dsimp only at hnext
  split at hnext
  · cases hnext
  · split at hnext
    · cases hnext
    next hdisk =>
      split at hdisk
      · cases hdisk
      · cases hdisk
        cases hnext
        exact ⟨rfl, rfl, rfl⟩

lemma writeLoop_sameDevice (s : KarteBlockDevice) (offset : Nat) (data : List UInt8) :
    s.SameDevice (s.writeLoop offset data) := by
  fun_induction writeLoop s offset data with
  | case1 s | case2 s => exact ⟨rfl, rfl, rfl⟩
  | case3 s offset data hdata bytesInSector next hnext ih =>
    exact (writeSector_sameDevice hnext).trans ih

lemma writeOffset_sameDevice (s : KarteBlockDevice) (offset : Nat) (data : List UInt8) :
    s.SameDevice (s.writeOffset offset data) := by
  unfold writeOffset
  split
  · exact ⟨rfl, rfl, rfl⟩
  · exact s.writeLoop_sameDevice offset data

lemma Holds.writeSector (hs : s.Holds flat)
    (hfits : offset % sectorSize + piece.length ≤ sectorSize)
    (hread : s.disk.readFails (offset / sectorSize) = false)
    (hwrite : s.disk.writeFails (offset / sectorSize) = false) :
    ∃ next, s.writeSector offset piece = some next ∧ next.Holds (patch flat offset piece) := by
  have hchange : ∃ old, s.sectorToChange (offset / sectorSize) (offset % sectorSize)
      piece.length = some old ∧ splice old (offset % sectorSize) piece =
        splice (s.disk.sectors (offset / sectorSize)) (offset % sectorSize) piece := by
    unfold sectorToChange
    split
    · exact ⟨_, hs.fetch hread, rfl⟩
    next hfull =>
      obtain ⟨hzero, hcount⟩ := not_or.mp hfull
      rw [not_not.mp hzero]
      exact ⟨_, rfl, splice_full _ _ (not_not.mp hcount)⟩
  obtain ⟨old, hold, hsector⟩ := hchange
  simp only [KarteBlockDevice.writeSector, hold, Disk.blockWrite, hwrite, hsector]
  refine ⟨_, rfl, hs.cache.insert .., ?_, hs.limit⟩
  dsimp only
  rw [flatten_update _ _ hfits, hs.contents, div_add_mod']

lemma Serves.mono {start count : Nat} (hserves : Serves disk offset len) (hstart : offset ≤ start)
    (hend : start + count ≤ offset + len) : Serves disk start count := by
  intro sector hfirst hlast
  exact hserves sector ((Nat.div_le_div_right hstart).trans hfirst) (by omega)

lemma SameDevice.serves (hsame : s.SameDevice next) (hserves : Serves s.disk offset len) :
    Serves next.disk offset len := by
  intro sector hfirst hlast
  rw [hsame.readFails, hsame.writeFails]
  exact hserves sector hfirst hlast

lemma Serves.head (hserves : Serves disk offset len) (hlen : 0 < len) :
    disk.readFails (offset / sectorSize) = false ∧
      disk.writeFails (offset / sectorSize) = false := by
  refine hserves _ le_rfl ?_
  have hle := div_mul_le_self offset sectorSize
  omega

lemma Holds.writeLoop (hs : s.Holds flat) (hend : offset + data.length ≤ usizeRange)
    (hserves : Serves s.disk offset data.length) :
    (s.writeLoop offset data).Holds (patch flat offset data) := by
  -- By induction on the number of bytes that are left.
  induction hcount : data.length using Nat.strong_induction_on
    generalizing s flat offset data with
  | h count ih =>
    rw [KarteBlockDevice.writeLoop]
    split
    next hnil =>
      rw [hnil, patch_nil]
      exact hs
    next hdata =>
      have hpos : 0 < data.length := List.length_pos_iff.mpr hdata
      have hmod : offset % sectorSize < sectorSize := Nat.mod_lt _ (Nat.pos_of_neZero sectorSize)
      generalize hbytes : min (sectorSize - offset % sectorSize) data.length = bytesInSector
      have htake : (data.take bytesInSector).length = bytesInSector := by
        rw [List.length_take]
        omega
      have hdrop : (data.drop bytesInSector).length = data.length - bytesInSector :=
        List.length_drop
      obtain ⟨hread, hwrite⟩ := hserves.head hpos
      have hfits : offset % sectorSize + (data.take bytesInSector).length ≤ sectorSize := by omega
      obtain ⟨next, hnext, hholds⟩ := hs.writeSector hfits hread hwrite
      have hsame := writeSector_sameDevice hnext
      have hsplit : patch flat offset data = patch (patch flat offset (data.take bytesInSector))
          (offset + bytesInSector) (data.drop bytesInSector) := by
        conv_lhs => rw [← List.take_append_drop bytesInSector data]
        rw [patch_append, htake]
      simp only [hnext]
      rw [hsplit]
      by_cases hrest : data.drop bytesInSector = []
      · rw [hrest, patch_nil, KarteBlockDevice.writeLoop, if_pos rfl]
        exact hholds
      · have hleft : 0 < (data.drop bytesInSector).length := List.length_pos_iff.mpr hrest
        have hoffset : wrappingAdd offset bytesInSector = offset + bytesInSector :=
          Nat.mod_eq_of_lt (by omega)
        rw [hoffset]
        exact ih _ (by omega) hholds (by omega)
          (hsame.serves (hserves.mono (by omega) (by omega))) rfl

lemma get_splice_sector {sectors : Nat → Sector} {k srcStart copyLen : Nat}
    {buf : Vector UInt8 ext4BlockSize} (hcopy : srcStart + copyLen ≤ sectorSize)
    (hplace : k * sectorSize + srcStart = offset + bufPos)
    (hfilled : ∀ i : Fin ext4BlockSize, i < bufPos → buf.get i = flatten sectors (offset + i))
    (i : Fin ext4BlockSize) (hi : i < bufPos + copyLen) :
    (splice buf bufPos (slice (sectors k) srcStart copyLen)).get i =
      flatten sectors (offset + i) := by
  rw [get_splice, patch]
  split
  next hnew =>
    have hinside : srcStart + (i - bufPos) < sectorSize := by omega
    have hbyte : offset + i = k * sectorSize + (srcStart + (i - bufPos)) := by omega
    rw [getElem?_slice (by omega) hinside, Option.getD_some, hbyte, flatten_apply]
  next hold => exact hfilled i (Nat.lt_of_not_le hold)

lemma Holds.readLoop (hs : s.Holds flat) (hserves : Serves s.disk offset ext4BlockSize)
    {sectorIdx : Nat} {buf : Vector UInt8 ext4BlockSize}
    (hplace : bufPos < ext4BlockSize → (offset / sectorSize + sectorIdx) * sectorSize +
      (if sectorIdx = 0 then offset % sectorSize else 0) = offset + bufPos)
    (hfilled : ∀ i : Fin ext4BlockSize, i < bufPos → buf.get i = flat (offset + i))
    (i : Fin ext4BlockSize) :
    (s.readLoop (offset / sectorSize) (offset % sectorSize) bufPos sectorIdx buf).get i =
      flat (offset + i) := by
  have hmod : offset % sectorSize < sectorSize := mod_lt _ (pos_of_neZero sectorSize)
  have hfetched : ∀ {bufPos sectorIdx : Nat}, bufPos < ext4BlockSize →
      (offset / sectorSize + sectorIdx) * sectorSize +
        (if sectorIdx = 0 then offset % sectorSize else 0) = offset + bufPos →
      s.fetch (offset / sectorSize + sectorIdx) =
        some (s.disk.sectors (offset / sectorSize + sectorIdx)) := by
    intro bufPos sectorIdx hpos hplace
    exact hs.fetch (hserves _ (Nat.le_add_right ..) (by omega)).1
  fun_induction KarteBlockDevice.readLoop s (offset / sectorSize) (offset % sectorSize) bufPos
    sectorIdx buf with
  | case1 bufPos sectorIdx buf hpos hfetch =>
    rw [hfetched hpos (hplace hpos)] at hfetch
    cases hfetch
  | case2 bufPos sectorIdx buf hpos srcStart copyLen sector hfetch ih =>
    have hsector := hfetched hpos (hplace hpos)
    cases hfetch.symm.trans hsector
    have hstart : srcStart ≤ sectorSize := by
      change (if sectorIdx = 0 then offset % sectorSize else 0) ≤ sectorSize
      split <;> omega
    have hplaced : (offset / sectorSize + sectorIdx) * sectorSize + srcStart =
        offset + bufPos := hplace hpos
    refine ih (fun hmore => ?_) fun j hj => ?_
    · -- The buffer is not full, so the rest of the sector was copied.
      have hcopied : copyLen = sectorSize - srcStart := by
        change min _ _ = _
        have hlen : bufPos + min (sectorSize - srcStart) (ext4BlockSize - bufPos) <
          ext4BlockSize := hmore
        omega
      rw [if_neg (succ_ne_zero sectorIdx), ← Nat.add_assoc, succ_mul, hcopied]
      omega
    · rw [← hs.contents] at hfilled ⊢
      have hcopy : srcStart + copyLen ≤ sectorSize := by
        have hmin : copyLen ≤ sectorSize - srcStart := Nat.min_le_left _ _
        omega
      exact get_splice_sector hcopy hplaced hfilled j hj
  | case3 bufPos sectorIdx buf hpos => exact hfilled i (by omega)

lemma lastOffset_eq (hlen : 0 < len) (hend : offset + len ≤ usizeRange) :
    lastOffset offset len = offset + len - 1 := by
  simp only [lastOffset, wrappingAdd, usizeRange] at hend ⊢
  omega

section
variable (hs : s.Holds flat)
include hs

lemma Holds.end_le (hinside : s.InLimit offset len) : offset + len ≤ usizeRange := by
  have hlimit := hs.limit
  unfold InLimit at hinside
  split at hinside
  · exact hinside
  · omega

lemma Holds.isOffsetValid (hlen : 0 < len) (hinside : s.InLimit offset len) :
    s.isOffsetValid (lastOffset offset len) := by
  rw [lastOffset_eq hlen (hs.end_le hinside)]
  unfold InLimit at hinside
  split at hinside
  next hzero => simp [KarteBlockDevice.isOffsetValid, hzero]
  · have hlast : offset + len - 1 < s.maxDiskOffset := by omega
    simp [KarteBlockDevice.isOffsetValid, hlast]

lemma Holds.readOffset (hinside : s.InLimit offset ext4BlockSize)
    (hserves : Serves s.disk offset ext4BlockSize) (i : Fin ext4BlockSize) :
    (s.readOffset offset).get i = flat (offset + i) := by
  have hvalid := hs.isOffsetValid (by decide) hinside
  simp only [KarteBlockDevice.readOffset, hvalid, Bool.not_true, Bool.false_eq_true, if_false]
  refine hs.readLoop hserves (fun _ => ?_) (fun _ hneg => absurd hneg (Nat.not_lt_zero _)) i
  rw [if_pos rfl, Nat.add_zero, Nat.add_zero, div_add_mod']

lemma Holds.writeOffset (hdata : data ≠ []) (hinside : s.InLimit offset data.length)
    (hserves : Serves s.disk offset data.length) :
    (s.writeOffset offset data).Holds (patch flat offset data) := by
  have hvalid := hs.isOffsetValid (List.length_pos_iff.mpr hdata) hinside
  simp only [KarteBlockDevice.writeOffset, hvalid, Bool.not_true, Bool.false_eq_true, if_false]
  exact hs.writeLoop (hs.end_le hinside) hserves

end

/-! ## Sequences of calls -/

/-- A call of the ext4 library, or the limit that mounting sets. -/
inductive AdapterCall
  | setMaxDiskOffset (maxOffset : Nat)
  | readOffset (offset : Nat)
  | writeOffset (offset : Nat) (data : List UInt8)

def apply (s : KarteBlockDevice) : AdapterCall → KarteBlockDevice
  | .setMaxDiskOffset maxOffset => { s with maxDiskOffset := maxOffset }
  | .readOffset _ => s
  | .writeOffset offset data => s.writeOffset offset data

def applyFlat (flat : Nat → UInt8) : AdapterCall → Nat → UInt8
  | .writeOffset offset data => patch flat offset data
  | _ => flat

def Legal (s : KarteBlockDevice) : AdapterCall → Prop
  | .setMaxDiskOffset maxOffset => maxOffset < usizeRange
  | .readOffset offset => s.InLimit offset ext4BlockSize ∧ Serves s.disk offset ext4BlockSize
  | .writeOffset offset data =>
    data ≠ [] ∧ s.InLimit offset data.length ∧ Serves s.disk offset data.length

/-- What the adapter shows of an array of bytes, and the state of its cache. -/
structure Refines (s : KarteBlockDevice) (flat : Nat → UInt8) : Prop where
  reads : ∀ offset, s.InLimit offset ext4BlockSize → Serves s.disk offset ext4BlockSize →
    ∀ i : Fin ext4BlockSize, (s.readOffset offset).get i = flat (offset + i)
  cached : ∀ sector data, s.cache.get sector = some data → data = s.disk.sectors sector
  queued : ∀ sector, sector ∈ s.cache.order ↔ (s.cache.get sector).isSome = true
  once : s.cache.order.Nodup
  bounded : s.cache.order.length ≤ cacheCapacity

lemma Holds.apply (hs : s.Holds flat) {call : AdapterCall} (hlegal : s.Legal call) :
    (s.apply call).Holds (applyFlat flat call) := by
  cases call with
  | setMaxDiskOffset maxOffset => exact ⟨hs.cache, hs.contents, hlegal⟩
  | readOffset offset => exact hs
  | writeOffset offset data =>
    obtain ⟨hdata, hinside, hserves⟩ := hlegal
    exact hs.writeOffset hdata hinside hserves

/-- After every sequence of calls the adapter reads as the array of bytes that
the calls leave, with a cache that agrees with the medium. -/
theorem run_refines_bytes {disk : Disk} {calls : List AdapterCall}
    (hrun : Transition.Run (Transition.Guarded Legal apply) (boot disk) calls s) :
    s.Refines (calls.foldl applyFlat (flatten disk.sectors)) := by
  have hholds : s.Holds (calls.foldl applyFlat (flatten disk.sectors)) := by
    refine hrun.refines (fun _ _ _ _ hs hstep => ?_)
      ⟨FifoCache.new_sound _ _, rfl, Nat.two_pow_pos 64⟩
    obtain ⟨hlegal, rfl⟩ := hstep
    exact hs.apply hlegal
  exact ⟨fun _ hinside hserves => hholds.readOffset hinside hserves, hholds.cache.values,
    hholds.cache.listed, hholds.cache.nodup, hholds.cache.bounded⟩

def zeroDisk : Disk :=
  ⟨fun _ => Vector.replicate sectorSize 0, fun _ => false, fun _ => false⟩

def boundaryWrite : List AdapterCall :=
  [.setMaxDiskOffset 8192, .writeOffset 510 [1, 2, 3, 4]]

theorem run_refines_bytes_boundaryWrite :
    ((boundaryWrite.foldl apply (boot zeroDisk)).readOffset 511).get ⟨2, by decide⟩ = 4 := by
  have hinside : ((boot zeroDisk).apply (.setMaxDiskOffset 8192)).InLimit 510 4 := by
    change 510 + 4 ≤ 8192
    decide
  have hrun : Run (Guarded Legal apply) (boot zeroDisk) boundaryWrite
      (boundaryWrite.foldl apply (boot zeroDisk)) :=
    Run.of_allowed ⟨show 8192 < 2 ^ 64 by decide,
      ⟨List.cons_ne_nil _ _, hinside, fun _ _ _ => ⟨rfl, rfl⟩⟩, trivial⟩
  have hsame := writeOffset_sameDevice ((boot zeroDisk).apply (.setMaxDiskOffset 8192)) 510
    [1, 2, 3, 4]
  have hlimit : (boundaryWrite.foldl apply (boot zeroDisk)).InLimit 511 ext4BlockSize := by
    have hmax : (boundaryWrite.foldl apply (boot zeroDisk)).maxDiskOffset = 8192 :=
      hsame.maxDiskOffset
    rw [InLimit, hmax]
    decide
  have hserves : Serves (boundaryWrite.foldl apply (boot zeroDisk)).disk 511 ext4BlockSize :=
    hsame.serves fun _ _ _ => ⟨rfl, rfl⟩
  have hbyte : boundaryWrite.foldl applyFlat (flatten zeroDisk.sectors) (511 + 2) = 4 := by
    simp [boundaryWrite, applyFlat, patch]
  rw [← hbyte]
  exact (run_refines_bytes hrun).reads 511 hlimit hserves ⟨2, by decide⟩

end KarteBlockDevice

end KarteOs.Driver

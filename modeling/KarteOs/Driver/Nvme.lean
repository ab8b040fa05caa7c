import KarteOs.Driver.SectorCache

/-! # The NVMe block device

The driver copies a sector through a buffer of two pages and tells the controller
to transfer it. It takes the block size from the byte that selects the format of
the namespace, addresses a logical block and not a sector of it, and writes a
count of one into a field that counts from zero: the controller transfers two
logical blocks. The second one is what the buffer held before, or, where it does
not fit the first page, what is at physical address 0, since the second page is
not named in the command.
-/

namespace KarteOs.Driver

open Blocks Transition List

/-- The namespace that the controller reports, and the driver's buffer. -/
structure NvmeController where
  /-- The logical block size is a power of two with this exponent. -/
  lbads : Nat
  /-- The byte of the namespace data that selects the block format. -/
  flbas : Nat
  /-- The number of logical blocks. -/
  nsze : Nat
  prpBuf : Nat
  sector_le : 9 ≤ lbads
  le_page : lbads ≤ 12
  prpBuf_pos : 4096 ≤ prpBuf

structure NvmeState where
  memory : Nat → UInt8
  medium : Nat → UInt8

/-- The fields of a command that the driver sets or leaves zero and the controller
reads. -/
structure NvmeCmd where
  cdw0 : Nat
  dptr1 : Nat
  dptr2 : Nat
  cdw10 : Nat
  cdw11 : Nat
  cdw12 : Nat

def opcWrite : Nat := 0x01

def opcRead : Nat := 0x02

namespace NvmeController

variable (c : NvmeController)

def blockSize : Nat :=
  if 9 ≤ c.flbas ∧ c.flbas ≤ 16 then 2 ^ c.flbas else 512

/-- A transfer of at most two pages: the second page is at `dptr2`. The status
is 0 for success, `0x80` for blocks out of range, 1 for an unknown command. -/
def execute (s : NvmeState) (cmd : NvmeCmd) : NvmeState × Nat :=
  let slba := 2 ^ 32 * cmd.cdw11 + cmd.cdw10
  let count := cmd.cdw12 % 2 ^ 16 + 1
  let start := slba * 2 ^ c.lbads
  let len := count * 2 ^ c.lbads
  if c.nsze < slba + count then (s, 0x80)
  else if cmd.cdw0 = opcRead then
    let memory := patch s.memory cmd.dptr1 (window s.medium start (min len 4096))
    let memory := patch memory cmd.dptr2 (window s.medium (start + 4096) (len - 4096))
    ({ s with memory }, 0)
  else if cmd.cdw0 = opcWrite then
    let data := window s.memory cmd.dptr1 (min len 4096) ++ window s.memory cmd.dptr2 (len - 4096)
    ({ s with medium := patch s.medium start data }, 0)
  else (s, 1)

/-- The command of `do_read` and `do_write`; the second page is left zero. -/
def ioCommand (opcode lba count : Nat) : NvmeCmd :=
  { cdw0 := opcode, dptr1 := c.prpBuf, dptr2 := 0, cdw10 := lba % 2 ^ 32
    cdw11 := lba / 2 ^ 32 % 2 ^ 32, cdw12 := count }

def doRead (s : NvmeState) (lba count bufLen : Nat) : NvmeState × Except BlockError (List UInt8) :=
  let done := c.execute s (c.ioCommand opcRead lba count)
  if done.2 ≠ 0 then (done.1, .error .ioError)
  else (done.1, .ok (window done.1.memory c.prpBuf (min (count * c.blockSize) bufLen)))

def fillBuffer (memory : Nat → UInt8) (count : Nat) (data : List UInt8) : Nat → UInt8 :=
  let byteCount := count * c.blockSize
  let memory := patch memory c.prpBuf (data.take byteCount)
  if data.length < byteCount then
    patch memory (c.prpBuf + data.length) (List.replicate (byteCount - data.length) 0)
  else memory

def doWrite (s : NvmeState) (lba count : Nat) (data : List UInt8) :
    NvmeState × Except BlockError Unit :=
  let s := { s with memory := c.fillBuffer s.memory count data }
  let done := c.execute s (c.ioCommand opcWrite lba count)
  if done.2 ≠ 0 then (done.1, .error .ioError) else (done.1, .ok ())

def lba (blockId : Nat) : Nat :=
  if c.blockSize = 512 then blockId else blockId * 512 % 2 ^ 64 / c.blockSize

end NvmeController

namespace NvmeBlockDevice

variable (controller : Option NvmeController)

def readBlock (s : NvmeState) (blockId : Nat) : NvmeState × Except BlockError (List UInt8) :=
  match controller with
  | none => (s, .error .noDevice)
  | some c => c.doRead s (c.lba blockId) 1 sectorSize

def writeBlock (s : NvmeState) (blockId : Nat)
    (data : Sector) : NvmeState × Except BlockError Unit :=
  match controller with
  | none => (s, .error .noDevice)
  | some c => c.doWrite s (c.lba blockId) 1 data.toList

end NvmeBlockDevice

/-! ## What the controller transfers -/

namespace NvmeController

variable {c : NvmeController} {s next : NvmeState} {b i j : Nat}

lemma sector_le_blockSize (c : NvmeController) : 512 ≤ c.blockSize := by
  unfold blockSize
  split
  next h =>
    calc
      512 = 2 ^ 9 := rfl
      _ ≤ 2 ^ c.flbas := Nat.pow_le_pow_right Nat.two_pos h.1
  · exact Nat.le_refl 512

lemma sector_le_logical (c : NvmeController) : 512 ≤ 2 ^ c.lbads :=
  calc
    512 = 2 ^ 9 := rfl
    _ ≤ 2 ^ c.lbads := Nat.pow_le_pow_right Nat.two_pos c.sector_le

lemma logical_le_page (c : NvmeController) : 2 ^ c.lbads ≤ 4096 :=
  calc
    2 ^ c.lbads ≤ 2 ^ 12 := Nat.pow_le_pow_right Nat.two_pos c.le_page
    _ = 4096 := rfl

lemma lba_lt (hb : b < 2 ^ 64) : c.lba b < 2 ^ 64 := by
  unfold lba
  split
  · exact hb
  · exact Nat.lt_of_le_of_lt (Nat.div_le_self ..) (Nat.mod_lt _ (Nat.two_pow_pos 64))

lemma decode_lba {n : Nat} (hn : n < 2 ^ 64) : 2 ^ 32 * (n / 2 ^ 32 % 2 ^ 32) + n % 2 ^ 32 = n := by
  have hhigh : n / 2 ^ 32 < 2 ^ 32 := Nat.div_lt_of_lt_mul (by omega)
  rw [Nat.mod_eq_of_lt hhigh]
  omega

section
variable (c : NvmeController)

def start (b : Nat) : Nat :=
  c.lba b * 2 ^ c.lbads

def transferLen : Nat :=
  2 * 2 ^ c.lbads

variable (memory : Nat → UInt8)

/-- What follows the sector in the pages of a write: zeros up to the block size of
the driver, then what was in memory. -/
def leftover (j : Nat) : UInt8 :=
  if j < 4096 then if j < c.blockSize then 0 else memory (c.prpBuf + j) else memory (j - 4096)

def pages : List UInt8 :=
  window memory c.prpBuf (min c.transferLen 4096) ++ window memory 0 (c.transferLen - 4096)

def transferred (data : List UInt8) : List UInt8 :=
  c.pages (c.fillBuffer memory 1 data)

def afterRead (s : NvmeState) (b : Nat) : Nat → UInt8 :=
  patch (patch s.memory c.prpBuf (window s.medium (c.start b) (min c.transferLen 4096))) 0
    (window s.medium (c.start b + 4096) (c.transferLen - 4096))

lemma length_transferred (memory : Nat → UInt8) (data : List UInt8) :
    (c.transferred memory data).length = c.transferLen := by
  rw [transferred, pages, length_append, length_window, length_window]
  omega

end

variable {memory flat : Nat → UInt8}

lemma fillBuffer_below {data : List UInt8} {address : Nat} (haddress : address < c.prpBuf) :
    c.fillBuffer memory 1 data address = memory address := by
  unfold fillBuffer
  split
  · rw [patch_of_outside (.inl (by omega)), patch_of_outside (.inl haddress)]
  · exact patch_of_outside (.inl haddress)

variable {data : Sector}

lemma fillBuffer_sector (hi : i < sectorSize) :
    c.fillBuffer memory 1 data.toList (c.prpBuf + i) = data.get ⟨i, hi⟩ := by
  have hsize := c.sector_le_blockSize
  have hlen : data.toList.length = 512 := Vector.length_toList
  have hi' : i < 512 := hi
  have hbyte : patch memory c.prpBuf (data.toList.take (1 * c.blockSize)) (c.prpBuf + i) =
      data.get ⟨i, hi⟩ := by
    rw [take_of_length_le (by omega)]
    refine patch_of_getElem? (Nat.le_add_right ..) ?_
    rw [Nat.add_sub_cancel_left, getElem?_eq_getElem (by omega)]
    simp [Vector.get]
  unfold fillBuffer
  split
  · rw [patch_of_outside (.inl (by omega)), hbyte]
  · exact hbyte

lemma fillBuffer_leftover (hsector : 512 ≤ j) (hpage : j < 4096) :
    c.fillBuffer memory 1 data.toList (c.prpBuf + j) = c.leftover memory j := by
  have hsize := c.sector_le_blockSize
  have hlen : data.toList.length = 512 := Vector.length_toList
  have hkept : patch memory c.prpBuf (data.toList.take (1 * c.blockSize)) (c.prpBuf + j) =
      memory (c.prpBuf + j) := by
    rw [take_of_length_le (by omega)]
    exact patch_of_outside (.inr (by omega))
  rw [leftover, if_pos hpage, fillBuffer]
  split
  next hpad =>
    split
    next hzero =>
      refine patch_of_getElem? (by omega) ?_
      rw [getElem?_replicate, if_pos (by omega)]
    next hbeyond => rw [patch_of_outside (.inr (by rw [length_replicate]; omega)), hkept]
  next hfull => rw [if_neg (by omega), hkept]

lemma getElem?_transferred (memory : Nat → UInt8) (data : Sector) (hj : j < c.transferLen) :
    (c.transferred memory data.toList)[j]? =
      some (if h : j < sectorSize then data.get ⟨j, h⟩ else c.leftover memory j) := by
  have hbuf := c.prpBuf_pos
  have hpage := c.logical_le_page
  have hlen : c.transferLen = 2 * 2 ^ c.lbads := rfl
  unfold transferred pages
  by_cases hfirst : j < 4096
  · rw [getElem?_append_left (by rw [length_window]; omega), getElem?_window _ _ (by omega)]
    split
    next hsector => rw [fillBuffer_sector hsector]
    next hsector =>
      have hbyte : 512 ≤ j := not_lt.mp hsector
      rw [fillBuffer_leftover hbyte hfirst]
  · have hsecond : (window (c.fillBuffer memory 1 data.toList) c.prpBuf
        (min c.transferLen 4096)).length = 4096 := by
      rw [length_window]
      omega
    have hsector : ¬j < sectorSize := by
      simp only [sectorSize]
      omega
    rw [getElem?_append_right (by omega), hsecond, getElem?_window _ _ (by omega),
      dif_neg hsector, leftover, if_neg hfirst, Nat.zero_add, fillBuffer_below (by omega)]

lemma execute_of_fits (hfits : c.lba b + 2 ≤ c.nsze) (hb : b < 2 ^ 64) (opcode : Nat) :
    c.execute s (c.ioCommand opcode (c.lba b) 1) =
      if opcode = opcRead then ({ s with memory := c.afterRead s b }, 0)
      else if opcode = opcWrite then
        ({ s with medium := patch s.medium (c.start b) (c.pages s.memory) }, 0)
      else (s, 1) := by
  have hcount : 1 % 2 ^ 16 + 1 = 2 := by omega
  have hroom : ¬c.nsze < c.lba b + 2 := by omega
  simp only [execute, ioCommand, decode_lba (lba_lt hb), hcount, if_neg hroom, afterRead, pages,
    start, transferLen]

lemma execute_of_not_fits (hfits : ¬c.lba b + 2 ≤ c.nsze) (hb : b < 2 ^ 64) (opcode : Nat) :
    c.execute s (c.ioCommand opcode (c.lba b) 1) = (s, 0x80) := by
  have hcount : 1 % 2 ^ 16 + 1 = 2 := by omega
  have hroom : c.nsze < c.lba b + 2 := by omega
  simp only [execute, ioCommand, decode_lba (lba_lt hb), hcount, if_pos hroom]

lemma doRead_of_fits (hfits : c.lba b + 2 ≤ c.nsze) (hb : b < 2 ^ 64) (bufLen : Nat) :
    c.doRead s (c.lba b) 1 bufLen = ({ s with memory := c.afterRead s b },
      .ok (window (c.afterRead s b) c.prpBuf (min (1 * c.blockSize) bufLen))) := by
  have hdone : c.execute s (c.ioCommand opcRead (c.lba b) 1) =
      ({ s with memory := c.afterRead s b }, 0) := by
    rw [execute_of_fits hfits hb, if_pos rfl]
  simp [doRead, hdone]

lemma window_afterRead (c : NvmeController) (s : NvmeState) (b : Nat) :
    window (c.afterRead s b) c.prpBuf sectorSize = window s.medium (c.start b) sectorSize := by
  have hbuf := c.prpBuf_pos
  have hpage := c.logical_le_page
  have hlogical := c.sector_le_logical
  have hlen : c.transferLen = 2 * 2 ^ c.lbads := rfl
  refine window_eq_iff.mpr fun i hi => ?_
  have hi' : i < 512 := hi
  have hsecond : 0 + (window s.medium (c.start b + 4096) (c.transferLen - 4096)).length ≤
      c.prpBuf + i := by
    rw [length_window]
    omega
  rw [afterRead, patch_of_outside (.inr hsecond)]
  refine patch_of_getElem? (Nat.le_add_right ..) ?_
  rw [Nat.add_sub_cancel_left, getElem?_window _ _ (by omega)]

lemma min_blockSize (c : NvmeController) : min (1 * c.blockSize) sectorSize = sectorSize := by
  have hsize : sectorSize ≤ c.blockSize := c.sector_le_blockSize
  omega

lemma readBlock_of_fits (hfits : c.lba b + 2 ≤ c.nsze) (hb : b < 2 ^ 64) :
    NvmeBlockDevice.readBlock (some c) s b =
      ({ s with memory := c.afterRead s b }, .ok (window s.medium (c.start b) sectorSize)) := by
  rw [NvmeBlockDevice.readBlock, doRead_of_fits hfits hb, min_blockSize, window_afterRead]

lemma writeBlock_of_fits (hfits : c.lba b + 2 ≤ c.nsze) (hb : b < 2 ^ 64) (data : Sector) :
    NvmeBlockDevice.writeBlock (some c) s b data = (⟨c.fillBuffer s.memory 1 data.toList,
        patch s.medium (c.start b) (c.transferred s.memory data.toList)⟩, .ok ()) := by
  have hopcode : opcWrite ≠ opcRead := by decide
  have hdone : c.execute { s with memory := c.fillBuffer s.memory 1 data.toList }
      (c.ioCommand opcWrite (c.lba b) 1) = (⟨c.fillBuffer s.memory 1 data.toList,
          patch s.medium (c.start b) (c.transferred s.memory data.toList)⟩, 0) := by
    rw [execute_of_fits hfits hb, if_neg hopcode, if_pos rfl, transferred]
  simp [NvmeBlockDevice.writeBlock, doWrite, hdone]

lemma readBlock_error (hfits : ¬c.lba b + 2 ≤ c.nsze) (hb : b < 2 ^ 64) :
    (NvmeBlockDevice.readBlock (some c) s b).2 = .error .ioError := by
  simp [NvmeBlockDevice.readBlock, doRead, execute_of_not_fits hfits hb]

lemma writeBlock_error (hfits : ¬c.lba b + 2 ≤ c.nsze) (hb : b < 2 ^ 64) (data : Sector) :
    (NvmeBlockDevice.writeBlock (some c) s b data).2 = .error .ioError := by
  simp [NvmeBlockDevice.writeBlock, doWrite, execute_of_not_fits hfits hb]

/-! ## Calls and sectors -/

section
variable (c : NvmeController)

def InRange (b : Nat) : Prop :=
  b < 2 ^ 64 ∧ (b + 1) * sectorSize ≤ c.nsze * 2 ^ c.lbads

def Succeeds (s : NvmeState) : BlockCall → Prop
  | .readBlock b => c.InRange b ∧
      ∃ next bytes, NvmeBlockDevice.readBlock (some c) s b = (next, .ok bytes)
  | .writeBlock b data => c.InRange b ∧
      ∃ next, NvmeBlockDevice.writeBlock (some c) s b data = (next, .ok ())

def SectorSound (s : NvmeState) : BlockCall → Prop
  | .readBlock b => ∃ memory, NvmeBlockDevice.readBlock (some c) s b =
      (⟨memory, s.medium⟩, .ok (window s.medium (b * sectorSize) sectorSize))
  | .writeBlock b data => ∃ memory, NvmeBlockDevice.writeBlock (some c) s b data =
      (⟨memory, patch s.medium (b * sectorSize) data.toList⟩, .ok ())

def apply (s : NvmeState) : BlockCall → NvmeState
  | .readBlock b => (NvmeBlockDevice.readBlock (some c) s b).1
  | .writeBlock b data => (NvmeBlockDevice.writeBlock (some c) s b data).1

end

/-- All that a write transfers beside the sector is there already. -/
structure WriteHarmless (c : NvmeController) (s : NvmeState) (b : Nat) (data : Sector) : Prop where
  head : c.start b = b * sectorSize ∨
    ∀ i (h : i < sectorSize), s.medium (c.start b + i) = data.get ⟨i, h⟩
  rest : ∀ j, sectorSize ≤ j → j < c.transferLen →
    c.leftover s.memory j = patch s.medium (b * sectorSize) data.toList (c.start b + j)
  missed : ∀ i (h : i < sectorSize),
    b * sectorSize + i < c.start b ∨ c.start b + c.transferLen ≤ b * sectorSize + i →
      s.medium (b * sectorSize + i) = data.get ⟨i, h⟩

/-- What is on the medium makes up for the blocks that the driver mistakes. -/
def Harmless (c : NvmeController) (s : NvmeState) : BlockCall → Prop
  | .readBlock b =>
    ∀ i < sectorSize, s.medium (c.start b + i) = s.medium (b * sectorSize + i)
  | .writeBlock b data => c.WriteHarmless s b data

lemma fits_of_read {bytes : List UInt8} (hb : b < 2 ^ 64)
    (hread : NvmeBlockDevice.readBlock (some c) s b = (next, .ok bytes)) :
    c.lba b + 2 ≤ c.nsze := by
  by_contra hfits
  have herror := readBlock_error (s := s) hfits hb
  rw [hread] at herror
  cases herror

lemma fits_of_write (hb : b < 2 ^ 64)
    (hwrite : NvmeBlockDevice.writeBlock (some c) s b data = (next, .ok ())) :
    c.lba b + 2 ≤ c.nsze := by
  by_contra hfits
  have herror := writeBlock_error (s := s) hfits hb data
  rw [hwrite] at herror
  cases herror

lemma dvd_start (c : NvmeController) (b : Nat) : sectorSize ∣ c.start b := by
  have hpow : 2 ^ 9 ∣ 2 ^ c.lbads := Nat.pow_dvd_pow 2 c.sector_le
  exact Nat.dvd_trans hpow (Nat.dvd_mul_left ..)

lemma patch_sector {place : Nat} (hi : i < sectorSize) :
    patch flat place data.toList (place + i) = data.get ⟨i, hi⟩ := by
  have hlen : data.toList.length = sectorSize := Vector.length_toList
  refine patch_of_getElem? (Nat.le_add_right ..) ?_
  rw [Nat.add_sub_cancel_left, getElem?_eq_getElem (by omega)]
  simp [Vector.get]

lemma patch_sector_of_ne (hne : c.start b ≠ b * sectorSize) (hi : i < sectorSize) :
    patch flat (b * sectorSize) data.toList (c.start b + i) = flat (c.start b + i) := by
  have hlen : data.toList.length = sectorSize := Vector.length_toList
  obtain ⟨m, hm⟩ := c.dvd_start b
  refine patch_of_outside ?_
  rw [hlen, hm]
  rcases Nat.lt_or_gt_of_ne (fun h => hne (by rw [hm, h, Nat.mul_comm]) : m ≠ b) with hlt | hgt
  · have hle : sectorSize * (m + 1) ≤ sectorSize * b := Nat.mul_le_mul_left _ hlt
    rw [Nat.mul_succ, Nat.mul_comm _ b] at hle
    omega
  · have hle : sectorSize * (b + 1) ≤ sectorSize * m := Nat.mul_le_mul_left _ hgt
    rw [Nat.mul_succ, Nat.mul_comm _ b] at hle
    omega

lemma patch_transferred (hj : j < c.transferLen) :
    patch flat (c.start b) (c.transferred memory data.toList) (c.start b + j) =
      if h : j < sectorSize then data.get ⟨j, h⟩ else c.leftover memory j := by
  refine patch_of_getElem? (Nat.le_add_right ..) ?_
  rw [Nat.add_sub_cancel_left, getElem?_transferred memory data hj]

lemma length_sector_le (c : NvmeController) : sectorSize ≤ c.transferLen := by
  have hlogical : sectorSize ≤ 2 ^ c.lbads := c.sector_le_logical
  have hlen : c.transferLen = 2 * 2 ^ c.lbads := rfl
  omega

lemma writeHarmless_iff : patch s.medium (c.start b) (c.transferred s.memory data.toList) =
    patch s.medium (b * sectorSize) data.toList ↔ c.WriteHarmless s b data := by
  have hsector := c.length_sector_le
  have hlen := c.length_transferred s.memory data.toList
  have hdata : data.toList.length = sectorSize := Vector.length_toList
  constructor
  · intro heq
    refine ⟨?_, fun j hj hlast => ?_, fun i hi houtside => ?_⟩
    · by_cases hplace : c.start b = b * sectorSize
      · exact .inl hplace
      · refine .inr fun i hi => ?_
        have hbyte := congrFun heq (c.start b + i)
        rw [patch_transferred (by omega), dif_pos hi, patch_sector_of_ne hplace hi] at hbyte
        exact hbyte.symm
    · rw [← congrFun heq, patch_transferred hlast, dif_neg (Nat.not_lt_of_le hj)]
    · have hbyte := congrFun heq (b * sectorSize + i)
      rw [patch_sector hi, patch_of_outside (hlen ▸ houtside)] at hbyte
      exact hbyte
  · intro hharmless
    funext p
    by_cases hinside : c.start b ≤ p ∧ p < c.start b + c.transferLen
    · obtain ⟨j, rfl⟩ := Nat.exists_eq_add_of_le hinside.1
      have hj : j < c.transferLen := by omega
      rw [patch_transferred hj]
      split
      next hfirst =>
        by_cases hplace : c.start b = b * sectorSize
        · rw [hplace, patch_sector hfirst]
        · rw [patch_sector_of_ne hplace hfirst]
          exact ((hharmless.head.resolve_left hplace) j hfirst).symm
      next hrest => exact hharmless.rest j (not_lt.mp hrest) hj
    · have houtside : p < c.start b ∨ c.start b + c.transferLen ≤ p := by omega
      rw [patch_of_outside (hlen.symm ▸ houtside)]
      by_cases htarget : b * sectorSize ≤ p ∧ p < b * sectorSize + sectorSize
      · obtain ⟨i, rfl⟩ := Nat.exists_eq_add_of_le htarget.1
        have hi : i < sectorSize := by omega
        rw [patch_sector hi]
        exact hharmless.missed i hi houtside
      · rw [patch_of_outside (by omega)]

lemma readBlock_sound_iff (hb : b < 2 ^ 64) (hfits : c.lba b + 2 ≤ c.nsze) :
    c.SectorSound s (.readBlock b) ↔ c.Harmless s (.readBlock b) := by
  have hharmless : c.Harmless s (.readBlock b) ↔
      window s.medium (c.start b) sectorSize = window s.medium (b * sectorSize) sectorSize :=
    window_eq_iff.symm
  rw [hharmless, SectorSound, readBlock_of_fits hfits hb]
  simp

lemma writeBlock_sound_iff (hb : b < 2 ^ 64) (hfits : c.lba b + 2 ≤ c.nsze) (data : Sector) :
    c.SectorSound s (.writeBlock b data) ↔ c.Harmless s (.writeBlock b data) := by
  rw [SectorSound, writeBlock_of_fits hfits hb, Harmless, ← writeHarmless_iff]
  simp

lemma sectorSound_iff {call : BlockCall} (hcall : c.Succeeds s call) :
    c.SectorSound s call ↔ c.Harmless s call := by
  cases call with
  | readBlock b =>
    obtain ⟨⟨hb, -⟩, next, bytes, hread⟩ := hcall
    exact readBlock_sound_iff hb (fits_of_read hb hread)
  | writeBlock b data =>
    obtain ⟨⟨hb, -⟩, next, hwrite⟩ := hcall
    exact writeBlock_sound_iff hb (fits_of_write hb hwrite) data

/-- A sequence of successful calls treats the medium as an array of sectors
exactly if each call is harmless where its turn comes. -/
theorem calls_sectorSound_iff {calls : List BlockCall}
    (hcalls : Transition.Allowed c.Succeeds c.apply s calls) :
    Transition.Allowed c.SectorSound c.apply s calls ↔
      Transition.Allowed c.Harmless c.apply s calls :=
  Allowed.iff (fun _ _ hcall => sectorSound_iff hcall) hcalls

def fourBlocks : NvmeController :=
  ⟨9, 0, 4, 4096, Nat.le_refl 9, by decide, Nat.le_refl 4096⟩

def filled (memory medium : UInt8) : NvmeState :=
  ⟨fun _ => memory, fun _ => medium⟩

def ones : Sector :=
  Vector.replicate sectorSize 1

lemma fourBlocks_succeeds (s : NvmeState) : fourBlocks.Succeeds s (.writeBlock 0 ones) := by
  exact ⟨⟨by decide, by decide⟩, _, writeBlock_of_fits (by decide) (by decide) ones⟩

lemma fourBlocks_leftover {memory : UInt8} (hj : sectorSize ≤ j)
    (hlast : j < fourBlocks.transferLen) : fourBlocks.leftover (fun _ => memory) j = memory := by
  have hsize : fourBlocks.blockSize = sectorSize := rfl
  have hlen : fourBlocks.transferLen = 1024 := rfl
  rw [leftover, hsize, if_pos (by omega), if_neg (Nat.not_lt_of_le hj)]

/-- A write whose neighbour equals what is left in the buffer. -/
theorem calls_sectorSound_iff_sameNeighbour :
    Transition.Allowed fourBlocks.SectorSound fourBlocks.apply (filled 7 7)
      [.writeBlock 0 ones] := by
  have hcalls : Allowed fourBlocks.Succeeds fourBlocks.apply (filled 7 7)
      [.writeBlock 0 ones] := ⟨fourBlocks_succeeds _, trivial⟩
  refine (calls_sectorSound_iff hcalls).mpr ⟨?_, trivial⟩
  have hplace : fourBlocks.start 0 = 0 * sectorSize := rfl
  have hdata : ones.toList.length = sectorSize := Vector.length_toList
  refine ⟨.inl hplace, fun j hj hlast => ?_, fun i hi houtside => ?_⟩
  · rw [patch_of_outside (by omega)]
    exact fourBlocks_leftover hj hlast
  · have hsector := fourBlocks.length_sector_le
    omega

/-- A write of sector 0 changes sector 1. -/
theorem write_changes_neighbour : fourBlocks.Succeeds (filled 0 7) (.writeBlock 0 ones) ∧
    (∃ next, NvmeBlockDevice.writeBlock (some fourBlocks) (filled 0 7) 0 ones = (next, .ok ()) ∧
      (filled 0 7).medium sectorSize = 7 ∧ next.medium sectorSize = 0) ∧
    ¬ fourBlocks.SectorSound (filled 0 7) (.writeBlock 0 ones) := by
  have hlast : sectorSize < fourBlocks.transferLen := by decide
  have hplace : sectorSize = fourBlocks.start 0 + sectorSize := by decide
  have hdata : ones.toList.length = sectorSize := Vector.length_toList
  obtain ⟨medium, hmedium, hbyte⟩ : ∃ medium, patch (filled 0 7).medium (fourBlocks.start 0)
      (fourBlocks.transferred (filled 0 7).memory ones.toList) = medium ∧
        medium sectorSize = 0 := by
    refine ⟨_, rfl, ?_⟩
    rw [congrArg (patch _ _ _) hplace, patch_transferred hlast, dif_neg (Nat.lt_irrefl sectorSize)]
    exact fourBlocks_leftover (Nat.le_refl sectorSize) hlast
  obtain ⟨memory, hwrite⟩ : ∃ memory, NvmeBlockDevice.writeBlock (some fourBlocks) (filled 0 7) 0
      ones = (⟨memory, medium⟩, .ok ()) :=
    ⟨_, hmedium ▸ writeBlock_of_fits (by decide) (by decide) ones⟩
  refine ⟨fourBlocks_succeeds _, ⟨_, hwrite, rfl, hbyte⟩, ?_⟩
  rintro ⟨memory', hsound⟩
  have hsame : medium = patch (filled 0 7).medium (0 * sectorSize) ones.toList :=
    congrArg (fun result => result.1.medium) (hwrite.symm.trans hsound)
  have hkept : medium sectorSize = 7 := by
    rw [hsame, patch_of_outside (by omega)]
    rfl
  exact absurd (hbyte.symm.trans hkept) (by decide)

end NvmeController

end KarteOs.Driver

import Mathlib.Data.UInt

/-! # Update slots

`ota.rs` reads the header of the two update slots and picks the one to boot: a
slot with a wrong magic number or checksum is out, of two good slots the newer
version is taken, and of equal versions the one that is not on trial.
-/

namespace KarteOs.Ota

open List Option

def kotaMagic : UInt32 := 0x41544F4B

def kotaHeaderLen : Nat := 32

def kotaFlagTrial : UInt32 := 1

inductive KotaErr where
  | badMagic
  | badCrc
deriving DecidableEq

/-! ## Checksums and words -/

def crcRound (crc : UInt32) : UInt32 := (crc >>> 1) ^^^ (0xEDB88320 &&& (0 - (crc &&& 1)))

def crcByte (crc : UInt32) (b : UInt8) : UInt32 :=
  (List.range 8).foldl (fun crc _ => crcRound crc) (crc ^^^ b.toUInt32)

def crc32 (data : List UInt8) : UInt32 := ~~~ data.foldl crcByte 0xFFFFFFFF

/-- `u32::from_le_bytes` of the four bytes from `off` on, which the callers know to be there. -/
def rd32 (image : List UInt8) (off : Nat) : UInt32 :=
  let byte (i : Nat) : Nat := (image.getD (off + i) 0).toNat
  .ofNat (byte 0 + 2 ^ 8 * byte 1 + 2 ^ 16 * byte 2 + 2 ^ 24 * byte 3)

def le32 (w : UInt32) : List UInt8 :=
  [.ofNat w.toNat, .ofNat (w.toNat / 2 ^ 8), .ofNat (w.toNat / 2 ^ 16), .ofNat (w.toNat / 2 ^ 24)]

lemma length_le32 (w : UInt32) : (le32 w).length = 4 := rfl

lemma rd32_le32 {image : List UInt8} {off : Nat} (front : List UInt8) (w : UInt32)
    (rest : List UInt8) (himage : image = front ++ (le32 w ++ rest)) (hoff : off = front.length) :
    rd32 image off = w := by
  subst himage hoff
  have hbyte : ∀ i < 4, (front ++ (le32 w ++ rest)).getD (front.length + i) 0 =
      (le32 w).getD i 0 := by
    intro i hi
    simp only [getD_eq_getElem?_getD]
    rw [getElem?_append_right (Nat.le_add_right ..), Nat.add_sub_cancel_left,
      getElem?_append_left (by rw [length_le32]; exact hi)]
  have hw := w.toNat_lt
  simp only [rd32, hbyte 0 (by decide), hbyte 1 (by decide), hbyte 2 (by decide),
    hbyte 3 (by decide)]
  apply UInt32.toNat_inj.mp
  simp [le32, UInt32.toNat_ofNat]
  -- the four bytes are the digits of the word to the base 256
  omega

/-- `probe[12..16]` set to zero; the slice is out of range for fewer than 16 bytes. -/
def clearCrc (probe : List UInt8) : Option (List UInt8) :=
  if probe.length < 16 then none else some (probe.take 12 ++ [0, 0, 0, 0] ++ probe.drop 16)

/-- `parse_slot`: the version, the checksum and the flags. `none` is a panic. -/
def parseSlot (image : List UInt8) : Option (Except KotaErr (UInt32 × UInt32 × UInt32)) :=
  if image.length < kotaHeaderLen then some (.error .badMagic)
  else if rd32 image 0 ≠ kotaMagic then some (.error .badMagic)
  else
    let version := rd32 image 4
    let imageLen := rd32 image 8
    let crc := rd32 image 12
    let flags := rd32 image 28
    let len := min imageLen.toNat image.length
    (clearCrc (image.take len)).map fun probe =>
      if crc32 probe ≠ crc then .error .badCrc else .ok (version, crc, flags)

def selectSlot (a b : List UInt8) : Option Nat :=
  (parseSlot a).bind fun pa =>
    (parseSlot b).map fun pb =>
      match pa, pb with
      | .ok (va, _, fa), .ok (vb, _, fb) =>
        if va ≠ vb then (decide (va < vb)).toNat
        else (decide (fa &&& kotaFlagTrial ≠ 0) && decide (fb &&& kotaFlagTrial = 0)).toNat
      | .ok _, .error _ => 0
      | .error _, .ok _ => 1
      | .error _, .error _ => 0

/-! ## Valid slots -/

def withoutCrc (bytes : List UInt8) : List UInt8 := bytes.take 12 ++ [0, 0, 0, 0] ++ bytes.drop 16

def HasHeader (image : List UInt8) : Prop :=
  kotaHeaderLen ≤ image.length ∧ rd32 image 0 = kotaMagic
deriving Decidable

def declaredLen (image : List UInt8) : Nat := (rd32 image 8).toNat

/-- The checksum of the declared image, as far as there is one, is the stored one. -/
def ChecksumOk (image : List UInt8) : Prop :=
  crc32 (withoutCrc (image.take (declaredLen image))) = rd32 image 12
deriving Decidable

structure Valid (image : List UInt8) : Prop where
  header : HasHeader image
  declared : kotaHeaderLen ≤ declaredLen image ∧ declaredLen image ≤ image.length
  checksum : ChecksumOk image

variable {probe : List UInt8}

lemma withoutCrc_append {front : List UInt8} (hfront : front.length = 12) (w : UInt32)
    (rest : List UInt8) : withoutCrc (front ++ le32 w ++ rest) = front ++ le32 0 ++ rest := by
  have hlength : (front ++ le32 w).length = 16 := by rw [length_append, hfront, length_le32]
  rw [withoutCrc, drop_left' hlength, append_assoc front, take_left' hfront]
  rfl

variable {image a b payload : List UInt8} {fields : UInt32 × UInt32 × UInt32}

lemma parseSlot_of_no_header (hheader : ¬HasHeader image) :
    parseSlot image = some (.error .badMagic) := by
  rw [parseSlot]
  split
  · rfl
  next hlen => rw [if_pos fun hmagic => hheader ⟨Nat.le_of_not_lt hlen, hmagic⟩]

section
variable (hheader : HasHeader image)
include hheader

lemma parseSlot_of_header :
    parseSlot image = (clearCrc (image.take (declaredLen image))).map fun probe =>
      if crc32 probe ≠ rd32 image 12 then .error .badCrc
      else .ok (rd32 image 4, rd32 image 12, rd32 image 28) := by
  rw [parseSlot, if_neg hheader.1.not_gt, if_neg (not_not.mpr hheader.2)]
  simp only [← take_eq_take_min]
  rfl

lemma parseSlot_of_short (hshort : declaredLen image < 16) : parseSlot image = none := by
  rw [parseSlot_of_header hheader, clearCrc, if_pos, map_none]
  exact (length_take_le ..).trans_lt hshort

lemma parseSlot_of_le (hlen : 16 ≤ declaredLen image) :
    parseSlot image = some (if ChecksumOk image then
      .ok (rd32 image 4, rd32 image 12, rd32 image 28) else .error .badCrc) := by
  have hprobe : 16 ≤ (image.take (declaredLen image)).length := by
    have hlength := hheader.1
    rw [length_take]
    simp only [kotaHeaderLen] at hlength
    omega
  rw [parseSlot_of_header hheader, clearCrc, if_neg hprobe.not_gt, map_some]
  simp only [ChecksumOk, ne_eq, ite_not]
  rfl

end

lemma parseSlot_ok_iff :
    parseSlot image = some (.ok fields) ↔ HasHeader image ∧ 16 ≤ declaredLen image ∧
      ChecksumOk image ∧ fields = (rd32 image 4, rd32 image 12, rd32 image 28) := by
  by_cases hheader : HasHeader image
  · rcases Nat.lt_or_ge (declaredLen image) 16 with hshort | hlen
    · rw [parseSlot_of_short hheader hshort]
      simp [hshort]
    · rw [parseSlot_of_le hheader hlen]
      by_cases hcrc : ChecksumOk image <;> simp [hheader, hlen, hcrc, eq_comm]
  · rw [parseSlot_of_no_header hheader]
    simp [hheader]

lemma parseSlot_isSome_iff :
    (parseSlot image).isSome ↔ (HasHeader image → 16 ≤ declaredLen image) := by
  by_cases hheader : HasHeader image
  · rcases Nat.lt_or_ge (declaredLen image) 16 with hshort | hlen
    · rw [parseSlot_of_short hheader hshort]
      simp [hheader, hshort]
    · rw [parseSlot_of_le hheader hlen]
      simp [hlen]
  · rw [parseSlot_of_no_header hheader]
    simp [hheader]

/-! ## Selection never prefers a corrupt image -/

/-- `select_slot` and `parse_slot` return, `parse_slot` accepts valid slots only, and the
only valid slot is selected. -/
structure SelectsValid (a b : List UInt8) : Prop where
  parsesFirst : (parseSlot a).isSome
  parsesSecond : (parseSlot b).isSome
  returns : (selectSlot a b).isSome
  acceptsFirst : ∀ fields, parseSlot a = some (.ok fields) → Valid a
  acceptsSecond : ∀ fields, parseSlot b = some (.ok fields) → Valid b
  first : Valid a → ¬ Valid b → selectSlot a b = some 0
  second : ¬ Valid a → Valid b → selectSlot a b = some 1

/-- The header declares enough bytes for the checksum field, and a length that can be right
where the checksum is. -/
def Declares (image : List UInt8) : Prop :=
  HasHeader image → 16 ≤ declaredLen image ∧
    (ChecksumOk image → kotaHeaderLen ≤ declaredLen image ∧ declaredLen image ≤ image.length)

lemma Declares.accepts (hdeclares : Declares image)
    (hparse : parseSlot image = some (.ok fields)) : Valid image := by
  obtain ⟨hheader, -, hcrc, -⟩ := parseSlot_ok_iff.mp hparse
  exact ⟨hheader, (hdeclares hheader).2 hcrc, hcrc⟩

lemma declares_of_accepts (hreturns : (parseSlot image).isSome)
    (haccepts : ∀ fields, parseSlot image = some (.ok fields) → Valid image) : Declares image := by
  intro hheader
  have hlen := parseSlot_isSome_iff.mp hreturns hheader
  exact ⟨hlen, fun hcrc => (haccepts _ (parseSlot_ok_iff.mpr ⟨hheader, hlen, hcrc, rfl⟩)).declared⟩

lemma Valid.parse (hvalid : Valid image) : ∃ fields, parseSlot image = some (.ok fields) :=
  ⟨_, parseSlot_ok_iff.mpr ⟨hvalid.header, le_trans (by decide) hvalid.declared.1,
    hvalid.checksum, rfl⟩⟩

lemma Declares.rejects (hdeclares : Declares image) (hvalid : ¬Valid image) :
    ∃ err, parseSlot image = some (.error err) := by
  have hreturns : (parseSlot image).isSome :=
    parseSlot_isSome_iff.mpr fun hheader => (hdeclares hheader).1
  obtain ⟨outcome, houtcome⟩ := isSome_iff_exists.mp hreturns
  cases outcome with
  | ok fields => exact absurd (hdeclares.accepts houtcome) hvalid
  | error err => exact ⟨err, houtcome⟩

lemma selectSlot_isSome (ha : (parseSlot a).isSome) (hb : (parseSlot b).isSome) :
    (selectSlot a b).isSome := by
  obtain ⟨pa, hpa⟩ := isSome_iff_exists.mp ha
  obtain ⟨pb, hpb⟩ := isSome_iff_exists.mp hb
  rw [selectSlot, hpa, hpb]
  rfl

/-- Selection is safe exactly for slots whose headers declare possible lengths. -/
theorem selectsValid_iff (a b : List UInt8) : SelectsValid a b ↔ Declares a ∧ Declares b := by
  constructor
  · intro h
    exact ⟨declares_of_accepts h.parsesFirst h.acceptsFirst,
      declares_of_accepts h.parsesSecond h.acceptsSecond⟩
  · rintro ⟨ha, hb⟩
    have hpa := parseSlot_isSome_iff.mpr fun hheader => (ha hheader).1
    have hpb := parseSlot_isSome_iff.mpr fun hheader => (hb hheader).1
    refine ⟨hpa, hpb, selectSlot_isSome hpa hpb, fun _ => ha.accepts, fun _ => hb.accepts, ?_, ?_⟩
    · intro hvalid hcorrupt
      obtain ⟨fields, hfields⟩ := hvalid.parse
      obtain ⟨err, herr⟩ := hb.rejects hcorrupt
      rw [selectSlot, hfields, herr]
      rfl
    · intro hcorrupt hvalid
      obtain ⟨fields, hfields⟩ := hvalid.parse
      obtain ⟨err, herr⟩ := ha.rejects hcorrupt
      rw [selectSlot, hfields, herr]
      rfl

def blankLength : List UInt8 := le32 kotaMagic ++ le32 1 ++ List.replicate 24 0

theorem blank_length_panics : parseSlot blankLength = none ∧ ¬ SelectsValid blankLength [] := by
  have hpanic : parseSlot blankLength = none := by decide
  refine ⟨hpanic, fun h => ?_⟩
  have hparses := h.parsesFirst
  rw [hpanic] at hparses
  cases hparses

/-! ## The written protocol

`docs/design/ota-ab.md` puts an eight byte build time stamp before the flags, so that the
flags are the word at offset 24 and the last word is reserved.
-/

structure KotaHeader where
  magic : UInt32
  version : UInt32
  imageLen : UInt32
  imageCrc : UInt32
  buildTsMs : UInt64
  flags : UInt32
  reserved : UInt32

namespace KotaHeader

def encode (h : KotaHeader) : List UInt8 :=
  le32 h.magic ++ le32 h.version ++ le32 h.imageLen ++ le32 h.imageCrc ++
    (le32 (.ofNat h.buildTsMs.toNat) ++ le32 (.ofNat (h.buildTsMs.toNat / 2 ^ 32)) ++
      le32 h.flags ++ le32 h.reserved)

def slot (h : KotaHeader) (payload : List UInt8) : List UInt8 := h.encode ++ payload

def OnTrial (h : KotaHeader) : Prop := h.flags &&& 1 ≠ 0

/-- The headers differ in the time stamp, the reserved word and the checksum at most. -/
structure Agrees (h h' : KotaHeader) : Prop where
  magic : h'.magic = h.magic
  version : h'.version = h.version
  imageLen : h'.imageLen = h.imageLen
  flags : h'.flags = h.flags

variable (h : KotaHeader) (payload : List UInt8)

lemma rd32_magic : rd32 (h.slot payload) 0 = h.magic := rd32_le32 [] h.magic _ rfl rfl

lemma rd32_version : rd32 (h.slot payload) 4 = h.version :=
  rd32_le32 (le32 h.magic) h.version _ rfl rfl

lemma rd32_imageLen : rd32 (h.slot payload) 8 = h.imageLen :=
  rd32_le32 (le32 h.magic ++ le32 h.version) h.imageLen _ rfl rfl

lemma rd32_imageCrc : rd32 (h.slot payload) 12 = h.imageCrc :=
  rd32_le32 (le32 h.magic ++ le32 h.version ++ le32 h.imageLen) h.imageCrc _ rfl rfl

lemma rd32_reserved : rd32 (h.slot payload) 28 = h.reserved :=
  rd32_le32 (le32 h.magic ++ le32 h.version ++ le32 h.imageLen ++ le32 h.imageCrc ++
    (le32 (.ofNat h.buildTsMs.toNat) ++ le32 (.ofNat (h.buildTsMs.toNat / 2 ^ 32)) ++
      le32 h.flags)) h.reserved payload rfl rfl

lemma hasHeader_iff : HasHeader (h.slot payload) ↔ h.magic = kotaMagic := by
  have hlength : kotaHeaderLen ≤ (h.slot payload).length := by
    rw [slot, length_append]
    exact Nat.le_add_right 32 _
  rw [HasHeader, rd32_magic]
  exact and_iff_right hlength

lemma declaredLen_eq : declaredLen (h.slot payload) = h.imageLen.toNat := by
  rw [declaredLen, rd32_imageLen]

def Remains : Prop := HasHeader (h.slot payload) ∧ ChecksumOk (h.slot payload)
deriving Decidable

def sealed : KotaHeader :=
  { h with imageCrc := crc32 (withoutCrc ((h.slot payload).take h.imageLen.toNat)) }

variable {h payload}

lemma withoutCrc_slot (hlen : 16 ≤ h.imageLen.toNat) (crc : UInt32) :
    withoutCrc ((({ h with imageCrc := crc } : KotaHeader).slot payload).take h.imageLen.toNat) =
      withoutCrc ((h.slot payload).take h.imageLen.toNat) := by
  obtain ⟨more, hmore⟩ := Nat.exists_eq_add_of_le hlen
  -- past the sixteenth byte both sides compute to the same list
  rw [hmore, Nat.add_comm]
  rfl

lemma sealed_remains (hmagic : h.magic = kotaMagic) (hlen : 16 ≤ h.imageLen.toNat) :
    (h.sealed payload).Remains payload := by
  refine ⟨(hasHeader_iff ..).mpr hmagic, ?_⟩
  rw [ChecksumOk, declaredLen_eq, rd32_imageCrc]
  exact congrArg crc32 (withoutCrc_slot hlen _)

lemma parse_remains (hlen : 16 ≤ h.imageLen.toNat) (hremains : h.Remains payload) :
    parseSlot (h.slot payload) = some (.ok (h.version, h.imageCrc, h.reserved)) := by
  refine parseSlot_ok_iff.mpr ⟨hremains.1, ?_, hremains.2, ?_⟩
  · rwa [declaredLen_eq]
  · rw [rd32_version, rd32_imageCrc, rd32_reserved]

lemma parse_out (hlen : h.magic = kotaMagic → 16 ≤ h.imageLen.toNat)
    (hout : ¬h.Remains payload) : ∃ err, parseSlot (h.slot payload) = some (.error err) := by
  by_cases hheader : HasHeader (h.slot payload)
  · have hdeclared : 16 ≤ declaredLen (h.slot payload) := by
      rw [declaredLen_eq]
      exact hlen ((hasHeader_iff h payload).mp hheader)
    exact ⟨_, by rw [parseSlot_of_le hheader hdeclared, if_neg fun hcrc => hout ⟨hheader, hcrc⟩]⟩
  · exact ⟨_, parseSlot_of_no_header hheader⟩

end KotaHeader

/-! ## The image builder -/

/-- `make_slot`: the checksum is that of the image with a zero checksum field. -/
def makeSlot (version : UInt32) (payload : List UInt8) (trial : Bool) : List UInt8 :=
  let total : UInt32 := .ofNat (kotaHeaderLen + payload.length)
  let img (crc : UInt32) : List UInt8 :=
    le32 kotaMagic ++ le32 version ++ le32 total ++ le32 crc ++
      (List.replicate 12 0 ++ le32 (if trial then kotaFlagTrial else 0)) ++ payload
  img (crc32 (img 0))

section
variable (hlen : kotaHeaderLen + payload.length < 2 ^ 32)
include hlen

lemma makeSlot_eq (version : UInt32) (trial : Bool) : makeSlot version payload trial =
    (KotaHeader.sealed ⟨kotaMagic, version, .ofNat (kotaHeaderLen + payload.length), 0, 0, 0,
      if trial then kotaFlagTrial else 0⟩ payload).slot payload := by
  have htotal : (UInt32.ofNat (kotaHeaderLen + payload.length)).toNat = 32 + payload.length :=
    UInt32.toNat_ofNat_of_lt' hlen
  have hzero : le32 (.ofNat (0 : UInt64).toNat) ++ le32 (.ofNat ((0 : UInt64).toNat / 2 ^ 32)) ++
      le32 0 = replicate 12 0 := by decide
  rw [KotaHeader.sealed]
  dsimp only
  rw [htotal, take_of_length_le]
  · simp only [makeSlot, KotaHeader.slot, KotaHeader.encode, hzero]
    have hcleared := withoutCrc_append
      (show (le32 kotaMagic ++ le32 version ++
        le32 (.ofNat (kotaHeaderLen + payload.length))).length = 12 from rfl) 0
      (replicate 12 0 ++ le32 (if trial then kotaFlagTrial else 0) ++ payload)
    simp only [← append_assoc] at hcleared ⊢
    rw [hcleared]
  · rw [KotaHeader.slot, length_append]
    rfl

/-- A built image is read back with its version and flag. -/
theorem parseSlot_makeSlot (version : UInt32) (trial : Bool) :
    ∃ crc, parseSlot (makeSlot version payload trial) =
      some (.ok (version, crc, if trial then kotaFlagTrial else 0)) := by
  have hdeclared : 16 ≤ (UInt32.ofNat (kotaHeaderLen + payload.length)).toNat := by
    rw [UInt32.toNat_ofNat_of_lt' hlen]
    exact le_trans (by decide : 16 ≤ kotaHeaderLen) (Nat.le_add_right ..)
  rw [makeSlot_eq hlen]
  exact ⟨_, KotaHeader.parse_remains hdeclared (KotaHeader.sealed_remains rfl hdeclared)⟩

end

theorem parseSlot_makeSlot_trial :
    ∃ crc, parseSlot (makeSlot 3 [1, 2, 3] true) = some (.ok (3, crc, 1)) :=
  parseSlot_makeSlot (by decide) 3 true

/-! ## Selection and the protocol -/

/-- `select_slot` follows rules 1 and 2 for two slots, and takes no other field into account. -/
structure FollowsProtocol (ha : KotaHeader) (pa : List UInt8) (hb : KotaHeader)
    (pb : List UInt8) : Prop where
  returns : (selectSlot (ha.slot pa) (hb.slot pb)).isSome
  onlyFirst : ha.Remains pa → ¬ hb.Remains pb → selectSlot (ha.slot pa) (hb.slot pb) = some 0
  onlySecond : ¬ ha.Remains pa → hb.Remains pb → selectSlot (ha.slot pa) (hb.slot pb) = some 1
  newerFirst : ha.Remains pa → hb.Remains pb → hb.version < ha.version →
    selectSlot (ha.slot pa) (hb.slot pb) = some 0
  newerSecond : ha.Remains pa → hb.Remains pb → ha.version < hb.version →
    selectSlot (ha.slot pa) (hb.slot pb) = some 1
  provenFirst : ha.Remains pa → hb.Remains pb → ha.version = hb.version →
    ¬ ha.OnTrial → hb.OnTrial → selectSlot (ha.slot pa) (hb.slot pb) = some 0
  provenSecond : ha.Remains pa → hb.Remains pb → ha.version = hb.version →
    ha.OnTrial → ¬ hb.OnTrial → selectSlot (ha.slot pa) (hb.slot pb) = some 1
  ignores : ∀ ha' hb', ha.Agrees ha' → hb.Agrees hb' → (ha'.Remains pa ↔ ha.Remains pa) →
    (hb'.Remains pb ↔ hb.Remains pb) →
    selectSlot (ha'.slot pa) (hb'.slot pb) = selectSlot (ha.slot pa) (hb.slot pb)

variable {ha hb : KotaHeader} {pa pb : List UInt8}

def choice (first second : Bool) (va vb : UInt32) : Nat :=
  if first && second then (decide (va < vb)).toNat else (!first && second).toNat

lemma selectSlot_eq_choice (hla : ha.magic = kotaMagic → 16 ≤ ha.imageLen.toNat)
    (hlb : hb.magic = kotaMagic → 16 ≤ hb.imageLen.toNat)
    (htie : ¬(ha.Remains pa ∧ hb.Remains pb ∧ ha.version = hb.version)) :
    selectSlot (ha.slot pa) (hb.slot pb) =
      some (choice (decide (ha.Remains pa)) (decide (hb.Remains pb)) ha.version hb.version) := by
  by_cases hina : ha.Remains pa
  · have hparse := KotaHeader.parse_remains (hla ((KotaHeader.hasHeader_iff ..).mp hina.1)) hina
    by_cases hinb : hb.Remains pb
    · have hparse' := KotaHeader.parse_remains (hlb ((KotaHeader.hasHeader_iff ..).mp hinb.1)) hinb
      have hne : ha.version ≠ hb.version := fun heq => htie ⟨hina, hinb, heq⟩
      simp [selectSlot, hparse, hparse', hne, choice, hina, hinb]
    · obtain ⟨err, herr⟩ := KotaHeader.parse_out hlb hinb
      simp [selectSlot, hparse, herr, choice, hina, hinb]
  · obtain ⟨err, herr⟩ := KotaHeader.parse_out hla hina
    by_cases hinb : hb.Remains pb
    · have hparse' := KotaHeader.parse_remains (hlb ((KotaHeader.hasHeader_iff ..).mp hinb.1)) hinb
      simp [selectSlot, herr, hparse', choice, hina, hinb]
    · obtain ⟨err', herr'⟩ := KotaHeader.parse_out hlb hinb
      simp [selectSlot, herr, herr', choice, hina, hinb]

lemma selectSlot_of_tie (hla : 16 ≤ ha.imageLen.toNat) (hlb : 16 ≤ hb.imageLen.toNat)
    (hina : ha.Remains pa) (hinb : hb.Remains pb) (hversion : ha.version = hb.version) :
    selectSlot (ha.slot pa) (hb.slot pb) = some (decide (ha.reserved &&& kotaFlagTrial ≠ 0) &&
        decide (hb.reserved &&& kotaFlagTrial = 0)).toNat := by
  simp [selectSlot, KotaHeader.parse_remains hla hina, KotaHeader.parse_remains hlb hinb, hversion]

lemma KotaHeader.long_of_parse {h : KotaHeader}
    (hparse : (parseSlot (h.slot payload)).isSome) (hmagic : h.magic = kotaMagic) :
    16 ≤ h.imageLen.toNat := by
  rw [← h.declaredLen_eq payload]
  exact parseSlot_isSome_iff.mp hparse ((KotaHeader.hasHeader_iff h payload).mpr hmagic)

lemma FollowsProtocol.long (h : FollowsProtocol ha pa hb pb) :
    (ha.magic = kotaMagic → 16 ≤ ha.imageLen.toNat) ∧
      (hb.magic = kotaMagic → 16 ≤ hb.imageLen.toNat) := by
  obtain ⟨slot, hslot⟩ := isSome_iff_exists.mp h.returns
  obtain ⟨parsed, hparse, hrest⟩ := bind_eq_some_iff.mp hslot
  obtain ⟨parsed', hparse', -⟩ := map_eq_some_iff.mp hrest
  exact ⟨KotaHeader.long_of_parse (isSome_of_eq_some hparse),
    KotaHeader.long_of_parse (isSome_of_eq_some hparse')⟩

lemma FollowsProtocol.not_tie (h : FollowsProtocol ha pa hb pb) :
    ¬(ha.Remains pa ∧ hb.Remains pb ∧ ha.version = hb.version) := by
  rintro ⟨hina, hinb, hversion⟩
  have hma := (KotaHeader.hasHeader_iff ha pa).mp hina.1
  have hmb := (KotaHeader.hasHeader_iff hb pb).mp hinb.1
  have hla := h.long.1 hma
  have hlb := h.long.2 hmb
  have hchoice : ∀ ra rb : UInt32, selectSlot (ha.slot pa) (hb.slot pb) = some
      (decide (ra &&& kotaFlagTrial ≠ 0) && decide (rb &&& kotaFlagTrial = 0)).toNat := by
    intro ra rb
    -- the same slots with the reserved words replaced and the checksums made good
    let ha' := KotaHeader.sealed { ha with reserved := ra } pa
    let hb' := KotaHeader.sealed { hb with reserved := rb } pb
    have hina' : ha'.Remains pa := KotaHeader.sealed_remains hma hla
    have hinb' : hb'.Remains pb := KotaHeader.sealed_remains hmb hlb
    rw [← h.ignores ha' hb' ⟨rfl, rfl, rfl, rfl⟩ ⟨rfl, rfl, rfl, rfl⟩ (iff_of_true hina' hina)
      (iff_of_true hinb' hinb)]
    exact selectSlot_of_tie hla hlb hina' hinb' hversion
  -- a trial flag in the first slot's reserved word selects the second, none the first
  exact absurd ((hchoice 1 0).symm.trans (hchoice 0 0)) (by decide)

lemma followsProtocol_of_choice (hla : ha.magic = kotaMagic → 16 ≤ ha.imageLen.toNat)
    (hlb : hb.magic = kotaMagic → 16 ≤ hb.imageLen.toNat)
    (htie : ¬(ha.Remains pa ∧ hb.Remains pb ∧ ha.version = hb.version)) :
    FollowsProtocol ha pa hb pb := by
  have hselect := selectSlot_eq_choice hla hlb htie
  refine ⟨by rw [hselect]; rfl, ?_, ?_, ?_, ?_, ?_, ?_, ?_⟩
  · intro hina hinb
    simp [hselect, choice, hina, hinb]
  · intro hina hinb
    simp [hselect, choice, hina, hinb]
  · intro hina hinb hlt
    simp [hselect, choice, hina, hinb, UInt32.le_of_lt hlt]
  · intro hina hinb hlt
    simp [hselect, choice, hina, hinb, hlt]
  · exact fun hina hinb hversion => absurd ⟨hina, hinb, hversion⟩ htie
  · exact fun hina hinb hversion => absurd ⟨hina, hinb, hversion⟩ htie
  · intro ha' hb' haa hbb hina hinb
    have hla' : ha'.magic = kotaMagic → 16 ≤ ha'.imageLen.toNat := by rwa [haa.magic, haa.imageLen]
    have hlb' : hb'.magic = kotaMagic → 16 ≤ hb'.imageLen.toNat := by rwa [hbb.magic, hbb.imageLen]
    have htie' : ¬(ha'.Remains pa ∧ hb'.Remains pb ∧ ha'.version = hb'.version) := by
      rwa [hina, hinb, haa.version, hbb.version]
    rw [selectSlot_eq_choice hla' hlb' htie', hselect, haa.version, hbb.version]
    simp [hina, hinb]

/-- The protocol is followed unless a header declares too few bytes or two good slots have
the same version. -/
theorem followsProtocol_iff (ha : KotaHeader) (pa : List UInt8) (hb : KotaHeader)
    (pb : List UInt8) : FollowsProtocol ha pa hb pb ↔
      (ha.magic = kotaMagic → 16 ≤ ha.imageLen.toNat) ∧
      (hb.magic = kotaMagic → 16 ≤ hb.imageLen.toNat) ∧
      ¬ (ha.Remains pa ∧ hb.Remains pb ∧ ha.version = hb.version) := by
  constructor
  · intro h
    exact ⟨h.long.1, h.long.2, h.not_tie⟩
  · rintro ⟨hla, hlb, htie⟩
    exact followsProtocol_of_choice hla hlb htie

def trialSlot : KotaHeader := KotaHeader.sealed ⟨kotaMagic, 3, 32, 0, 0, 1, 0⟩ []

def provenSlot : KotaHeader := KotaHeader.sealed ⟨kotaMagic, 3, 32, 0, 0, 0, 0⟩ []

theorem trial_slot_preferred :
    trialSlot.Remains [] ∧ provenSlot.Remains [] ∧ trialSlot.OnTrial ∧ ¬ provenSlot.OnTrial ∧
      selectSlot (trialSlot.slot []) (provenSlot.slot []) = some 0 ∧
      ¬ FollowsProtocol trialSlot [] provenSlot [] := by
  have hina : trialSlot.Remains [] := KotaHeader.sealed_remains rfl (by decide)
  have hinb : provenSlot.Remains [] := KotaHeader.sealed_remains rfl (by decide)
  have htrial : trialSlot.OnTrial := by
    rw [KotaHeader.OnTrial]
    decide
  have hproven : ¬ provenSlot.OnTrial := by
    rw [KotaHeader.OnTrial]
    decide
  have hselect : selectSlot (trialSlot.slot []) (provenSlot.slot []) = some 0 :=
    selectSlot_of_tie (by decide) (by decide) hina hinb rfl
  refine ⟨hina, hinb, htrial, hproven, hselect, fun h => ?_⟩
  have hwrong := h.provenSecond hina hinb rfl htrial hproven
  rw [hselect] at hwrong
  cases hwrong

end KarteOs.Ota

import KarteOs.Driver.RamFs
import KarteOs.Foundation.Blocks
import KarteOs.Foundation.Run
import KarteOs.Mm.Addr

/-! # Files of the in-memory file system as byte arrays

The calls on one inode with the arithmetic of `usize`: sums wrap around, a slice whose
ends are in the wrong order is a panic, and so is a vector of more than `isize::MAX`
bytes. Compared with an array of bytes without a bound.
-/

namespace KarteOs.Driver

open Mm Transition Blocks List Option

def isizeMax : Nat := 2 ^ 63 - 1

/-- A call with any offset or size, and with a buffer that can exist. -/
inductive FileCall
  | write (offset : Fin usizeRange) (data : {data : List UInt8 // data.length ≤ isizeMax})
  | setSize (size : Fin usizeRange)
  | read (offset : Fin usizeRange) (len : {len : Nat // len ≤ isizeMax})

inductive FileResult
  | failed (error : VfsError)
  | written (count : Nat)
  | resized
  | bytes (data : List UInt8)

structure ByteFile where
  size : Nat
  byte : Nat → UInt8

namespace ByteFile

def of (data : List UInt8) : ByteFile := ⟨data.length, fun i => data.getD i 0⟩

def perform (file : ByteFile) : FileCall → ByteFile × FileResult
  | .write offset data =>
    (⟨if data.1 = [] then file.size else max file.size (offset + data.1.length),
      patch file.byte offset data⟩, .written data.1.length)
  | .setSize size => (⟨size, fun i => if i < size then file.byte i else 0⟩, .resized)
  | .read offset len =>
    (file, .bytes (window file.byte offset (min len (file.size - offset))))

end ByteFile

namespace RamFileSystem

def tryResize (data : List UInt8) (size : Nat) : Option (List UInt8) :=
  if data.length < size ∧ isizeMax < size then none else some (resize data size)

def writeBytes (old : List UInt8) (offset : Nat) (data : List UInt8) : Option (List UInt8) :=
  let stop := wrappingAdd offset data.length
  (if old.length < stop then tryResize old stop else some old).bind fun owned =>
    if offset ≤ stop ∧ stop ≤ owned.length then
      some (owned.take offset ++ data ++ owned.drop stop)
    else none

def readBytes (data : List UInt8) (offset len : Nat) : Option (List UInt8) :=
  if data.length ≤ offset then some []
  else
    let stop := min (wrappingAdd offset len) data.length
    if offset ≤ stop ∧ stop - offset ≤ len then some ((data.drop offset).take (stop - offset))
    else none

/-- The bytes of a file after a call, and what it returns; a read leaves them. -/
def performBytes (bytes : List UInt8) : FileCall → Option (List UInt8 × FileResult)
  | .write offset data => (writeBytes bytes offset data).map (·, .written data.1.length)
  | .setSize size => (tryResize bytes size).map (·, .resized)
  | .read offset len => (readBytes bytes offset len).map (bytes, .bytes ·)

def perform (fs : RamFileSystem) (inode : Nat) (call : FileCall) :
    Option (RamFileSystem × FileResult) :=
  match fs.nodes inode with
  | none => some (fs, .failed .notFound)
  | some node =>
    if node.isDir then some (fs, .failed .notAFile)
    else
      (performBytes node.data call).map fun (data, result) =>
        (fs.setNode inode { node with data }, result)

/-- The call does not panic, and it fails without an effect or does to the bytes of the file what
it does to an array. -/
def Faithful (inode : Nat) (fs : RamFileSystem) (call : FileCall) : Prop :=
  ∃ next result, fs.perform inode call = some (next, result) ∧
    ((∃ error, result = .failed error) ∧ next = fs ∨
      ∃ node data, fs.nodes inode = some node ∧ node.isDir = false ∧
        next = fs.setNode inode { node with data } ∧
        (ByteFile.of data, result) = (ByteFile.of node.data).perform call)

/-- An empty write does not start behind the end of the file, and nothing ends behind
`isize::MAX`. -/
def SparesBytes (bytes : List UInt8) : FileCall → Prop
  | .write offset data =>
    (data.1 = [] → offset ≤ bytes.length) ∧ offset + data.1.length ≤ isizeMax
  | .setSize size => size ≤ isizeMax
  | .read .. => True

def Spares (inode : Nat) (fs : RamFileSystem) (call : FileCall) : Prop :=
  ∀ node, fs.nodes inode = some node → node.isDir = false → SparesBytes node.data call

def after (inode : Nat) (fs : RamFileSystem) (call : FileCall) : RamFileSystem :=
  ((fs.perform inode call).map Prod.fst).getD fs

def Fits (inode : Nat) (fs : RamFileSystem) : Prop :=
  ∀ node, fs.nodes inode = some node → node.data.length ≤ isizeMax

section
variable {old data bytes : List UInt8} {offset size len : Nat}

lemma of_resize (old : List UInt8) (size : Nat) : ByteFile.of (resize old size) =
    ⟨size, fun i => if i < size then (ByteFile.of old).byte i else 0⟩ := by
  rw [ByteFile.of, length_resize]
  congr 1
  funext i
  simp only [ByteFile.of, resize, getD_eq_getElem?_getD, getElem?_append,
    length_take, getElem?_take, getElem?_replicate]
  grind

lemma of_resize_of_le (hle : old.length ≤ size) :
    ByteFile.of (resize old size) = ⟨size, (ByteFile.of old).byte⟩ := by
  rw [of_resize]
  congr 1
  funext i
  split
  · rfl
  next hi => simp [ByteFile.of, hle.trans (not_lt.mp hi)]

lemma of_overwrite (old : List UInt8) (offset : Nat) (data : List UInt8) :
    ByteFile.of (overwrite old offset data) = ⟨max old.length (offset + data.length),
        patch (ByteFile.of old).byte offset data⟩ := by
  -- where the file is long enough the bytes are replaced in place
  have hplace : ∀ owned : List UInt8, offset + data.length ≤ owned.length →
      ByteFile.of (owned.take offset ++ data ++ owned.drop (offset + data.length)) =
        ⟨owned.length, patch (ByteFile.of owned).byte offset data⟩ := by
    intro owned hlen
    simp only [ByteFile.of, ByteFile.mk.injEq]
    refine ⟨by simp; omega, ?_⟩
    funext i
    simp only [patch, getD_eq_getElem?_getD, append_assoc, getElem?_append,
      length_take, getElem?_take, getElem?_drop]
    grind
  unfold overwrite
  dsimp only
  split
  next hshort =>
    rw [hplace _ (length_resize ..).ge, length_resize, max_eq_right hshort.le,
      of_resize_of_le hshort.le]
  next hlong => rw [hplace _ (not_lt.mp hlong), max_eq_left (not_lt.mp hlong)]

lemma writeBytes_of_le (hle : offset + data.length ≤ isizeMax) :
    writeBytes old offset data = some (overwrite old offset data) := by
  have hstop : wrappingAdd offset data.length = offset + data.length :=
    Nat.mod_eq_of_lt (lt_of_le_of_lt hle (by decide))
  simp only [writeBytes, overwrite, hstop, tryResize]
  split
  next hshort =>
    rw [if_neg fun h => absurd hle (Nat.not_le_of_lt h.2), bind_some, length_resize,
      if_pos ⟨Nat.le_add_right .., le_rfl⟩]
  next hlong => rw [bind_some, if_pos ⟨Nat.le_add_right .., not_lt.mp hlong⟩]

lemma writeBytes_of_lt (hold : old.length ≤ isizeMax) (hdata : data.length ≤ isizeMax)
    (hoffset : offset < usizeRange) (hlt : isizeMax < offset + data.length) :
    writeBytes old offset data = none := by
  rcases Nat.lt_or_ge (offset + data.length) usizeRange with hfits | hwraps
  · have hstop : wrappingAdd offset data.length = offset + data.length := Nat.mod_eq_of_lt hfits
    have hshort : old.length < offset + data.length := hold.trans_lt hlt
    simp [writeBytes, hstop, if_pos hshort, tryResize, if_pos (And.intro hshort hlt), bind_none]
  · have hstop : wrappingAdd offset data.length < offset := by
      simp only [wrappingAdd, usizeRange, isizeMax] at *
      omega
    simp only [writeBytes, if_neg fun h : _ ∧ _ => absurd h.1 (Nat.not_le_of_lt hstop)]
    exact bind_fun_none _

lemma readBytes_eq (hdata : data.length ≤ isizeMax) (hlen : len ≤ isizeMax) :
    readBytes data offset len = some (window (ByteFile.of data).byte offset
      (min len (data.length - offset))) := by
  rw [readBytes]
  split
  next hpast =>
    rw [Nat.sub_eq_zero_of_le hpast, Nat.min_zero]
    rfl
  next hinside =>
    have hstop : wrappingAdd offset len = offset + len :=
      Nat.mod_eq_of_lt (by simp only [usizeRange, isizeMax] at *; omega)
    have hcount : min (offset + len) data.length - offset = min len (data.length - offset) := by
      omega
    rw [hstop, if_pos (by omega), hcount]
    refine congrArg some (ext_getElem? fun i => ?_)
    rw [getElem?_take, getElem?_drop, window, getElem?_map]
    simp only [ByteFile.of]
    grind

lemma performBytes_iff (hbytes : bytes.length ≤ isizeMax) (call : FileCall) :
    (∃ data result, performBytes bytes call = some (data, result) ∧
      (ByteFile.of data, result) = (ByteFile.of bytes).perform call) ↔ SparesBytes bytes call := by
  cases call with
  | write offset data =>
    rcases Nat.lt_or_ge isizeMax (offset + data.1.length) with hlt | hle
    · simp [performBytes, writeBytes_of_lt hbytes data.2 offset.2 hlt, SparesBytes, hlt]
    · simp only [performBytes, writeBytes_of_le hle, map_some, some.injEq,
        Prod.mk.injEq, SparesBytes, hle, and_true]
      constructor
      · rintro ⟨_, _, ⟨rfl, rfl⟩, heq⟩ hempty
        rw [of_overwrite, ByteFile.perform, if_pos hempty] at heq
        have hsize : max bytes.length _ = bytes.length := congrArg (·.1.size) heq
        exact (Nat.le_add_right ..).trans (max_eq_left_iff.mp hsize)
      · intro hempty
        refine ⟨_, _, ⟨rfl, rfl⟩, ?_⟩
        rw [of_overwrite, ByteFile.perform]
        split
        next hnil => rw [hnil, length_nil, Nat.add_zero, max_eq_left (hempty hnil)]; rfl
        · rfl
  | setSize size =>
    rcases Nat.lt_or_ge isizeMax size with hlt | hle
    · simp [performBytes, tryResize, SparesBytes, hlt, hbytes.trans_lt hlt]
    · have hresize : tryResize bytes size = some (resize bytes size) :=
        if_neg fun h => absurd hle (Nat.not_le_of_lt h.2)
      simp [performBytes, hresize, SparesBytes, hle, of_resize, ByteFile.perform]
  | read offset len =>
    simp [performBytes, readBytes_eq hbytes len.2, SparesBytes, ByteFile.perform, ByteFile.of]

end

/-! ## Calls on an inode -/

variable {fs : RamFileSystem} {inode : Nat} {node : RamFsNode} {call : FileCall}

lemma perform_of_file (hnode : fs.nodes inode = some node) (hfile : node.isDir = false) :
    fs.perform inode call = (performBytes node.data call).map fun (data, result) =>
      (fs.setNode inode { node with data }, result) := by
  simp [perform, hnode, hfile]

lemma setNode_inj {first second : RamFsNode}
    (heq : fs.setNode inode first = fs.setNode inode second) : first = second := by
  have hnodes := congrFun (congrArg RamFileSystem.nodes heq) inode
  simpa [setNode] using hnodes

lemma faithful_iff_of_file (hnode : fs.nodes inode = some node) (hfile : node.isDir = false) :
    fs.Faithful inode call ↔ ∃ data result, performBytes node.data call = some (data, result) ∧
      (ByteFile.of data, result) = (ByteFile.of node.data).perform call := by
  rw [Faithful, perform_of_file hnode hfile]
  constructor
  · rintro ⟨_, _, hperform, hbytes⟩
    obtain ⟨⟨data, result⟩, hdata, heq⟩ := map_eq_some_iff.mp hperform
    obtain ⟨rfl, rfl⟩ := Prod.mk.inj heq
    obtain ⟨⟨error, rfl⟩, -⟩ | ⟨_, data', hsame, -, hnext, hbytes⟩ := hbytes
    · cases call <;> simp [performBytes] at hdata
    · cases hnode.symm.trans hsame
      obtain rfl : data = data' := congrArg RamFsNode.data (setNode_inj hnext)
      exact ⟨data, result, hdata, hbytes⟩
  · rintro ⟨data, result, hdata, hbytes⟩
    exact ⟨_, _, by rw [hdata]; rfl, .inr ⟨node, data, hnode, hfile, rfl, hbytes⟩⟩

lemma faithful_iff_spares (hfits : fs.Fits inode) (call : FileCall) :
    fs.Faithful inode call ↔ fs.Spares inode call := by
  cases hnode : fs.nodes inode with
  | none =>
    have hfails : fs.perform inode call = some (fs, .failed .notFound) := by simp [perform, hnode]
    exact iff_of_true ⟨_, _, hfails, .inl ⟨⟨_, rfl⟩, rfl⟩⟩ (by simp [Spares, hnode])
  | some node =>
    cases hfile : node.isDir with
    | true =>
      have hfails : fs.perform inode call = some (fs, .failed .notAFile) := by
        simp [perform, hnode, hfile]
      exact iff_of_true ⟨_, _, hfails, .inl ⟨⟨_, rfl⟩, rfl⟩⟩ (by simp [Spares, hnode, hfile])
    | false =>
      rw [faithful_iff_of_file hnode hfile, performBytes_iff (hfits node hnode)]
      simp [Spares, hnode, hfile]

lemma Fits.after (hfits : fs.Fits inode) (hfaithful : fs.Faithful inode call) :
    (after inode fs call).Fits inode := by
  obtain ⟨next, result, hperform, ⟨-, rfl⟩ | ⟨node, data, hnode, hfile, rfl, hbytes⟩⟩ := hfaithful
  · rw [RamFileSystem.after, hperform]
    exact hfits
  · rw [RamFileSystem.after, hperform]
    intro other hother
    obtain rfl : { node with data } = other := by simpa [setNode] using hother
    have hspares : SparesBytes node.data call := (faithful_iff_spares hfits call).mp
      ⟨_, _, hperform, .inr ⟨node, data, hnode, hfile, rfl, hbytes⟩⟩ node hnode hfile
    have hsize : data.length = ((ByteFile.of node.data).perform call).1.size :=
      congrArg (·.1.size) hbytes
    change data.length ≤ isizeMax
    rw [hsize]
    have hold := hfits node hnode
    cases call with
    | write offset data =>
      simp only [ByteFile.perform]
      split
      exacts [hold, max_le hold hspares.2]
    | setSize size => exact hspares
    | read => exact hold

/-- A sequence of calls on one inode behaves as on an array exactly if no empty write starts
behind the end of the file and no file grows beyond `isize::MAX`. -/
theorem calls_faithful_iff (hfits : fs.Fits inode) (calls : List FileCall) :
    Allowed (Faithful inode) (after inode) fs calls ↔
      Allowed (Spares inode) (after inode) fs calls := by
  have hiff : ∀ (fs : RamFileSystem) (call : FileCall), fs.Fits inode →
      (fs.Faithful inode call ↔ fs.Spares inode call) :=
    fun _ call hs => faithful_iff_spares hs call
  exact Allowed.iff_of_invariant hiff (fun _ _ hs => hs.after) hfits calls

def oneByte : RamFileSystem :=
  ((new.createFile rootInode ['f']).1.writeFile 2 0 [7]).1

lemma oneByte_fits : oneByte.Fits 2 := by
  intro node hnode
  cases hnode
  decide

theorem calls_faithful_iff_oneByte : oneByte.Fits 2 ∧ Allowed (Faithful 2) (after 2) oneByte
    [.write ⟨3, by decide⟩ ⟨[1], by decide⟩, .read ⟨0, by decide⟩ ⟨4, by decide⟩] := by
  refine ⟨oneByte_fits, (calls_faithful_iff oneByte_fits _).mpr ⟨?_, ?_, trivial⟩⟩
  · exact fun _ _ _ => ⟨nofun, by decide⟩
  · exact fun _ _ _ => trivial

/-- An empty write behind the end makes the file longer, and a write whose end wraps around
panics. -/
theorem oneByte_not_array : ¬ oneByte.Faithful 2 (.write ⟨4, by decide⟩ ⟨[], by decide⟩) ∧
    ((after 2 oneByte (.write ⟨4, by decide⟩ ⟨[], by decide⟩)).nodes 2).map
      (·.data.length) = some 4 ∧
    ¬ oneByte.Faithful 2 (.write ⟨usizeRange - 1, by decide⟩ ⟨[1], by decide⟩) := by
  refine ⟨fun hfaithful => ?_, rfl, fun hfaithful => ?_⟩
  · have hspares := (faithful_iff_spares oneByte_fits _).mp hfaithful _ rfl rfl
    exact absurd (hspares.1 rfl) (by decide)
  · have hspares := (faithful_iff_spares oneByte_fits _).mp hfaithful _ rfl rfl
    exact absurd hspares.2 (by decide)

end RamFileSystem

end KarteOs.Driver

import KarteOs.Driver.Ext4

/-! # Files by name across the mounted file systems

Reading asks ext4, then FAT32, then the files kept in memory; writing goes to
ext4 or, where it is not mounted, to memory; deleting goes to ext4 and to memory.
FAT32 is only read here. A call is coherent if it acts on the map from names to
contents as its name says; the theorems say when it does.
-/

namespace KarteOs.Driver

open Function List Option

/-- A file kept in memory; its data may be part of the kernel image or owned. -/
structure File where
  name : Path
  data : List UInt8

structure FlatFileSystem where
  files : List File

namespace FlatFileSystem

def read (fs : FlatFileSystem) (name : Path) : Option (List UInt8) :=
  (fs.files.find? (·.name = name)).map (·.data)

/-- The first file of the name gets the data; without one the file is pushed. -/
def writeFiles (name : Path) (data : List UInt8) : List File → List File
  | [] => [⟨name, data⟩]
  | file :: files =>
    if file.name = name then { file with data } :: files
    else file :: writeFiles name data files

variable (fs : FlatFileSystem) (name : Path)

def write (data : List UInt8) : FlatFileSystem × Except Unit Unit :=
  (⟨writeFiles name data fs.files⟩, .ok ())

def delete (fs : FlatFileSystem) (name : Path) : FlatFileSystem × Except Unit Unit :=
  let retained := fs.files.filter (·.name ≠ name)
  (⟨retained⟩, if retained.length < fs.files.length then .ok () else .error ())

lemma read_writeFiles_self (data : List UInt8) (files : List File) :
    (FlatFileSystem.mk (writeFiles name data files)).read name = some data := by
  induction files with
  | nil => simp [read, writeFiles]
  | cons file files ih =>
    by_cases hfile : file.name = name
    · simp [read, writeFiles, hfile]
    · simpa [read, writeFiles, hfile] using ih

lemma read_writeFiles_of_ne {name other : Path} (hother : other ≠ name) (data : List UInt8)
    (files : List File) : (FlatFileSystem.mk (writeFiles name data files)).read other =
      (FlatFileSystem.mk files).read other := by
  induction files with
  | nil => simp [read, writeFiles, hother.symm]
  | cons file files ih =>
    by_cases hfile : file.name = name
    · simp [read, writeFiles, hfile, hother.symm]
    · by_cases hhit : file.name = other
      · simp [read, writeFiles, hhit, hother]
      · simpa [read, writeFiles, hfile, hhit] using ih

lemma read_delete : (fs.delete name).1.read = update fs.read name none := by
  funext other
  by_cases hother : other = name
  · subst hother
    simp [delete, read, find?_filter]
  · rw [update_of_ne hother]
    have hkeep : ∀ file : File, (file.name ≠ name ∧ file.name = other) ↔ file.name = other := by
      intro file
      refine and_iff_right_of_imp ?_
      rintro rfl
      exact hother
    simp [delete, read, find?_filter, hkeep]

lemma read_write (data : List UInt8) :
    (fs.write name data).1.read = update fs.read name (some data) := by
  funext other
  by_cases hother : other = name
  · subst hother
    rw [update_self]
    exact read_writeFiles_self other data fs.files
  · rw [update_of_ne hother]
    exact read_writeFiles_of_ne hother data fs.files

end FlatFileSystem

/-- The file systems that serve names, each mounted or not. -/
structure Files where
  ext4 : Option Ext4Store
  fat32 : Option (Path → Option (List UInt8))
  ram : FlatFileSystem

namespace Files

def readFat32 (fs : Files) (name : Path) : Option (List UInt8) :=
  fs.fat32.bind (· name)

def readFileOwned (arch : Mm.Arch) (fs : Files) (name : Path) : Option (List UInt8) :=
  (fs.ext4.bind (·.readFile arch name)).or ((fs.readFat32 name).or (fs.ram.read name))

def writeFileOwned (fs : Files) (name : Path) (data : List UInt8) : Files × Except Unit Unit :=
  match fs.ext4 with
  | some ext4 =>
    let done := ext4.writeFile name data
    ({ fs with ext4 := some done.1 }, done.2.mapError fun _ => ())
  | none =>
    let done := fs.ram.write name data
    ({ fs with ram := done.1 }, done.2)

def deleteFile (fs : Files) (name : Path) : Files × Except Unit Unit :=
  let onDisk := fs.ext4.map (·.deleteFile name)
  let inMemory := fs.ram.delete name
  let anyOk := onDisk.any (·.2.isOk) || inMemory.2.isOk
  ({ fs with ext4 := onDisk.map (·.1), ram := inMemory.1 }, if anyOk then .ok () else .error ())

inductive Call
  | write (data : List UInt8)
  | delete

def Call.result : Call → Option (List UInt8)
  | .write data => some data
  | .delete => none

def call (fs : Files) (name : Path) : Call → Files × Except Unit Unit
  | .write data => fs.writeFileOwned name data
  | .delete => fs.deleteFile name

/-- A call from `fs` to `fs'` sets its own name and no other. -/
structure Coherent (arch : Mm.Arch) (fs : Files) (name : Path) (op : Call) (fs' : Files) :
    Prop where
  here : fs'.readFileOwned arch name = op.result
  elsewhere : ∀ other, other ≠ name → fs'.readFileOwned arch other = fs.readFileOwned arch other

/-! ## When a call is coherent -/

section
open Ext4Store (cap tooLarge)

variable (arch : Mm.Arch)

/-- Nothing of the old bytes sticks out, and the size is one that is read. -/
def Covers (old data : List UInt8) : Prop :=
  if tooLarge arch (max old.length data.length) then data = [] else old.length ≤ data.length

/-- What a write needs. With ext4 the data has to cover the old content, and any
other path of the file has to hold it already; without it FAT32 must not hide the
file. -/
def WriteClear (fs : Files) (name : Path) (data : List UInt8) : Prop :=
  match fs.ext4 with
  | none => ∀ bytes, fs.readFat32 name = some bytes → bytes = data
  | some ext4 =>
    Covers arch (ext4.contents name) data ∧ ∀ other, other ≠ name → ext4.SameFile name other →
        fs.readFileOwned arch other = some data

/-- What a deletion needs. FAT32 must not hold the name, ext4 must not hold it
where it cannot be unlinked, and any other path of the entry has to read as it
does without ext4. -/
def DeleteClear (fs : Files) (name : Path) : Prop :=
  fs.readFat32 name = none ∧
    match fs.ext4 with
    | none => True
    | some ext4 =>
      (ext4.Unlinkable name ∨ ext4.readFile arch name = none) ∧
        (ext4.Unlinkable name → ∀ other, other ≠ name → ext4.slot other = ext4.slot name →
          fs.readFileOwned arch other = (fs.readFat32 other).or (fs.ram.read other))

def Clear (fs : Files) (name : Path) : Call → Prop
  | .write data => fs.WriteClear arch name data
  | .delete => fs.DeleteClear arch name

variable {arch : Mm.Arch} {fs fs' : Files} {name : Path}

lemma cap_overwrite_eq_iff (old data : List UInt8) :
    cap arch (RamFileSystem.overwrite old 0 data) = data ↔ Covers arch old data := by
  have hlen : (data ++ old.drop data.length).length = max old.length data.length := by
    rw [length_append, length_drop]
    omega
  rw [RamFileSystem.overwrite_zero, cap, hlen, Covers]
  split
  · exact eq_comm
  · rw [append_right_eq_self, drop_eq_nil_iff]

variable {data : List UInt8}

lemma writeFileOwned_memory (hext4 : fs.ext4 = none) (other : Path) :
    (fs.writeFileOwned name data).1.readFileOwned arch other =
      (fs.readFat32 other).or (update fs.ram.read name (some data) other) := by
  rw [← FlatFileSystem.read_write]
  simp [writeFileOwned, hext4, readFileOwned, readFat32]

lemma writeFileOwned_disk {ext4 : Ext4Store} (hext4 : fs.ext4 = some ext4)
    (h : fs.writeFileOwned name data = (fs', .ok ())) :
    ∃ ext4', ext4.writeFile name data = (ext4', .ok ()) ∧ fs' = { fs with ext4 := some ext4' } := by
  simp only [writeFileOwned, hext4, Prod.mk.injEq] at h
  obtain ⟨hfs, hok⟩ := h
  refine ⟨(ext4.writeFile name data).1, Prod.ext rfl ?_, hfs.symm⟩
  cases hdone : (ext4.writeFile name data).2 with
  | ok done => rfl
  | error e =>
    rw [hdone] at hok
    cases hok

/-- With ext4 what was written is read back exactly if it covers the old content. -/
lemma read_written_iff (arch : Mm.Arch) {ext4 : Ext4Store} (hext4 : fs.ext4 = some ext4)
    (h : fs.writeFileOwned name data = (fs', .ok ())) :
    fs'.readFileOwned arch name = some data ↔ Covers arch (ext4.contents name) data := by
  obtain ⟨ext4', hwrite, rfl⟩ := writeFileOwned_disk hext4 h
  rw [readFileOwned, bind_some,
    (Ext4Store.readFile_writeFile arch hwrite name).1 (.refl ext4 name), some_or, some_inj,
    cap_overwrite_eq_iff]

lemma write_coherent_iff (h : fs.writeFileOwned name data = (fs', .ok ())) :
    Coherent arch fs name (.write data) fs' ↔ fs.WriteClear arch name data := by
  cases hext4 : fs.ext4 with
  | none =>
    have hread : ∀ other, fs'.readFileOwned arch other =
        (fs.readFat32 other).or (update fs.ram.read name (some data) other) := by
      intro other
      rw [← writeFileOwned_memory hext4, h]
    have helse : ∀ other, other ≠ name →
        fs'.readFileOwned arch other = fs.readFileOwned arch other := by
      intro other hother
      rw [hread, update_of_ne hother, readFileOwned, hext4]
      rfl
    have hhere : fs'.readFileOwned arch name = some data ↔
        ∀ bytes, fs.readFat32 name = some bytes → bytes = data := by
      rw [hread, update_self]
      cases fs.readFat32 name <;> simp
    simp only [WriteClear, hext4]
    exact ⟨fun hco => hhere.mp hco.here, fun hclear => ⟨hhere.mpr hclear, helse⟩⟩
  | some ext4 =>
    obtain ⟨ext4', hwrite, rfl⟩ := writeFileOwned_disk hext4 h
    have hread := Ext4Store.readFile_writeFile arch hwrite
    have hhere := read_written_iff arch hext4 h
    simp only [WriteClear, hext4]
    constructor
    · intro hco
      refine ⟨hhere.mp hco.here, ?_⟩
      intro other hother hsame
      rw [← hco.elsewhere other hother, readFileOwned, bind_some, (hread other).1 hsame,
        (cap_overwrite_eq_iff ..).mpr (hhere.mp hco.here), some_or]
    · intro ⟨hcovers, hpaths⟩
      refine ⟨hhere.mpr hcovers, ?_⟩
      intro other hother
      by_cases hsame : ext4.SameFile name other
      · rw [hpaths other hother hsame, readFileOwned, bind_some, (hread other).1 hsame,
          (cap_overwrite_eq_iff ..).mpr hcovers, some_or]
      · rw [readFileOwned, bind_some, (hread other).2 hsame, readFileOwned, hext4]
        rfl

lemma readFileOwned_eq_none_iff : fs.readFileOwned arch name = none ↔
    fs.ext4.bind (·.readFile arch name) = none ∧ fs.readFat32 name = none ∧
      fs.ram.read name = none := by
  rw [readFileOwned, or_eq_none_iff, or_eq_none_iff]

lemma deleteFile_eq (fs : Files) (name : Path) : (fs.deleteFile name).1 =
    { fs with ext4 := fs.ext4.map fun ext4 => (ext4.deleteFile name).1
              ram := (fs.ram.delete name).1 } := by
  simp [deleteFile, Option.map_map, Function.comp_def]

lemma readFileOwned_deleteFile_of_ne {other : Path} (hother : other ≠ name) :
    (fs.deleteFile name).1.readFileOwned arch other =
      ((fs.ext4.map fun ext4 => (ext4.deleteFile name).1).bind (·.readFile arch other)).or
        ((fs.readFat32 other).or (fs.ram.read other)) := by
  rw [deleteFile_eq, readFileOwned, FlatFileSystem.read_delete, update_of_ne hother]
  rfl

lemma readFileOwned_deleteFile_self (arch : Mm.Arch) (fs : Files) (name : Path) :
    (fs.deleteFile name).1.readFileOwned arch name = none ↔
      (fs.ext4.map fun ext4 => (ext4.deleteFile name).1).bind (·.readFile arch name) = none ∧
        fs.readFat32 name = none := by
  rw [readFileOwned_eq_none_iff, deleteFile_eq, FlatFileSystem.read_delete, update_self]
  simp [readFat32]

lemma delete_coherent_iff (h : fs.deleteFile name = (fs', .ok ())) :
    Coherent arch fs name .delete fs' ↔ fs.DeleteClear arch name := by
  obtain rfl : (fs.deleteFile name).1 = fs' := by rw [h]
  have hself := readFileOwned_deleteFile_self arch fs name
  cases hext4 : fs.ext4 with
  | none =>
    simp only [DeleteClear, hext4, and_true]
    rw [hext4] at hself
    refine ⟨fun hco => (hself.mp hco.here).2, fun hfat => ⟨hself.mpr ⟨rfl, hfat⟩, ?_⟩⟩
    intro other hother
    rw [readFileOwned_deleteFile_of_ne hother, readFileOwned, hext4]
    rfl
  | some ext4 =>
    simp only [DeleteClear, hext4]
    rw [hext4, map_some, bind_some] at hself
    obtain ⟨hunlink, dir, file, child, data, hlink, -, -, -, hdelete⟩ | ⟨hnot, e, hdelete⟩ :=
      ext4.deleteFile_cases name
    · have hread := Ext4Store.readFile_deleteFile arch hdelete
      rw [hdelete] at hself
      have helse : ∀ other, other ≠ name →
          ((fs.deleteFile name).1.readFileOwned arch other = fs.readFileOwned arch other ↔
            (ext4.slot other = ext4.slot name →
              fs.readFileOwned arch other = (fs.readFat32 other).or (fs.ram.read other))) := by
        intro other hother
        rw [readFileOwned_deleteFile_of_ne hother, hext4, map_some, bind_some, hdelete]
        by_cases hslot : ext4.slot other = ext4.slot name
        · rw [(hread other).1 hslot, none_or, eq_comm]
          exact (imp_iff_right hslot).symm
        · rw [(hread other).2 hslot]
          refine iff_of_true ?_ (absurd · hslot)
          rw [readFileOwned, hext4, bind_some]
      constructor
      · intro hco
        exact ⟨(hself.mp hco.here).2, .inl hunlink,
          fun _ other hother => (helse other hother).mp (hco.elsewhere other hother)⟩
      · intro ⟨hfat, _, hpaths⟩
        exact ⟨hself.mpr ⟨(hread name).1 rfl, hfat⟩,
          fun other hother => (helse other hother).mpr (hpaths hunlink other hother)⟩
    · rw [hdelete] at hself
      have helse : ∀ other, other ≠ name →
          (fs.deleteFile name).1.readFileOwned arch other = fs.readFileOwned arch other := by
        intro other hother
        rw [readFileOwned_deleteFile_of_ne hother, hext4, map_some, bind_some,
          hdelete, readFileOwned, hext4, bind_some]
      constructor
      · intro hco
        obtain ⟨hnone, hfat⟩ := hself.mp hco.here
        exact ⟨hfat, .inr hnone, (absurd · hnot)⟩
      · intro ⟨hfat, hgone, _⟩
        exact ⟨hself.mpr ⟨hgone.resolve_left hnot, hfat⟩, helse⟩

lemma coherent_iff_clear {op : Call} (h : fs.call name op = (fs', .ok ())) :
    Coherent arch fs name op fs' ↔ fs.Clear arch name op := by
  cases op with
  | write data => exact write_coherent_iff h
  | delete => exact delete_coherent_iff h

/-- A successful call is coherent exactly if it is clear of the other layers and
of the old content. -/
theorem call_coherent_iff (arch : Mm.Arch) (fs fs' : Files) (name : Path) (op : Call)
    (h : fs.call name op = (fs', .ok ())) : (fs'.readFileOwned arch name = op.result ∧
        ∀ other, other ≠ name → fs'.readFileOwned arch other = fs.readFileOwned arch other) ↔
      fs.Clear arch name op := by
  rw [← coherent_iff_clear h]
  exact ⟨fun hco => ⟨hco.1, hco.2⟩, fun hco => ⟨hco.here, hco.elsewhere⟩⟩

/-- A file is written to memory and read back from there past a FAT32 volume with another one. -/
theorem call_coherent_iff_fat32 : ∃ fs',
    (Files.mk none (some (update (fun _ => none) ['b'] (some [7]))) ⟨[⟨['a'], [5]⟩]⟩).call ['a']
      (.write [1, 2]) = (fs', .ok ()) ∧ fs'.readFileOwned .x86_64 ['a'] = some [1, 2] ∧
        fs'.readFileOwned .x86_64 ['b'] = some [7] := by
  refine ⟨_, rfl, ?_⟩
  obtain ⟨hhere, helsewhere⟩ := (call_coherent_iff .x86_64
    (Files.mk none (some (update (fun _ => none) ['b'] (some [7]))) ⟨[⟨['a'], [5]⟩]⟩) _ ['a']
    (.write [1, 2]) rfl).mpr (fun bytes hbytes => by cases hbytes)
  exact ⟨hhere, helsewhere ['b'] (by decide)⟩

end

def oneFile (name : Path) (data : List UInt8) (hname : name ≠ []) : Ext4Store where
  nodes := fun inode =>
    if inode = 2 then some (.dir 4096 fun entry => if entry = name then some 3 else none)
    else if inode = 3 then some (.file data)
    else none
  nextInode := 4
  root := ⟨4096, _, rfl⟩
  reserved := rfl
  linked := by
    intro dir node entry inode hnode hentry
    split at hnode
    · cases hnode
      simp only [Ext4Node.entry] at hentry
      split at hentry
      next hsame =>
        cases hentry
        exact ⟨hsame ▸ hname, rfl⟩
      · cases hentry
    · split at hnode
      · cases hnode
        cases hentry
      · cases hnode
  fresh := by
    intro inode hinode
    rw [if_neg (by omega), if_neg (by omega)]

/-- One byte written over a file of three bytes leaves the other two. -/
theorem short_write_leaves_tail :
    ∃ fs' : Files, (Files.mk (some (oneFile ['a'] [1, 2, 3] (by simp))) none ⟨[]⟩).call ['a']
        (.write [9]) = (fs', .ok ()) ∧
      ∀ arch, fs'.readFileOwned arch ['a'] = some [9, 2, 3] ∧
        fs'.readFileOwned arch ['a'] ≠ (Call.write [9]).result := by
  refine ⟨_, rfl, ?_⟩
  intro arch
  cases arch
  · exact ⟨rfl, by decide⟩
  · exact ⟨rfl, by decide⟩

end Files

end KarteOs.Driver

import Mathlib.Data.List.DropRight
import KarteOs.Driver.FdTable

/-! # The virtual file system

File systems are mounted at path prefixes and reached through a global table of
at most 64 open files. An operation of a file system may change its state and
still fail.
-/

namespace KarteOs.Driver

open Function List

universe u

inductive VfsError
  | notFound
  | alreadyExists
  | notADirectory
  | notAFile
  | permissionDenied
  | ioError
  | invalidParam
  | outOfMemory
  | directoryNotEmpty
deriving DecidableEq

/-- The operations of the `FileSystem` trait that opening, reading and writing use. -/
class FileSystem (fs : Type u) where
  rootInode : fs → Nat
  lookup : fs → Nat → Path → Except VfsError Nat
  /-- The bytes read at an offset, at most the given number. -/
  readFile : fs → Nat → Nat → Nat → Except VfsError (List UInt8)
  writeFile : fs → Nat → Nat → List UInt8 → fs × Except VfsError Nat
  createFile : fs → Nat → Path → fs × Except VfsError Nat
  setFileSize : fs → Nat → Nat → fs × Except VfsError Unit

structure OpenFile where
  mountId : Nat
  inode : Nat
  pos : Nat
  flags : Nat
  /-- The `open` call that filled the slot; the kernel does not record it. -/
  openId : Nat
deriving DecidableEq

structure OpenFileTable where
  files : List (Option OpenFile)

namespace OpenFileTable

def maxOpenFiles : Nat := 64

def new : OpenFileTable := ⟨[]⟩

variable (t : OpenFileTable)

def get (fd : Nat) : Option OpenFile :=
  (t.files[fd]?).join

def alloc (file : OpenFile) : OpenFileTable × Except VfsError Nat :=
  match t.files.findIdx? Option.isNone with
  | some fd => (⟨t.files.set fd (some file)⟩, .ok fd)
  | none =>
    if maxOpenFiles ≤ t.files.length then (t, .error .outOfMemory)
    else (⟨t.files ++ [some file]⟩, .ok t.files.length)

def close (fd : Nat) : OpenFileTable × Bool :=
  if (t.get fd).isSome then (⟨t.files.set fd none⟩, true) else (t, false)

def advance (fd count : Nat) : OpenFileTable :=
  ⟨t.files.modify fd (Option.map fun file => { file with pos := file.pos + count })⟩

variable {t : OpenFileTable}

lemma alloc_cases (t : OpenFileTable) (file : OpenFile) : t.alloc file = (t, .error .outOfMemory) ∨
      ∃ fd next, t.alloc file = (next, .ok fd) ∧ t.get fd = none ∧
        next.get = update t.get fd (some file) := by
  unfold alloc
  split
  next fd hfd =>
    obtain ⟨hlt, hnone, _⟩ := findIdx?_eq_some_iff_getElem.mp hfd
    rw [Option.isNone_iff_eq_none] at hnone
    refine .inr ⟨fd, _, rfl, by simp [get, getElem?_eq_getElem hlt, hnone], ?_⟩
    funext other
    rcases eq_or_ne other fd with rfl | hne
    · simp [get, hlt]
    · simp [get, getElem?_set_ne hne.symm, hne]
  · split
    · exact .inl rfl
    · refine .inr ⟨t.files.length, _, rfl, by simp [get], ?_⟩
      funext other
      rcases Nat.lt_trichotomy other t.files.length with hlt | rfl | hgt
      · simp [get, getElem?_append_left hlt, hlt.ne]
      · simp [get]
      · have hpast : (t.files ++ [some file]).length ≤ other := by simp; omega
        simp [get, getElem?_eq_none hpast, getElem?_eq_none hgt.le, hgt.ne']

lemma close_get (t : OpenFileTable) (fd : Nat) : (t.close fd).1.get = update t.get fd none := by
  funext other
  unfold close
  split
  · rcases eq_or_ne other fd with rfl | hne
    · by_cases hlt : other < t.files.length
      · simp [get, hlt]
      · simp [get, hlt]
    · simp [get, getElem?_set_ne hne.symm, hne]
  next hnone =>
    rcases eq_or_ne other fd with rfl | hne
    · simpa using hnone
    · simp [hne]

end OpenFileTable

structure MountEntry (fs : Type u) where
  mountPoint : Path
  fs : fs

structure VfsState (fs : Type u) where
  mounts : List (MountEntry fs)
  openFiles : OpenFileTable

def stripSlash : Path → Path
  | '/' :: rest => rest
  | path => path

def splitFilename (path : Path) : Except VfsError (Path × Path) :=
  if path = [] then .error .invalidParam
  else if '/' ∈ path then
    let name := path.rtakeWhile (· != '/')
    if name = [] then .error .invalidParam
    else .ok (path.take (path.length - name.length - 1), name)
  else .ok ([], path)

variable {fs : Type u} [FileSystem fs]

def walkPath (filesystem : fs) (path : Path) : Except VfsError Nat :=
  ((path.splitOn '/').filter (· != [])).foldlM (FileSystem.lookup filesystem)
    (FileSystem.rootInode filesystem)

namespace VfsState

def below (mountPoint trimmed : Path) : Option Path :=
  if mountPoint.isPrefixOf trimmed then
    match trimmed.drop mountPoint.length with
    | [] => some []
    | '/' :: rest => some rest
    | _ :: _ => none
  else none

/-- One round of the search for the longest matching mount point: the mount, the
length of its mount point and the path below it. -/
def betterMount (trimmed : Path) (best : Option (Nat × Nat × Path)) (mount : MountEntry fs × Nat) :
    Option (Nat × Nat × Path) :=
  let mountPoint := stripSlash mount.1.mountPoint
  if mountPoint = [] then
    if best.isNone then some (mount.2, 0, trimmed) else best
  else
    match below mountPoint trimmed with
    | some relative =>
      if best.all fun (_, length, _) => length < mountPoint.length then
        some (mount.2, mountPoint.length, relative)
      else best
    | none => best

def resolvePathLocked (s : VfsState fs) (path : Path) : Except VfsError (Nat × Path) :=
  if path = [] then .error .invalidParam
  else
    match s.mounts.zipIdx.foldl (betterMount (stripSlash path)) none with
    | some (mountId, _, relative) => .ok (mountId, relative)
    | none => .error .notFound

def setFs (s : VfsState fs) (mountId : Nat) (filesystem : fs) : VfsState fs :=
  { s with mounts := s.mounts.modify mountId fun mount => { mount with fs := filesystem } }

def allocFile (s : VfsState fs) (file : OpenFile) : VfsState fs × Except VfsError Nat :=
  let (openFiles, result) := s.openFiles.alloc file
  ({ s with openFiles }, result)

def findInode (filesystem : fs) (relative : Path) : Except VfsError Nat :=
  if relative = [] ∨ relative = ['/'] then .ok (FileSystem.rootInode filesystem)
  else walkPath filesystem relative

variable (s : VfsState fs)

def openExisting (mountId : Nat) (filesystem : fs) (inode flags openId : Nat) :
    VfsState fs × Except VfsError Nat :=
  if flags &&& oTrunc ≠ 0 then
    let (filesystem, result) := FileSystem.setFileSize filesystem inode 0
    match result with
    | .ok _ => (s.setFs mountId filesystem).allocFile ⟨mountId, inode, 0, flags, openId⟩
    | .error e => (s.setFs mountId filesystem, .error e)
  else s.allocFile ⟨mountId, inode, 0, flags, openId⟩

def openNew (mountId : Nat) (filesystem : fs) (relative : Path)
    (flags openId : Nat) : VfsState fs × Except VfsError Nat :=
  match splitFilename relative with
  | .error e => (s, .error e)
  | .ok (parentPath, fileName) =>
    match if parentPath = [] then .ok (FileSystem.rootInode filesystem)
        else walkPath filesystem parentPath with
    | .error e => (s, .error e)
    | .ok parentInode =>
      let (filesystem, result) := FileSystem.createFile filesystem parentInode fileName
      match result with
      | .ok inode => (s.setFs mountId filesystem).allocFile ⟨mountId, inode, 0, flags, openId⟩
      | .error _ => (s.setFs mountId filesystem, .error .ioError)

def openFile (path : Path) (flags openId : Nat) : VfsState fs × Except VfsError Nat :=
  match s.resolvePathLocked path with
  | .error e => (s, .error e)
  | .ok (mountId, relative) =>
    match s.mounts[mountId]? with
    | none => (s, .error .notFound)
    | some mount =>
      match findInode mount.fs relative with
      | .ok inode => s.openExisting mountId mount.fs inode flags openId
      | .error _ =>
        if flags &&& oCreat ≠ 0 then s.openNew mountId mount.fs relative flags openId
        else (s, .error .notFound)

def read (fd len : Nat) : VfsState fs × Except VfsError (List UInt8) :=
  match s.openFiles.get fd with
  | none => (s, .error .invalidParam)
  | some file =>
    if file.flags = oWronly then (s, .error .permissionDenied)
    else
      match s.mounts[file.mountId]? with
      | none => (s, .error .notFound)
      | some mount =>
        match FileSystem.readFile mount.fs file.inode file.pos len with
        | .error e => (s, .error e)
        | .ok bytes => ({ s with openFiles := s.openFiles.advance fd bytes.length }, .ok bytes)

def write (fd : Nat) (data : List UInt8) : VfsState fs × Except VfsError Nat :=
  match s.openFiles.get fd with
  | none => (s, .error .invalidParam)
  | some file =>
    if file.flags = oRdonly then (s, .error .permissionDenied)
    else
      match s.mounts[file.mountId]? with
      | none => (s, .error .notFound)
      | some mount =>
        let (filesystem, result) :=
          FileSystem.writeFile mount.fs file.inode file.pos data
        let s := s.setFs file.mountId filesystem
        match result with
        | .error e => (s, .error e)
        | .ok count => ({ s with openFiles := s.openFiles.advance fd count }, .ok count)

def close (fd : Nat) : VfsState fs × Bool :=
  let (openFiles, closed) := s.openFiles.close fd
  ({ s with openFiles }, closed)

variable {s : VfsState fs} {mountId : Nat}

/-- An attempt to open a file: on failure the open files stay as they are, on
success one slot that was free holds the file, on a mount that is there. -/
inductive OpenEffect (s : VfsState fs) (flags openId : Nat) :
    VfsState fs × Except VfsError Nat → Prop
  | failed {next : VfsState fs} (error : VfsError) (hfiles : next.openFiles = s.openFiles) :
      OpenEffect s flags openId (next, .error error)
  | opened {next : VfsState fs} {fd : Nat} {file : OpenFile} {mount : MountEntry fs}
      (hfree : s.openFiles.get fd = none)
      (hfiles : next.openFiles.get = update s.openFiles.get fd (some file))
      (hmount : next.mounts[file.mountId]? = some mount)
      (hpos : file.pos = 0) (hflags : file.flags = flags) (hopenId : file.openId = openId) :
      OpenEffect s flags openId (next, .ok fd)

omit [FileSystem fs] in
lemma allocFile_effect {next : VfsState fs} {inode flags openId : Nat} {mount : MountEntry fs}
    (hfiles : next.openFiles = s.openFiles) (hmount : next.mounts[mountId]? = some mount) :
    OpenEffect s flags openId (next.allocFile ⟨mountId, inode, 0, flags, openId⟩) := by
  obtain hfull | ⟨fd, openFiles, halloc, hfree, hget⟩ :=
    next.openFiles.alloc_cases ⟨mountId, inode, 0, flags, openId⟩
  · simp only [allocFile, hfull]
    exact .failed _ hfiles
  · simp only [allocFile, halloc]
    rw [hfiles] at hfree hget
    exact .opened hfree hget hmount rfl rfl rfl

omit [FileSystem fs] in
lemma setFs_mount {mount : MountEntry fs} (hmount : s.mounts[mountId]? = some mount)
    (filesystem : fs) :
    (s.setFs mountId filesystem).mounts[mountId]? = some { mount with fs := filesystem } := by
  simp [setFs, hmount]

lemma openFile_effect (s : VfsState fs) (path : Path) (flags openId : Nat) :
    OpenEffect s flags openId (s.openFile path flags openId) := by
  unfold openFile
  split
  · exact .failed _ rfl
  next mountId relative _ =>
    split
    · exact .failed _ rfl
    next mount hmount =>
      split
      next inode _ =>
        unfold openExisting
        split
        · simp only
          split
          · exact allocFile_effect rfl (setFs_mount hmount _)
          · exact .failed _ rfl
        · exact allocFile_effect rfl hmount
      · split
        · unfold openNew
          split
          · exact .failed _ rfl
          · split
            · exact .failed _ rfl
            · simp only
              split
              · exact allocFile_effect rfl (setFs_mount hmount _)
              · exact .failed _ rfl
        · exact .failed _ rfl

variable {fd : Nat} {file : OpenFile} {mount : MountEntry fs}
  (hfile : s.openFiles.get fd = some file)
include hfile

lemma write_refused (hflags : file.flags = oRdonly) (data : List UInt8) :
    s.write fd data = (s, .error .permissionDenied) := by
  simp [write, hfile, hflags]

lemma write_mounts (hflags : file.flags ≠ oRdonly) (hmount : s.mounts[file.mountId]? = some mount)
    (data : List UInt8) : (s.write fd data).1.mounts = (s.setFs file.mountId
      (FileSystem.writeFile mount.fs file.inode file.pos data).1).mounts := by
  simp only [write, hfile, hflags, if_false, hmount]
  split <;> rfl

lemma read_refused (hflags : file.flags = oWronly) (len : Nat) :
    s.read fd len = (s, .error .permissionDenied) := by
  simp [read, hfile, hflags]

lemma read_ok (hflags : file.flags ≠ oWronly) (hmount : s.mounts[file.mountId]? = some mount)
    {len : Nat} {bytes : List UInt8}
    (hbytes : FileSystem.readFile mount.fs file.inode file.pos len = .ok bytes) :
    s.read fd len = ({ s with openFiles := s.openFiles.advance fd bytes.length }, .ok bytes) := by
  simp [read, hfile, hflags, hmount, hbytes]

end VfsState

end KarteOs.Driver

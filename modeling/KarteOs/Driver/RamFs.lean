import KarteOs.Driver.Vfs

/-! # The in-memory file system

A tree of nodes under inode numbers. The data of a node may be part of the
kernel image or owned; both are byte lists here.
-/

namespace KarteOs.Driver

open List

structure RamFsNode where
  name : Path
  data : List UInt8
  isDir : Bool
  children : List Nat

structure RamFileSystem where
  nodes : Nat → Option RamFsNode
  nextInode : Nat

namespace RamFileSystem

def rootInode : Nat := 1

def new : RamFileSystem :=
  { nodes := Function.update (fun _ => none) rootInode
      (some { name := ['/'], data := [], isDir := true, children := [] })
    nextInode := 2 }

variable (fs : RamFileSystem)

def setNode (inode : Nat) (node : RamFsNode) : RamFileSystem :=
  { fs with nodes := Function.update fs.nodes inode (some node) }

def addChild (dir child : Nat) : RamFileSystem :=
  match fs.nodes dir with
  | none => fs
  | some node =>
    if child ∈ node.children then fs
    else fs.setNode dir { node with children := node.children ++ [child] }

def findChildByName (dir : Nat) (name : Path) : Option Nat :=
  match fs.nodes dir with
  | none => none
  | some node =>
    if node.isDir then
      node.children.find? fun child => (fs.nodes child).any fun entry => entry.name == name
    else none

def lookup (dir : Nat) (name : Path) : Except VfsError Nat :=
  match fs.findChildByName dir name with
  | some inode => .ok inode
  | none => .error .notFound

def readFile (inode offset len : Nat) : Except VfsError (List UInt8) :=
  match fs.nodes inode with
  | none => .error .notFound
  | some node =>
    if node.isDir then .error .notAFile else .ok ((node.data.drop offset).take len)

def resize (data : List UInt8) (size : Nat) : List UInt8 :=
  data.take size ++ List.replicate (size - data.length) 0

def overwrite (old : List UInt8) (offset : Nat) (data : List UInt8) : List UInt8 :=
  let owned := if old.length < offset + data.length then resize old (offset + data.length) else old
  owned.take offset ++ data ++ owned.drop (offset + data.length)

def writeFile (inode offset : Nat) (data : List UInt8) : RamFileSystem × Except VfsError Nat :=
  match fs.nodes inode with
  | none => (fs, .error .notFound)
  | some node =>
    if node.isDir then (fs, .error .notAFile)
    else
      (fs.setNode inode { node with data := overwrite node.data offset data }, .ok data.length)

def createFile (dir : Nat) (name : Path) : RamFileSystem × Except VfsError Nat :=
  match fs.nodes dir with
  | none => (fs, .error .notFound)
  | some parent =>
    if !parent.isDir then (fs, .error .notADirectory)
    else if (fs.findChildByName dir name).isSome then (fs, .error .alreadyExists)
    else
      let node : RamFsNode := { name, data := [], isDir := false, children := [] }
      let fs' := { fs with nextInode := fs.nextInode + 1 }.setNode fs.nextInode node
      (fs'.addChild dir fs.nextInode, .ok fs.nextInode)

def setFileSize (inode size : Nat) : RamFileSystem × Except VfsError Unit :=
  match fs.nodes inode with
  | none => (fs, .error .notFound)
  | some node =>
    if node.isDir then (fs, .error .notAFile)
    else (fs.setNode inode { node with data := resize node.data size }, .ok ())

end RamFileSystem

instance : FileSystem RamFileSystem where
  rootInode := fun _ => RamFileSystem.rootInode
  lookup := RamFileSystem.lookup
  readFile := RamFileSystem.readFile
  writeFile := RamFileSystem.writeFile
  createFile := RamFileSystem.createFile
  setFileSize := RamFileSystem.setFileSize

namespace RamFileSystem

lemma length_resize (data : List UInt8) (size : Nat) : (resize data size).length = size := by
  simp [resize]
  omega

lemma overwrite_window (old : List UInt8) (offset : Nat) (data : List UInt8) :
    ((overwrite old offset data).drop offset).take data.length = data := by
  have hroom : ∀ owned : List UInt8, offset + data.length ≤ owned.length →
      ((owned.take offset ++ data ++ owned.drop (offset + data.length)).drop offset).take
        data.length = data := by
    intro owned hlen
    have htake : (owned.take offset).length = offset := by
      rw [length_take]
      omega
    rw [append_assoc, drop_left' htake, take_left' rfl]
  unfold overwrite
  dsimp only
  split
  · exact hroom _ (length_resize ..).ge
  next hlong => exact hroom _ (Nat.le_of_not_lt hlong)

lemma overwrite_zero (old data : List UInt8) :
    overwrite old 0 data = data ++ old.drop data.length := by
  unfold overwrite
  dsimp only
  split
  next hshort =>
    rw [drop_eq_nil_of_le (length_resize ..).le, drop_eq_nil_of_le (by omega)]
    simp
  · simp

end RamFileSystem

end KarteOs.Driver

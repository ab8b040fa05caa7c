import KarteOs.Foundation.PathWalk
import KarteOs.Driver.RamFs
import KarteOs.Mm.Pte

/-! # Whole-file operations on ext4

The mounted volume is a correct store: inodes that are files or directories, with
`create`, `unlink`, `read_at` and `write_at` meaning what POSIX says. A directory
keeps its size, which is only read when a path names the directory itself. The
code above the store resolves a path, reads a whole file and writes or deletes
one.
-/

namespace KarteOs.Driver

open PathWalk Function RamFileSystem List Option

inductive Ext4Node
  | file (data : List UInt8)
  | dir (size : Nat) (entries : Path → Option Nat)

namespace Ext4Node

def size : Ext4Node → Nat
  | file data => data.length
  | dir size _ => size

def entry : Ext4Node → Path → Option Nat
  | file _, _ => none
  | dir _ entries, name => entries name

def setData (data : List UInt8) : Ext4Node → Ext4Node
  | file _ => file data
  | dir size entries => dir size entries

def setEntry (name : Path) (target : Option Nat) : Ext4Node → Ext4Node
  | file data => file data
  | dir size entries => dir size (update entries name target)

@[simp] lemma entry_setData (node : Ext4Node) (data : List UInt8) :
    (node.setData data).entry = node.entry := by
  cases node <;> rfl

end Ext4Node

/-- The volume. Inode 0 is never used, every entry has a name and leads to an
inode in use, and the inodes from `nextInode` on are free. -/
structure Ext4Store where
  nodes : Nat → Option Ext4Node
  nextInode : Nat
  root : ∃ size entries, nodes 2 = some (.dir size entries)
  reserved : nodes 0 = none
  linked : ∀ dir node name inode, nodes dir = some node → node.entry name = some inode →
    name ≠ [] ∧ (nodes inode).isSome
  fresh : ∀ inode, nextInode ≤ inode → nodes inode = none

namespace Ext4Store

def rootInode : Nat := 2

/-- The inode a directory lists under a name; nothing is listed in a file. -/
def entry (fs : Ext4Store) (dir : Nat) (name : Path) : Option Nat :=
  (fs.nodes dir).bind (·.entry name)

variable (fs : Ext4Store)

def modify (inode : Nat) (change : Ext4Node → Ext4Node)
    (hdir : ∀ size entries, ∃ entries', change (.dir size entries) = .dir size entries')
    (hlinked : ∀ node name target, fs.nodes inode = some node →
      (change node).entry name = some target → name ≠ [] ∧ (fs.nodes target).isSome) :
    Ext4Store where
  nodes := update fs.nodes inode ((fs.nodes inode).map change)
  nextInode := fs.nextInode
  root := by
    obtain ⟨size, entries, hroot⟩ := fs.root
    by_cases h : inode = 2
    · subst h
      obtain ⟨entries', hchange⟩ := hdir size entries
      exact ⟨size, entries', by simp [hroot, hchange]⟩
    · exact ⟨size, entries, by rw [update_of_ne (Ne.symm h), hroot]⟩
  reserved := by
    by_cases h : inode = 0
    · subst h
      simp [fs.reserved]
    · rw [update_of_ne (Ne.symm h), fs.reserved]
  linked := by
    intro dir node name target hnode hentry
    have hused : (update fs.nodes inode ((fs.nodes inode).map change) target).isSome =
        (fs.nodes target).isSome := by
      by_cases h : target = inode
      · subst h
        simp
      · rw [update_of_ne h]
    rw [hused]
    by_cases h : dir = inode
    · subst h
      rw [update_self, Option.map_eq_some_iff] at hnode
      obtain ⟨old, hold, rfl⟩ := hnode
      exact hlinked old name target hold hentry
    · rw [update_of_ne h] at hnode
      exact fs.linked dir node name target hnode hentry
  fresh := by
    intro other hother
    by_cases h : other = inode
    · subst h
      simp [fs.fresh other hother]
    · rw [update_of_ne h, fs.fresh other hother]

def setData (inode : Nat) (data : List UInt8) : Ext4Store :=
  fs.modify inode (·.setData data) (fun _ entries => ⟨entries, rfl⟩) (by
    intro node name target hnode hentry
    rw [Ext4Node.entry_setData] at hentry
    exact fs.linked inode node name target hnode hentry)

def link (dir : Nat) (name : Path) (target : Option Nat)
    (htarget : ∀ inode, target = some inode → name ≠ [] ∧ (fs.nodes inode).isSome) :
    Ext4Store :=
  fs.modify dir (·.setEntry name target)
    (fun _ entries => ⟨update entries name target, rfl⟩) (by
      intro node key inode hnode hentry
      cases node with
      | file data => cases hentry
      | dir size entries =>
        by_cases hkey : key = name
        · subst hkey
          exact htarget inode (by simpa [Ext4Node.setEntry, Ext4Node.entry] using hentry)
        · rw [Ext4Node.setEntry, Ext4Node.entry, update_of_ne hkey] at hentry
          exact fs.linked dir _ key inode hnode hentry)

lemma lt_nextInode {inode : Nat} (hused : (fs.nodes inode).isSome) : inode < fs.nextInode := by
  by_contra h
  rw [fs.fresh inode (Nat.le_of_not_lt h)] at hused
  cases hused

lemma rootInode_lt_nextInode : 2 < fs.nextInode := by
  obtain ⟨size, entries, hroot⟩ := fs.root
  exact fs.lt_nextInode (by rw [hroot]; rfl)

def addFile : Ext4Store where
  nodes := update fs.nodes fs.nextInode (some (.file []))
  nextInode := fs.nextInode + 1
  root := by
    obtain ⟨size, entries, hroot⟩ := fs.root
    have hne : 2 ≠ fs.nextInode := fs.rootInode_lt_nextInode.ne
    exact ⟨size, entries, by rw [update_of_ne hne, hroot]⟩
  reserved := by
    have hlt := fs.rootInode_lt_nextInode
    rw [update_of_ne (by omega), fs.reserved]
  linked := by
    intro dir node name inode hnode hentry
    by_cases h : dir = fs.nextInode
    · subst h
      rw [update_self] at hnode
      cases hnode
      cases hentry
    · rw [update_of_ne h] at hnode
      obtain ⟨hname, hused⟩ := fs.linked dir node name inode hnode hentry
      rw [update_of_ne (fs.lt_nextInode hused).ne]
      exact ⟨hname, hused⟩
  fresh := by
    intro inode hinode
    rw [update_of_ne (by omega), fs.fresh inode (by omega)]

def create (dir : Nat) (name : Path) : Ext4Store × Except VfsError Nat :=
  match fs.nodes dir with
  | some (.dir _ entries) =>
    if hname : name ≠ [] ∧ entries name = none then
      (fs.addFile.link dir name (some fs.nextInode) (by
        intro inode hinode
        cases hinode
        exact ⟨hname.1, by simp [addFile]⟩), .ok fs.nextInode)
    else (fs, .error .ioError)
  | _ => (fs, .error .ioError)

def unlink (dir : Nat) (name : Path) : Ext4Store × Except VfsError Unit :=
  match fs.entry dir name with
  | none => (fs, .error .notFound)
  | some child =>
    match fs.nodes child with
    | some (.file _) =>
      (fs.link dir name none (by
        intro inode hinode
        cases hinode), .ok ())
    | _ => (fs, .error .ioError)

def readAt (inode offset len : Nat) : Except VfsError (List UInt8) :=
  match fs.nodes inode with
  | some (.file data) => .ok ((data.drop offset).take len)
  | _ => .error .ioError

def writeAt (inode offset : Nat) (data : List UInt8) : Ext4Store × Except VfsError Nat :=
  match fs.nodes inode with
  | some (.file old) =>
    (fs.setData inode (overwrite old offset data), .ok data.length)
  | _ => (fs, .error .ioError)

/-- One turn of the loop over `name.split('/')`: an empty part is skipped. -/
def lookupPart (dir : Nat) (component : Path) : Except VfsError Nat :=
  if component = [] then .ok dir
  else
    match fs.entry dir component with
    | some inode => .ok inode
    | none => .error .notFound

def lookup (dir : Nat) (name : Path) : Except VfsError Nat :=
  (name.splitOn '/').foldlM fs.lookupPart dir

def splitLastComponent (path : Path) : Path × Path :=
  match path.reverse.dropWhile (· ≠ '/') with
  | [] => ([], path)
  | _ :: parent => (parent.reverse, (path.reverse.takeWhile (· ≠ '/')).reverse)

def tooLarge : Mm.Arch → Nat → Bool
  | .x86_64, size => 16 * 1024 * 1024 < size
  | .riscv64, _ => false

def readFile (arch : Mm.Arch) (fs : Ext4Store) (name : Path) : Option (List UInt8) :=
  match fs.lookup rootInode name with
  | .error _ => none
  | .ok inode =>
    match fs.nodes inode with
    | none => none
    | some node =>
      if node.size = 0 ∨ tooLarge arch node.size then some []
      else (fs.readAt inode 0 node.size).toOption

def parentInode (parentPath : Path) : Except VfsError Nat :=
  if parentPath = [] then .ok rootInode else fs.lookup rootInode parentPath

def writeFile (name : Path) (data : List UInt8) : Ext4Store × Except String Unit :=
  let inode := (fs.lookup rootInode name).toOption.getD 0
  if inode ≠ 0 then
    match fs.writeAt inode 0 data with
    | (fs', .ok _) => (fs', .ok ())
    | (fs', .error _) => (fs', .error "ext4 write failed")
  else
    match fs.parentInode (splitLastComponent name).1 with
    | .error _ => (fs, .error "ext4: parent directory not found")
    | .ok parent =>
      match fs.create parent (splitLastComponent name).2 with
      | (fs', .error _) => (fs', .error "ext4 create failed")
      | (fs', .ok inode) =>
        match fs'.writeAt inode 0 data with
        | (fs'', .ok _) => (fs'', .ok ())
        | (fs'', .error _) => (fs'', .error "ext4 write failed")

def deleteFile (name : Path) : Ext4Store × Except String Unit :=
  match fs.parentInode (splitLastComponent name).1 with
  | .error _ => (fs, .error "ext4: parent directory not found")
  | .ok parent =>
    match fs.unlink parent (splitLastComponent name).2 with
    | (fs', .ok _) => (fs', .ok ())
    | (fs', .error _) => (fs', .error "ext4 unlink failed")

/-! ## What a path names -/

def components (name : Path) : List Path := (name.splitOn '/').filter (· ≠ [])

def target (name : Path) : Option Nat :=
  walk fs.entry rootInode (components name)

def slot (name : Path) : Option (Nat × Path) :=
  lastEdge fs.entry rootInode (components name)

lemma lookup_eq (dir : Nat) (name : Path) : fs.lookup dir name =
    match walk fs.entry dir (components name) with
    | some inode => .ok inode
    | none => .error .notFound := by
  unfold lookup components
  induction name.splitOn '/' generalizing dir with
  | nil => rfl
  | cons part parts ih =>
    rw [foldlM_cons, lookupPart]
    by_cases hpart : part = []
    · rw [if_pos hpart, filter_cons_of_neg (by simpa using hpart)]
      exact ih dir
    · rw [if_neg hpart, filter_cons_of_pos (by simpa using hpart), walk_cons]
      cases fs.entry dir part with
      | none => rfl
      | some inode => exact ih inode

lemma lookup_toOption (name : Path) : (fs.lookup rootInode name).toOption = fs.target name := by
  rw [lookup_eq, target]
  cases walk fs.entry rootInode (components name) <;> rfl

lemma splitLastComponent_cases (path : Path) : (splitLastComponent path = ([], path) ∧ '/' ∉ path) ∨
      ∃ parent file, splitLastComponent path = (parent, file) ∧ '/' ∉ file ∧
        path = parent ++ '/' :: file := by
  have hsplit := takeWhile_append_dropWhile (p := (· ≠ '/')) (l := path.reverse)
  unfold splitLastComponent
  cases hdrop : path.reverse.dropWhile (· ≠ '/') with
  | nil =>
    refine .inl ⟨rfl, ?_⟩
    rw [dropWhile_eq_nil_iff] at hdrop
    intro hslash
    simpa using hdrop '/' (mem_reverse.mpr hslash)
  | cons slash parent =>
    refine .inr ⟨_, _, rfl, ?_, ?_⟩
    · intro hslash
      simpa using mem_takeWhile_imp (mem_reverse.mp hslash)
    · have hslash : slash = '/' := by
        have hhead := head_dropWhile_not (· ≠ '/') (by rw [hdrop]; simp)
        simp only [hdrop, head_cons] at hhead
        simpa using hhead
      rw [hdrop, hslash] at hsplit
      have hrev := congrArg reverse hsplit
      simpa using hrev.symm

lemma components_splitLast (name : Path) :
    components name = components (splitLastComponent name).1 ++
      if (splitLastComponent name).2 = [] then [] else [(splitLastComponent name).2] := by
  have hfile : ∀ file : Path, '/' ∉ file → components file = if file = [] then [] else [file] := by
    intro file hslash
    rw [components, splitOn_eq_singleton hslash]
    by_cases h : file = [] <;> simp [h]
  obtain ⟨hsplit, hslash⟩ | ⟨parent, file, hsplit, hslash, rfl⟩ := splitLastComponent_cases name
  · rw [hsplit]
    exact hfile name hslash
  · rw [hsplit, ← hfile file hslash]
    simp [components, splitOn_append_cons_self]

lemma parentInode_toOption (fs : Ext4Store) (path : Path) :
    (fs.parentInode path).toOption = fs.target path := by
  unfold parentInode
  split
  next hempty =>
    subst hempty
    rfl
  · exact fs.lookup_toOption path

/-! ## What the operations change

For reading, a volume is its entries and the bytes each inode shows. -/

variable {fs : Ext4Store} {arch : Mm.Arch} {name : Path} {inode dir : Nat}

def cap (arch : Mm.Arch) (data : List UInt8) : List UInt8 :=
  if tooLarge arch data.length then [] else data

def shown (arch : Mm.Arch) (fs : Ext4Store) (inode : Nat) : Option (List UInt8) :=
  match fs.nodes inode with
  | none => none
  | some (.file data) => some (cap arch data)
  | some (.dir size _) => if size = 0 ∨ tooLarge arch size then some [] else none

lemma readFile_eq (fs : Ext4Store) (name : Path) :
    fs.readFile arch name = (fs.target name).bind (fs.shown arch) := by
  unfold readFile
  rw [lookup_eq, ← target]
  cases fs.target name with
  | none => rfl
  | some inode =>
    dsimp
    rw [shown]
    cases hnode : fs.nodes inode with
    | none => rfl
    | some node =>
      cases node with
      | dir size entries =>
        simp only [Ext4Node.size, readAt, hnode]
        rfl
      | file data =>
        simp only [Ext4Node.size, readAt, hnode, cap]
        by_cases hlarge : tooLarge arch data.length
        · simp [hlarge]
        · by_cases hempty : data = []
          · simp [hempty]
          · simp [hlarge, hempty, Except.toOption]

lemma target_used (htarget : fs.target name = some inode) : (fs.nodes inode).isSome := by
  have hwalk : ∀ (path : List Path) (start : Nat), (fs.nodes start).isSome →
      walk fs.entry start path = some inode → (fs.nodes inode).isSome := by
    intro path
    induction path with
    | nil =>
      intro start hstart hend
      rw [walk_nil] at hend
      exact some.inj hend ▸ hstart
    | cons part path ih =>
      intro start hstart hend
      rw [walk_cons, bind_eq_some_iff] at hend
      obtain ⟨next, hnext, hrest⟩ := hend
      rw [entry, bind_eq_some_iff] at hnext
      obtain ⟨node, hnode, hlisted⟩ := hnext
      exact ih next (fs.linked start node part next hnode hlisted).2 hrest
  obtain ⟨size, entries, hroot⟩ := fs.root
  exact hwalk _ _ (by rw [rootInode, hroot]; rfl) htarget

@[simp] lemma entry_setData (inode : Nat) (data : List UInt8) :
    (fs.setData inode data).entry = fs.entry := by
  funext dir name
  by_cases h : dir = inode
  · subst h
    simp only [entry, setData, modify, update_self, bind_map]
    congr 1
    funext node
    exact congrFun (Ext4Node.entry_setData node data) name
  · simp [entry, setData, modify, update_of_ne h]

lemma entry_link {size : Nat} {entries : Path → Option Nat} {target : Option Nat} {htarget}
    (hdir : fs.nodes dir = some (.dir size entries)) :
    (fs.link dir name target htarget).entry = redirect fs.entry dir name target := by
  funext other key
  by_cases hother : other = dir
  · subst hother
    simp only [entry, link, modify, redirect, update_self, hdir, map_some,
      bind_some, Ext4Node.setEntry, Ext4Node.entry]
    by_cases hkey : key = name
    · subst hkey
      simp
    · rw [update_of_ne hkey, update_of_ne hkey, entry, hdir]
      rfl
  · simp [entry, link, modify, redirect, update_of_ne hother]

@[simp] lemma entry_addFile : fs.addFile.entry = fs.entry := by
  funext dir name
  by_cases h : dir = fs.nextInode
  · subst h
    simp [entry, addFile, fs.fresh, Ext4Node.entry]
  · simp [entry, addFile, update_of_ne h]

lemma shown_setData {old data : List UInt8} (hfile : fs.nodes inode = some (.file old)) :
    (fs.setData inode data).shown arch = update (fs.shown arch) inode (some (cap arch data)) := by
  funext other
  by_cases h : other = inode
  · subst h
    simp [shown, setData, modify, hfile, Ext4Node.setData]
  · simp [shown, setData, modify, update_of_ne h]

@[simp] lemma shown_link {target : Option Nat} {htarget} :
    (fs.link dir name target htarget).shown arch = fs.shown arch := by
  funext other
  by_cases h : other = dir
  · subst h
    simp only [shown, link, modify, update_self]
    cases fs.nodes other with
    | none => rfl
    | some node => cases node <;> rfl
  · simp [shown, link, modify, update_of_ne h]

/-! ## Successful writes and deletions -/

variable {fs fs' : Ext4Store} {name file : Path} {data : List UInt8}

lemma slot_of_split {parent : Nat} (hparent : fs.target (splitLastComponent name).1 = some parent)
    (hfile : (splitLastComponent name).2 ≠ []) :
    fs.slot name = some (parent, (splitLastComponent name).2) := by
  rw [slot, components_splitLast, if_neg hfile, lastEdge_concat, ← target, hparent]
  rfl

lemma create_ok (h : fs.create dir file = (fs', .ok inode)) :
    inode = fs.nextInode ∧ file ≠ [] ∧ fs.entry dir file = none ∧
      (∃ size entries, fs.nodes dir = some (.dir size entries)) ∧
      ∃ hlink, fs' = fs.addFile.link dir file (some fs.nextInode) hlink := by
  unfold create at h
  split at h
  next size entries hdir =>
    split at h
    next hname =>
      cases h
      exact ⟨rfl, hname.1, by simp [entry, hdir, Ext4Node.entry, hname.2],
        ⟨size, entries, hdir⟩, _, rfl⟩
    · cases h
  · cases h

lemma writeFile_ok (h : fs.writeFile name data = (fs', .ok ())) :
    (∃ inode old, fs.target name = some inode ∧ fs.nodes inode = some (.file old) ∧
        fs' = fs.setData inode (overwrite old 0 data)) ∨
      fs.target name = none ∧ ∃ dir file hlink, fs.slot name = some (dir, file) ∧
        fs.entry dir file = none ∧ (∃ size entries, fs.nodes dir = some (.dir size entries)) ∧
        fs' = (fs.addFile.link dir file (some fs.nextInode) hlink).setData fs.nextInode
          (overwrite [] 0 data) := by
  unfold writeFile at h
  rw [lookup_toOption] at h
  cases htarget : fs.target name with
  | some inode =>
    have hzero : inode ≠ 0 := by
      intro h0
      have hused := target_used htarget
      rw [h0, fs.reserved] at hused
      cases hused
    simp only [htarget, getD_some, ne_eq, hzero, not_false_eq_true, if_true] at h
    unfold writeAt at h
    cases hnode : fs.nodes inode with
    | none => simp [hnode] at h
    | some node =>
      cases node with
      | dir size entries => simp [hnode] at h
      | file old =>
        simp only [hnode, Prod.mk.injEq, and_true] at h
        exact .inl ⟨inode, old, rfl, hnode, h.symm⟩
  | none =>
    simp only [htarget, getD_none, ne_eq, not_true_eq_false, if_false] at h
    have hparent := fs.parentInode_toOption (splitLastComponent name).1
    split at h
    · cases h
    next parent hok =>
      rw [hok] at hparent
      split at h
      · cases h
      next mid inode hcreate =>
        obtain ⟨rfl, hfile, hentry, ⟨size, entries, hdir⟩, hlink, rfl⟩ := create_ok hcreate
        have hne : fs.nextInode ≠ parent := (fs.lt_nextInode (by rw [hdir]; rfl)).ne'
        have hnew : (fs.addFile.link parent (splitLastComponent name).2 (some fs.nextInode)
            hlink).nodes fs.nextInode = some (.file []) := by
          simp [link, modify, update_of_ne hne, addFile]
        simp only [writeAt, hnew, Prod.mk.injEq, and_true] at h
        exact .inr ⟨rfl, parent, _, hlink, slot_of_split hparent.symm hfile, hentry,
          ⟨size, entries, hdir⟩, h.symm⟩

def contents (fs : Ext4Store) (name : Path) : List UInt8 :=
  match (fs.target name).bind fs.nodes with
  | some (.file data) => data
  | _ => []

/-- Two paths lead to one inode or, where there is none, name one entry. -/
def SameFile (fs : Ext4Store) (name other : Path) : Prop :=
  match fs.target name with
  | some inode => fs.target other = some inode
  | none => fs.slot other = fs.slot name

lemma SameFile.refl (fs : Ext4Store) (name : Path) : fs.SameFile name name := by
  unfold SameFile
  split
  next h => exact h
  · rfl

lemma leaf_of_file (hfile : fs.nodes inode = some (.file data)) : Leaf fs.entry inode := by
  intro part
  simp [entry, hfile, Ext4Node.entry]

lemma leaf_nextInode {next : Option Nat} (hused : (fs.nodes dir).isSome) :
    Leaf (redirect fs.entry dir file next) fs.nextInode := by
  intro part
  have hne : fs.nextInode ≠ dir := (fs.lt_nextInode hused).ne'
  rw [redirect_of_ne fun h => hne h.1, entry, fs.fresh _ (Nat.le_refl _)]
  rfl

lemma readFile_writeFile (arch : Mm.Arch) (h : fs.writeFile name data = (fs', .ok ()))
    (other : Path) : (fs.SameFile name other → fs'.readFile arch other =
        some (cap arch (overwrite (fs.contents name) 0 data))) ∧
      (¬fs.SameFile name other → fs'.readFile arch other = fs.readFile arch other) := by
  obtain ⟨inode, old, htarget, hnode, rfl⟩ |
    ⟨htarget, dir, file, hlink, hslot, hentry, ⟨size, entries, hdir⟩, rfl⟩ := writeFile_ok h
  · have hcontents : fs.contents name = old := by simp [contents, htarget, hnode]
    simp only [readFile_eq, target, entry_setData, shown_setData hnode, SameFile, hcontents]
    rw [← target, ← target, htarget]
    cases hother : fs.target other with
    | none => simp
    | some reached =>
      by_cases hsame : reached = inode
      · subst hsame
        simp
      · simp [hsame]
  · have hcontents : fs.contents name = [] := by simp [contents, htarget]
    have hused : (fs.nodes dir).isSome := by rw [hdir]; rfl
    have hdir' : fs.addFile.nodes dir = some (.dir size entries) := by
      simp [addFile, update_of_ne (fs.lt_nextInode hused).ne, hdir]
    have hnew : (fs.addFile.link dir file (some fs.nextInode) hlink).nodes fs.nextInode =
        some (.file []) := by
      simp [link, modify, update_of_ne (fs.lt_nextInode hused).ne', addFile]
    have hwalk : walk (redirect fs.entry dir file (some fs.nextInode)) rootInode
        (components other) =
          if fs.slot other = some (dir, file) then some fs.nextInode else fs.target other := by
      refine walk_redirect ?_ ?_ _
      · intro node hold
        rw [hentry] at hold
        cases hold
      · intro node hnode
        exact some.inj hnode ▸ leaf_nextInode hused
    simp only [readFile_eq, target, entry_setData, shown_setData hnew, entry_link hdir',
      entry_addFile, hwalk, shown_link, SameFile, hcontents]
    rw [← target, ← target, htarget, hslot]
    by_cases hsame : fs.slot other = some (dir, file)
    · simp [hsame]
    · simp only [hsame, if_false, false_implies, not_false_eq_true, forall_const, true_and]
      cases hother : fs.target other with
      | none => rfl
      | some reached =>
        have hne := (fs.lt_nextInode (target_used hother)).ne
        simp [hne, shown, addFile]

def Unlinkable (fs : Ext4Store) (name : Path) : Prop :=
  ∃ parent child data, fs.target (splitLastComponent name).1 = some parent ∧
    fs.entry parent (splitLastComponent name).2 = some child ∧
    fs.nodes child = some (.file data)

lemma entry_eq_some (hentry : fs.entry dir file = some inode) :
    file ≠ [] ∧ ∃ size entries, fs.nodes dir = some (.dir size entries) := by
  rw [entry, bind_eq_some_iff] at hentry
  obtain ⟨node, hnode, hlisted⟩ := hentry
  refine ⟨(fs.linked dir node file inode hnode hlisted).1, ?_⟩
  cases node with
  | file data => cases hlisted
  | dir size entries => exact ⟨size, entries, hnode⟩

lemma unlink_cases (fs : Ext4Store) (dir : Nat) (file : Path) :
    (∃ child data hlink, fs.entry dir file = some child ∧ fs.nodes child = some (.file data) ∧
        fs.unlink dir file = (fs.link dir file none hlink, .ok ())) ∨
      (¬∃ child data, fs.entry dir file = some child ∧ fs.nodes child = some (.file data)) ∧
        ∃ e, fs.unlink dir file = (fs, .error e) := by
  unfold unlink
  cases hentry : fs.entry dir file with
  | none =>
    refine .inr ⟨?_, _, rfl⟩
    rintro ⟨_, _, hchild, _⟩
    cases hchild
  | some child =>
    dsimp only
    split
    next data hfile =>
      exact .inl ⟨child, data, (by intro inode hnone; cases hnone), rfl, hfile, rfl⟩
    next hother =>
      refine .inr ⟨?_, _, rfl⟩
      rintro ⟨found, data, hchild, hfile⟩
      exact hother data (some.inj hchild ▸ hfile)

lemma deleteFile_cases (fs : Ext4Store) (name : Path) :
    (fs.Unlinkable name ∧ ∃ dir file child data hlink, fs.slot name = some (dir, file) ∧
        fs.entry dir file = some child ∧ fs.nodes child = some (.file data) ∧
        fs.deleteFile name = (fs.link dir file none hlink, .ok ())) ∨
      ¬fs.Unlinkable name ∧ ∃ e, fs.deleteFile name = (fs, .error e) := by
  have hparent := fs.parentInode_toOption (splitLastComponent name).1
  unfold deleteFile
  cases hlookup : fs.parentInode (splitLastComponent name).1 with
  | error e =>
    rw [hlookup] at hparent
    refine .inr ⟨?_, _, rfl⟩
    rintro ⟨parent, _, _, hfound, _⟩
    rw [hfound] at hparent
    cases hparent
  | ok parent =>
    rw [hlookup] at hparent
    obtain ⟨child, data, hlink, hentry, hnode, hunlink⟩ | ⟨hnot, e, hunlink⟩ :=
      fs.unlink_cases parent (splitLastComponent name).2
    · refine .inl ⟨⟨parent, child, data, hparent.symm, hentry, hnode⟩, parent, _, child, data,
        hlink, slot_of_split hparent.symm (entry_eq_some hentry).1, hentry, hnode, ?_⟩
      simp [hunlink]
    · refine .inr ⟨?_, "ext4 unlink failed", by simp [hunlink]⟩
      rintro ⟨other, child, data, hfound, hentry, hfile⟩
      rw [hfound] at hparent
      cases hparent
      exact hnot ⟨child, data, hentry, hfile⟩

lemma readFile_deleteFile (arch : Mm.Arch) (h : fs.deleteFile name = (fs', .ok ()))
    (other : Path) : (fs.slot other = fs.slot name → fs'.readFile arch other = none) ∧
      (fs.slot other ≠ fs.slot name → fs'.readFile arch other = fs.readFile arch other) := by
  obtain ⟨-, dir, file, child, data, hlink, hslot, hentry, hnode, hdelete⟩ | ⟨-, e, hdelete⟩ :=
    deleteFile_cases fs name
  · cases hdelete.symm.trans h
    obtain ⟨-, size, entries, hdir⟩ := entry_eq_some hentry
    have hwalk : walk (redirect fs.entry dir file none) rootInode (components other) =
        if fs.slot other = some (dir, file) then none else fs.target other := by
      refine walk_redirect ?_ ?_ _
      · intro node hold
        rw [hentry] at hold
        exact some.inj hold ▸ leaf_of_file hnode
      · intro node hnone
        cases hnone
    simp only [readFile_eq, target, entry_link hdir, hwalk, shown_link, hslot]
    rw [← target]
    by_cases hsame : fs.slot other = some (dir, file) <;> simp [hsame]
  · rw [hdelete] at h
    cases h

end Ext4Store

end KarteOs.Driver

import KarteOs.Driver.RamFs
import KarteOs.Foundation.DirTree

/-! # The in-memory file system stays a tree

The calls that change the tree: `create_file`, `create_dir`, `unlink` and
`create_path`, which makes the directories on its way. The counter of inode numbers
is taken to be unbounded; a run of `2 ^ 64` creations would exhaust it.
-/

namespace KarteOs.Driver

open Function List Option

namespace RamFileSystem

section
variable (fs : RamFileSystem) (dir : Nat)

def insert (node : RamFsNode) : RamFileSystem :=
  ({ fs with nextInode := fs.nextInode + 1 }.setNode fs.nextInode node).addChild dir fs.nextInode

def createDir (name : Path) : RamFileSystem × Except VfsError Nat :=
  match fs.nodes dir with
  | none => (fs, .error .notFound)
  | some parent =>
    if !parent.isDir then (fs, .error .notADirectory)
    else if (fs.findChildByName dir name).isSome then (fs, .error .alreadyExists)
    else (fs.insert dir { name, data := [], isDir := true, children := [] }, .ok fs.nextInode)

def removeChild (child : Nat) : RamFileSystem :=
  match fs.nodes dir with
  | none => fs
  | some node => fs.setNode dir { node with children := node.children.filter (· ≠ child) }

def detach (child : Nat) : RamFileSystem :=
  let fs := fs.removeChild dir child
  { fs with nodes := update fs.nodes child none }

def unlink (name : Path) : RamFileSystem × Except VfsError Unit :=
  match fs.findChildByName dir name with
  | none => (fs, .error .notFound)
  | some inode =>
    match fs.nodes inode with
    | none => (fs, .error .notFound)
    | some node =>
      if node.isDir ∧ node.children ≠ [] then (fs, .error .directoryNotEmpty)
      else (fs.detach dir inode, .ok ())

end

def parts (path : Path) : List Path :=
  ((if path.head? = some '/' then path.tail else path).splitOn '/').filter (· ≠ [])

/-- The loop of `walk_create_dirs`: enter the directories, and make those that do not exist. -/
def enterDirs : RamFileSystem → Nat → List Path → RamFileSystem × Except VfsError Nat
  | fs, dir, [] => (fs, .ok dir)
  | fs, dir, part :: rest =>
    match fs.findChildByName dir part with
    | some child =>
      match fs.nodes child with
      | none => (fs, .error .notFound)
      | some node =>
        if !node.isDir then (fs, .error .notADirectory) else enterDirs fs child rest
    | none =>
      match fs.createDir dir part with
      | (fs, .ok child) => enterDirs fs child rest
      | (fs, .error error) => (fs, .error error)

def walkCreateDirs (fs : RamFileSystem) (path : Path) :
    RamFileSystem × Except VfsError (Nat × Path) :=
  match (parts path).getLast? with
  | none => (fs, .error .invalidParam)
  | some name =>
    match fs.enterDirs rootInode (parts path).dropLast with
    | (fs, .ok dir) => (fs, .ok (dir, name))
    | (fs, .error error) => (fs, .error error)

def createPath (fs : RamFileSystem) (path : Path) (data : List UInt8) :
    RamFileSystem × Except VfsError Unit :=
  match fs.walkCreateDirs path with
  | (fs, .error error) => (fs, .error error)
  | (fs, .ok (dir, name)) =>
    match (fs.findChildByName dir name).bind fun i => (fs.nodes i).map (i, ·) with
    | some (existing, node) => (fs.setNode existing { node with data }, .ok ())
    | none => (fs.insert dir { name, data, isDir := false, children := [] }, .ok ())

def Lists (fs : RamFileSystem) (dir child : Nat) : Prop :=
  ∃ node, fs.nodes dir = some node ∧ child ∈ node.children

def nameOf (fs : RamFileSystem) (inode : Nat) : Option Path := (fs.nodes inode).map RamFsNode.name

/-- The nodes are a tree under the root, only directories have children, and no child is listed
twice. -/
structure IsTree (fs : RamFileSystem) : Prop where
  tree : DirTree.Tree {i | (fs.nodes i).isSome} fs.Lists fs.nameOf rootInode fs.nextInode
  root_dir : ∀ node, fs.nodes rootInode = some node → node.isDir = true
  files : ∀ i node, fs.nodes i = some node → node.isDir = false → node.children = []
  nodup : ∀ i node, fs.nodes i = some node → node.children.Nodup

variable {fs : RamFileSystem} {dir c : Nat} {name : Path} {parent node : RamFsNode}

section
variable (h : fs.IsTree)
include h

lemma IsTree.not_mem : fs.nodes fs.nextInode = none := not_isSome_iff_eq_none.mp h.tree.next_not_mem

lemma IsTree.dir_ne (hdir : fs.nodes dir = some parent) : fs.nextInode ≠ dir := by
  rintro rfl
  exact some_ne_none _ (hdir.symm.trans h.not_mem)

lemma IsTree.setData {inode : Nat} (hnode : fs.nodes inode = some node) (data : List UInt8) :
    (fs.setNode inode { node with data }).IsTree := by
  -- every node has the same name, kind and children as before
  have hsame : ∀ i, (fs.setNode inode { node with data }).nodes i =
      (fs.nodes i).map fun n => if i = inode then { n with data } else n := by
    intro i
    rcases eq_or_ne i inode with rfl | hne
    · simp [setNode, hnode]
    · simp [setNode, hne]
  have hfields : ∀ i n, (fs.setNode inode { node with data }).nodes i = some n →
      ∃ old, fs.nodes i = some old ∧ old.isDir = n.isDir ∧ old.children = n.children := by
    intro i n hn
    obtain ⟨old, hold, rfl⟩ := map_eq_some_iff.mp ((hsame i).symm.trans hn)
    refine ⟨old, hold, ?_⟩
    split <;> exact ⟨rfl, rfl⟩
  have hlists : (fs.setNode inode { node with data }).Lists = fs.Lists := by
    funext d c
    simp only [Lists, hsame, map_eq_some_iff, eq_iff_iff]
    constructor
    · rintro ⟨_, ⟨old, hold, rfl⟩, hc⟩
      exact ⟨old, hold, by split at hc <;> exact hc⟩
    · rintro ⟨old, hold, hc⟩
      exact ⟨_, ⟨old, hold, rfl⟩, by split <;> exact hc⟩
  have hname : (fs.setNode inode { node with data }).nameOf = fs.nameOf := by
    funext i
    rw [nameOf, hsame, Option.map_map, nameOf]
    congr 1
    funext n
    rw [Function.comp_apply]
    split <;> rfl
  refine ⟨?_, fun n hn => ?_, fun i n hn hfile => ?_, fun i n hn => ?_⟩
  · simp only [hlists, hname, hsame, isSome_map]
    exact h.tree
  · obtain ⟨old, hold, hdir, -⟩ := hfields _ n hn
    exact hdir ▸ h.root_dir old hold
  · obtain ⟨old, hold, hdir, hchildren⟩ := hfields i n hn
    exact hchildren ▸ h.files i old hold (hdir.trans hfile)
  · obtain ⟨old, hold, -, hchildren⟩ := hfields i n hn
    exact hchildren ▸ h.nodup i old hold

variable (hdir : fs.nodes dir = some parent)
include hdir

lemma IsTree.insert_nodes (i : Nat) : (fs.insert dir node).nodes i =
    if i = dir then some { parent with children := parent.children ++ [fs.nextInode] }
    else if i = fs.nextInode then some node else fs.nodes i := by
  have hne := (h.dir_ne hdir).symm
  have hnew : fs.nextInode ∉ parent.children := fun hmem =>
    h.tree.listed_ne_next ⟨parent, hdir, hmem⟩ rfl
  simp [insert, addChild, setNode, update_of_ne hne, hdir, if_neg hnew, update_apply]

lemma IsTree.insert_made : (fs.insert dir node).nodes fs.nextInode = some node := by
  rw [h.insert_nodes hdir, if_neg (h.dir_ne hdir), if_pos rfl]

lemma IsTree.insert (hisDir : parent.isDir)
    (hempty : node.children = []) (hname : ∀ c ∈ parent.children, fs.nameOf c ≠ some node.name) :
    (fs.insert dir node).IsTree := by
  have hnodes : ∀ i, (fs.insert dir node).nodes i = _ := h.insert_nodes hdir
  have hnew := h.not_mem
  have hmem : dir ∈ {i | (fs.nodes i).isSome} := by simp [hdir]
  have hself : (fs.insert dir node).nameOf fs.nextInode = some node.name := by
    simp only [nameOf, hnodes]
    split_ifs <;> simp_all
  have hnext : (fs.insert dir node).nextInode = fs.nextInode + 1 := by
    simp only [RamFileSystem.insert, addChild]
    split
    · rfl
    · split <;> rfl
  refine ⟨hnext ▸ h.tree.insert hmem (fun i => ?_) (fun d c => ?_) (fun i hi => ?_) fun c hc => ?_,
    fun n hn => ?_, fun i n hn hfile => ?_, fun i n hn => ?_⟩
  · change ((fs.insert dir node).nodes i).isSome ↔ (fs.nodes i).isSome ∨ _
    rw [hnodes]
    split_ifs <;> simp_all
  · simp only [Lists, hnodes]
    split_ifs <;> simp_all
  · simp only [nameOf, hnodes]
    split_ifs <;> simp_all
  · obtain ⟨_, hsame, hc⟩ := hc
    cases hdir.symm.trans hsame
    exact hself ▸ hname c hc
  · rw [hnodes] at hn
    split_ifs at hn with _ hroot
    · exact some.inj hn ▸ hisDir
    · exact absurd h.tree.root_mem (hroot ▸ h.tree.next_not_mem)
    · exact h.root_dir n hn
  · rw [hnodes] at hn
    split_ifs at hn
    · cases hn
      cases hfile.symm.trans hisDir
    · exact some.inj hn ▸ hempty
    · exact h.files i n hn hfile
  · rw [hnodes] at hn
    split_ifs at hn
    · cases hn
      refine nodup_append.mpr ⟨h.nodup dir parent hdir, nodup_singleton _, ?_⟩
      rintro c hc _ hlast rfl
      exact h.tree.listed_ne_next ⟨parent, hdir, hc⟩ (mem_singleton.mp hlast)
    · cases hn
      rw [hempty]
      exact nodup_nil
    · exact h.nodup i n hn

end

lemma findChildByName_eq_some (hfind : fs.findChildByName dir name = some c) :
    ∃ parent, fs.nodes dir = some parent ∧ parent.isDir ∧ c ∈ parent.children ∧
      fs.nameOf c = some name := by
  unfold findChildByName at hfind
  split at hfind
  · cases hfind
  next parent hparent =>
    split at hfind
    next hisDir =>
      refine ⟨parent, hparent, hisDir, mem_of_find?_eq_some hfind, ?_⟩
      simpa [nameOf, Option.any_eq_true] using find?_some hfind
    · cases hfind

lemma findChildByName_eq_none (hdir : fs.nodes dir = some parent) (hisDir : parent.isDir)
    (hfind : fs.findChildByName dir name = none) (hc : c ∈ parent.children) :
    fs.nameOf c ≠ some name := by
  simp only [findChildByName, hdir, hisDir, if_true] at hfind
  simpa [nameOf, Option.any_eq_true] using find?_eq_none.mp hfind c hc

lemma IsTree.insert_of_find (h : fs.IsTree) (hdir : fs.nodes dir = some parent)
    (hisDir : parent.isDir) (hfind : fs.findChildByName dir node.name = none)
    (hempty : node.children = []) : (fs.insert dir node).IsTree :=
  h.insert hdir hisDir hempty fun _ hc => findChildByName_eq_none hdir hisDir hfind hc

lemma createDir_cases (fs : RamFileSystem) (dir : Nat) (name : Path) :
    (∃ error, fs.createDir dir name = (fs, .error error)) ∨
      ∃ parent, fs.nodes dir = some parent ∧ parent.isDir ∧ fs.findChildByName dir name = none ∧
        fs.createDir dir name = (fs.insert dir ⟨name, [], true, []⟩, .ok fs.nextInode) := by
  unfold createDir
  split
  · exact .inl ⟨_, rfl⟩
  next parent hparent =>
    split_ifs with hdir hfind
    · exact .inl ⟨_, rfl⟩
    · exact .inl ⟨_, rfl⟩
    · exact .inr ⟨parent, hparent, by simpa using hdir, by simpa using hfind, rfl⟩

section
variable (h : fs.IsTree)
include h

lemma IsTree.createDir (dir : Nat) (name : Path) : (fs.createDir dir name).1.IsTree := by
  obtain ⟨_, heq⟩ | ⟨parent, hparent, hisDir, hfind, heq⟩ := createDir_cases fs dir name
  · exact heq ▸ h
  · exact heq ▸ h.insert_of_find hparent hisDir hfind rfl

lemma IsTree.createFile (dir : Nat) (name : Path) : (fs.createFile dir name).1.IsTree := by
  unfold RamFileSystem.createFile
  split
  · exact h
  next parent hparent =>
    split_ifs with hdir hfind
    · exact h
    · exact h
    · exact h.insert_of_find hparent (by simpa using hdir) (by simpa using hfind) rfl

lemma IsTree.detach {child : Nat} (hdir : fs.nodes dir = some parent)
    (hisDir : parent.isDir) (hc : child ∈ parent.children)
    (hleaf : ∀ c, ¬fs.Lists child c) : (fs.detach dir child).IsTree := by
  have hnodes : ∀ i, (fs.detach dir child).nodes i = if i = child then none
      else if i = dir then some { parent with children := parent.children.filter (· ≠ child) }
      else fs.nodes i := by
    intro i
    simp [RamFileSystem.detach, removeChild, hdir, setNode, update_apply]
  have hnext : (fs.detach dir child).nextInode = fs.nextInode := by
    simp [RamFileSystem.detach, removeChild, hdir, setNode]
  have hne : dir ≠ child := fun heq => hleaf child ⟨parent, heq ▸ hdir, hc⟩
  have hroot := (h.tree.listed dir child ⟨parent, hdir, hc⟩).2
  refine ⟨hnext ▸ h.tree.remove hroot hleaf (fun i => ?_) (fun d c => ?_) fun i hi => ?_,
    fun n hn => ?_, fun i n hn hfile => ?_, fun i n hn => ?_⟩
  · change ((fs.detach dir child).nodes i).isSome ↔ (fs.nodes i).isSome ∧ _
    rw [hnodes]
    split_ifs <;> simp_all
  · simp only [Lists, hnodes]
    split_ifs with hd hd'
    · subst hd
      exact iff_of_false (by simp) fun hold => hleaf c hold.1
    · subst hd'
      simp [hdir]
    · -- no other directory lists the child
      refine ⟨fun ⟨n, hn, hmem⟩ => ⟨⟨n, hn, hmem⟩, ?_⟩, fun hold => hold.1⟩
      rintro rfl
      exact hd' (h.tree.unique c d dir ⟨n, hn, hmem⟩ ⟨parent, hdir, hc⟩)
  · simp only [nameOf, hnodes]
    split_ifs <;> simp_all
  · rw [hnodes] at hn
    split_ifs at hn
    · exact some.inj hn ▸ hisDir
    · exact h.root_dir n hn
  · rw [hnodes] at hn
    split_ifs at hn
    · cases hn
      cases hfile.symm.trans hisDir
    · exact h.files i n hn hfile
  · rw [hnodes] at hn
    split_ifs at hn
    · exact some.inj hn ▸ (h.nodup dir parent hdir).filter _
    · exact h.nodup i n hn

lemma IsTree.unlink (dir : Nat) (name : Path) : (fs.unlink dir name).1.IsTree := by
  unfold RamFileSystem.unlink
  split
  · exact h
  next inode hfind =>
    obtain ⟨parent, hdir, hisDir, hc, -⟩ := findChildByName_eq_some hfind
    split
    · exact h
    next node hnode =>
      split_ifs with hfull
      · exact h
      · have hempty : node.children = [] := by
          cases hkind : node.isDir with
          | true => simpa [hkind] using hfull
          | false => exact h.files inode node hnode hkind
        exact h.detach hdir hisDir hc (by simp [Lists, hnode, hempty])

lemma IsTree.enterDirs (hparent : fs.nodes dir = some parent) (hisDir : parent.isDir)
    (rest : List Path) :
    (fs.enterDirs dir rest).1.IsTree ∧ ∀ last, (fs.enterDirs dir rest).2 = .ok last →
      ∃ node, (fs.enterDirs dir rest).1.nodes last = some node ∧ node.isDir := by
  induction rest generalizing fs dir parent with
  | nil =>
    refine ⟨h, fun last hlast => ?_⟩
    obtain rfl := Except.ok.inj hlast
    exact ⟨parent, hparent, hisDir⟩
  | cons part rest ih =>
    rw [RamFileSystem.enterDirs]
    cases hfind : fs.findChildByName dir part with
    | some child =>
      dsimp only
      cases hchild : fs.nodes child with
      | none => exact ⟨h, nofun⟩
      | some node =>
        cases hkind : node.isDir with
        | false => simpa [hkind] using h
        | true => simpa [hkind] using ih h hchild hkind
    | none =>
      obtain ⟨_, heq⟩ | ⟨_, hsame, -, -, heq⟩ := createDir_cases fs dir part
      · simpa [heq] using h
      · cases hparent.symm.trans hsame
        rw [heq]
        exact ih (h.insert_of_find hparent hisDir hfind rfl) (h.insert_made hparent) rfl

lemma IsTree.exists_of_find (hfind : fs.findChildByName dir name = some c) :
    ∃ node, fs.nodes c = some node := by
  obtain ⟨parent, hdir, -, hc, -⟩ := findChildByName_eq_some hfind
  exact isSome_iff_exists.mp (h.tree.listed dir c ⟨parent, hdir, hc⟩).1

end

/-- What `create_path` does in the directory that it got to: it gives an existing node other bytes,
or it makes a file. -/
inductive Finishes (fs : RamFileSystem) (dir : Nat) (name : Path) (data : List UInt8) :
    RamFileSystem → Prop
  | overwrites {i : Nat} {node : RamFsNode} (hfind : fs.findChildByName dir name = some i)
      (hnode : fs.nodes i = some node) : Finishes fs dir name data (fs.setNode i { node with data })
  | makes {parent : RamFsNode} (hdir : fs.nodes dir = some parent) (hisDir : parent.isDir = true)
      (hfind : fs.findChildByName dir name = none) :
      Finishes fs dir name data (fs.insert dir { name, data, isDir := false, children := [] })

lemma IsTree.createPath_cases (h : fs.IsTree) (path : Path) (data : List UInt8) :
    (parts path = [] ∧ fs.createPath path data = (fs, .error .invalidParam)) ∨
      ∃ init name, parts path = init ++ [name] ∧
        ((∃ error, (fs.enterDirs rootInode init).2 = .error error ∧
            fs.createPath path data = ((fs.enterDirs rootInode init).1, .error error)) ∨
          ∃ dir next, (fs.enterDirs rootInode init).2 = .ok dir ∧
            Finishes (fs.enterDirs rootInode init).1 dir name data next ∧
            fs.createPath path data = (next, .ok ())) := by
  cases hlast : (parts path).getLast? with
  | none =>
    refine .inl ⟨getLast?_eq_none_iff.mp hlast, ?_⟩
    simp [createPath, walkCreateDirs, hlast]
  | some name =>
    refine .inr ⟨(parts path).dropLast, name, (dropLast_append_getLast? name hlast).symm, ?_⟩
    obtain ⟨root, hroot⟩ := isSome_iff_exists.mp h.tree.root_mem
    obtain ⟨htree, hdir⟩ := h.enterDirs hroot (h.root_dir root hroot) (parts path).dropLast
    simp only [createPath, walkCreateDirs, hlast]
    revert htree hdir
    rcases fs.enterDirs rootInode (parts path).dropLast with ⟨next, error | dir⟩
    · exact fun _ _ => .inl ⟨error, rfl, rfl⟩
    · intro htree hdir
      obtain ⟨parent, hparent, hisDir⟩ := hdir dir rfl
      cases hfind : next.findChildByName dir name with
      | none => exact .inr ⟨dir, _, rfl, .makes hparent hisDir hfind, by simp [hfind]⟩
      | some i =>
        obtain ⟨node, hnode⟩ := IsTree.exists_of_find htree hfind
        replace hnode : next.nodes i = some node := hnode
        exact .inr ⟨dir, _, rfl, .overwrites hfind hnode, by simp [hfind, hnode]⟩

lemma IsTree.createPath (h : fs.IsTree) (path : Path) (data : List UInt8) :
    (fs.createPath path data).1.IsTree := by
  obtain ⟨root, hroot⟩ := isSome_iff_exists.mp h.tree.root_mem
  obtain ⟨-, heq⟩ | ⟨init, name, -, hcases⟩ := h.createPath_cases path data
  · exact heq ▸ h
  · have htree := (h.enterDirs hroot (h.root_dir root hroot) init).1
    obtain ⟨error, -, heq⟩ | ⟨dir, next, -, hfinish, heq⟩ := hcases
    · exact heq ▸ htree
    · rw [heq]
      cases hfinish with
      | overwrites hfind hnode => exact htree.setData hnode data
      | makes hdir hisDir hfind => exact htree.insert_of_find hdir hisDir hfind rfl

inductive TreeCall
  | createFile (dir : Nat) (name : Path)
  | createDir (dir : Nat) (name : Path)
  | unlink (dir : Nat) (name : Path)
  | writeFile (inode offset : Nat) (data : List UInt8)
  | setFileSize (inode size : Nat)
  | createPath (path : Path) (data : List UInt8)

def apply (fs : RamFileSystem) : TreeCall → RamFileSystem
  | .createFile dir name => (fs.createFile dir name).1
  | .createDir dir name => (fs.createDir dir name).1
  | .unlink dir name => (fs.unlink dir name).1
  | .writeFile inode offset data => (fs.writeFile inode offset data).1
  | .setFileSize inode size => (fs.setFileSize inode size).1
  | .createPath path data => (fs.createPath path data).1

lemma IsTree.apply (h : fs.IsTree) (call : TreeCall) : (fs.apply call).IsTree := by
  cases call with
  | createFile dir name => exact h.createFile dir name
  | createDir dir name => exact h.createDir dir name
  | unlink dir name => exact h.unlink dir name
  | createPath path data => exact h.createPath path data
  | writeFile inode offset data =>
    simp only [RamFileSystem.apply, writeFile]
    split
    · exact h
    next node hnode =>
      split
      exacts [h, h.setData hnode _]
  | setFileSize inode size =>
    simp only [RamFileSystem.apply, setFileSize]
    split
    · exact h
    next node hnode =>
      split
      exacts [h, h.setData hnode _]

lemma isTree_new : new.IsTree := by
  have hnodes : ∀ i node, new.nodes i = some node → i = rootInode ∧ node.isDir ∧
      node.children = [] := by
    intro i node hnode
    rcases eq_or_ne i rootInode with rfl | hne
    · cases hnode
      exact ⟨rfl, rfl, rfl⟩
    · simp [new, hne] at hnode
  have hlists : ∀ dir c, ¬new.Lists dir c := by
    rintro dir c ⟨node, hnode, hc⟩
    rw [(hnodes dir node hnode).2.2] at hc
    cases hc
  have hsome : ∀ i ∈ {i | (new.nodes i).isSome}, i = rootInode := fun i hi => by
    obtain ⟨node, hnode⟩ := isSome_iff_exists.mp hi
    exact (hnodes i node hnode).1
  refine ⟨⟨rfl, fun i hi => hsome i hi ▸ (by decide), fun _ _ h => absurd h (hlists _ _),
    fun _ _ _ h => absurd h (hlists _ _), fun _ _ _ h => absurd h (hlists _ _),
    fun i hi => hsome i hi ▸ .refl⟩, fun n hn => (hnodes _ n hn).2.1,
    fun i n hn _ => (hnodes i n hn).2.2, fun i n hn => (hnodes i n hn).2.2 ▸ nodup_nil⟩

/-- Every sequence of calls leaves a tree, in which each node but the root is listed by exactly
one directory. -/
theorem run_isTree (calls : List TreeCall) :
    (calls.foldl apply new).IsTree ∧ ∀ i, ((calls.foldl apply new).nodes i).isSome →
      i ≠ rootInode → ∃! dir, (calls.foldl apply new).Lists dir i := by
  have hrun : ∀ fs : RamFileSystem, fs.IsTree → (calls.foldl apply fs).IsTree := by
    induction calls with
    | nil => exact fun _ h => h
    | cons call calls ih => exact fun fs h => ih _ (h.apply call)
  have htree := hrun new isTree_new
  exact ⟨htree, fun i hi hroot => htree.tree.existsUnique_entry hi hroot⟩

end RamFileSystem
end KarteOs.Driver

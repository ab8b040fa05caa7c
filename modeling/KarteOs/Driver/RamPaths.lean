import Mathlib.Data.List.Find
import KarteOs.Driver.RamTree

/-! # Writing and reading by path

`create_path` makes the directories on the way and then the file. What it reports
back must be readable under the path, and nothing else may read differently.
-/

namespace KarteOs.Driver

open List Option

namespace RamFileSystem

variable (fs : RamFileSystem)

def resolve (inode : Nat) (rest : List Path) : Option Nat :=
  rest.foldlM fs.findChildByName inode

def walkPath (path : Path) : Except VfsError Nat :=
  match fs.resolve rootInode (parts path) with
  | some inode => .ok inode
  | none => .error .notFound

def fileData (inode : Nat) : Option (List UInt8) :=
  (fs.nodes inode).bind fun node => if node.isDir then none else some node.data

def readPath (path : Path) : Option (List UInt8) :=
  match fs.walkPath path with
  | .ok inode => fs.fileData inode
  | .error _ => none

/-- A file that is created can be read back, other paths read as before, and a call that fails
has no effect. -/
def CreatesPath (path : Path) (data : List UInt8) : Prop :=
  match fs.createPath path data with
  | (next, .ok _) => next.readPath path = some data ∧
    ∀ other, next.walkPath other ≠ next.walkPath path → next.readPath other = fs.readPath other
  | (next, .error _) => next = fs

def NamesDir (path : Path) : Prop :=
  parts path ≠ [] ∧ ∃ inode node, fs.walkPath path = .ok inode ∧
    fs.nodes inode = some node ∧ node.isDir = true

def readParts (rest : List Path) : Option (List UInt8) :=
  (fs.resolve rootInode rest).bind fs.fileData

lemma readPath_eq (path : Path) : fs.readPath path = fs.readParts (parts path) := by
  rw [readPath, walkPath, readParts]
  cases fs.resolve rootInode (parts path) <;> rfl

lemma walkPath_eq_iff {fs : RamFileSystem} {path other : Path} :
    fs.walkPath other = fs.walkPath path ↔
      fs.resolve rootInode (parts other) = fs.resolve rootInode (parts path) := by
  rw [walkPath, walkPath]
  cases fs.resolve rootInode (parts other) <;> cases fs.resolve rootInode (parts path) <;> simp

variable {fs : RamFileSystem} {dir inode : Nat} {parent node : RamFsNode}

lemma resolve_cons (fs : RamFileSystem) (inode : Nat) (part : Path) (rest : List Path) :
    fs.resolve inode (part :: rest) =
      (fs.findChildByName inode part).bind fun child => fs.resolve child rest := rfl

lemma resolve_concat (fs : RamFileSystem) (inode : Nat) (rest : List Path) (part : Path) :
    fs.resolve inode (rest ++ [part]) =
      (fs.resolve inode rest).bind fun last => fs.findChildByName last part := by
  simp only [resolve, foldlM_append, foldlM_cons, foldlM_nil]
  exact congrArg _ (funext fun last => bind_pure _)

/-! ## A new node -/

section
variable (h : fs.IsTree) (hdir : fs.nodes dir = some parent) (hisDir : parent.isDir = true)
  (hempty : node.children = []) (hfind : fs.findChildByName dir node.name = none)
include h hdir hisDir hempty hfind

lemma findChildByName_insert (d : Nat) (name : Path) : (fs.insert dir node).findChildByName d name =
      if d = dir ∧ name = node.name then some fs.nextInode else fs.findChildByName d name := by
  have hnodes : ∀ i, (fs.insert dir node).nodes i = _ := h.insert_nodes hdir
  have hnext := h.dir_ne hdir
  have hsame : ∀ {i n}, fs.nodes i = some n → n.children.find? (fun c =>
      ((fs.insert dir node).nodes c).any fun entry => entry.name == name) =
        n.children.find? fun c => (fs.nodes c).any fun entry => entry.name == name := by
    intro i n hn
    refine find?_congr fun c hc => ?_
    rw [hnodes]
    split_ifs with hc₁ hc₂
    · simp [hc₁, hdir]
    · exact absurd hc₂ (h.tree.listed_ne_next ⟨n, hn, hc⟩)
    · rfl
  have hold : ∀ x, fs.findChildByName dir x =
      parent.children.find? fun c => (fs.nodes c).any fun entry => entry.name == x := by
    intro x
    simp [findChildByName, hdir, hisDir]
  rcases eq_or_ne d dir with rfl | hd
  · have hnew : (fs.insert d node).nodes fs.nextInode = some node := by simp [hnodes, hnext]
    rw [findChildByName, hnodes, if_pos rfl]
    simp only [hisDir, if_true, find?_append, hsame hdir, ← hold, true_and]
    split
    next heq =>
      rw [heq, hfind]
      simp [hnew]
    next hne =>
      have hlast : find? (fun c => ((fs.insert d node).nodes c).any
          fun entry => entry.name == name) [fs.nextInode] = none := by
        simp [hnew, Ne.symm hne]
      rw [hlast, or_none]
  · rw [if_neg fun heq => hd heq.1, findChildByName, findChildByName, hnodes, if_neg hd]
    split_ifs with hd'
    · simp [hempty, hd', h.not_mem]
    · cases hn : fs.nodes d with
      | none => rfl
      | some n => simp [hsame hn]

variable {rest : List Path}

lemma resolve_insert_of_some {start i : Nat} (hi : fs.resolve start rest = some i) :
    (fs.insert dir node).resolve start rest = some i := by
  induction rest generalizing start with
  | nil => exact hi
  | cons part rest ih =>
    rw [resolve_cons] at hi ⊢
    obtain ⟨child, hchild, hrest⟩ := bind_eq_some_iff.mp hi
    rw [findChildByName_insert h hdir hisDir hempty hfind, if_neg, hchild]
    · exact ih hrest
    · rintro ⟨rfl, rfl⟩
      exact some_ne_none _ (hchild.symm.trans hfind)

lemma resolve_insert {start i : Nat} (hi : (fs.insert dir node).resolve start rest = some i) :
    fs.resolve start rest = some i ∨ i = fs.nextInode := by
  have hlook := findChildByName_insert h hdir hisDir hempty hfind
  induction rest generalizing start with
  | nil => exact .inl hi
  | cons part rest ih =>
    rw [resolve_cons, hlook] at hi
    obtain ⟨child, hchild, hrest⟩ := bind_eq_some_iff.mp hi
    split at hchild
    · -- nothing is found below the new node
      cases hchild
      cases rest with
      | nil => exact .inr (some.inj hrest).symm
      | cons next rest =>
        rw [resolve_cons, hlook, if_neg fun heq => h.dir_ne hdir heq.1, findChildByName,
          h.not_mem] at hrest
        cases hrest
    · rw [resolve_cons, hchild]
      exact ih hrest

omit hisDir hempty hfind in
lemma fileData_insert {i : Nat} (hi : i ≠ fs.nextInode) :
    (fs.insert dir node).fileData i = fs.fileData i := by
  rw [fileData, h.insert_nodes hdir, if_neg hi, fileData]
  split
  next heq => simp [heq, hdir]
  · rfl

lemma readParts_insert (hrest : (fs.insert dir node).resolve rootInode rest ≠ some fs.nextInode) :
    (fs.insert dir node).readParts rest = fs.readParts rest := by
  rw [readParts, readParts]
  cases hi : (fs.insert dir node).resolve rootInode rest with
  | none =>
    cases hj : fs.resolve rootInode rest with
    | none => rfl
    | some j =>
      rw [resolve_insert_of_some h hdir hisDir hempty hfind hj] at hi
      cases hi
  | some i =>
    have hne : i ≠ fs.nextInode := fun heq => hrest (heq ▸ hi)
    rw [(resolve_insert h hdir hisDir hempty hfind hi).resolve_right hne]
    exact fileData_insert h hdir hne

lemma readParts_insert_dir (hkind : node.isDir) (rest : List Path) :
    (fs.insert dir node).readParts rest = fs.readParts rest := by
  by_cases hrest : (fs.insert dir node).resolve rootInode rest = some fs.nextInode
  · have hnew : (fs.insert dir node).fileData fs.nextInode = none := by
      simp [fileData, h.insert_nodes hdir, h.dir_ne hdir, hkind]
    rw [readParts, hrest, bind_some, hnew, readParts]
    cases hj : fs.resolve rootInode rest with
    | none => rfl
    | some j =>
      have hsame := resolve_insert_of_some h hdir hisDir hempty hfind hj
      cases hrest.symm.trans hsame
      rw [bind_some, fileData, h.not_mem]
      rfl
  · exact readParts_insert h hdir hisDir hempty hfind hrest

end

/-! ## The directories on the way -/

lemma resolve_of_empty (hnone : ∀ name, fs.findChildByName inode name = none) {rest : List Path}
    {last : Nat} (hlast : fs.resolve inode rest = some last) : rest = [] ∧ last = inode := by
  cases rest with
  | nil => exact ⟨rfl, (some.inj hlast).symm⟩
  | cons part rest =>
    rw [resolve_cons, hnone] at hlast
    cases hlast

/-- What the loop does: it fails at an entry that is not a directory, without an effect, or it gets
to a directory, which is as it was or has no entries yet. -/
inductive Enters (fs : RamFileSystem) (dir : Nat) (rest : List Path) :
    RamFileSystem × Except VfsError Nat → Prop
  | failed (error : VfsError) (hfirst : ∃ part ∈ rest.head?, (fs.findChildByName dir part).isSome)
      (hnone : ∀ name, fs.resolve dir (rest ++ [name]) = none) :
      Enters fs dir rest (fs, .error error)
  | entered {next : RamFileSystem} {last : Nat}
      (hreads : ∀ other, next.readParts other = fs.readParts other)
      (hkept : ∀ d name c, fs.findChildByName d name = some c →
        next.findChildByName d name = some c)
      (hlast : next.resolve dir rest = some last)
      (hnew : next = fs ∨ fs.resolve dir rest = none ∧
        ∀ name, next.findChildByName last name = none) : Enters fs dir rest (next, .ok last)

variable {part : Path} {rest : List Path} {result : RamFileSystem × Except VfsError Nat}

lemma Enters.below {child : Nat} (hfind : fs.findChildByName dir part = some child)
    (hrest : fs.Enters child rest result) : fs.Enters dir (part :: rest) result := by
  cases hrest with
  | failed error hfirst hnone =>
    refine .failed error ⟨part, rfl, by simp [hfind]⟩ fun name => ?_
    rw [cons_append, resolve_cons, hfind]
    exact hnone name
  | entered hreads hkept hlast hnew =>
    refine .entered hreads hkept ?_ ?_
    · rw [resolve_cons, hkept dir part child hfind]
      exact hlast
    · rw [resolve_cons, hfind]
      exact hnew

lemma IsTree.enters_made (h : fs.IsTree) (hparent : fs.nodes dir = some parent)
    (hisDir : parent.isDir) (hfind : fs.findChildByName dir part = none)
    (hrest : (fs.insert dir ⟨part, [], true, []⟩).Enters fs.nextInode rest result) :
    fs.Enters dir (part :: rest) result := by
  have hmade : (fs.insert dir ⟨part, [], true, []⟩).nodes _ = _ := h.insert_made hparent
  have hbelow : ∀ name, (fs.insert dir ⟨part, [], true, []⟩).findChildByName fs.nextInode name =
      none := by simp [findChildByName, hmade]
  have hlook : ∀ d name, (fs.insert dir ⟨part, [], true, []⟩).findChildByName d name = _ :=
    findChildByName_insert h hparent hisDir rfl hfind
  have hreads : ∀ other, (fs.insert dir ⟨part, [], true, []⟩).readParts other = _ :=
    readParts_insert_dir h hparent hisDir rfl hfind rfl
  cases hrest with
  | failed error hfirst hnone =>
    obtain ⟨first, -, hfirst⟩ := hfirst
    rw [hbelow first] at hfirst
    cases hfirst
  | entered hreads' hkept hlast hnew =>
    refine .entered (fun other => (hreads' other).trans (hreads other)) (fun d name c hc => ?_)
      ?_ (.inr ⟨by rw [resolve_cons, hfind]; rfl, ?_⟩)
    · refine hkept d name c ?_
      rw [hlook, if_neg, hc]
      rintro ⟨rfl, rfl⟩
      exact some_ne_none _ (hc.symm.trans hfind)
    · rw [resolve_cons, hkept dir part fs.nextInode (by rw [hlook, if_pos ⟨rfl, rfl⟩])]
      exact hlast
    · rcases hnew with rfl | ⟨-, hnone⟩
      · obtain ⟨-, rfl⟩ := resolve_of_empty hbelow hlast
        exact hbelow
      · exact hnone

lemma IsTree.enterDirs_enters (h : fs.IsTree) (hparent : fs.nodes dir = some parent)
    (hisDir : parent.isDir) (rest : List Path) : fs.Enters dir rest (fs.enterDirs dir rest) := by
  induction rest generalizing fs dir parent with
  | nil => exact .entered (fun _ => rfl) (fun _ _ _ => id) rfl (.inl rfl)
  | cons part rest ih =>
    rw [RamFileSystem.enterDirs]
    cases hfind : fs.findChildByName dir part with
    | some child =>
      dsimp only
      -- nothing is found below what is not a directory
      have hfails : (∀ name, fs.findChildByName child name = none) → ∀ error,
          fs.Enters dir (part :: rest) (fs, .error error) := by
        intro hnone error
        refine .failed error ⟨part, rfl, by simp [hfind]⟩ fun name => ?_
        rw [cons_append, resolve_cons, hfind, bind_some, eq_none_iff_forall_ne_some]
        intro last hlast
        simpa using (resolve_of_empty hnone hlast).1
      cases hchild : fs.nodes child with
      | none => exact hfails (by simp [findChildByName, hchild]) _
      | some node =>
        cases hkind : node.isDir with
        | false => simpa [hkind] using hfails (by simp [findChildByName, hchild, hkind]) _
        | true =>
          simp only [hkind, Bool.not_true, Bool.false_eq_true, if_false]
          exact .below hfind (ih h hchild hkind)
    | none =>
      have hcreate : fs.createDir dir part =
          (fs.insert dir ⟨part, [], true, []⟩, .ok fs.nextInode) := by
        simp [RamFileSystem.createDir, hparent, hisDir, hfind]
      rw [hcreate]
      exact h.enters_made hparent hisDir hfind
        (ih (h.insert_of_find hparent hisDir hfind rfl) (h.insert_made hparent) rfl)

lemma resolve_setData (hnode : fs.nodes inode = some node) (data : List UInt8) (start : Nat)
    (rest : List Path) :
    (fs.setNode inode { node with data }).resolve start rest = fs.resolve start rest := by
  have hlook : (fs.setNode inode { node with data }).findChildByName = fs.findChildByName := by
    funext d name
    have hname : ∀ c, ((fs.setNode inode { node with data }).nodes c).any (·.name == name) =
        (fs.nodes c).any (·.name == name) := by
      intro c
      rcases eq_or_ne c inode with rfl | hne
      · simp [setNode, hnode]
      · simp [setNode, hne]
    rw [findChildByName, findChildByName]
    simp only [hname]
    rcases eq_or_ne d inode with rfl | hne
    · simp [setNode, hnode]
    · simp [setNode, hne]
  rw [resolve, resolve, hlook]

variable {path : Path} {data : List UInt8} {next : RamFileSystem} {i : Nat}

section
variable (heq : fs.createPath path data = (next, .ok ()))
  (hwalk : next.resolve rootInode (parts path) = some i)
include heq hwalk

lemma not_createsPath_of_dir (hdata : next.fileData i ≠ some data) : ¬fs.CreatesPath path data := by
  rw [CreatesPath, heq]
  rintro ⟨hread, -⟩
  rw [readPath_eq, readParts, hwalk] at hread
  exact hdata hread

lemma createsPath_of_ok (hdata : next.fileData i = some data)
    (hreads : ∀ rest, next.resolve rootInode rest ≠ some i →
      next.readParts rest = fs.readParts rest) : fs.CreatesPath path data := by
  rw [CreatesPath, heq]
  refine ⟨by rw [readPath_eq, readParts, hwalk]; exact hdata, fun other hother => ?_⟩
  rw [readPath_eq, readPath_eq]
  refine hreads _ fun hsame => hother (walkPath_eq_iff.mpr (hsame.trans hwalk.symm))

end

lemma createsPath_iff_of_overwrite
    (heq : fs.createPath path data = (fs.setNode i { node with data }, .ok ()))
    (hparts : parts path ≠ []) (hwalk : fs.resolve rootInode (parts path) = some i)
    (hnode : fs.nodes i = some node) : fs.CreatesPath path data ↔ ¬fs.NamesDir path := by
  have hwalk' := (resolve_setData hnode data rootInode (parts path)).trans hwalk
  cases hkind : node.isDir with
  | true =>
    have hdata : (fs.setNode i { node with data }).fileData i ≠ some data := by
      simp [fileData, setNode, hkind]
    refine iff_of_false (not_createsPath_of_dir heq hwalk' hdata) (not_not.mpr ?_)
    exact ⟨hparts, i, node, by rw [walkPath, hwalk], hnode, hkind⟩
  | false =>
    have hdata : (fs.setNode i { node with data }).fileData i = some data := by
      simp [fileData, setNode, hkind]
    refine iff_of_true (createsPath_of_ok heq hwalk' hdata fun rest hrest => ?_) ?_
    · rw [resolve_setData hnode] at hrest
      rw [readParts, resolve_setData hnode, readParts]
      refine Option.bind_congr fun j hj => ?_
      have hne : j ≠ i := fun heq => hrest (heq ▸ hj)
      simp [fileData, setNode, hne]
    · rintro ⟨-, j, other, hother, hnode', hkind'⟩
      rw [walkPath, hwalk] at hother
      obtain rfl := Except.ok.inj hother
      cases hnode.symm.trans hnode'
      cases hkind.symm.trans hkind'

/-- `create_path` keeps its promise exactly if the path does not name a directory. -/
theorem createsPath_iff (h : fs.IsTree) (path : Path) (data : List UInt8) :
    fs.CreatesPath path data ↔ ¬ fs.NamesDir path := by
  obtain ⟨hparts, heq⟩ | ⟨init, name, hparts, hcases⟩ := h.createPath_cases path data
  · refine iff_of_true (by rw [CreatesPath, heq]) fun hdir => hdir.1 hparts
  · obtain ⟨root, hroot⟩ := isSome_iff_exists.mp h.tree.root_mem
    have henters := h.enterDirs_enters hroot (h.root_dir root hroot) init
    have hkept := (h.enterDirs hroot (h.root_dir root hroot) init).1
    -- a path that leads nowhere does not name a directory
    have hnowhere : fs.resolve rootInode (init ++ [name]) = none → ¬ fs.NamesDir path := by
      rintro hnone ⟨-, i, node, hwalk, -⟩
      rw [walkPath, hparts, hnone] at hwalk
      cases hwalk
    revert hcases hkept
    generalize fs.enterDirs rootInode init = result at henters
    cases henters with
    | failed error hfirst hnone =>
      rintro (⟨_, -, heq⟩ | ⟨_, _, hok, -⟩) -
      · exact iff_of_true (by rw [CreatesPath, heq]) (hnowhere (hnone name))
      · cases hok
    | @entered next last hreads hkept hlast hnew =>
      rintro (⟨_, herror, -⟩ | ⟨dir, final, hok, hfinish, heq⟩) htree
      · cases herror
      · obtain rfl := Except.ok.inj hok
        have hwalk : next.resolve rootInode (parts path) = next.findChildByName last name := by
          rw [hparts, resolve_concat, hlast]
          rfl
        cases hfinish with
        | @overwrites i node hfind hnode =>
          obtain rfl | ⟨-, hnone⟩ := hnew
          · exact createsPath_iff_of_overwrite heq (by simp [hparts]) (hwalk.trans hfind) hnode
          · exact absurd (hfind.symm.trans (hnone name)) (some_ne_none i)
        | makes hdir hisDir hfind =>
          have hlook : ∀ d x, (next.insert last ⟨name, data, false, []⟩).findChildByName d x = _ :=
            findChildByName_insert htree hdir hisDir rfl hfind
          have hinit := resolve_insert_of_some htree hdir hisDir
            (show (RamFsNode.mk name data false []).children = [] from rfl) hfind hlast
          refine iff_of_true (createsPath_of_ok heq (i := next.nextInode) ?_ ?_
            fun rest hrest => ?_) (hnowhere ?_)
          · rw [hparts, resolve_concat, hinit]
            exact (hlook last name).trans (if_pos ⟨rfl, rfl⟩)
          · simp [fileData, htree.insert_nodes hdir, htree.dir_ne hdir]
          · exact (readParts_insert htree hdir hisDir rfl hfind hrest).trans (hreads rest)
          · rw [resolve_concat]
            obtain rfl | ⟨hnone, -⟩ := hnew
            · rw [hlast]
              exact hfind
            · rw [hnone]
              rfl

def oneDir : RamFileSystem := (new.createDir rootInode ['d']).1

theorem createsPath_iff_oneDir : oneDir.IsTree ∧ oneDir.CreatesPath ['d', '/', 'f'] [7] := by
  have htree : oneDir.IsTree := isTree_new.createDir _ _
  refine ⟨htree, (createsPath_iff htree _ _).mpr ?_⟩
  rintro ⟨-, _, _, hwalk, -⟩
  cases (show oneDir.walkPath ['d', '/', 'f'] = .error .notFound from rfl).symm.trans hwalk

/-- A path that names a directory is reported as written, and nothing can be read there. -/
theorem createPath_over_dir : oneDir.IsTree ∧ (oneDir.createPath ['d'] [7]).2.isOk = true ∧
    (oneDir.createPath ['d'] [7]).1.readPath ['d'] = none ∧ ¬ oneDir.CreatesPath ['d'] [7] := by
  refine ⟨isTree_new.createDir _ _, rfl, rfl, ?_⟩
  exact not_createsPath_of_dir (i := 2) rfl rfl (by decide)

end RamFileSystem

end KarteOs.Driver

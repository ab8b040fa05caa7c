import KarteOs.Syscall.OpenFiles

/-! # Access modes

The flag word of `sys_open` is cut down before it reaches the file system layer,
which looks at what is left to decide on reads and writes.
-/

namespace KarteOs.Syscall

open Driver FileSystem VfsState List Option

universe u

def accessMode (flags : Nat) : Nat :=
  flags &&& 3

def ModeReads (flags : Nat) : Prop :=
  accessMode flags = oRdonly ∨ accessMode flags = oRdwr

def ModeWrites (flags : Nat) : Prop :=
  accessMode flags = oWronly ∨ accessMode flags = oRdwr
deriving Decidable

/-- The bits for creation, truncation and appending that `sys_open` knows. -/
def modifierBits : Mm.Arch → Nat
  | .x86_64 => 0x740
  | .riscv64 => 0x700

def ProperLength (len : Nat) : Prop :=
  0 < len ∧ len ≤ 65536

namespace FdSystem

variable {fs : Type u} [FileSystem fs] (s : FdSystem fs) (proc : Process)

def getFdInfo (fd : Int) : Option FileDescriptor :=
  if fd < 0 ∨ maxFds ≤ fd.toNat then none else (s.tables proc.fdTable).get fd.toNat

/-- `sys_write` on a descriptor of an open file, with the bytes read from user
memory; the other kinds of descriptor have no result here. -/
def sysWrite (fd : Int) (buf : Nat) (data : List UInt8) : Option (FdSystem fs × Int) :=
  if buf = 0 ∨ data.length = 0 ∨ 65536 < data.length then some (s, errInval)
  else
    match (s.getFdInfo proc fd).bind FileDescriptor.vfsSlot with
    | none => none
    | some vfsFd =>
      match s.vfs.write vfsFd data with
      | (vfs, .ok count) => some ({ s with vfs }, count)
      | (vfs, .error _) => some ({ s with vfs }, errIo)

/-- `sys_read` on a descriptor of an open file, with the bytes it delivers. -/
def sysRead (fd : Int) (buf len : Nat) : Option (FdSystem fs × Int × List UInt8) :=
  if buf = 0 ∨ len = 0 ∨ 65536 < len then some (s, errInval, [])
  else
    match s.getFdInfo proc fd with
    | none => none
    | some desc =>
      match desc.vfsSlot with
      | none => none
      | some vfsFd =>
        match s.vfs.read vfsFd len with
        | (vfs, .ok bytes) =>
          some ({ s with vfs }.setTable proc.fdTable ((s.tables proc.fdTable).setFd fd.toNat
            { desc with pos := desc.pos + bytes.length }), bytes.length, bytes)
        | (vfs, .error _) => some ({ s with vfs }, errIo, [])

def AllowsWrite (fd : Int) : Prop :=
  ∃ buf data next count, buf ≠ 0 ∧ ProperLength data.length ∧
    s.sysWrite proc fd buf data = some (next, count) ∧ next.vfs.mounts ≠ s.vfs.mounts

def AllowsRead (fd : Int) : Prop :=
  ∃ buf len next count bytes, buf ≠ 0 ∧ ProperLength len ∧
    s.sysRead proc fd buf len = some (next, count, bytes) ∧ 0 ≤ count

/-- The file system reads the file and carries out writes that change it. -/
structure ServesFile (filesystem : fs) (inode : Nat) : Prop where
  readable : ∃ len bytes, ProperLength len ∧ readFile filesystem inode 0 len = .ok bytes
  writable : ∃ data, ProperLength data.length ∧ (writeFile filesystem inode 0 data).1 ≠ filesystem

def Served (s : FdSystem fs) (proc : Process) (fd : Int) : Prop :=
  ∃ desc vfsFd file mount, s.getFdInfo proc fd = some desc ∧ desc.vfsSlot = some vfsFd ∧
    s.vfs.openFiles.get vfsFd = some file ∧ s.vfs.mounts[file.mountId]? = some mount ∧
    file.pos = 0 ∧ ServesFile mount.fs file.inode

variable {s : FdSystem fs} {proc : Process} {fd : Int} {desc : FileDescriptor}
  {vfsFd flags : Nat} {file : OpenFile} {mount : MountEntry fs} {arch : Mm.Arch}

lemma not_refused {buf len : Nat} (hbuf : buf ≠ 0) (hlen : ProperLength len) :
    ¬(buf = 0 ∨ len = 0 ∨ 65536 < len) := by
  obtain ⟨hlow, hhigh⟩ := hlen
  omega

lemma sysWrite_vfs (hinfo : s.getFdInfo proc fd = some desc) (hslot : desc.vfsSlot = some vfsFd)
    {buf : Nat} {data : List UInt8} (hbuf : buf ≠ 0) (hlen : ProperLength data.length) :
    ∃ count, s.sysWrite proc fd buf data =
      some ({ s with vfs := (s.vfs.write vfsFd data).1 }, count) := by
  simp only [sysWrite, not_refused hbuf hlen, if_false, hinfo, bind_some, hslot]
  split
  next vfs count hwrite => exact ⟨count, by rw [hwrite]⟩
  next vfs e hwrite => exact ⟨errIo, by rw [hwrite]⟩

section
variable (hinfo : s.getFdInfo proc fd = some desc) (hslot : desc.vfsSlot = some vfsFd)
  (hfile : s.vfs.openFiles.get vfsFd = some file)
  (hmount : s.vfs.mounts[file.mountId]? = some mount) (hpos : file.pos = 0)
  (hserves : ServesFile mount.fs file.inode)
include hinfo hslot hfile hmount hpos hserves

lemma allowsWrite_iff : s.AllowsWrite proc fd ↔ file.flags ≠ oRdonly := by
  constructor
  · rintro ⟨buf, data, next, count, hbuf, hlen, hwrite, hchanged⟩ hflags
    obtain ⟨result, heq⟩ := sysWrite_vfs hinfo hslot hbuf hlen
    rw [heq, write_refused hfile hflags] at hwrite
    cases hwrite
    exact hchanged rfl
  · intro hflags
    obtain ⟨data, hlen, hchanges⟩ := hserves.writable
    obtain ⟨count, heq⟩ := sysWrite_vfs hinfo hslot one_ne_zero hlen
    refine ⟨1, data, _, count, one_ne_zero, hlen, heq, fun hsame => ?_⟩
    rw [write_mounts hfile hflags hmount, hpos] at hsame
    have hentry := setFs_mount hmount (writeFile mount.fs file.inode 0 data).1
    rw [hsame, hmount] at hentry
    exact hchanges (congrArg MountEntry.fs (some.inj hentry)).symm

lemma allowsRead_iff : s.AllowsRead proc fd ↔ file.flags ≠ oWronly := by
  constructor
  · rintro ⟨buf, len, next, count, bytes, hbuf, hlen, hread, hcount⟩ hflags
    simp only [sysRead, not_refused hbuf hlen, if_false, hinfo, hslot,
      read_refused hfile hflags, some.injEq, Prod.mk.injEq] at hread
    rw [← hread.2.1] at hcount
    exact absurd hcount (by decide)
  · intro hflags
    obtain ⟨len, bytes, hlen, hbytes⟩ := hserves.readable
    rw [← hpos] at hbytes
    have hread := read_ok hfile hflags hmount hbytes
    have heq : ∃ next, s.sysRead proc fd 1 len = some (next, (bytes.length : Int), bytes) := by
      simp only [sysRead, not_refused one_ne_zero hlen, if_false, hinfo, hslot, hread]
      exact ⟨_, rfl⟩
    obtain ⟨next, heq⟩ := heq
    exact ⟨1, len, next, bytes.length, bytes, one_ne_zero, hlen, heq, Int.natCast_nonneg _⟩

end

lemma Opens.file_flags {request : Option Path} {result : FdSystem fs × Int}
    (hopens : s.Opens arch proc request flags result)
    (hinfo : result.1.getFdInfo proc result.2 = some desc) (hslot : desc.vfsSlot = some vfsFd)
    (hfile : result.1.vfs.openFiles.get vfsFd = some file) :
    file.flags = internalFlags arch flags := by
  have hentry : ∀ {base : FdSystem fs} {fd : Nat} {entry : FileDescriptor}, fd < maxFds →
      (base.setTable proc.fdTable ((s.tables proc.fdTable).setFd fd entry)).getFdInfo proc fd =
        some desc → desc = entry := by
    intro base fd entry hfd hget
    simp only [getFdInfo, setTable, Function.update_self, Int.toNat_natCast,
      FdTable.get_setFd hfd, if_true] at hget
    split at hget
    · cases hget
    · exact (some.inj (filter_eq_some_iff.mp hget).1).symm
  cases hopens with
  | refused _ _ herror => simp [getFdInfo, herror] at hinfo
  | entered _ _ hfd _ _ hplain =>
    rw [hentry hfd hinfo, hplain] at hslot
    cases hslot
  | @opened vfs name opened fd _ hopen hfd _ =>
    have heffect := s.vfs.openFile_effect name (internalFlags arch flags) s.nextOpen
    rw [hopen] at heffect
    rw [hentry hfd hinfo] at hslot
    obtain rfl : opened = vfsFd := some.inj hslot
    cases heffect with
    | opened _ hfiles _ _ hflags _ =>
      have hsame : vfs.openFiles.get opened = some file := hfile
      rw [hfiles, Function.update_self] at hsame
      rw [← some.inj hsame, hflags]
  | leaked _ _ _ => simp [getFdInfo, errNomem] at hinfo

lemma internalFlags_eq_zero_iff (arch : Mm.Arch) (flags : Nat) :
    internalFlags arch flags = 0 ↔ flags &&& modifierBits arch = 0 := by
  have hsplit : ∀ first second : Nat, flags &&& (first ||| second) = 0 ↔
      flags &&& first = 0 ∧ flags &&& second = 0 := by
    intro first second
    rw [Nat.and_or_distrib_left, Nat.or_eq_zero_iff]
  cases arch
  case' x86_64 =>
    rw [show modifierBits .x86_64 = 0x40 ||| 0x100 ||| (oTrunc ||| oAppend) from rfl, hsplit,
      hsplit]
  case' riscv64 => rw [show modifierBits .riscv64 = 0x100 ||| (oTrunc ||| oAppend) from rfl, hsplit]
  all_goals
    simp only [internalFlags, Nat.or_eq_zero_iff]
    split
    next hcreat =>
      simp only [oCreat] at hcreat ⊢
      omega
    next hnone =>
      simp only [oCreat, ne_eq, not_or, not_not] at hnone
      simp [hnone]

lemma internalFlags_ne_oWronly (arch : Mm.Arch) (flags : Nat) :
    internalFlags arch flags ≠ oWronly := by
  intro h
  have hbit : (internalFlags arch flags).testBit 0 := by rw [h]; rfl
  have hcreat : ∀ c : Prop, [Decidable c] → (if c then oCreat else 0).testBit 0 = false := by
    intro c _
    split <;> rfl
  simp only [internalFlags, Nat.testBit_or, Nat.testBit_and, hcreat, Bool.false_or] at hbit
  exact absurd hbit (by simp [oTrunc, oAppend])

lemma sysOpen_allows {path pathLen : Nat} {userPath : Option Path} {next : FdSystem fs}
    (hopen : s.sysOpen arch proc path pathLen userPath flags = (next, fd))
    (hserved : next.Served proc fd) :
    (next.AllowsWrite proc fd ↔ flags &&& modifierBits arch ≠ 0) ∧ next.AllowsRead proc fd := by
  obtain ⟨desc, vfsFd, file, mount, hinfo, hslot, hfile, hmount, hpos, hserves⟩ := hserved
  have hopens := s.sysOpen_opens arch proc path pathLen userPath flags
  rw [hopen] at hopens
  have hflags := hopens.file_flags hinfo hslot hfile
  rw [allowsWrite_iff hinfo hslot hfile hmount hpos hserves,
    allowsRead_iff hinfo hslot hfile hmount hpos hserves, hflags, oRdonly, ne_eq,
    internalFlags_eq_zero_iff]
  exact ⟨Iff.rfl, internalFlags_ne_oWronly arch flags⟩

/-- The access mode is honoured only for read-only opens without modifiers and
for read-write opens with one. -/
theorem sysOpen_modeHonoured_iff {arch : Mm.Arch} {path pathLen flags : Nat}
    {userPath : Option Path} {next : FdSystem fs}
    (hopen : s.sysOpen arch proc path pathLen userPath flags = (next, fd))
    (hserved : next.Served proc fd) :
    ((next.AllowsWrite proc fd ↔ ModeWrites flags) ∧ (next.AllowsRead proc fd ↔ ModeReads flags)) ↔
      accessMode flags = oRdonly ∧ flags &&& modifierBits arch = 0 ∨
        accessMode flags = oRdwr ∧ flags &&& modifierBits arch ≠ 0 := by
  obtain ⟨hwrite, hread⟩ := sysOpen_allows hopen hserved
  simp only [hwrite, hread, true_iff, ModeWrites, ModeReads, oRdonly, oWronly, oRdwr]
  generalize flags &&& modifierBits arch = modifiers
  generalize accessMode flags = mode
  omega

lemma ramFs_servesFile {ram : RamFileSystem} {inode : Nat} {node : RamFsNode}
    (hnode : ram.nodes inode = some node) (hplain : node.isDir = false) : ServesFile ram inode where
  readable := by
    refine ⟨1, node.data.take 1, ⟨Nat.one_pos, by decide⟩, ?_⟩
    simp [readFile, RamFileSystem.readFile, hnode, hplain]
  writable := by
    -- a byte that differs from the first one of the file
    obtain ⟨byte, hbyte⟩ : ∃ byte, node.data.head? ≠ some byte :=
      if hzero : node.data.head? = some 0 then ⟨1, by simp [hzero]⟩ else ⟨0, hzero⟩
    refine ⟨[byte], ⟨Nat.one_pos, Nat.le_of_ble_eq_true rfl⟩, fun hsame => ?_⟩
    have hdata : RamFileSystem.overwrite node.data 0 [byte] = node.data := by
      have hnodes := congrArg (fun other => (other.nodes inode).map RamFsNode.data) hsame
      simpa [writeFile, RamFileSystem.writeFile, RamFileSystem.setNode, hnode, hplain] using hnodes
    have hwindow := RamFileSystem.overwrite_window node.data 0 [byte]
    rw [hdata] at hwindow
    cases hlist : node.data with
    | nil => simp [hlist] at hwindow
    | cons first rest =>
      simp only [hlist, drop_zero, length_singleton, take_succ_cons,
        take_zero, cons.injEq, and_true] at hwindow
      simp [hlist, hwindow] at hbyte

/-- The system with an empty file system after `/a` was opened, and created if the
flags ask for it. -/
def openA (flags : Nat) : FdSystem RamFileSystem × Int :=
  bare.sysOpen .x86_64 bareProc 64 2 (some ['/', 'a']) flags

lemma openA_served (hinfo : (openA flags).1.getFdInfo bareProc 3 = some (.vfs ['a'] 0 flags 0))
    (hfile : (openA flags).1.vfs.openFiles.get 0 = some ⟨0, 2, 0, internalFlags .x86_64 flags, 0⟩)
    (hnode : ((openA flags).1.vfs.mounts[0]?.bind fun mount =>
      (mount.fs.nodes 2).map RamFsNode.isDir) = some false) :
    (openA flags).1.Served bareProc 3 := by
  obtain ⟨mount, hmount, hentry⟩ := bind_eq_some_iff.mp hnode
  obtain ⟨node, hnode, hplain⟩ := map_eq_some_iff.mp hentry
  exact ⟨_, 0, _, mount, hinfo, rfl, hfile, hmount, rfl, ramFs_servesFile hnode hplain⟩

theorem sysOpen_modeHonoured_iff_readWrite : (openA (oCreat ||| oRdwr)).1.Served bareProc 3 ∧
    ((openA (oCreat ||| oRdwr)).1.AllowsWrite bareProc 3 ↔ ModeWrites (oCreat ||| oRdwr)) ∧
    ((openA (oCreat ||| oRdwr)).1.AllowsRead bareProc 3 ↔ ModeReads (oCreat ||| oRdwr)) := by
  have hserved : (openA (oCreat ||| oRdwr)).1.Served bareProc 3 :=
    openA_served (by decide) (by decide) (by decide)
  have hopen : openA (oCreat ||| oRdwr) = ((openA (oCreat ||| oRdwr)).1, 3) :=
    Prod.ext rfl (by decide)
  exact ⟨hserved, (sysOpen_modeHonoured_iff hopen hserved).mpr (.inr ⟨by decide, by decide⟩)⟩

/-- A file that was opened for reading, and created, can be written. -/
theorem readOnly_written : openA (oCreat ||| oRdonly) = ((openA (oCreat ||| oRdonly)).1, 3) ∧
    (openA (oCreat ||| oRdonly)).1.Served bareProc 3 ∧
    (openA (oCreat ||| oRdonly)).1.AllowsWrite bareProc 3 ∧
    ¬ ModeWrites (oCreat ||| oRdonly) := by
  have hserved : (openA (oCreat ||| oRdonly)).1.Served bareProc 3 :=
    openA_served (by decide) (by decide) (by decide)
  have hopen : openA (oCreat ||| oRdonly) = ((openA (oCreat ||| oRdonly)).1, 3) :=
    Prod.ext rfl (by decide)
  exact ⟨hopen, hserved, (sysOpen_allows hopen hserved).1.mpr (by decide), by decide⟩

end FdSystem

end KarteOs.Syscall

import Mathlib.Algebra.BigOperators.Fin
import KarteOs.Foundation.Occupancy
import KarteOs.Driver.Pipe

/-! # Descriptor tables

The table of open descriptors of a process, shared by the threads that were
created to share it. A descriptor of an open file names a slot of the global
open-file table and, for the sake of the proofs, the `open` call it comes from.
-/

namespace KarteOs.Driver

open List Bool

def maxFds : Nat := 32

def oRdonly : Nat := 0

def oWronly : Nat := 1

def oRdwr : Nat := 2

def oCreat : Nat := 0x100

def oTrunc : Nat := 0x200

def oAppend : Nat := 0x400

abbrev Path := List Char

inductive FdType
  | stdio
  | file
  | pipeRead
  | pipeWrite
  | fakeFile (data : List UInt8)
  | virtualFile
  | urandom
  | eventfd
  | epoll
  | timerfd
  | ext4File
  | vfsFile (vfsFd : Nat)
deriving DecidableEq

structure FileDescriptor where
  name : Path
  pos : Nat
  flags : Nat
  valid : Bool
  fdType : FdType
  pipeId : Option Nat
  fdNum : Nat
  /-- The `open` call the descriptor comes from; the kernel does not record it. -/
  openId : Nat
deriving DecidableEq

structure FdTable where
  fds : Fin maxFds → Option FileDescriptor

def isOpen (slot : Option FileDescriptor) : Bool :=
  slot.any FileDescriptor.valid

namespace FileDescriptor

def ofType (name : String) (flags : Nat) (fdType : FdType) : FileDescriptor :=
  { name := name.toList, pos := 0, flags, valid := true, fdType, pipeId := none, fdNum := 0,
    openId := 0 }

def special (name : String) (flags : Nat) (fdType : FdType) (fd : Nat) : FileDescriptor :=
  { ofType name flags fdType with fdNum := fd }

def pipe (pipeId fd : Nat) : PipeEnd → FileDescriptor
  | .read =>
    { name := "pipe:read".toList, pos := 0, flags := oRdonly, valid := true, fdType := .pipeRead,
      pipeId := some pipeId, fdNum := fd, openId := 0 }
  | .write =>
    { name := "pipe:write".toList, pos := 0, flags := oWronly, valid := true,
      fdType := .pipeWrite, pipeId := some pipeId, fdNum := fd, openId := 0 }

def vfs (name : Path) (vfsFd flags openId : Nat) : FileDescriptor :=
  { name, pos := 0, flags, valid := true, fdType := .vfsFile vfsFd, pipeId := none, fdNum := 0,
    openId }

variable (desc : FileDescriptor)

def pipeEnd : Option (Nat × PipeEnd) :=
  match desc.fdType, desc.pipeId with
  | .pipeRead, some pipeId => some (pipeId, .read)
  | .pipeWrite, some pipeId => some (pipeId, .write)
  | _, _ => none

def RefersTo (pipeId : Nat) (side : PipeEnd) : Bool :=
  desc.valid && desc.pipeEnd == some (pipeId, side)

def vfsSlot : Option Nat :=
  match desc.fdType with
  | .vfsFile vfsFd => some vfsFd
  | _ => none

end FileDescriptor

namespace FdTable

def new : FdTable :=
  ⟨fun fd => match fd.val with
    | 0 => some (.ofType "stdin" oRdonly .stdio)
    | 1 => some (.ofType "stdout" oWronly .stdio)
    | 2 => some (.ofType "stderr" oWronly .stdio)
    | _ => none⟩

variable (t : FdTable)

def slot (fd : Nat) : Option FileDescriptor :=
  if h : fd < maxFds then t.fds ⟨fd, h⟩ else none

def get (fd : Nat) : Option FileDescriptor :=
  (t.slot fd).filter FileDescriptor.valid

/-- Replace the entry of a descriptor number; numbers out of range are ignored. -/
def setSlot (fd : Nat) (entry : Option FileDescriptor) : FdTable :=
  if h : fd < maxFds then ⟨Function.update t.fds ⟨fd, h⟩ entry⟩ else t

def setFd (fd : Nat) (desc : FileDescriptor) : FdTable :=
  t.setSlot fd (some desc)

def firstFree (least : Nat) : Option Nat :=
  (List.range maxFds).find? fun fd => decide (least ≤ fd) && !isOpen (t.slot fd)

/-- The loop that the `alloc` functions share: fill the first free entry. -/
def allocWith (make : Nat → FileDescriptor) : FdTable × Option Nat :=
  match t.firstFree 0 with
  | some fd => (t.setFd fd (make fd), some fd)
  | none => (t, none)

def alloc (name : Path) (flags : Nat) : FdTable × Option Nat :=
  t.allocWith fun _ => { FileDescriptor.ofType "" flags .file with name }

def allocVfsFd (name : Path) (vfsFd flags openId : Nat) : FdTable × Option Nat :=
  t.allocWith fun _ => .vfs name vfsFd flags openId

def allocFakeFd (name : Path) (flags : Nat) : FdTable × Option Nat :=
  t.allocWith fun _ => { FileDescriptor.ofType "" flags (.fakeFile []) with name }

def allocUrandomFd (flags : Nat) : FdTable × Option Nat :=
  t.allocWith fun _ => .ofType "/dev/urandom" flags .urandom

def allocPipeFd (pipeId : Nat) (side : PipeEnd) : FdTable × Option Nat :=
  t.allocWith fun fd => .pipe pipeId fd side

def allocSpecialFd (name : String) (flags : Nat) (fdType : FdType) : FdTable × Option Nat :=
  t.allocWith fun fd => .special name flags fdType fd

def dup (oldfd newfd : Nat) : Option FdTable :=
  if newfd < maxFds then (t.get oldfd).map fun desc => t.setFd newfd desc else none

def take (fd : Nat) : FdTable × Option FileDescriptor :=
  match t.get fd with
  | some desc => (t.setSlot fd none, some desc)
  | none => (t, none)

def drainOpenFds : FdTable × List (Nat × FileDescriptor) :=
  (⟨fun fd => if isOpen (t.fds fd) then none else t.fds fd⟩,
    (List.finRange maxFds).filterMap fun fd =>
      ((t.fds fd).filter FileDescriptor.valid).map fun desc => (fd.val, desc))

open Occupancy

variable {t : FdTable} {fd least : Nat} {desc : FileDescriptor}

lemma get_eq_some : t.get fd = some desc ↔ t.slot fd = some desc ∧ desc.valid :=
  Option.filter_eq_some_iff

lemma get_lt (hget : t.get fd = some desc) : fd < maxFds := by
  by_contra hfd
  simp [get, slot, hfd] at hget

lemma isOpen_slot_iff : isOpen (t.slot fd) = false ↔ t.get fd = none := by
  rw [isOpen, get]
  cases t.slot fd <;> simp [Option.filter]

lemma slot_setSlot (hfd : fd < maxFds) (entry : Option FileDescriptor) :
    (t.setSlot fd entry).slot = Function.update t.slot fd entry := by
  funext other
  rcases eq_or_ne other fd with rfl | hne
  · simp [slot, setSlot, hfd]
  · by_cases hother : other < maxFds
    · have : (⟨other, hother⟩ : Fin maxFds) ≠ ⟨fd, hfd⟩ := fun h => hne (congrArg Fin.val h)
      simp [slot, setSlot, hfd, hother, hne, this]
    · simp [slot, hother, hne]

lemma get_setSlot (hfd : fd < maxFds) (entry : Option FileDescriptor) (other : Nat) :
    (t.setSlot fd entry).get other =
      if other = fd then entry.filter FileDescriptor.valid else t.get other := by
  rw [get, slot_setSlot hfd]
  rcases eq_or_ne other fd with rfl | hne
  · simp
  · simp [hne, get]

lemma get_setFd (hfd : fd < maxFds) (desc : FileDescriptor) (other : Nat) :
    (t.setFd fd desc).get other =
      if other = fd then (some desc).filter FileDescriptor.valid else t.get other :=
  get_setSlot hfd _ other

lemma firstFree_some (hfree : t.firstFree least = some fd) :
    fd < maxFds ∧ least ≤ fd ∧ t.get fd = none := by
  have hfound := find?_some hfree
  rw [and_eq_true, decide_eq_true_iff, not_eq_true', isOpen_slot_iff] at hfound
  exact ⟨mem_range.mp (mem_of_find?_eq_some hfree), hfound⟩

lemma firstFree_isSome (hfd : fd < maxFds) (hget : t.get fd = none) : (t.firstFree 0).isSome := by
  refine find?_isSome.mpr ⟨fd, mem_range.mpr hfd, ?_⟩
  rw [and_eq_true, decide_eq_true_iff, not_eq_true', isOpen_slot_iff]
  exact ⟨Nat.zero_le _, hget⟩

lemma get_of_mem_drainOpenFds (hdesc : desc ∈ t.drainOpenFds.2.map Prod.snd) :
    ∃ fd, t.get fd = some desc := by
  obtain ⟨⟨_, _⟩, hmem, rfl⟩ := List.mem_map.mp hdesc
  obtain ⟨fd, _, hentry⟩ := mem_filterMap.mp hmem
  obtain ⟨_, hopen, heq⟩ := Option.map_eq_some_iff.mp hentry
  cases heq
  exact ⟨fd, by rw [get, slot, dif_pos fd.isLt]; exact hopen⟩

lemma get_drainOpenFds (fd : Nat) : t.drainOpenFds.1.get fd = none := by
  rw [← isOpen_slot_iff, slot]
  split
  next hfd =>
    simp only [drainOpenFds]
    split
    · rfl
    next hclosed => simpa using hclosed
  · rfl

variable {good : FileDescriptor → Bool} (hvalid : ∀ desc, good desc = true → desc.valid = true)
include hvalid

lemma weight_of_get_none (hget : t.get fd = none) : weight good (t.slot fd) = 0 := by
  cases hslot : t.slot fd with
  | none => rfl
  | some desc =>
    have hclosed : desc.valid = false := by simpa [get, hslot, Option.filter] using hget
    have hbad : good desc ≠ true := fun h => by simp [hvalid desc h] at hclosed
    rw [weight_some, if_neg hbad]

omit hvalid in
lemma occupied_setSlot (t : FdTable) (good : FileDescriptor → Bool) (hfd : fd < maxFds)
    (entry : Option FileDescriptor) :
    occupied (t.setSlot fd entry).fds good + weight good (t.slot fd) =
      occupied t.fds good + weight good entry := by
  simp only [setSlot, slot, hfd, dif_pos]
  exact occupied_update _ entry

lemma occupied_setFd_free (hfd : fd < maxFds) (hget : t.get fd = none) (desc : FileDescriptor) :
    occupied (t.setFd fd desc).fds good = occupied t.fds good + weight good (some desc) := by
  have hupdate := occupied_setSlot t good hfd (some desc)
  rw [weight_of_get_none hvalid hget, Nat.add_zero] at hupdate
  rw [setFd, hupdate]

lemma occupied_drainOpenFds : occupied t.drainOpenFds.1.fds good = 0 := by
  rw [occupied_eq_zero_iff]
  intro fd desc hslot
  simp only [drainOpenFds] at hslot
  split at hslot
  · cases hslot
  next hclosed =>
    rw [hslot] at hclosed
    by_contra hgood
    exact hclosed (hvalid desc (by simpa using hgood))

lemma countP_drainOpenFds : (t.drainOpenFds.2.map Prod.snd).countP good = occupied t.fds good := by
  have hlist : ∀ fds : List (Fin maxFds), ((fds.filterMap fun fd =>
      ((t.fds fd).filter FileDescriptor.valid).map fun desc => (fd.val, desc)).map
        Prod.snd).countP good = (fds.map fun fd => weight good (t.fds fd)).sum := by
    intro fds
    induction fds with
    | nil => rfl
    | cons fd fds ih =>
      rw [map_cons, sum_cons, ← ih]
      cases hslot : t.fds fd with
      | none => simp [hslot]
      | some desc =>
        by_cases hopen : desc.valid
        · by_cases hgood : good desc
          · simp [hslot, Option.filter, hopen, hgood, weight_some, Nat.add_comm]
          · simp [hslot, Option.filter, hopen, hgood, weight_some]
        · have hbad : good desc ≠ true := fun h => hopen (hvalid desc h)
          simp [hslot, Option.filter, hopen, hbad, weight_some]
  rw [occupied, Fin.sum_univ_def, ← hlist]
  rfl

end FdTable

end KarteOs.Driver

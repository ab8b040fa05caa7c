import Mathlib.Data.List.Forall2
import KarteOs.Syscall.Memory

/-! # Reading a directory by `getdents`

`linux_getdents64` and `linux_getdents` pack the entries of an open directory
into records, from the position of the descriptor on and as many as the buffer
takes. The lookup of the descriptor is left out, and the listing does not change
between calls.
-/

namespace KarteOs.Syscall

open List

structure DirEntry where
  name : List UInt8
  isDir : Bool
deriving DecidableEq

/-- Where the type stands: before the name, or in the last byte of the record. -/
inductive DirentLayout
  | getdents64
  | getdents

def neBytes : Nat → Nat → List UInt8
  | 0, _ => []
  | width + 1, n => UInt8.ofNat n :: neBytes width (n / 256)

def ofNeBytes : List UInt8 → Nat
  | [] => 0
  | b :: bytes => b.toNat + 256 * ofNeBytes bytes

namespace DirEntry

variable (e : DirEntry)

def direntType : UInt8 := if e.isDir then 4 else 8

def reclen : Nat := (8 + 8 + 2 + 1 + e.name.length + 1 + 7) / 8 * 8

/-- The names that a file system gives: 1 to 255 bytes, none of them 0. -/
structure Named (e : DirEntry) : Prop where
  pos : 0 < e.name.length
  le : e.name.length ≤ 255
  noZero : ∀ b ∈ e.name, b ≠ 0

def padding : List UInt8 := List.replicate (e.reclen - 19 - e.name.length) 0

def body : DirentLayout → List UInt8
  | .getdents64 => e.direntType :: (e.name ++ e.padding)
  | .getdents => e.name ++ (e.padding ++ [e.direntType])

def record (layout : DirentLayout) (idx : Nat) : List UInt8 :=
  neBytes 8 (idx + 1) ++ neBytes 8 (idx + 1) ++ (neBytes 2 e.reclen ++ e.body layout)

end DirEntry

open DirEntry

/-- The loop: `rest` are the entries from `idx` on, `out` the bytes already in
the buffer. -/
def fill (layout : DirentLayout) (count : Nat) :
    List DirEntry → Nat → List UInt8 → Except Int (List UInt8 × Nat)
  | [], idx, out => .ok (out, idx)
  | e :: rest, idx, out =>
    if count < out.length + e.reclen then
      if out = [] then .error errInval else .ok (out, idx)
    else if 280 < e.reclen then .error (-34)
    else fill layout count rest (idx + 1) (out ++ e.record layout idx)

/-- `linux_getdents64` and `linux_getdents` on a descriptor at `pos`: what the
call stores in the buffer and the position it leaves. -/
def linuxGetdents (layout : DirentLayout) (entries : List DirEntry) (pos dirp count : Nat) :
    Except Int (List UInt8) × Nat :=
  if dirp = 0 ∨ count = 0 then (.error errInval, pos)
  else
    match fill layout count (entries.drop pos) pos [] with
    | .ok (out, idx) => (.ok out, idx)
    | .error error => (.error error, pos)

def enumerate (layout : DirentLayout) (entries : List DirEntry) :
    Nat → List (Nat × Nat) → List (Except Int (List UInt8))
  | _, [] => []
  | pos, (dirp, count) :: calls =>
    let (out, next) := linuxGetdents layout entries pos dirp count
    out :: enumerate layout entries next calls

def Roomy (layout : DirentLayout) (entries : List DirEntry) : Nat → List (Nat × Nat) → Prop
  | _, [] => True
  | pos, (dirp, count) :: calls =>
    dirp ≠ 0 ∧ count ≠ 0 ∧ (∀ e ∈ entries[pos]?, e.reclen ≤ count) ∧
      Roomy layout entries (linuxGetdents layout entries pos dirp count).2 calls

/-! ## What a program reads -/

/-- The first record of a buffer, by its length, and the bytes after it. The
length is a multiple of 8, the name ends at the first 0. -/
def readRecord (layout : DirentLayout) (bytes : List UInt8) : Option (DirEntry × List UInt8) :=
  let len := ofNeBytes ((bytes.drop 16).take 2)
  if 24 ≤ len ∧ len % 8 = 0 ∧ len ≤ bytes.length then
    let body := (bytes.take len).drop 18
    let (kind, text) := match layout with
      | .getdents64 => (body.headD 0, body.drop 1)
      | .getdents => (body.getLastD 0, body)
    let name := text.takeWhile (· ≠ 0)
    if kind = 4 then some (⟨name, true⟩, bytes.drop len)
    else if kind = 8 then some (⟨name, false⟩, bytes.drop len)
    else none
  else none

inductive Decodes (layout : DirentLayout) : List UInt8 → List DirEntry → Prop
  | nil : Decodes layout [] []
  | cons {bytes rest : List UInt8} {e : DirEntry} {entries : List DirEntry}
      (hread : readRecord layout bytes = some (e, rest)) (hrest : Decodes layout rest entries) :
      Decodes layout bytes (e :: entries)

section
variable {layout : DirentLayout} {e : DirEntry}

lemma length_neBytes (width n : Nat) : (neBytes width n).length = width := by
  induction width generalizing n with
  | zero => rfl
  | succ width ih => rw [neBytes, length_cons, ih]

lemma ofNeBytes_two {n : Nat} (hn : n < 65536) : ofNeBytes (neBytes 2 n) = n := by
  simp [neBytes, ofNeBytes]
  omega

lemma reclen_bounds (he : e.Named) :
    e.name.length + 20 ≤ e.reclen ∧ 24 ≤ e.reclen ∧ e.reclen ≤ 280 ∧ e.reclen % 8 = 0 := by
  have hpos := he.pos
  have hle := he.le
  unfold reclen
  omega

lemma length_record (layout : DirentLayout) (he : e.Named) (idx : Nat) :
    (e.record layout idx).length = e.reclen := by
  have hlen := (reclen_bounds he).1
  cases layout <;> simp [record, body, padding, length_neBytes] <;> omega

lemma record_ne_nil (he : e.Named) (idx : Nat) : e.record layout idx ≠ [] := by
  refine ne_nil_of_length_pos ?_
  rw [length_record layout he]
  have := reclen_bounds he
  omega

lemma takeWhile_name (he : e.Named) (rest : List UInt8) :
    (e.name ++ (e.padding ++ rest)).takeWhile (· ≠ 0) = e.name := by
  obtain ⟨k, hk⟩ : ∃ k, e.reclen - 19 - e.name.length = k + 1 :=
    Nat.exists_eq_add_one.mpr (by have := (reclen_bounds he).1; omega)
  rw [padding, hk, replicate_succ, cons_append, takeWhile_append_of_pos (by simpa using he.noZero)]
  simp

lemma readRecord_record (he : e.Named) (idx : Nat) (rest : List UInt8) :
    readRecord layout (e.record layout idx ++ rest) = some (e, rest) := by
  obtain ⟨-, hmin, hmax, halign⟩ := reclen_bounds he
  have hlen := length_record layout he idx
  have hdrop : (e.record layout idx).drop 18 = e.body layout := by
    rw [record, ← append_assoc]
    exact drop_left' (by simp [length_neBytes])
  have hword : ((e.record layout idx ++ rest).drop 16).take 2 = neBytes 2 e.reclen := by
    rw [record, append_assoc, drop_left' (by simp [length_neBytes]), append_assoc]
    exact take_left' (length_neBytes ..)
  have hsize : e.reclen ≤ (e.record layout idx ++ rest).length := by
    rw [length_append, hlen]
    exact Nat.le_add_right _ _
  simp only [readRecord, hword, ofNeBytes_two (show e.reclen < 65536 by omega), hmin, halign,
    hsize, and_self, if_true, take_left' hlen, drop_left' hlen, hdrop]
  obtain ⟨name, isDir⟩ := e
  have hname := takeWhile_name he []
  have hname' := takeWhile_name he [direntType ⟨name, isDir⟩]
  rw [append_nil] at hname
  cases layout <;> cases isDir <;> simp_all [body, direntType]

end

def records (layout : DirentLayout) : Nat → List DirEntry → List UInt8
  | _, [] => []
  | idx, e :: entries => e.record layout idx ++ records layout (idx + 1) entries

variable {layout : DirentLayout} {entries : List DirEntry} {count pos : Nat}

lemma records_append (idx : Nat) (first second : List DirEntry) :
    records layout idx (first ++ second) =
      records layout idx first ++ records layout (idx + first.length) second := by
  induction first generalizing idx with
  | nil => rfl
  | cons e first ih =>
    rw [cons_append, records, ih, records, append_assoc, length_cons,
      Nat.add_right_comm, Nat.add_assoc]

lemma decodes_records (hnames : ∀ e ∈ entries, e.Named) (idx : Nat) :
    Decodes layout (records layout idx entries) entries := by
  induction entries generalizing idx with
  | nil => exact .nil
  | cons e entries ih =>
    obtain ⟨he, hrest⟩ := forall_mem_cons.mp hnames
    exact .cons (readRecord_record he idx _) (ih hrest (idx + 1))

lemma fill_ok (layout : DirentLayout) (hnames : ∀ e ∈ entries, e.Named) (idx : Nat)
    (out : List UInt8) (hout : out.length ≤ count)
    (hroom : out = [] → ∀ e ∈ entries.head?, e.reclen ≤ count) :
    ∃ n ≤ entries.length, fill layout count entries idx out =
        .ok (out ++ records layout idx (entries.take n), idx + n) ∧
      (out ++ records layout idx (entries.take n)).length ≤ count ∧
      (out = [] → entries ≠ [] → records layout idx (entries.take n) ≠ []) := by
  induction entries generalizing idx out with
  | nil => exact ⟨0, Nat.le_refl _, by simp [fill, records], by simpa [records] using hout, by simp⟩
  | cons e entries ih =>
    obtain ⟨he, hrest⟩ := forall_mem_cons.mp hnames
    have hlen := length_record layout he idx
    by_cases hfull : count < out.length + e.reclen
    · have hne : out ≠ [] := by
        rintro rfl
        have := hroom rfl e rfl
        simp only [length_nil] at hfull
        omega
      exact ⟨0, Nat.zero_le _, by simp [fill, hfull, hne, records], by simpa [records] using hout,
        fun heq => absurd heq hne⟩
    · have hnext : (out ++ e.record layout idx).length ≤ count := by
        rw [length_append, hlen]
        omega
      have hsome : out ++ e.record layout idx ≠ [] :=
        append_ne_nil_of_right_ne_nil _ (record_ne_nil he idx)
      obtain ⟨n, hn, hfill, hsize, -⟩ := ih hrest (idx + 1) _ hnext (absurd · hsome)
      refine ⟨n + 1, Nat.succ_le_succ hn, ?_, ?_, fun _ _ => ?_⟩
      · have hmax := (reclen_bounds he).2.2.1
        rw [fill, if_neg hfull, if_neg (Nat.not_lt.mpr hmax), hfill, take_succ_cons, records,
          append_assoc, Nat.add_right_comm, Nat.add_assoc]
      · rw [take_succ_cons, records, ← append_assoc]
        exact hsize
      · rw [take_succ_cons, records]
        exact append_ne_nil_of_left_ne_nil (record_ne_nil he idx) _

lemma linuxGetdents_ok (layout : DirentLayout) {dirp : Nat} (hnames : ∀ e ∈ entries, e.Named)
    (hpos : pos ≤ entries.length) (hdirp : dirp ≠ 0) (hcount : count ≠ 0)
    (hroom : ∀ e ∈ entries[pos]?, e.reclen ≤ count) :
    ∃ n, pos + n ≤ entries.length ∧ linuxGetdents layout entries pos dirp count =
        (.ok (records layout pos ((entries.drop pos).take n)), pos + n) ∧
      (records layout pos ((entries.drop pos).take n)).length ≤ count ∧
      (pos < entries.length → records layout pos ((entries.drop pos).take n) ≠ []) := by
  have hdrop : ∀ e ∈ entries.drop pos, e.Named := fun e he => hnames e (mem_of_mem_drop he)
  obtain ⟨n, hn, hfill, hsize, hsome⟩ := fill_ok layout hdrop pos []
    (Nat.zero_le count) fun _ => by simpa [head?_drop] using hroom
  rw [nil_append] at hfill hsize
  rw [length_drop] at hn
  refine ⟨n, by omega, ?_, hsize, fun hlt => hsome rfl ?_⟩
  · simp [linuxGetdents, hdirp, hcount, hfill]
  · simpa using hlt

lemma enumerate_ok (hnames : ∀ e ∈ entries, e.Named) (hpos : pos ≤ entries.length)
    (calls : List (Nat × Nat)) (hroom : Roomy layout entries pos calls) :
    ∃ outs n, enumerate layout entries pos calls = outs.map .ok ∧
      Forall₂ (fun out call => out.length ≤ call.2) outs calls ∧ pos + n ≤ entries.length ∧
      outs.flatten = records layout pos ((entries.drop pos).take n) ∧
      ([] ∈ outs → pos + n = entries.length) ∧
      (entries.length < pos + calls.length → [] ∈ outs) := by
  induction calls generalizing pos with
  | nil => exact ⟨[], 0, rfl, .nil, hpos, by simp [records], by simp, by simp; omega⟩
  | cons call calls ih =>
    obtain ⟨dirp, count⟩ := call
    obtain ⟨hdirp, hcount, hfits, hlater⟩ := hroom
    obtain ⟨n, hn, hcall, hsize, hprogress⟩ :=
      linuxGetdents_ok layout hnames hpos hdirp hcount hfits
    rw [hcall] at hlater
    obtain ⟨outs, m, houts, hsizes, hm, hflat, hend, hstop⟩ := ih hn hlater
    refine ⟨_ :: outs, n + m, ?_, .cons hsize hsizes, by omega, ?_, ?_, ?_⟩
    · simp [enumerate, hcall, houts]
    · rw [flatten_cons, hflat, take_add, drop_drop, records_append,
        length_take_of_le (by rw [length_drop]; omega)]
    · intro hmem
      rcases mem_cons.mp hmem with hnone | hmem
      · -- the call took nothing, so there was nothing left
        have hzero : ¬pos < entries.length := fun hlt => hprogress hlt hnone.symm
        omega
      · have := hend hmem
        omega
    · intro hlong
      rw [length_cons] at hlong
      by_cases hlt : pos < entries.length
      · have hn : n ≠ 0 := by
          rintro rfl
          exact hprogress hlt rfl
        exact mem_cons_of_mem _ (hstop (by omega))
      · have hdone : entries.drop pos = [] := drop_eq_nil_of_le (by omega)
        simp [hdone, records]

/-- A freshly opened directory is read completely: every call stays within its
buffer, more calls than entries reach one that returns nothing, and then the
records of all calls are the entries, each once and in order. -/
theorem enumerate_complete (layout : DirentLayout) (entries : List DirEntry)
    (hnames : ∀ e ∈ entries, e.Named) (calls : List (Nat × Nat))
    (hroom : Roomy layout entries 0 calls) :
    ∃ outs, enumerate layout entries 0 calls = outs.map .ok ∧
      List.Forall₂ (fun out call => out.length ≤ call.2) outs calls ∧
      ([] ∈ outs → Decodes layout outs.flatten entries) ∧
      (entries.length < calls.length → [] ∈ outs) := by
  obtain ⟨outs, n, houts, hsizes, -, hflat, hend, hstop⟩ :=
    enumerate_ok hnames (Nat.zero_le _) calls hroom
  refine ⟨outs, houts, hsizes, fun hmem => ?_, by simpa using hstop⟩
  have hall : n = entries.length := by simpa using hend hmem
  rw [hflat, hall, drop_zero, take_length]
  exact decodes_records hnames 0

def twoEntries : List DirEntry := [⟨[100], true⟩, ⟨[102, 49], false⟩]

theorem enumerate_complete_twoEntries : ∃ outs : List (List UInt8),
    enumerate .getdents twoEntries 0 [(64, 24), (64, 100), (64, 1)] = outs.map .ok ∧
    Decodes .getdents outs.flatten twoEntries := by
  have hnames : ∀ e ∈ twoEntries, e.Named := by
    simp only [twoEntries, forall_mem_cons]
    exact ⟨⟨by decide, by decide, by simp⟩, ⟨by decide, by decide, by simp⟩, by simp⟩
  have hroom : Roomy .getdents twoEntries 0 [(64, 24), (64, 100), (64, 1)] := by
    simp only [Roomy]
    decide
  obtain ⟨outs, houts, -, hdecodes, hstop⟩ := enumerate_complete _ _ hnames _ hroom
  exact ⟨outs, houts, hdecodes (hstop (by decide))⟩

end KarteOs.Syscall

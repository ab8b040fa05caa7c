import Mathlib.Data.List.Pairwise
import Mathlib.Order.Lattice

/-! # Maps kept as sorted lists

A map is the list of its keys and values in the order of the keys. Lookup,
insertion and removal are stated by the value at each key; a loop over the map
that changes values in place keeps its keys.
-/

/-- Keys and values in the order of the keys, each key once. -/
structure OrderedMap (Key Value : Type*) [LinearOrder Key] where
  entries : List (Key × Value)
  sorted : entries.Pairwise fun first second => first.1 < second.1

namespace OrderedMap

open List Option Prod

variable {Key Value : Type*} [LinearOrder Key]

def empty : OrderedMap Key Value := ⟨[], .nil⟩

variable (m : OrderedMap Key Value)

def get (key : Key) : Option Value :=
  (m.entries.find? fun entry => entry.1 = key).map Prod.snd

def insert (key : Key) (value : Value) : OrderedMap Key Value where
  entries := m.entries.filter (fun entry => entry.1 < key) ++
    (key, value) :: m.entries.filter fun entry => key < entry.1
  sorted := by
    refine List.pairwise_append.mpr ⟨m.sorted.filter _, List.pairwise_cons.mpr ⟨?_,
      m.sorted.filter _⟩, ?_⟩
    · intro entry hentry
      exact of_decide_eq_true (List.mem_filter.mp hentry).2
    · intro below hbelow entry hentry
      have hlt : below.1 < key := of_decide_eq_true (List.mem_filter.mp hbelow).2
      rcases List.mem_cons.mp hentry with rfl | habove
      · exact hlt
      · exact hlt.trans (of_decide_eq_true (List.mem_filter.mp habove).2)

def erase (key : Key) : OrderedMap Key Value :=
  ⟨m.entries.filter fun entry => entry.1 ≠ key, m.sorted.filter _⟩

/-- The map with other values at the same keys. -/
def withEntries (entries : List (Key × Value))
    (hkeys : entries.map Prod.fst = m.entries.map Prod.fst) : OrderedMap Key Value :=
  ⟨entries, by
    rw [← List.pairwise_map (f := Prod.fst) (R := (· < ·)), hkeys, List.pairwise_map]
    exact m.sorted⟩

variable {m : OrderedMap Key Value} {key other : Key} {value : Value}

lemma eq_of_mem {first second : Key × Value} (hfirst : first ∈ m.entries)
    (hsecond : second ∈ m.entries) (hkey : first.1 = second.1) : first = second := by
  by_contra hne
  have hsymm : Std.Symm fun first second : Key × Value => first.1 ≠ second.1 := ⟨fun _ _ => Ne.symm⟩
  exact (m.sorted.imp fun hlt => hlt.ne).forall hfirst hsecond hne hkey

lemma get_eq_some_iff : m.get key = some value ↔ (key, value) ∈ m.entries := by
  unfold get
  constructor
  · intro hget
    obtain ⟨⟨found, stored⟩, hfind, rfl⟩ := map_eq_some_iff.mp hget
    obtain rfl : found = key := by simpa using find?_some hfind
    exact mem_of_find?_eq_some hfind
  · intro hmem
    cases hfind : m.entries.find? fun entry => entry.1 = key with
    | none => simpa using find?_eq_none.mp hfind _ hmem
    | some found =>
      have hkey : found.1 = key := by simpa using find?_some hfind
      rw [eq_of_mem (mem_of_find?_eq_some hfind) hmem hkey, map_some]

lemma get_eq_none_iff : m.get key = none ↔ ∀ value, (key, value) ∉ m.entries := by
  rw [eq_none_iff_forall_ne_some]
  exact forall_congr' fun value => get_eq_some_iff.not

lemma get_congr {first second : OrderedMap Key Value}
    (hsame : ∀ value, (key, value) ∈ first.entries ↔ (other, value) ∈ second.entries) :
    first.get key = second.get other := by
  refine Option.ext fun value => ?_
  rw [get_eq_some_iff, hsame, ← get_eq_some_iff]

@[simp] lemma get_insert_self : (m.insert key value).get key = some value :=
  get_eq_some_iff.mpr (by simp [insert])

lemma get_insert_of_ne (hne : other ≠ key) : (m.insert key value).get other = m.get other := by
  refine get_congr fun stored => ?_
  simp only [insert, mem_append, mem_cons, mem_filter, decide_eq_true_eq]
  rcases lt_or_gt_of_ne hne with hlt | hgt
  · simp [hlt, hne, hlt.not_gt]
  · simp [hgt, hne, hgt.not_gt]

@[simp] lemma get_erase_self : (m.erase key).get key = none :=
  get_eq_none_iff.mpr fun value => by simp [erase]

lemma get_erase_of_ne (hne : other ≠ key) : (m.erase key).get other = m.get other :=
  get_congr fun stored => by simp [erase, hne]

lemma erase_of_get_eq_none (hnone : m.get key = none) : m.erase key = m := by
  have hkeys : ∀ entry ∈ m.entries, decide (entry.1 ≠ key) := by
    intro entry hentry
    refine decide_eq_true fun heq => ?_
    exact get_eq_none_iff.mp hnone entry.2 (heq ▸ hentry)
  cases m
  simpa [erase] using hkeys

lemma get_withEntries_eq_none {entries : List (Key × Value)}
    (hkeys : entries.map fst = m.entries.map fst) :
    (m.withEntries entries hkeys).get key = none ↔ m.get key = none := by
  have hmem : ∀ list : List (Key × Value), (∀ value, (key, value) ∉ list) ↔
      key ∉ list.map fst := by simp
  rw [get_eq_none_iff, get_eq_none_iff, hmem, hmem]
  exact (congrArg (key ∉ ·) hkeys).to_iff

end OrderedMap

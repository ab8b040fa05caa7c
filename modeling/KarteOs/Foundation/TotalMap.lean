import Mathlib.Logic.Function.Basic

/-! # Total maps with finitely many recorded entries

A map that is defined everywhere and differs from its default only at the keys
it records, so that statements about all keys can be decided.
-/

universe uKey uValue

/-- The last recorded value of a key comes first. -/
structure TotalMap (Key : Type uKey) (Value : Type uValue) where
  entries : List (Key × Value)

namespace TotalMap

variable {Key : Type uKey} {Value : Type uValue} [DecidableEq Key] [Inhabited Value]
  {m : TotalMap Key Value}

def empty : TotalMap Key Value :=
  ⟨[]⟩

section
variable (m : TotalMap Key Value)

def get (key : Key) : Value :=
  (m.entries.lookup key).getD default

def set (key : Key) (value : Value) : TotalMap Key Value :=
  ⟨(key, value) :: m.entries⟩

def keys : List Key :=
  m.entries.map Prod.fst

end

@[simp]
lemma empty_get (key : Key) : (empty : TotalMap Key Value).get key = default := rfl

lemma set_get (m : TotalMap Key Value) (key : Key) (value : Value) :
    (m.set key value).get = Function.update m.get key value := by
  funext other
  unfold set get
  rw [List.lookup_cons]
  rcases eq_or_ne other key with rfl | hne
  · simp
  · simp [hne, beq_false_of_ne hne]

lemma get_of_notMem {key : Key} (hkey : key ∉ m.keys) : m.get key = default := by
  have hnone : m.entries.lookup key = none := by
    refine List.lookup_eq_none_iff.mpr fun entry hentry => ?_
    refine bne_iff_ne.mpr fun heq => hkey (List.mem_map.mpr ⟨entry, hentry, heq.symm⟩)
  rw [get, hnone, Option.getD_none]

lemma forall_get_iff (good : Key → Value → Prop) (hdefault : ∀ key, good key default) :
    (∀ key ∈ m.keys, good key (m.get key)) ↔ ∀ key, good key (m.get key) := by
  refine ⟨fun h key => ?_, fun h key _ => h key⟩
  by_cases hkey : key ∈ m.keys
  · exact h key hkey
  · rw [get_of_notMem hkey]
    exact hdefault key

end TotalMap

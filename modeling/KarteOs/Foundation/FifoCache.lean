import Mathlib.Data.List.Nodup

/-! # Bounded caches with first-in first-out eviction

A cache is a finite map with the queue of its keys in the order of their entry. A
cache is sound for a store if it only holds values of the store, if the queue
lists each cached key once and if it keeps to its capacity. Writing the same value
to the store and to the cache keeps it sound, whatever is evicted.
-/

universe uKey uValue

structure FifoCache (Key : Type uKey) (Value : Type uValue) where
  map : Key → Option Value
  order : List Key

namespace FifoCache

open Function List

variable {Key : Type uKey} {Value : Type uValue}

def new : FifoCache Key Value :=
  ⟨fun _ => none, []⟩

def get (cache : FifoCache Key Value) (key : Key) : Option Value :=
  cache.map key

variable [DecidableEq Key]

/-- Oldest keys leave while the queue is longer than `capacity`. -/
def evict (capacity : Nat) (map : Key → Option Value) : List Key → FifoCache Key Value
  | [] => ⟨map, []⟩
  | key :: order =>
    if capacity < (key :: order).length then
      evict capacity (update map key none) order
    else ⟨map, key :: order⟩

/-- A key that is already cached keeps its place in the queue. -/
def insert (capacity : Nat) (cache : FifoCache Key Value) (key : Key) (value : Value) :
    FifoCache Key Value :=
  let map := update cache.map key (some value)
  if (cache.map key).isNone then evict capacity map (cache.order ++ [key])
  else ⟨map, cache.order⟩

/-- The cached values are those of the store, and the queue lists their keys. -/
structure Coherent (store : Key → Value) (map : Key → Option Value) (order : List Key) : Prop where
  values : ∀ key value, map key = some value → value = store key
  listed : ∀ key, key ∈ order ↔ (map key).isSome = true
  nodup : order.Nodup

structure Sound (capacity : Nat) (store : Key → Value) (cache : FifoCache Key Value) : Prop
    extends Coherent store cache.map cache.order where
  bounded : cache.order.length ≤ capacity

variable {capacity : Nat} {store : Key → Value} {cache : FifoCache Key Value}
  {map : Key → Option Value} {order : List Key} {key : Key}

omit [DecidableEq Key] in
lemma new_sound (capacity : Nat) (store : Key → Value) :
    (new : FifoCache Key Value).Sound capacity store where
  values := fun _ _ hnone => by cases hnone
  listed := fun _ => by simp [new]
  nodup := nodup_nil
  bounded := Nat.zero_le capacity

namespace Coherent

lemma tail (hcache : Coherent store map (key :: order)) :
    Coherent store (update map key none) order := by
  obtain ⟨hkey, hnodup⟩ := nodup_cons.mp hcache.nodup
  refine ⟨fun other value hvalue => ?_, fun other => ?_, hnodup⟩
  · rcases eq_or_ne other key with rfl | hne
    · simp at hvalue
    · rw [update_of_ne hne] at hvalue
      exact hcache.values other value hvalue
  · rcases eq_or_ne other key with rfl | hne
    · simp [hkey]
    · rw [update_of_ne hne, ← hcache.listed other]
      simp [hne]

lemma evict (hcache : Coherent store map order) :
    (evict capacity map order).Sound capacity store := by
  induction order generalizing map with
  | nil => exact ⟨hcache, Nat.zero_le capacity⟩
  | cons key order ih =>
    rw [FifoCache.evict]
    split
    · exact ih hcache.tail
    next hfits => exact ⟨hcache, Nat.le_of_not_lt hfits⟩

lemma write (hcache : Coherent store map order) (value : Value) {queue : List Key}
    (hnodup : queue.Nodup) (hqueue : ∀ other, other ∈ queue ↔ other = key ∨ other ∈ order) :
    Coherent (update store key value) (update map key (some value)) queue := by
  refine ⟨fun other cached hcached => ?_, fun other => ?_, hnodup⟩
  · rcases eq_or_ne other key with rfl | hne
    · simpa using hcached.symm
    · rw [update_of_ne hne] at hcached ⊢
      exact hcache.values other cached hcached
  · rw [hqueue]
    rcases eq_or_ne other key with rfl | hne
    · simp
    · rw [update_of_ne hne, ← hcache.listed other]
      simp [hne]

end Coherent

lemma Sound.insert (hcache : cache.Sound capacity store) (key : Key) (value : Value) :
    (cache.insert capacity key value).Sound capacity (update store key value) := by
  unfold FifoCache.insert
  dsimp only
  split
  next hnew =>
    have hkey : key ∉ cache.order := by
      rw [hcache.listed key]
      simpa using hnew
    have hnodup : (cache.order ++ [key]).Nodup := by
      rw [← concat_eq_append]
      exact hcache.nodup.concat hkey
    refine (hcache.write value hnodup fun other => ?_).evict
    rw [mem_append, mem_singleton, or_comm]
  next hold =>
    have hkey : key ∈ cache.order := by
      rw [hcache.listed key]
      simpa [Option.ne_none_iff_isSome] using hold
    refine ⟨hcache.write value hcache.nodup fun other => ?_, hcache.bounded⟩
    exact ⟨.inr, fun hother => hother.elim (fun heq => heq ▸ hkey) id⟩

end FifoCache

import Mathlib.Data.UInt
import KarteOs.Foundation.Run

/-! # The pool of cache blocks

An allocation that exceeds what is free takes blocks back from other models and counts them.
The bookkeeping is exact as long as no request exceeds the pool: such a request is refused, but
only after it has been booked.
-/

namespace KarteOs

open Transition

structure KvPool where
  totalBlocks : Nat
  usedBlocks : Nat
  yieldedBlocks : Nat

inductive KvCall
  | allocBlocks (n : UInt32)
  | freeBlocks (n : UInt32)

namespace KvPool

def new (totalBlocks : UInt32) : KvPool := ⟨totalBlocks.toNat, 0, 0⟩

variable (p : KvPool)

def avail : Nat := p.totalBlocks - p.usedBlocks

/-- What an allocation takes back from other models. -/
def yields (n : UInt32) : Nat := if p.avail < n.toNat then n.toNat - p.avail else 0

def allocBlocks (n : UInt32) : Bool × KvPool :=
  let next :=
    { p with
      yieldedBlocks := (p.yieldedBlocks + p.yields n) % 2 ^ 64
      usedBlocks := (p.usedBlocks - p.yields n + n.toNat) % 2 ^ 32 }
  (next.usedBlocks ≤ next.totalBlocks, next)

def freeBlocks (n : UInt32) : KvPool := { p with usedBlocks := p.usedBlocks - n.toNat }

def apply : KvCall → KvPool
  | .allocBlocks n => (p.allocBlocks n).2
  | .freeBlocks n => p.freeBlocks n

/-- What the accounting promises of a call: the blocks in use fit the pool, a refused allocation
changes nothing, a granted one adds its blocks and takes back what was missing. -/
def Accounted (call : KvCall) : Prop :=
  (p.apply call).usedBlocks ≤ (p.apply call).totalBlocks ∧
  ∀ n, call = .allocBlocks n →
    ((p.allocBlocks n).1 = false → (p.allocBlocks n).2 = p) ∧
    ((p.allocBlocks n).1 = true →
      (p.allocBlocks n).2.usedBlocks + (n.toNat - p.avail) = p.usedBlocks + n.toNat ∧
      (p.allocBlocks n).2.yieldedBlocks = (p.yieldedBlocks + (n.toNat - p.avail)) % 2 ^ 64)

structure Bounded (total : UInt32) : Prop where
  totalBlocks : p.totalBlocks = total.toNat
  usedBlocks : p.usedBlocks ≤ total.toNat

variable {p : KvPool} {total : UInt32}

lemma yields_eq (n : UInt32) : p.yields n = n.toNat - p.avail := by
  rw [yields]
  split <;> omega

lemma Bounded.accounted_iff (hp : p.Bounded total) (call : KvCall) :
    p.Accounted call ↔ ∀ n, call = .allocBlocks n → n ≤ total := by
  obtain ⟨htotal, hused⟩ := hp
  cases call with
  | freeBlocks n => exact iff_of_true ⟨by simp only [apply, freeBlocks]; omega, nofun⟩ nofun
  | allocBlocks n =>
    have hn := n.toNat_lt
    have hlimit := total.toNat_lt
    simp only [KvCall.allocBlocks.injEq, forall_eq', UInt32.le_iff_toNat_le, Accounted, apply,
      allocBlocks, yields_eq, avail, decide_eq_true_eq, decide_eq_false_iff_not]
    constructor
    · -- a larger request leaves its whole size in use
      intro hfits
      have := hfits.1
      omega
    · intro hle
      have hgranted : (p.usedBlocks - (n.toNat - (p.totalBlocks - p.usedBlocks)) + n.toNat) %
          2 ^ 32 ≤ p.totalBlocks := by omega
      exact ⟨hgranted, absurd hgranted, fun _ => ⟨by omega, trivial⟩⟩

lemma Bounded.apply (hp : p.Bounded total) {call : KvCall} (hcall : p.Accounted call) :
    (p.apply call).Bounded total := by
  cases call <;> exact ⟨hp.totalBlocks, hcall.1.trans hp.totalBlocks.le⟩

/-- Over every run, the accounting is exact if and only if no request exceeds the pool. -/
theorem run_accounted_iff (total : UInt32) (calls : List KvCall) :
    Allowed Accounted apply (new total) calls ↔ ∀ n, .allocBlocks n ∈ calls → n ≤ total := by
  have hnew : (new total).Bounded total := ⟨rfl, Nat.zero_le _⟩
  refine (Allowed.iff_of_invariant
    (fun (p : KvPool) call (hp : p.Bounded total) => hp.accounted_iff call)
    (fun _ _ hp hcall => hp.apply hcall) hnew calls).trans (allowed_iff_forall.trans ?_)
  exact ⟨fun hall n hn => hall _ hn n rfl, fun hall _ hmem n heq => hall n (heq ▸ hmem)⟩

/-- A refused request is booked all the same. -/
theorem alloc_two_of_one : (new 1).allocBlocks 2 = (false, ⟨1, 2, 1⟩) ∧
    ¬ Allowed Accounted apply (new 1) [.allocBlocks 2] :=
  ⟨rfl, fun hrun => absurd hrun.1.1 (by decide)⟩

end KvPool

end KarteOs

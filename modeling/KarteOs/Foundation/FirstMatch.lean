import Mathlib.Data.List.Pairwise

/-! # Updating the first match of a table

A fixed-size table is scanned for its first element with some property, and
that element is replaced in place. The lemmas say what the update does to
searches for other properties and to pairwise facts about the table.
-/

namespace FirstMatch

open List Option Bool

universe u

variable {α : Type u}

/-- Replace the first element satisfying `p`, or fail if there is none. -/
def updateFirst (p : α → Bool) (f : α → α) : List α → Option (List α)
  | [] => none
  | x :: rest => if p x then some (f x :: rest) else (updateFirst p f rest).map (x :: ·)

variable {p q : α → Bool} {f : α → α} {table next : List α}

lemma updateFirst_eq_some (hupdate : updateFirst p f table = some next) :
    ∃ before x after, table = before ++ x :: after ∧ next = before ++ f x :: after ∧
      p x ∧ ∀ y ∈ before, p y = false := by
  induction table generalizing next with
  | nil => cases hupdate
  | cons x rest ih =>
    simp only [updateFirst] at hupdate
    split at hupdate
    next hx => exact ⟨[], x, rest, rfl, (some.inj hupdate).symm, hx, by simp⟩
    next hx =>
      obtain ⟨tail, htail, rfl⟩ := map_eq_some_iff.mp hupdate
      obtain ⟨before, y, after, rfl, rfl, hy, hbefore⟩ := ih htail
      refine ⟨x :: before, y, after, rfl, rfl, hy, ?_⟩
      intro z hz
      rcases mem_cons.mp hz with rfl | hz
      · exact eq_false_iff.mpr hx
      · exact hbefore z hz

lemma updateFirst_eq_none (hupdate : updateFirst p f table = none) : ∀ x ∈ table, p x = false := by
  induction table with
  | nil => simp
  | cons x rest ih =>
    simp only [updateFirst] at hupdate
    split at hupdate
    · cases hupdate
    next hx =>
      intro y hy
      rcases mem_cons.mp hy with rfl | hy
      · exact eq_false_iff.mpr hx
      · exact ih (map_eq_none_iff.mp hupdate) y hy

section
variable (hupdate : updateFirst p f table = some next)
include hupdate

lemma find?_updateFirst_of_disjoint (hold : ∀ x, p x → q x = false)
    (hnew : ∀ x, p x → q (f x) = false) : next.find? q = table.find? q := by
  obtain ⟨before, x, after, rfl, rfl, hx, _⟩ := updateFirst_eq_some hupdate
  simp [find?_append, hold x hx, hnew x hx]

lemma find?_updateFirst_self (hkeep : ∀ x, p x → p (f x)) :
    next.find? p = (table.find? p).map f := by
  obtain ⟨before, x, after, rfl, rfl, hx, hbefore⟩ := updateFirst_eq_some hupdate
  have hnone : before.find? p = none := find?_eq_none.mpr fun y hy => eq_false_iff.mp (hbefore y hy)
  simp [find?_append, hnone, hx, hkeep x hx]

lemma find?_updateFirst_install (hnone : ∀ x ∈ table, q x = false) {y : α}
    (hf : ∀ x, p x → f x = y) (hy : q y) : next.find? q = some y := by
  obtain ⟨before, x, after, rfl, rfl, hx, _⟩ := updateFirst_eq_some hupdate
  have hbefore : before.find? q = none :=
    find?_eq_none.mpr fun z hz => eq_false_iff.mp (hnone z (mem_append_left _ hz))
  simp [find?_append, hbefore, hf x hx, hy]

end

lemma pairwise_updateFirst {R : α → α → Prop} (hsymm : ∀ x y, R x y → R y x)
    (hupdate : updateFirst p f table = some next) (htable : table.Pairwise R)
    (hreplace : ∀ x ∈ table, p x → ∀ y ∈ table, R x y → R (f x) y) : next.Pairwise R := by
  obtain ⟨before, x, after, rfl, rfl, hx, _⟩ := updateFirst_eq_some hupdate
  rw [pairwise_append, pairwise_cons] at htable ⊢
  obtain ⟨hbefore, ⟨hxAfter, hafter⟩, hcross⟩ := htable
  have hmem : x ∈ before ++ x :: after := by simp
  refine ⟨hbefore, ⟨?_, hafter⟩, ?_⟩
  · intro y hy
    exact hreplace x hmem hx y (by simp [hy]) (hxAfter y hy)
  · intro y hy z hz
    rcases mem_cons.mp hz with rfl | hz
    · exact hsymm _ _ (hreplace x hmem hx y (by simp [hy]) (hsymm _ _ (hcross y hy x (.head _))))
    · exact hcross y hy z (.tail _ hz)

end FirstMatch

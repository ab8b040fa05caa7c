import KarteOs.Foundation.FirstMatch

/-! # Tables whose entries have a key

A growing list of entries is searched by a key that its operations never
change: entries are updated in place and new keys are pushed at the end. What
the table is for is the partial map from keys to entries.
-/

namespace KeyedTable

open FirstMatch List Option

universe u v

variable {α : Type u} {κ : Type v} {key : α → κ} {table next : List α} {k : κ} {f : α → α}

/-- No two entries have the same key. -/
def Distinct (key : α → κ) (table : List α) : Prop :=
  table.Pairwise fun x y => key x ≠ key y

lemma Distinct.map (hkey : ∀ x, key (f x) = key x) (hdistinct : Distinct key table) :
    Distinct key (table.map f) := by
  refine pairwise_map.mpr (hdistinct.imp fun hne => ?_)
  rwa [hkey, hkey]

variable [DecidableEq κ] {x : α}

/-- The first entry with a key. -/
def find (key : α → κ) (table : List α) (k : κ) : Option α :=
  table.find? fun x => decide (key x = k)

lemma key_of_find (hfind : find key table k = some x) : key x = k := by simpa using find?_some hfind

lemma mem_of_find (hfind : find key table k = some x) : x ∈ table := mem_of_find?_eq_some hfind

lemma find_eq_none : find key table k = none ↔ ∀ x ∈ table, key x ≠ k := by simp [find]

lemma Distinct.find_of_mem (hdistinct : Distinct key table) (hx : x ∈ table) :
    find key table (key x) = some x := by
  induction table with
  | nil => cases hx
  | cons y rest ih =>
    obtain ⟨hhead, hrest⟩ := pairwise_cons.mp hdistinct
    rcases mem_cons.mp hx with rfl | hx
    · simp [find]
    · have hne : key y ≠ key x := hhead x hx
      simpa [find, hne] using ih hrest hx

lemma Distinct.find?_eq (hdistinct : Distinct key table) {p : α → Bool}
    (hp : ∀ x, p x → key x = k) : table.find? p = (find key table k).filter p := by
  cases hsearch : table.find? p with
  | some y =>
    have hy := find?_some hsearch
    have hfind := hdistinct.find_of_mem (mem_of_find?_eq_some hsearch)
    rw [hp y hy] at hfind
    rw [hfind, filter_some, if_pos hy]
  | none =>
    cases hfind : find key table k with
    | none => rfl
    | some x =>
      have hx := find?_eq_none.mp hsearch x (mem_of_find hfind)
      rw [filter_some, if_neg hx]

/-! ## Operations that keep the keys -/

lemma find_map (hkey : ∀ x, key (f x) = key x) :
    find key (table.map f) k = (find key table k).map f := by
  rw [find, find, find?_map]
  simp only [Function.comp_def, hkey]

section
variable (hnone : find key table (key x) = none)
include hnone

lemma find_push : find key (table ++ [x]) k = if k = key x then some x else find key table k := by
  simp only [find, find?_append]
  split
  next h =>
    subst h
    rw [← find, hnone]
    simp
  next h => simp [Ne.symm h]

lemma Distinct.push (hdistinct : Distinct key table) : Distinct key (table ++ [x]) := by
  refine pairwise_append.mpr ⟨hdistinct, pairwise_singleton .., ?_⟩
  intro y hy z hz
  obtain rfl := mem_singleton.mp hz
  exact find_eq_none.mp hnone y hy

end

variable {p : α → Bool}

/-- The update of the entry with a key. -/
structure Updated (key : α → κ) (table next : List α) (k : κ) (f : α → α) (x : α) : Prop where
  old : find key table k = some x
  new : ∀ q, find key next q = if q = k then some (f x) else find key table q
  distinct : Distinct key next

lemma Distinct.updateFirst_some (hdistinct : Distinct key table)
    (hp : ∀ x, p x → key x = k) (hkey : ∀ x, key (f x) = key x)
    (hupdate : updateFirst p f table = some next) : ∃ x, p x ∧ Updated key table next k f x := by
  have hnext : Distinct key next := by
    refine pairwise_updateFirst (fun x y hne => hne.symm) hupdate hdistinct ?_
    intro x _ _ y _ hne
    rwa [hkey]
  obtain ⟨before, x, after, rfl, rfl, hx, -⟩ := updateFirst_eq_some hupdate
  have hfind := hdistinct.find_of_mem (x := x) (by simp)
  rw [hp x hx] at hfind
  have hfound := hnext.find_of_mem (x := f x) (by simp)
  rw [hkey, hp x hx] at hfound
  refine ⟨x, hx, hfind, fun q => ?_, hnext⟩
  by_cases hq : q = k
  · rw [if_pos hq, hq, hfound]
  · have hne : key x ≠ q := fun h => hq (h.symm.trans (hp x hx))
    simp [find, find?_append, hq, hne, hkey]

lemma find_of_updateFirst_none (hupdate : updateFirst p f table = none)
    (hfind : find key table k = some x) : p x = false :=
  updateFirst_eq_none hupdate x (mem_of_find hfind)

/-- The entry with a key, changed in place. -/
def modify (key : α → κ) (table : List α) (k : κ) (f : α → α) : List α :=
  (updateFirst (fun x => decide (key x = k)) f table).getD table

lemma modify_of_find (hfind : find key table k = some x) (f : α → α) :
    ∃ before after, before.find? (fun x => decide (key x = k)) = none ∧
      table = before ++ x :: after ∧ modify key table k f = before ++ f x :: after := by
  cases hupdate : updateFirst (fun x => decide (key x = k)) f table with
  | none =>
    have hkey := find_of_updateFirst_none hupdate hfind
    exact absurd (key_of_find hfind) (by simpa using hkey)
  | some next =>
    obtain ⟨before, y, after, htable, hnext, hy, hbefore⟩ := updateFirst_eq_some hupdate
    have hnone := find?_eq_none.mpr fun y hy => Bool.eq_false_iff.mp (hbefore y hy)
    have hfound : find key table k = some y := by
      rw [htable, find, find?_append, hnone]
      exact find?_cons_of_pos (p := fun x => decide (key x = k)) hy
    cases hfound.symm.trans hfind
    exact ⟨before, after, hnone, htable, by rw [modify, hupdate, getD_some, hnext]⟩

lemma modify_of_find_none (hfind : find key table k = none) (f : α → α) :
    modify key table k f = table := by
  rw [modify]
  cases hupdate : updateFirst (fun x => decide (key x = k)) f table with
  | none => rfl
  | some next =>
    obtain ⟨before, y, after, rfl, -, hy, -⟩ := updateFirst_eq_some hupdate
    exact absurd (of_decide_eq_true hy) (find_eq_none.mp hfind y (by simp))

lemma find_modify (hkey : ∀ x, key (f x) = key x) (q : κ) : find key (modify key table k f) q =
    if q = k then (find key table k).map f else find key table q := by
  cases hfind : find key table k with
  | none =>
    rw [modify_of_find_none hfind]
    split
    next hq => rw [hq, hfind, map_none]
    · rfl
  | some x =>
    obtain ⟨before, after, hnone, htable, hmodify⟩ := modify_of_find hfind f
    have hx := key_of_find hfind
    rw [hmodify, htable, map_some]
    split
    next hq =>
      rw [find, find?_append, hq, hnone, none_or, find?_cons_of_pos]
      exact decide_eq_true ((hkey x).trans hx)
    next hq =>
      have hne : key x ≠ q := fun h => hq (h.symm.trans hx)
      simp [find, find?_append, hne, hkey]

end KeyedTable

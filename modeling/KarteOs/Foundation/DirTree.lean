import Mathlib.Data.Set.Basic

/-! # Trees of numbered nodes with names

A set of nodes and a relation between directories and their entries are a tree if
every entry is a node with one parent and every node is reached from the root. A new
entry of a directory and the removal of an entry without entries keep them one.
-/

namespace DirTree

universe u

variable {Name : Type u} {nodes nodes' : Set Nat} {entry entry' : Nat → Nat → Prop}
  {name name' : Nat → Name} {root next dir gone : Nat}

/-- The numbers in use are below `next`, and the entries of a directory have different names. -/
structure Tree (nodes : Set Nat) (entry : Nat → Nat → Prop) (name : Nat → Name)
    (root next : Nat) : Prop where
  root_mem : root ∈ nodes
  fresh : ∀ i ∈ nodes, i < next
  listed : ∀ dir c, entry dir c → c ∈ nodes ∧ c ≠ root
  names : ∀ dir c c', entry dir c → entry dir c' → name c = name c' → c = c'
  unique : ∀ c dir dir', entry dir c → entry dir' c → dir = dir'
  reach : ∀ i ∈ nodes, Relation.ReflTransGen entry root i

namespace Tree

variable (h : Tree nodes entry name root next)
include h

lemma existsUnique_entry {i : Nat} (hi : i ∈ nodes) (hroot : i ≠ root) : ∃! dir, entry dir i := by
  rcases (h.reach i hi).cases_tail with rfl | ⟨dir, -, hentry⟩
  · exact absurd rfl hroot
  · exact ⟨dir, hentry, fun other hother => h.unique i other dir hother hentry⟩

lemma next_not_mem : next ∉ nodes := fun hmem => Nat.lt_irrefl next (h.fresh next hmem)

lemma listed_ne_next {c : Nat} (hc : entry dir c) : c ≠ next := by
  rintro rfl
  exact h.next_not_mem (h.listed dir c hc).1

lemma insert (hdir : dir ∈ nodes) (hnodes : ∀ i, i ∈ nodes' ↔ i ∈ nodes ∨ i = next)
    (hentry : ∀ d c, entry' d c ↔ entry d c ∨ d = dir ∧ c = next)
    (hname : ∀ i ≠ next, name' i = name i) (hnew : ∀ c, entry dir c → name c ≠ name' next) :
    Tree nodes' entry' name' root (next + 1) := by
  have hreach : ∀ i ∈ nodes, Relation.ReflTransGen entry' root i := fun i hi =>
    Relation.ReflTransGen.mono (fun d c hc => (hentry d c).mpr (.inl hc)) _ _ (h.reach i hi)
  refine ⟨(hnodes root).mpr (.inl h.root_mem), fun i hi => ?_, fun d c hc => ?_,
    fun d c c' hc hc' heq => ?_, fun c d d' hd hd' => ?_, fun i hi => ?_⟩
  · rcases (hnodes i).mp hi with hold | rfl
    · exact Nat.lt_succ_of_lt (h.fresh i hold)
    · exact Nat.lt_succ_self i
  · rcases (hentry d c).mp hc with hold | ⟨-, rfl⟩
    · exact ⟨(hnodes c).mpr (.inl (h.listed d c hold).1), (h.listed d c hold).2⟩
    · exact ⟨(hnodes c).mpr (.inr rfl), fun heq => h.next_not_mem (heq ▸ h.root_mem)⟩
  · rcases (hentry d c).mp hc with hold | ⟨rfl, rfl⟩
    · rcases (hentry d c').mp hc' with hold' | ⟨rfl, rfl⟩
      · rw [hname c (h.listed_ne_next hold), hname c' (h.listed_ne_next hold')] at heq
        exact h.names d c c' hold hold' heq
      · rw [hname c (h.listed_ne_next hold)] at heq
        exact absurd heq (hnew c hold)
    · rcases (hentry d c').mp hc' with hold' | ⟨-, rfl⟩
      · rw [hname c' (h.listed_ne_next hold')] at heq
        exact absurd heq.symm (hnew c' hold')
      · rfl
  · rcases (hentry d c).mp hd with hold | ⟨rfl, hc⟩
    · rcases (hentry d' c).mp hd' with hold' | ⟨-, hc⟩
      · exact h.unique c d d' hold hold'
      · exact absurd hc (h.listed_ne_next hold)
    · rcases (hentry d' c).mp hd' with hold' | ⟨rfl, -⟩
      · exact absurd hc (h.listed_ne_next hold')
      · rfl
  · rcases (hnodes i).mp hi with hold | rfl
    · exact hreach i hold
    · exact (hreach dir hdir).tail ((hentry dir i).mpr (.inr ⟨rfl, rfl⟩))

lemma remove (hroot : gone ≠ root) (hleaf : ∀ c, ¬entry gone c)
    (hnodes : ∀ i, i ∈ nodes' ↔ i ∈ nodes ∧ i ≠ gone)
    (hentry : ∀ d c, entry' d c ↔ entry d c ∧ c ≠ gone) (hname : ∀ i ≠ gone, name' i = name i) :
    Tree nodes' entry' name' root next := by
  refine ⟨(hnodes root).mpr ⟨h.root_mem, hroot.symm⟩, fun i hi => h.fresh i ((hnodes i).mp hi).1,
    fun d c hc => ?_, fun d c c' hc hc' heq => ?_, fun c d d' hd hd' => ?_, fun i hi => ?_⟩
  · obtain ⟨hold, hne⟩ := (hentry d c).mp hc
    exact ⟨(hnodes c).mpr ⟨(h.listed d c hold).1, hne⟩, (h.listed d c hold).2⟩
  · obtain ⟨hold, hne⟩ := (hentry d c).mp hc
    obtain ⟨hold', hne'⟩ := (hentry d c').mp hc'
    rw [hname c hne, hname c' hne'] at heq
    exact h.names d c c' hold hold' heq
  · exact h.unique c d d' ((hentry d c).mp hd).1 ((hentry d' c).mp hd').1
  · -- a way to another node does not pass through one without entries
    obtain ⟨hold, hne⟩ := (hnodes i).mp hi
    have hpath := h.reach i hold
    clear hi hold
    induction hpath with
    | refl => exact .refl
    | @tail d c _ hc ih =>
      have hd : d ≠ gone := fun heq => hleaf c (heq ▸ hc)
      exact (ih hd).tail ((hentry d c).mpr ⟨hc, hne⟩)

end Tree

end DirTree

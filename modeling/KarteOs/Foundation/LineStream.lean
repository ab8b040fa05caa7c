import Mathlib.Data.List.Basic

/-! # Lines in a stream that arrives in pieces

A reader keeps what has arrived of a line until its terminator comes. If the
sender writes whole lines, then however the stream is cut, the reader takes out
the lines that were sent, in order, and the rest are still to come.
-/

namespace LineStream

open List

universe u

variable {α : Type u} [DecidableEq α] {stop : α} {text : List α} {lines : List (List α)}

/-- The complete lines of a text, and what follows the last terminator. -/
def split (stop : α) : List α → List (List α) × List α
  | [] => ([], [])
  | c :: text =>
    if c = stop then ([] :: (split stop text).1, (split stop text).2)
    else
      match split stop text with
      | ([], rest) => ([], c :: rest)
      | (line :: lines, rest) => ((c :: line) :: lines, rest)

/-- Lines with their terminators. -/
def join (stop : α) (lines : List (List α)) : List α := lines.flatMap (· ++ [stop])

lemma split_of_notMem (htext : stop ∉ text) : split stop text = ([], text) := by
  induction text with
  | nil => rfl
  | cons c text ih =>
    obtain ⟨hc, htext⟩ := not_or.mp (mem_cons.not.mp htext)
    rw [split, if_neg (Ne.symm hc), ih htext]

lemma split_line {line : List α} (hline : stop ∉ line) :
    split stop (line ++ stop :: text) = (line :: (split stop text).1, (split stop text).2) := by
  induction line with
  | nil => simp [split]
  | cons c line ih =>
    obtain ⟨hc, hline⟩ := not_or.mp (mem_cons.not.mp hline)
    rw [cons_append, split, if_neg (Ne.symm hc), ih hline]

/-- The part of the stream that has arrived holds the first lines, and what is left over
begins the others. -/
lemma split_of_join (hlines : ∀ line ∈ lines, stop ∉ line)
    {later : List α} (hstream : text ++ later = join stop lines) :
    ∃ rest, lines = (split stop text).1 ++ rest ∧
      (split stop text).2 ++ later = join stop rest := by
  induction lines generalizing text with
  | nil =>
    obtain ⟨rfl, rfl⟩ := append_eq_nil_iff.mp hstream
    exact ⟨[], rfl, rfl⟩
  | cons line lines ih =>
    have hline := hlines line (.head _)
    have hstream' : text ++ later = line ++ stop :: join stop lines := by
      rw [hstream, join, flatMap_cons, append_assoc, singleton_append, join]
    rcases append_eq_append_iff.mp hstream' with ⟨more, hmore, hlater⟩ | ⟨more, rfl, hmore⟩
    · -- the first line is not complete
      have htext : stop ∉ text := fun h => hline (by rw [hmore]; exact mem_append_left _ h)
      rw [split_of_notMem htext]
      exact ⟨line :: lines, rfl, hstream⟩
    · cases more with
      | nil =>
        rw [append_nil, split_of_notMem hline]
        exact ⟨line :: lines, rfl, by rw [← hstream, append_nil]⟩
      | cons c more =>
        obtain ⟨rfl, hjoin⟩ := cons.inj hmore
        rw [split_line hline]
        obtain ⟨rest, hrest, hleft⟩ := ih (fun line h => hlines line (.tail _ h)) hjoin.symm
        exact ⟨rest, congrArg (line :: ·) hrest, hleft⟩

lemma split_join (hlines : ∀ line ∈ lines, stop ∉ line) :
    split stop (join stop lines) = (lines, []) := by
  induction lines with
  | nil => rfl
  | cons line lines ih =>
    rw [join, flatMap_cons, append_assoc, singleton_append,
      split_line (hlines line (.head _)), ← join,
      ih fun line h => hlines line (.tail _ h)]

/-! ## Fields of a line -/

variable {text field : List α}

lemma mem_splitOn_cons {c : α} (hfield : field ∈ (c :: text).splitOn stop) :
    field = [] ∨ field ∈ text.splitOn stop ∨
      c ≠ stop ∧ ∃ first ∈ text.splitOn stop, field = c :: first := by
  rw [splitOn_cons_eq_if_modifyHead] at hfield
  split at hfield
  · rcases mem_cons.mp hfield with hnil | hrest
    exacts [.inl hnil, .inr (.inl hrest)]
  next hc =>
    cases hsplit : text.splitOn stop with
    | nil => exact absurd hsplit (splitOn_ne_nil stop text)
    | cons first rest =>
      rw [hsplit, modifyHead_cons, mem_cons] at hfield
      rcases hfield with hfirst | hrest
      · exact .inr (.inr ⟨fun h => hc (beq_iff_eq.mpr h), first, .head _, hfirst⟩)
      · exact .inr (.inl (.tail _ hrest))

lemma notMem_of_mem_splitOn (hfield : field ∈ text.splitOn stop) : stop ∉ field := by
  induction text generalizing field with
  | nil =>
    rw [splitOn_nil, mem_singleton] at hfield
    exact hfield ▸ not_mem_nil
  | cons c text ih =>
    rcases mem_splitOn_cons hfield with rfl | hrest | ⟨hc, first, hfirst, rfl⟩
    · exact not_mem_nil
    · exact ih hrest
    · exact mem_cons.not.mpr (not_or.mpr ⟨hc.symm, ih hfirst⟩)

lemma mem_of_mem_splitOn (hfield : field ∈ text.splitOn stop) {d : α}
    (hd : d ∈ field) : d ∈ text := by
  induction text generalizing field with
  | nil =>
    rw [splitOn_nil, mem_singleton] at hfield
    exact hfield ▸ hd
  | cons c text ih =>
    rcases mem_splitOn_cons hfield with rfl | hrest | ⟨-, first, hfirst, rfl⟩
    · cases hd
    · exact mem_cons_of_mem c (ih hrest hd)
    · rcases mem_cons.mp hd with rfl | hd
      exacts [mem_cons_self, mem_cons_of_mem c (ih hfirst hd)]

end LineStream

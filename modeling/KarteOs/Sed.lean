import Mathlib.Data.List.Infix

/-! # Substitution in `sed`

`user/sed.rs` copies a line into a buffer of fixed size and replaces a pattern
on the way.
-/

namespace KarteOs.Sed

open List

/-- The copying loops: byte after byte while the buffer has room. -/
def copyBytes (cap : Nat) : List UInt8 → List UInt8 → List UInt8
  | [], out => out
  | b :: bytes, out => if out.length ≥ cap then out else copyBytes cap bytes (out ++ [b])

section
variable (p : UInt8) (ps repl : List UInt8) (global : Bool)

/-- The main loop, on the rest of the line and what the buffer holds. -/
def scan (cap : Nat) : List UInt8 → List UInt8 → List UInt8
  | [], out => out
  | c :: rest, out =>
    if out.length ≥ cap then out
    else if (p :: ps).isPrefixOf (c :: rest) then
      let out := copyBytes cap repl out
      let rest := rest.drop ps.length
      if !global then copyBytes cap rest out else scan cap rest out
    else scan cap rest (out ++ [c])
termination_by line => line.length
decreasing_by all_goals grind

/-- The same without a buffer. -/
def replaced : List UInt8 → List UInt8
  | [] => []
  | c :: rest =>
    if (p :: ps).isPrefixOf (c :: rest) then
      repl ++ if global then replaced (rest.drop ps.length) else rest.drop ps.length
    else c :: replaced rest
termination_by line => line.length
decreasing_by all_goals grind

end

/-- What is written to a buffer of `cap` bytes; the length is returned. -/
def substitute (line pattern repl : List UInt8) (global : Bool) (cap : Nat) : List UInt8 :=
  match pattern with
  | [] => line.take (min line.length cap)
  | p :: ps => scan p ps repl global cap line []

/-- No occurrence of the pattern in `front ++ back` begins in `front`. -/
def Clear (pattern front back : List UInt8) : Prop :=
  ∀ i < front.length, ¬ pattern <+: (front ++ back).drop i

/-- The leftmost occurrence is replaced, and with `global` those in what follows it too. -/
structure Replaces (pattern repl : List UInt8) (global : Bool) (f : List UInt8 → List UInt8) :
    Prop where
  absent : ∀ line, Clear pattern line [] → f line = line
  found : ∀ front back, Clear pattern front (pattern ++ back) →
    f (front ++ (pattern ++ back)) = front ++ (repl ++ if global then f back else back)

variable {p : UInt8} {ps repl line out : List UInt8} {global : Bool} {cap : Nat}

lemma replaced_clear {front back : List UInt8} (hclear : Clear (p :: ps) front back) :
    replaced p ps repl global (front ++ back) = front ++ replaced p ps repl global back := by
  induction front with
  | nil => rfl
  | cons c front ih =>
    have hmatch : ¬(p :: ps).isPrefixOf (c :: (front ++ back)) := fun h =>
      hclear 0 (Nat.succ_pos _) <| isPrefixOf_iff_prefix.mp h
    rw [cons_append, replaced, if_neg hmatch, ih fun i hi => hclear (i + 1) (Nat.succ_lt_succ hi)]
    rfl

lemma replaced_replaces : Replaces (p :: ps) repl global (replaced p ps repl global) where
  absent line hclear := by
    have hline : replaced p ps repl global (line ++ []) = _ := replaced_clear hclear
    rwa [append_nil, replaced, append_nil] at hline
  found front back hclear := by
    rw [replaced_clear hclear, cons_append, replaced]
    simp

lemma copyBytes_eq (bytes : List UInt8) (hout : out.length ≤ cap) :
    copyBytes cap bytes out = (out ++ bytes).take cap := by
  fun_induction copyBytes cap bytes out with
  | case1 out => simp [hout]
  | case2 b bytes out hfull => rw [take_append_of_le_length hfull, take_of_length_le hout]
  | case3 b bytes out hroom ih => simpa using ih (by simp; omega)

lemma scan_eq (hout : out.length ≤ cap) : scan p ps repl global cap line out =
    (out ++ replaced p ps repl global line).take cap := by
  have htake : ∀ a b : List UInt8, (a.take cap ++ b).take cap = (a ++ b).take cap := by
    intro a b
    simp only [take_append, take_take, length_take, Nat.min_self]
    congr 2
    omega
  fun_induction scan p ps repl global cap line out with
  | case1 out => simp [replaced, hout]
  | case2 c rest out hfull => rw [take_append_of_le_length hfull, take_of_length_le hout]
  | case3 c rest out hroom hmatch copied back hfirst =>
    have hcopied : copied = (out ++ repl).take cap := copyBytes_eq repl hout
    rw [replaced, if_pos hmatch, if_neg (by simpa using hfirst), hcopied,
      copyBytes_eq _ (length_take_le ..), htake, append_assoc]
  | case4 c rest out hroom hmatch copied back hall ih =>
    have hcopied : copied = (out ++ repl).take cap := copyBytes_eq repl hout
    rw [hcopied] at ih ⊢
    rw [replaced, if_pos hmatch, if_pos (by simpa using hall), ih (length_take_le ..), htake,
      append_assoc]
  | case5 c rest out hroom hmatch ih =>
    rw [replaced, if_neg hmatch, ih (by simp; omega), append_assoc]
    rfl

/-- For every non-empty pattern: as much of the line with its replacements as fits. -/
theorem substitute_eq (p : UInt8) (ps repl : List UInt8) (global : Bool) :
    ∃ f, Replaces (p :: ps) repl global f ∧
      ∀ line cap, substitute line (p :: ps) repl global cap = (f line).take cap :=
  ⟨_, replaced_replaces, fun _ cap => scan_eq (Nat.zero_le cap)⟩

end KarteOs.Sed

import KarteOs.Ota

/-! # The weight file of the language model

`train_char_gpt.py` writes the parameters of the network behind a header of five
words. `user/llm.rs` reads the dimensions and sums up where the tensors begin.
-/

namespace KarteOs.Llm

open List Ota

/-- Where blocks of the given sizes begin that are laid out from `off` on. -/
def place (off : Nat) : List Nat → List Nat
  | [] => []
  | sz :: sizes => off :: place (off + sz) sizes

lemma place_add (off shift : Nat) (sizes : List Nat) :
    place (off + shift) sizes = (place off sizes).map (· + shift) := by
  induction sizes generalizing off with
  | nil => rfl
  | cons sz sizes ih => rw [place, place, map_cons, Nat.add_right_comm, ih]

/-- The numbers of parameters in the order of `export`'s keys, with `F = 4 * D`. -/
def shapes (v d l t : Nat) : List Nat :=
  [v * d, t * d] ++ (replicate l [d, d, d * (3 * d), 3 * d, d * d, d, d, d, d * (4 * d), 4 * d,
    4 * d * d, d]).flatten ++ [d, d]

structure TinyGpt where
  (v d l t : UInt32)
  /-- The parameters, as the bits of 32-bit floats. -/
  tensors : List (List UInt32)
  shaped : tensors.map length = shapes v.toNat d.toNat l.toNat t.toNat

def magic : List UInt8 := [75, 76, 87, 77]

namespace TinyGpt

variable (g : TinyGpt)

def header : List UInt8 := magic ++ (le32 g.v ++ (le32 g.d ++ (le32 g.l ++ le32 g.t)))

def exported : List UInt8 := g.header ++ g.tensors.flatMap (·.flatMap le32)

/-- How many bytes `export` has written when it comes to each tensor. -/
def starts : List Nat := place g.header.length (g.tensors.map fun ts => (ts.flatMap le32).length)

end TinyGpt

structure W where
  (v d l t f : Nat)
  base : List UInt8
  offs : List Nat

def builtin (buf : List UInt8) : Option W :=
  if buf.take 4 ≠ magic then none
  else
    let v := (rd32 buf 4).toNat
    let d := (rd32 buf 8).toNat
    let l := (rd32 buf 12).toNat
    let t := (rd32 buf 16).toNat
    if d = 0 ∨ l = 0 ∨ l > 8 ∨ d > 256 then none
    else
      let f := d * 4
      some ⟨v, d, l, t, f, buf, place 16 ([v * d * 4, t * d * 4] ++
        (replicate l [d * 4, d * 4, d * 3 * d * 4, 3 * d * 4, d * d * 4, d * 4, d * 4, d * 4,
          d * f * 4, f * 4, f * d * 4, d * 4]).flatten ++ [d * 4, d * 4])⟩

/-- The bits of parameter `i` of tensor `k`. -/
def W.ft (w : W) (k i : Nat) : UInt32 := rd32 w.base (w.offs.getD k 0 + i * 4)

/-- The offsets begin at 16 but the header has 20 bytes, so that each tensor is
looked for four bytes before the place where it was written. -/
theorem builtin_exported (g : TinyGpt) : (builtin g.exported).map W.offs =
    if g.d.toNat = 0 ∨ g.l.toNat = 0 ∨ g.l.toNat > 8 ∨ g.d.toNat > 256 then none
    else some (g.starts.map (· - 4)) := by
  have hv : rd32 g.exported 4 = g.v := rd32_le32 magic g.v _ rfl rfl
  have hd : rd32 g.exported 8 = g.d := rd32_le32 (magic ++ le32 g.v) g.d _ rfl rfl
  have hl : rd32 g.exported 12 = g.l := rd32_le32 (magic ++ le32 g.v ++ le32 g.d) g.l _ rfl rfl
  have ht : rd32 g.exported 16 = g.t :=
    rd32_le32 (magic ++ le32 g.v ++ le32 g.d ++ le32 g.l) g.t _ rfl rfl
  have hsizes : g.tensors.map (fun ts => (ts.flatMap le32).length) =
      (g.tensors.map length).map (· * 4) := by
    simp [length_flatMap, length_le32]
  have hstarts : g.starts.map (· - 4) = place 16 ((g.tensors.map length).map (· * 4)) := by
    rw [TinyGpt.starts, hsizes, show g.header.length = 16 + 4 from rfl, place_add, map_map]
    exact map_id' _
  rw [hstarts, g.shaped, builtin, if_neg (fun h => h rfl), hv, hd, hl, ht]
  dsimp only
  rw [apply_ite (Option.map W.offs)]
  simp [shapes, map_flatten, Nat.mul_comm, Nat.mul_left_comm]

/-- Each tensor is looked for where the exporter wrote it. -/
def TinyGpt.LaidOut (g : TinyGpt) : Prop := ∀ w, builtin g.exported = some w → w.offs = g.starts

def onesNet : TinyGpt := ⟨1, 1, 1, 9, (shapes 1 1 1 9).map (replicate · 7), by decide⟩

/-- The first weight is 7, but the program reads the context length 9. -/
theorem first_weight_misread : onesNet.tensors.head? = some [7] ∧
    (builtin onesNet.exported).map (fun w => (w.offs.head?, w.ft 0 0)) = some (some 16, 9) ∧
      ¬ onesNet.LaidOut := by
  refine ⟨by decide, by decide, fun hlaid => ?_⟩
  have hstart := congrArg List.head? (hlaid _ rfl)
  exact absurd hstart (by decide)

end KarteOs.Llm

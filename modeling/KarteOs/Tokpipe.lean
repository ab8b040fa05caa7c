import KarteOs.Foundation.Ring
import KarteOs.Foundation.Run

/-! # The token pipe

The positions run modulo twice the number of slots, so that a full ring and an empty one have
different positions. A push into a full ring gives up the oldest token.
-/

namespace KarteOs

open Function Transition List

abbrev tokenSlots : Nat := 256

abbrev tokenMax : Nat := 64

structure TokenSlot where
  len : Nat
  data : Nat → UInt8

namespace TokenSlot

variable (slot : TokenSlot)

/-- The bytes of the token; the rest of the slot is left from earlier ones. -/
def token : List UInt8 := (List.range slot.len).map slot.data

def store (data : List UInt8) : TokenSlot where
  len := min data.length tokenMax
  data i := ((data.take (min data.length tokenMax))[i]?).getD (slot.data i)

lemma token_store (data : List UInt8) : (slot.store data).token = data.take tokenMax := by
  refine ext_getElem (by simp [token, store, Nat.min_comm]) fun i hi _ => ?_
  have hi : i < data.length ∧ i < tokenMax := by simpa [token, store] using hi
  simp [token, store, getElem?_take, hi]

end TokenSlot

structure TokenPipe where
  ring : Nat → TokenSlot
  head : Nat
  tail : Nat
  dropped : UInt64

namespace TokenPipe

def new : TokenPipe := ⟨fun _ => ⟨0, fun _ => 0⟩, 0, 0, 0⟩

variable (p : TokenPipe)

/-- The subtraction wraps around in a machine word. -/
def len : Nat := (p.head + 2 ^ 64 - p.tail) % 2 ^ 64 % (tokenSlots * 2)

def isEmpty : Bool := p.head = p.tail

/-- Where the ring is full, the tail moves on first. -/
def push (data : List UInt8) : TokenPipe where
  ring := update p.ring (p.head % tokenSlots) ((p.ring (p.head % tokenSlots)).store data)
  head := (p.head + 1) % (tokenSlots * 2)
  tail := if p.len = tokenSlots then (p.tail + 1) % (tokenSlots * 2) else p.tail
  dropped := if p.len = tokenSlots then p.dropped + 1 else p.dropped

/-- Two slices of the ring and the number of tokens in them. -/
def view (max : Nat) : (List TokenSlot × List TokenSlot) × Nat :=
  let avail := min p.len max
  if avail = 0 then (([], []), 0)
  else
    let t := p.tail % tokenSlots
    let first := min (tokenSlots - t) avail
    if first = avail then (((List.range' t first).map p.ring, []), avail)
    else
      (((List.range' t (tokenSlots - t)).map p.ring, (List.range (avail - first)).map p.ring),
        avail)

def consume (n : Nat) : TokenPipe :=
  { p with tail := (p.tail + n) % (tokenSlots * 2) }

end TokenPipe

inductive TokenCall
  | push (data : List UInt8)
  | view (max : Nat)
  | consume (n : Nat)

structure TokenQueue where
  tokens : List (List UInt8)
  dropped : UInt64

def TokenQueue.apply (q : TokenQueue) : TokenCall → TokenQueue
  | .push data =>
    { tokens := Ring.keepNewest tokenSlots q.tokens (data.take tokenMax)
      dropped := if q.tokens.length = tokenSlots then q.dropped + 1 else q.dropped }
  | .view _ => q
  | .consume n => { q with tokens := q.tokens.drop n }

namespace TokenPipe

def apply (p : TokenPipe) : TokenCall → TokenPipe
  | .push data => p.push data
  | .view _ => p
  | .consume n => p.consume n

/-- No more is consumed than there is. -/
def Legal (p : TokenPipe) : TokenCall → Prop
  | .push _ | .view _ => True
  | .consume n => n ≤ p.len

def shape : Ring.Shape where
  size := tokenSlots
  period := tokenSlots * 2
  capacity := tokenSlots
  dvd := Nat.dvd_mul_right _ _
  pos := by decide
  le_size := le_rfl
  lt_period := by decide

def Holds (p : TokenPipe) (slots : List TokenSlot) : Prop :=
  Ring.Holds shape p.ring p.tail p.head slots

variable {p : TokenPipe} {slots : List TokenSlot} {q : TokenQueue}

namespace Holds

variable (h : p.Holds slots)
include h

lemma positions : p.tail < 512 ∧ p.head = (p.tail + slots.length) % 512 ∧ slots.length ≤ 256 :=
  ⟨h.tail_lt, h.head_eq, h.bounded⟩

lemma len_eq : p.len = slots.length := by
  obtain ⟨htail, hhead, hlen⟩ := h.positions
  simp only [len, tokenSlots]
  omega

lemma isEmpty_eq : p.isEmpty = slots.isEmpty := by
  obtain ⟨htail, hhead, hlen⟩ := h.positions
  rw [Bool.eq_iff_iff, isEmpty_iff_length_eq_zero, isEmpty, decide_eq_true_eq]
  omega

lemma push (data : List UInt8) : (p.push data).Holds
    (Ring.keepNewest tokenSlots slots ((p.ring (p.head % tokenSlots)).store data)) := by
  rw [TokenPipe.push, h.len_eq]
  exact .keepNewest h _

/-- The second slice starts at the first slot, where the tokens go around the end. -/
lemma view_eq (max : Nat) : (p.view max).1.1 ++ (p.view max).1.2 = slots.take max ∧
    (p.view max).2 = min max slots.length := by
  have hlen : slots.length ≤ tokenSlots := h.bounded
  have hlt : p.tail % tokenSlots < tokenSlots := Nat.mod_lt _ (by decide)
  have htake : slots.take max = Ring.contents tokenSlots _ _ _ := h.take_eq max
  rw [htake]
  simp only [view, h.len_eq, Nat.min_comm _ max]
  generalize hfirst : tokenSlots - p.tail % tokenSlots = first
  generalize havail : min max slots.length = avail
  split
  · next hzero => exact ⟨by rw [hzero]; rfl, hzero.symm⟩
  · split
    · next heq =>
      refine ⟨?_, rfl⟩
      rw [heq, append_nil, Ring.contents_eq_slice (by omega)]
    · have hsplit : avail = first + (avail - first) := by omega
      have hstart : (p.tail + first) % tokenSlots = 0 := by
        rw [← Nat.mod_add_mod, ← hfirst, Nat.add_sub_cancel' hlt.le, Nat.mod_self]
      refine ⟨?_, rfl⟩
      rw [Nat.min_eq_left (by omega), hsplit, Ring.contents_add, hstart, Nat.add_sub_cancel_left,
        Ring.contents_eq_slice (by omega), Ring.contents_eq_slice (by rw [Nat.zero_mod]; omega),
        Nat.zero_mod, range_eq_range']

end Holds

/-- The queue that a pipe stands for. -/
def Refines (p : TokenPipe) (q : TokenQueue) : Prop :=
  ∃ slots, p.Holds slots ∧ q = ⟨slots.map TokenSlot.token, p.dropped⟩

lemma Refines.apply (h : p.Refines q) {call : TokenCall} (hlegal : p.Legal call) :
    (p.apply call).Refines (q.apply call) := by
  obtain ⟨slots, hslots, rfl⟩ := h
  cases call with
  | push data =>
    refine ⟨_, hslots.push data, ?_⟩
    simp only [TokenQueue.apply, TokenPipe.apply, TokenPipe.push, hslots.len_eq, Ring.keepNewest,
      length_map, map_append, map_singleton, TokenSlot.token_store,
      apply_ite (List.map TokenSlot.token), map_tail]
  | view max => exact ⟨slots, hslots, rfl⟩
  | consume n =>
    refine ⟨_, hslots.drop (hslots.len_eq ▸ hlegal), ?_⟩
    simp [TokenQueue.apply, TokenPipe.apply, TokenPipe.consume, map_drop]

/-- After any calls a pipe is a queue of the newest tokens. -/
theorem run_isTokenQueue (calls : List TokenCall) (hcalls : Allowed Legal apply new calls) :
    ∃ p q, p = calls.foldl apply new ∧ q = calls.foldl TokenQueue.apply ⟨[], 0⟩ ∧
      q.tokens.length ≤ tokenSlots ∧ p.len = q.tokens.length ∧ p.isEmpty = q.tokens.isEmpty ∧
      p.dropped = q.dropped ∧ ∀ max,
        ((p.view max).1.1 ++ (p.view max).1.2).map TokenSlot.token = q.tokens.take max ∧
          (p.view max).2 = min max q.tokens.length := by
  have hnew : new.Refines ⟨[], 0⟩ := ⟨[], Ring.Holds.empty shape new.ring, rfl⟩
  have hrefines : (calls.foldl apply new).Refines (calls.foldl TokenQueue.apply ⟨[], 0⟩) :=
    (Run.of_allowed hcalls).refines (fun _ _ _ _ h hstep => by
      obtain ⟨hlegal, rfl⟩ := hstep
      exact h.apply hlegal) hnew
  obtain ⟨slots, hslots, hqueue⟩ := hrefines
  refine ⟨_, _, rfl, hqueue.symm, ?_⟩
  simp only [length_map, isEmpty_map, ← map_take, hslots.len_eq,
    hslots.isEmpty_eq, hslots.view_eq, and_true, implies_true]
  exact hslots.bounded

instance : DecidableRel Legal := by
  intro p call
  rcases call <;> dsimp only [Legal] <;> infer_instance

/-- Four tokens are dropped, three consumed and one more is pushed past the end of the ring. -/
def overrun : List TokenCall := replicate 260 (.push [1, 2]) ++ [.consume 3, .push [9]]

theorem run_isTokenQueue_overrun :
    ∃ p, p = overrun.foldl apply new ∧ p.len = 254 ∧ p.dropped = 4 := by
  have hcalls : Allowed Legal apply new overrun := by decide +kernel
  obtain ⟨p, q, hp, rfl, -, hlen, -, hdropped, -⟩ := run_isTokenQueue overrun hcalls
  exact ⟨p, hp, hlen.trans (by decide +kernel), hdropped.trans (by decide +kernel)⟩

end TokenPipe

end KarteOs

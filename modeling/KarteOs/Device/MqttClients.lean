import KarteOs.Foundation.Run

/-! # Packets that the MQTT clients receive

The microcontroller compares the length of a packet with its buffer, not with the room after the
two bytes of the header, and the client in user space does not compare it at all.
-/

namespace KarteOs.Device

open Transition List

/-- `recv_response`, with room for `room` bytes after the header, and `expect`. -/
inductive MqttCall
  | recvResponse (room : Nat)
  | expect (first : UInt8)

def isResponse (b : UInt8) : Bool := b &&& 0xf0 == 0x20 || b &&& 0xf0 == 0xd0

/-- The stream from the first byte that can start a response. -/
def response (stream : List UInt8) : List UInt8 := stream.dropWhile fun b => !isResponse b

/-- The loop that stores the body. A byte has been received before its place is looked up. -/
def storeBody (room : Nat) : Nat → List UInt8 → List UInt8 →
    Option (Option (List UInt8) × List UInt8)
  | 0, body, stream => some (some body, stream)
  | _ + 1, _, [] => some (none, [])
  | len + 1, body, b :: stream =>
    if body.length < room then storeBody room len (body ++ [b]) stream else none

/-- The bytes in the buffer, if a packet came, and those that are left; `none` is a panic. -/
def recvInto (room : Nat) (stream : List UInt8) : Option (Option (List UInt8) × List UInt8) :=
  match response stream with
  | kind :: len :: rest =>
    if room + 2 < len.toNat then some (none, rest)
    else (storeBody room len.toNat [] rest).map (Prod.map (Option.map (kind :: len :: ·)) id)
  | _ => some (none, [])

def expect (first : UInt8) : List UInt8 → Option (Bool × List UInt8)
  | [] | [_] => some (false, [])
  | kind :: len :: rest =>
    if kind ≠ first then some (false, len :: rest)
    -- the array for the body has 64 bytes
    else if 64 < len.toNat then none
    else some (len.toNat ≤ rest.length, rest.drop len.toNat)

namespace MqttCall

def left (stream : List UInt8) : MqttCall → List UInt8
  | recvResponse room => ((recvInto room stream).map Prod.snd).getD []
  | expect first => ((Device.expect first stream).map Prod.snd).getD []

/-- There is no panic, and a response is in the buffer as it was sent: its kind, its length and
as many bytes. -/
def Survives (stream : List UInt8) : MqttCall → Prop
  | recvResponse room => ∃ result left, recvInto room stream = some (result, left) ∧
    ∀ out ∈ result, response stream = out ++ left ∧
      ∃ kind len body, out = kind :: len :: body ∧ body.length = len.toNat
  | expect first => (Device.expect first stream).isSome

/-- What comes of a body that is not refused fits the buffer. -/
def Fits (stream : List UInt8) : MqttCall → Prop
  | recvResponse room =>
    match response stream with
    | _ :: len :: rest => len.toNat ≤ room + 2 → min len.toNat rest.length ≤ room
    | _ => True
  | expect first =>
    match stream with
    | kind :: len :: _ => kind = first → len.toNat ≤ 64
    | _ => True

end MqttCall

lemma storeBody_eq {room len : Nat} {body stream : List UInt8} (hbody : body.length ≤ room) :
    storeBody room len body stream =
      if body.length + min len stream.length ≤ room then
        some (if len ≤ stream.length then (some (body ++ stream.take len), stream.drop len)
          else (none, []))
      else none := by
  fun_induction storeBody room len body stream with
  | case1 body stream | case2 len body => simp [hbody]
  | case3 len body b stream hroom ih =>
    have hmin : min (len + 1) (stream.length + 1) = min len stream.length + 1 :=
      Nat.add_min_add_right ..
    rw [ih (by rw [length_append]; exact hroom)]
    simp [hmin, Nat.add_right_comm _ 1, Nat.add_assoc]
  | case4 len body b stream hroom =>
    rw [if_neg]
    simp only [length_cons]
    omega

namespace MqttCall

lemma survives_iff (stream : List UInt8) (call : MqttCall) :
    call.Survives stream ↔ call.Fits stream := by
  cases call with
  | recvResponse room =>
    simp only [Survives, Fits, recvInto]
    split
    next kind len rest hresponse =>
      split
      next hlong => exact iff_of_true ⟨_, _, rfl, nofun⟩ fun hle => absurd hlong (by omega)
      next hshort =>
        rw [storeBody_eq (Nat.zero_le _), length_nil, Nat.zero_add]
        split
        next hfits =>
          refine iff_of_true ?_ fun _ => hfits
          by_cases hwhole : len.toNat ≤ rest.length
          · refine ⟨_, _, by rw [if_pos hwhole]; rfl, ?_⟩
            rintro out ⟨⟩
            exact ⟨by simp [hresponse], kind, len, _, rfl, by simp [Nat.min_eq_left hwhole]⟩
          · exact ⟨_, _, by rw [if_neg hwhole]; rfl, by simp⟩
        next hfull => exact iff_of_false (by simp) fun h => hfull (h (by omega))
    · exact iff_of_true ⟨_, _, rfl, nofun⟩ trivial
  | expect first =>
    rw [Survives, Fits.eq_def]
    fun_cases Device.expect first stream <;> simp_all

/-- For every stream and every sequence of calls, the clients survive just what fits. -/
theorem run_survives_iff (stream : List UInt8) (calls : List MqttCall) :
    Allowed Survives left stream calls ↔ Allowed Fits left stream calls :=
  Allowed.iff_of_invariant (fun stream call (_ : True) => call.survives_iff stream)
    (fun _ _ _ _ => trivial) trivial calls

/-- The device's own buffer has 18 bytes. -/
theorem not_survives_connack :
    ¬ Allowed Survives left (0x20 :: 17 :: replicate 17 0) [.recvResponse 16] ∧
      ¬ Allowed Survives left [0x20, 65] [.expect 0x20] :=
  ⟨fun ⟨⟨_, _, hrecv, _⟩, _⟩ => (nomatch hrecv), fun h => (nomatch h.1)⟩

end MqttCall

end KarteOs.Device

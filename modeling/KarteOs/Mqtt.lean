import KarteOs.Device.Net32

/-! # MQTT packets

`mqtt.rs` writes a packet as its first byte, the length of the rest in groups of
seven bits, and the rest.
-/

namespace KarteOs.Mqtt

open List Device.Net32

def encodeRemainingLen (n : Nat) : List UInt8 :=
  let b := UInt8.ofNat (n % 128)
  if n / 128 = 0 then [b] else (b ||| 0x80) :: encodeRemainingLen (n / 128)
termination_by n
decreasing_by omega

/-- The loop of `decode_remaining_len` over the bytes left, at position `i`. -/
def decodeLoop : Nat → Nat → Nat → List UInt8 → Option (Nat × Nat)
  | _, _, _, [] => none
  | i, mult, val, b :: buf =>
    let val := val + (b &&& 0x7F).toNat * mult
    if b &&& 0x80 = 0 then some (val, i + 1)
    else if mult * 128 > 128 * 128 * 128 then none
    else decodeLoop (i + 1) (mult * 128) val buf

def decodeRemainingLen (buf : List UInt8) : Option (Nat × Nat) := decodeLoop 0 1 0 buf

def pushStr (out s : List UInt8) : List UInt8 := out ++ (toBeBytes (.ofNat s.length) ++ s)

inductive Request
  | connect (clientId : List UInt8)
  | publish (topic payload : List UInt8) (pid : UInt16)
  | subscribe (topicFilter : List UInt8) (pid : UInt16) (maxQos : UInt8)

namespace Request

def first : Request → UInt8
  | connect _ => 0x10
  | publish .. => 0x32
  | subscribe .. => 0x82

def body : Request → List UInt8
  | connect clientId =>
    pushStr (pushStr [] "MQTT".toUTF8.toList ++ (4 :: 2 :: toBeBytes 60)) clientId
  | publish topic payload pid => pushStr [] topic ++ (toBeBytes pid ++ payload)
  | subscribe topicFilter pid maxQos => pushStr (toBeBytes pid) topicFilter ++ [min maxQos 1]

def packet (r : Request) : List UInt8 := r.first :: (encodeRemainingLen r.body.length ++ r.body)

end Request

/-- A stream cut into the first bytes and bodies that `parse` takes. -/
def frames : List UInt8 → Option (List (UInt8 × List UInt8))
  | [] => some []
  | first :: buf =>
    (decodeRemainingLen buf).bind fun (len, used) =>
      if buf.length < used + len then none
      else (frames (buf.drop (used + len))).map ((first, (buf.drop used).take len) :: ·)
termination_by buf => buf.length
decreasing_by grind

/-- The bits of a group of seven, in the last byte and in one before it. -/
lemma group_bits : ∀ d < 128, UInt8.ofNat d &&& 0x80 = 0 ∧ (UInt8.ofNat d &&& 0x7F).toNat = d ∧
    (UInt8.ofNat d ||| 0x80) &&& 0x80 ≠ 0 ∧ ((UInt8.ofNat d ||| 0x80) &&& 0x7F).toNat = d := by
  decide

lemma length_encode (n : Nat) : (encodeRemainingLen n).length =
    if n < 128 then 1 else (encodeRemainingLen (n / 128)).length + 1 := by
  rw [encodeRemainingLen]
  simp [apply_ite length]

/-- One round of the loop on an encoded number. -/
lemma decodeLoop_round (n i mult val : Nat) (rest : List UInt8) :
    decodeLoop i mult val (encodeRemainingLen n ++ rest) =
      if n < 128 then some (val + n * mult, i + 1)
      else if mult * 128 > 128 * 128 * 128 then none
      else decodeLoop (i + 1) (mult * 128) (val + n % 128 * mult)
        (encodeRemainingLen (n / 128) ++ rest) := by
  obtain ⟨hlast, hvalue, hmore, hvalue'⟩ := group_bits (n % 128) (Nat.mod_lt n (by decide))
  rw [encodeRemainingLen]
  by_cases hshort : n < 128
  · rw [Nat.mod_eq_of_lt hshort] at hlast hvalue
    simp [decodeLoop, hshort, Nat.mod_eq_of_lt, hlast, hvalue]
  · simp [decodeLoop, hshort, hmore, hvalue']

/-- A length is read back exactly if four groups can hold it. -/
lemma decodeRemainingLen_encode (n : Nat) (rest : List UInt8) :
    decodeRemainingLen (encodeRemainingLen n ++ rest) =
      if n < 128 ^ 4 then some (n, (encodeRemainingLen n).length) else none := by
  rw [decodeRemainingLen]
  iterate 4 rw [decodeLoop_round, length_encode]
  simp
  grind

lemma frames_packet (r : Request) (rest : List UInt8) : frames (r.packet ++ rest) =
    if r.body.length < 128 ^ 4 then (frames rest).map ((r.first, r.body) :: ·) else none := by
  rw [Request.packet, cons_append, frames, append_assoc, decodeRemainingLen_encode]
  split <;> simp

/-- The packets of a stream are found in their order, exactly if no body is too long. -/
theorem frames_requests (requests : List Request) : frames (requests.flatMap Request.packet) =
    if ∀ r ∈ requests, r.body.length < 128 ^ 4 then
      some (requests.map fun r => (r.first, r.body)) else none := by
  induction requests with
  | nil => simp [frames]
  | cons r requests ih =>
    rw [flatMap_cons, frames_packet, ih]
    simp [ite_and, apply_ite (Option.map _)]

inductive Pkt
  | connAck (code : UInt8)
  | publish (qos : UInt8) (pid : Option UInt16) (topic payload : List UInt8)
  | pubAck (pid : UInt16)
  | subAck (pid : UInt16) (codes : List UInt8)
  | pingResp
  | other

def wordAt (body : List UInt8) (i : Nat) : UInt16 :=
  .ofNat ((body.getD i 0).toNat * 256 + (body.getD (i + 1) 0).toNat)

def parsePublish (qos : UInt8) (body : List UInt8) : Pkt :=
  let off := 2 + (wordAt body 0).toNat
  if body.length < 2 ∨ body.length < off then .other
  else
    let text := (body.take off).drop 2
    let topic := if text.toByteArray.IsValidUTF8 then text else []
    if qos > 0 ∧ body.length ≥ off + 2 then
      .publish qos (some (wordAt body off)) topic (body.drop (off + 2))
    else .publish qos none topic (body.drop off)

def parse (first : UInt8) (body : List UInt8) : Pkt :=
  match first >>> 4 with
  | 2 => .connAck (body.getD 1 0xFF)
  | 3 => parsePublish (first >>> 1 &&& 3) body
  | 4 => .pubAck (wordAt body 0)
  | 9 => .subAck (wordAt body 0) (body.drop 2)
  | 13 => .pingResp
  | _ => .other

lemma wordAt_append (front back : List UInt8) (w : UInt16) :
    wordAt (front ++ (toBeBytes w ++ back)) front.length = w := by
  have hlt := w.toNat_lt
  refine UInt16.toNat_inj.mp ?_
  simp [wordAt, toBeBytes, Nat.shiftRight_eq_div_pow]
  omega

lemma parse_publish {topic : List UInt8} (htext : topic.toByteArray.IsValidUTF8)
    (hshort : topic.length < 65536) (payload : List UInt8) (pid : UInt16) :
    parse 0x32 (Request.publish topic payload pid).body = .publish 1 (some pid) topic payload := by
  let front := pushStr [] topic
  let off := topic.length + 2
  change parsePublish 1 (front ++ (toBeBytes pid ++ payload)) = _
  generalize hbody : front ++ (toBeBytes pid ++ payload) = body
  have hfirst : wordAt body 0 = .ofNat topic.length := hbody ▸ wordAt_append [] (topic ++ _) _
  have hpid : wordAt body off = pid := hbody ▸ wordAt_append front payload pid
  have hfront : body.take off = front := hbody ▸ take_left' rfl
  have hrest : body.drop (off + 2) = payload := hbody ▸ drop_length_add_append 2
  have hsize : body.length = off + (payload.length + 2) := hbody ▸ length_append
  rw [parsePublish, hfirst, UInt16.toNat_ofNat_of_lt' hshort, Nat.add_comm 2, hpid, hfront, hrest,
    hsize]
  simp [htext, off, front, pushStr, toBeBytes]
  omega

/-- What fits a packet; a topic is a `&str`. -/
structure Publication where
  (topic payload : List UInt8)
  pid : UInt16
  text : topic.toByteArray.IsValidUTF8
  short : topic.length < 65536
  fits : (Request.publish topic payload pid).body.length < 128 ^ 4

/-- The publications of a stream are found and read back in their order. -/
theorem frames_publications (ps : List Publication) :
    (frames (ps.flatMap fun p => (Request.publish p.topic p.payload p.pid).packet)).map
        (·.map fun (first, body) => parse first body) =
      some (ps.map fun p => .publish 1 (some p.pid) p.topic p.payload) := by
  induction ps with
  | nil => simp [frames]
  | cons p ps ih =>
    obtain ⟨found, hfound, hread⟩ := Option.map_eq_some_iff.mp ih
    rw [flatMap_cons, frames_packet, if_pos p.fits, hfound]
    simp [Request.first, parse_publish p.text p.short, hread]

/-- Two publications behind each other, to the topics `a/b` and `a`. -/
theorem frames_publications_two :
    (frames ((Request.publish [97, 47, 98] [1, 2] 7).packet ++
      (Request.publish [97] [] 8).packet)).map (·.map fun (first, body) => parse first body) =
      some [.publish 1 (some 7) [97, 47, 98] [1, 2], .publish 1 (some 8) [97] []] := by
  have hread := frames_publications
    [⟨[97, 47, 98], [1, 2], 7, by decide +kernel, by decide, by decide⟩,
      ⟨[97], [], 8, by decide +kernel, by decide, by decide⟩]
  rwa [flatMap_cons, flatMap_singleton] at hread

end KarteOs.Mqtt

import Mathlib.Algebra.Order.Ring.Nat
import Mathlib.Data.List.Induction
import Mathlib.Data.List.Pairwise
import KarteOs.Foundation.Run

/-! # Capability tokens

A token authorises a device, a tool and a set of permission bits until it expires,
is revoked or is swept. The manager keeps the tokens it issued and the ids that were
revoked; what it accepts is compared with the history of calls.
-/

namespace KarteOs.Capauth

open Transition

structure CapToken where
  tokenId : UInt64
  deviceId : String
  toolName : String
  permBits : UInt8
  issuedMs : UInt64
  expiresMs : UInt64
deriving DecidableEq

inductive VerifyResult
  | ok
  | noToken
  | expired
  | revoked
  | permDenied
deriving DecidableEq

structure TokenManager where
  tokens : List CapToken
  revoked : List UInt64
  nextId : UInt64

namespace TokenManager

def new : TokenManager := ⟨[], [], 1⟩

variable (manager : TokenManager)

/-- The id counter and the expiry time are sums of 64-bit words and wrap around. -/
def issue (deviceId toolName : String) (permBits : UInt8)
    (nowMs ttlMs : UInt64) : TokenManager × UInt64 :=
  let id := manager.nextId
  ({ manager with
      nextId := manager.nextId + 1
      tokens := manager.tokens ++ [⟨id, deviceId, toolName, permBits, nowMs, nowMs + ttlMs⟩] }, id)

def verify (tokenId : UInt64) (deviceId toolName : String)
    (needPerm : UInt8) (nowMs : UInt64) : VerifyResult :=
  match manager.tokens.find? (·.tokenId = tokenId) with
  | none => .noToken
  | some token =>
    if nowMs ≥ token.expiresMs then .expired
    else if tokenId ∈ manager.revoked then .revoked
    else if token.deviceId ≠ deviceId ∨ token.toolName ≠ toolName then .noToken
    else if token.permBits &&& needPerm ≠ needPerm then .permDenied
    else .ok

def revoke (tokenId : UInt64) : TokenManager × Bool :=
  if tokenId ∈ manager.revoked then (manager, false)
  else ({ manager with revoked := manager.revoked ++ [tokenId] }, true)

def sweep (nowMs : UInt64) : TokenManager × Nat :=
  let tokens := manager.tokens.filter (·.expiresMs > nowMs)
  ({ manager with tokens }, manager.tokens.length - tokens.length)

end TokenManager

inductive TokenCall
  | issue (deviceId toolName : String) (permBits : UInt8) (nowMs ttlMs : UInt64)
  | verify (tokenId : UInt64) (deviceId toolName : String) (needPerm : UInt8) (nowMs : UInt64)
  | revoke (tokenId : UInt64)
  | sweep (nowMs : UInt64)
deriving DecidableEq

namespace TokenManager

def after (manager : TokenManager) : TokenCall → TokenManager
  | .issue deviceId toolName permBits nowMs ttlMs =>
    (manager.issue deviceId toolName permBits nowMs ttlMs).1
  | .verify .. => manager
  | .revoke tokenId => (manager.revoke tokenId).1
  | .sweep nowMs => (manager.sweep nowMs).1

def run (calls : List TokenCall) : TokenManager := calls.foldl after new

@[simp] lemma run_concat (calls : List TokenCall) (call : TokenCall) :
    run (calls ++ [call]) = (run calls).after call :=
  List.foldl_append ..

end TokenManager

open TokenManager

/-- A call in the history issued the token, and no sweep since has reached its expiry time. -/
def Kept (calls : List TokenCall) (token : CapToken) : Prop :=
  ∃ before since ttlMs, calls = before ++
      .issue token.deviceId token.toolName token.permBits token.issuedMs ttlMs :: since ∧
    token.tokenId = (run before).nextId ∧ token.expiresMs = token.issuedMs + ttlMs ∧
    ∀ nowMs, .sweep nowMs ∈ since → nowMs < token.expiresMs

/-- The history authorises the use: a call issued the id for the device and the tool with
the permissions, the time is before the end of the token's life, no sweep has reached that
end since, and the id was not revoked since. -/
def Granted (calls : List TokenCall) (tokenId : UInt64) (deviceId toolName : String)
    (needPerm : UInt8) (nowMs : UInt64) : Prop :=
  ∃ before since permBits issuedMs ttlMs,
    calls = before ++ .issue deviceId toolName permBits issuedMs ttlMs :: since ∧
    tokenId = (run before).nextId ∧
    permBits &&& needPerm = needPerm ∧
    nowMs.toNat < issuedMs.toNat + ttlMs.toNat ∧
    (∀ sweepMs, .sweep sweepMs ∈ since → sweepMs.toNat < issuedMs.toNat + ttlMs.toNat) ∧
    .revoke tokenId ∉ since

/-- An issue whose end is representable, under an id that is neither revoked already
nor that of a token that is still kept. -/
def FreshIssue (manager : TokenManager) : TokenCall → Prop
  | .issue _ _ _ nowMs ttlMs =>
    nowMs.toNat + ttlMs.toNat < 2 ^ 64 ∧ manager.nextId ∉ manager.revoked ∧
      ∀ token ∈ manager.tokens, token.tokenId ≠ manager.nextId
  | _ => True

lemma kept_concat_iff {calls : List TokenCall} {call : TokenCall} {token : CapToken} :
    Kept (calls ++ [call]) token ↔
      (Kept calls token ∧ ∀ nowMs, call = .sweep nowMs → nowMs < token.expiresMs) ∨
      ∃ ttlMs, call = .issue token.deviceId token.toolName token.permBits token.issuedMs ttlMs ∧
        token.tokenId = (run calls).nextId ∧ token.expiresMs = token.issuedMs + ttlMs := by
  constructor
  · rintro ⟨before, since, ttlMs, hcalls, hid, hexpires, hsweeps⟩
    -- the issue is the last call, or the last call is one of those since
    cases since using List.reverseRecOn with
    | nil =>
      obtain ⟨rfl, hcall⟩ := List.append_inj' hcalls rfl
      exact .inr ⟨ttlMs, List.singleton_inj.mp hcall, hid, hexpires⟩
    | append_singleton since last =>
      rw [← List.cons_append, ← List.append_assoc] at hcalls
      obtain ⟨rfl, hcall⟩ := List.append_inj' hcalls rfl
      obtain rfl := List.singleton_inj.mp hcall
      refine .inl ⟨⟨before, since, ttlMs, rfl, hid, hexpires, ?_⟩, ?_⟩
      · exact fun nowMs hmem => hsweeps nowMs (List.mem_append_left _ hmem)
      · rintro nowMs rfl
        exact hsweeps nowMs (by simp)
  · rintro (⟨⟨before, since, ttlMs, rfl, hid, hexpires, hsweeps⟩, hlast⟩ |
      ⟨ttlMs, rfl, hid, hexpires⟩)
    · refine ⟨before, since ++ [call], ttlMs, by simp, hid, hexpires, ?_⟩
      intro nowMs hmem
      rcases List.mem_append.mp hmem with hmem | hmem
      · exact hsweeps nowMs hmem
      · exact hlast nowMs (List.mem_singleton.mp hmem).symm
    · exact ⟨calls, [], ttlMs, rfl, hid, hexpires, fun _ hmem => by cases hmem⟩

lemma mem_tokens_iff (calls : List TokenCall) (token : CapToken) :
    token ∈ (run calls).tokens ↔ Kept calls token := by
  induction calls using List.reverseRecOn generalizing token with
  | nil =>
    refine iff_of_false (List.not_mem_nil) ?_
    rintro ⟨before, since, ttlMs, hcalls, _⟩
    simp at hcalls
  | append_singleton calls call ih =>
    rw [run_concat, kept_concat_iff, ← ih]
    cases call with
    | issue deviceId toolName permBits nowMs ttlMs =>
      simp only [after, issue, List.mem_append, List.mem_singleton, reduceCtorEq,
        false_imp_iff, implies_true, and_true, TokenCall.issue.injEq]
      refine or_congr_right ⟨?_, ?_⟩
      · rintro rfl
        exact ⟨ttlMs, ⟨rfl, rfl, rfl, rfl, rfl⟩, rfl, rfl⟩
      · rintro ⟨ttlMs', ⟨hdevice, htool, hperm, hnow, rfl⟩, hid, hexpires⟩
        cases token
        simp_all
    | verify => simp [after]
    | revoke tokenId =>
      simp only [after, revoke]
      split <;> simp
    | sweep nowMs => simp [after, sweep, and_comm]

lemma mem_revoked_iff (calls : List TokenCall) (tokenId : UInt64) :
    tokenId ∈ (run calls).revoked ↔ .revoke tokenId ∈ calls := by
  induction calls using List.reverseRecOn with
  | nil => exact iff_of_false List.not_mem_nil List.not_mem_nil
  | append_singleton calls call ih =>
    rw [run_concat, List.mem_append, ← ih, List.mem_singleton]
    cases call with
    | revoke other =>
      simp only [after, revoke, TokenCall.revoke.injEq]
      split
      next hmem =>
        refine (or_iff_left_of_imp ?_).symm
        rintro rfl
        exact hmem
      · simp
    | issue => simp [after, issue]
    | verify => simp [after]
    | sweep => simp [after, sweep]

variable {calls : List TokenCall}

lemma tokens_pairwise (hfresh : Allowed FreshIssue after new calls) :
    (run calls).tokens.Pairwise fun first second => first.tokenId ≠ second.tokenId := by
  induction calls using List.reverseRecOn with
  | nil => exact .nil
  | append_singleton calls call ih =>
    rw [allowed_append_iff] at hfresh
    obtain ⟨hbefore, hcall, _⟩ := hfresh
    rw [run_concat]
    cases call with
    | issue deviceId toolName permBits nowMs ttlMs =>
      refine List.pairwise_append.mpr ⟨ih hbefore, List.pairwise_singleton .., ?_⟩
      intro token hmem added hadded
      rw [List.mem_singleton.mp hadded]
      exact hcall.2.2 token hmem
    | verify => exact ih hbefore
    | revoke tokenId =>
      simp only [after, revoke]
      split <;> exact ih hbefore
    | sweep nowMs => exact (ih hbefore).filter _

lemma verify_eq_ok_iff {manager : TokenManager}
    (hunique : manager.tokens.Pairwise fun first second => first.tokenId ≠ second.tokenId)
    {tokenId : UInt64} {deviceId toolName : String} {needPerm : UInt8} {nowMs : UInt64} :
    manager.verify tokenId deviceId toolName needPerm nowMs = .ok ↔
      ∃ token ∈ manager.tokens, token.tokenId = tokenId ∧ nowMs < token.expiresMs ∧
        tokenId ∉ manager.revoked ∧ token.deviceId = deviceId ∧ token.toolName = toolName ∧
        token.permBits &&& needPerm = needPerm := by
  have hsame : ∀ first ∈ manager.tokens, ∀ second ∈ manager.tokens,
      first.tokenId = second.tokenId → first = second := by
    intro first hfirst second hsecond hid
    by_contra hne
    have : Std.Symm fun first second : CapToken => first.tokenId ≠ second.tokenId :=
      ⟨fun _ _ => Ne.symm⟩
    exact hunique.forall hfirst hsecond hne hid
  unfold verify
  cases hfind : manager.tokens.find? (·.tokenId = tokenId) with
  | none =>
    refine iff_of_false (by simp) ?_
    rintro ⟨token, hmem, hid, _⟩
    exact absurd hid (by simpa using List.find?_eq_none.mp hfind token hmem)
  | some token =>
    have hmem := List.mem_of_find?_eq_some hfind
    have hid : token.tokenId = tokenId := by simpa using List.find?_some hfind
    constructor
    · intro hok
      refine ⟨token, hmem, hid, ?_⟩
      grind
    · rintro ⟨other, hother, hid', hexpires, hrevoked, hdevice, htool, hperm⟩
      obtain rfl := hsame other hother token hmem (hid'.trans hid.symm)
      grind

lemma freshIssue_of_append {before since : List TokenCall} {deviceId toolName : String}
    {permBits : UInt8} {issuedMs ttlMs : UInt64} (hfresh : Allowed FreshIssue after new
      (before ++ .issue deviceId toolName permBits issuedMs ttlMs :: since)) :
    (issuedMs + ttlMs).toNat = issuedMs.toNat + ttlMs.toNat ∧
      .revoke (run before).nextId ∉ before := by
  obtain ⟨hsum, hrevoked, _⟩ := (allowed_append_iff.mp hfresh).2.1
  refine ⟨?_, fun hmem => hrevoked ((mem_revoked_iff before _).mpr hmem)⟩
  rw [UInt64.toNat_add, Nat.mod_eq_of_lt hsum]

/-- In every history of calls whose issues are fresh, the check accepts a token
exactly when the history grants the use. -/
theorem verify_ok_iff_granted (hfresh : Allowed FreshIssue after new calls) (tokenId : UInt64)
    (deviceId toolName : String) (needPerm : UInt8) (nowMs : UInt64) :
    (run calls).verify tokenId deviceId toolName needPerm nowMs = .ok ↔
      Granted calls tokenId deviceId toolName needPerm nowMs := by
  rw [verify_eq_ok_iff (tokens_pairwise hfresh)]
  constructor
  · rintro ⟨token, hmem, rfl, hnow, hrevoked, rfl, rfl, hperm⟩
    obtain ⟨before, since, ttlMs, rfl, hid, hexpires, hsweeps⟩ :=
      (mem_tokens_iff calls token).mp hmem
    obtain ⟨hsum, _⟩ := freshIssue_of_append hfresh
    rw [← hexpires] at hsum
    refine ⟨before, since, token.permBits, token.issuedMs, ttlMs, rfl, hid, hperm, ?_, ?_, ?_⟩
    · rw [← hsum]
      exact hnow
    · intro sweepMs hsweep
      rw [← hsum]
      exact hsweeps sweepMs hsweep
    · intro hsince
      exact hrevoked ((mem_revoked_iff _ _).mpr (by simp [hsince]))
  · rintro ⟨before, since, permBits, issuedMs, ttlMs, rfl, rfl, hperm, hnow, hsweeps, hsince⟩
    obtain ⟨hsum, hbefore⟩ := freshIssue_of_append hfresh
    refine ⟨⟨(run before).nextId, deviceId, toolName, permBits, issuedMs, issuedMs + ttlMs⟩, ?_,
      rfl, ?_, ?_, rfl, rfl, hperm⟩
    · refine (mem_tokens_iff _ _).mpr ⟨before, since, ttlMs, rfl, rfl, rfl, ?_⟩
      intro sweepMs hsweep
      rw [UInt64.lt_iff_toNat_lt, hsum]
      exact hsweeps sweepMs hsweep
    · rw [UInt64.lt_iff_toNat_lt, hsum]
      exact hnow
    · rw [mem_revoked_iff]
      simp [hbefore, hsince]

def freshHistory : List TokenCall :=
  [.issue "arm" "move" 3 100 50, .revoke 9, .sweep 120]

theorem verify_ok_iff_granted_freshHistory : Allowed FreshIssue after new freshHistory ∧
    ((run freshHistory).verify 1 "arm" "move" 1 130 = .ok ↔
      Granted freshHistory 1 "arm" "move" 1 130) := by
  have hfresh : Allowed FreshIssue after new freshHistory :=
    ⟨⟨by decide, by decide, fun _ hmem => by cases hmem⟩, trivial, trivial, trivial⟩
  exact ⟨hfresh, verify_ok_iff_granted hfresh 1 "arm" "move" 1 130⟩

/-- A token that should live as long as the clock can count has expired when it is
issued, and an id that is revoked before it is issued is dead from the start. -/
theorem granted_tokens_rejected : (Granted [.issue "arm" "move" 3 1 (-1)] 1 "arm" "move" 1 1 ∧
      (run [.issue "arm" "move" 3 1 (-1)]).verify 1 "arm" "move" 1 1 ≠ .ok) ∧
    (Granted [.revoke 1, .issue "arm" "move" 3 1 10] 1 "arm" "move" 1 2 ∧
      (run [.revoke 1, .issue "arm" "move" 3 1 10]).verify 1 "arm" "move" 1 2 ≠ .ok) := by
  refine ⟨⟨⟨[], [], 3, 1, -1, rfl, rfl, by decide, by decide, ?_, by simp⟩, by decide⟩,
    ⟨[.revoke 1], [], 3, 1, 10, rfl, rfl, by decide, by decide, ?_, by simp⟩, by decide⟩ <;>
  · intro sweepMs hsweep
    cases hsweep

end KarteOs.Capauth

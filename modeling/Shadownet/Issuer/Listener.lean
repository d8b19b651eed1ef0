import Shadownet.Go.Net
import Shadownet.Go.Trailing

/-!
# The listener of an issuer that approves everything

`hooks/dev` refuses to start on a listener that is not loopback. It has a classifier of its own
beside `httpx.IsLoopback`, and takes a listener without a host, which is every interface, for
loopback.

* `autoApprove_loopback_iff`: the listen addresses on which the two agree as they should.
-/

namespace Shadownet.Issuer

open Foundation Go

/-! ## `hooks/dev` -/

namespace Dev

def isLoopback (host : Bytes) : Bool :=
  if host = [] ∨ host = bytes "localhost" ∨ host = bytes "127.0.0.1" ∨ host = bytes "::1" ∨
      host = bytes "[::1]" then true
  else
    match parseIP host with
    | none => false
    | some ip => isLoopbackIP ip

/-- `AssertAutoApproveNotPublic`; `allow` is the value of `SHADOWNET_ALLOW_AUTO_APPROVE`, empty
when it is not set. -/
def assertAutoApproveNotPublic (G : Runtime) (allow listenAddr : Bytes) : GoM Unit :=
  let host := match splitHostPort listenAddr with
    | none => listenAddr
    | some (host, _) => host
  if isLoopback host then pure ()
  else if allow = bytes "1" then pure ()
  else throw (bytes "issuer: AutoApprove hook refuses non-loopback listener " ++
    G.quote listenAddr ++
    bytes " without SHADOWNET_ALLOW_AUTO_APPROVE=1 (DO NOT USE IN PRODUCTION)")

end Dev

/-! ## `httpx` -/

namespace Httpx

def isLoopback (addr : Bytes) : Bool :=
  match splitHostPort addr with
  | none => false
  | some (host, _) =>
    if host = [] ∨ host = bytes "0.0.0.0" ∨ host = bytes "::" then false
    else
      match parseIP host with
      | some ip => isLoopbackIP ip
      | none => host == bytes "localhost"

end Httpx

/-! ## The two classifiers -/

/-- The names `hooks/dev` takes without parsing. -/
theorem isLoopback_cases {host : Bytes} (h : Dev.isLoopback host = true) :
    host = [] ∨ host = bytes "localhost" ∨ host = bytes "[::1]" ∨
      ∃ ip, parseIP host = some ip ∧ isLoopbackIP ip = true := by
  rw [Dev.isLoopback] at h
  by_cases hname : host = [] ∨ host = bytes "localhost" ∨ host = bytes "127.0.0.1" ∨
      host = bytes "::1" ∨ host = bytes "[::1]"
  · obtain rfl | rfl | rfl | rfl | rfl := hname
    · exact .inl rfl
    · exact .inr (.inl rfl)
    · exact .inr (.inr (.inr ⟨List.replicate 10 0 ++ [0xFF, 0xFF, 127, 0, 0, 1],
        by decide, by decide⟩))
    · exact .inr (.inr (.inr ⟨List.replicate 15 0 ++ [1], by decide, by decide⟩))
    · exact .inr (.inr (.inl rfl))
  · rw [if_neg hname] at h
    cases hip : parseIP host with
    | none =>
      rw [hip] at h
      cases h
    | some ip =>
      rw [hip] at h
      exact .inr (.inr (.inr ⟨ip, rfl, h⟩))

/-- A host of a listen address that `hooks/dev` takes, and that is there, is loopback. -/
theorem httpx_of_dev {addr host port : Bytes} (hsplit : splitHostPort addr = some (host, port))
    (hne : host ≠ []) (h : Dev.isLoopback host = true) : Httpx.isLoopback addr = true := by
  rw [Httpx.isLoopback, hsplit]
  obtain rfl | rfl | rfl | ⟨ip, hip, hloop⟩ := isLoopback_cases h
  · exact absurd rfl hne
  · have hnone : parseIP (bytes "localhost") = none := by decide
    have hpublic : ¬ (bytes "localhost" = [] ∨ bytes "localhost" = bytes "0.0.0.0" ∨
      bytes "localhost" = bytes "::") := by decide
    simp only [if_neg hpublic, hnone, beq_self_eq_true]
  · exact absurd (by decide) (not_mem_of_splitHostPort hsplit)
  · have hpublic : ¬ (host = [] ∨ host = bytes "0.0.0.0" ∨ host = bytes "::") := by
      rintro (rfl | rfl | rfl)
      · exact hne rfl
      · rw [show parseIP (bytes "0.0.0.0") = some (List.replicate 10 0 ++ [0xFF, 0xFF, 0, 0, 0, 0])
          by decide, Option.some.injEq] at hip
        rw [← hip] at hloop
        exact absurd hloop (by decide)
      · rw [show parseIP (bytes "::") = some (List.replicate 16 0) by decide,
          Option.some.injEq] at hip
        rw [← hip] at hloop
        exact absurd hloop (by decide)
    simp only [if_neg hpublic, hip, hloop]

/-- **Auto-approve listens on loopback only**, for a listen address with a host and a port, or
one that `hooks/dev` does not take for the host itself. -/
theorem autoApprove_loopback_iff (G : Runtime) (addr : Bytes) :
    (Dev.assertAutoApproveNotPublic G [] addr = .ok () → Httpx.isLoopback addr = true) ↔
      match splitHostPort addr with
      | some (host, _) => host ≠ []
      | none => Dev.isLoopback addr = false := by
  have hassert : ∀ {host}, (match splitHostPort addr with
      | none => addr
      | some (host, _) => host) = host →
      (Dev.assertAutoApproveNotPublic G [] addr = .ok () ↔ Dev.isLoopback host = true) := by
    rintro host rfl
    rw [Dev.assertAutoApproveNotPublic]
    by_cases hloop : Dev.isLoopback (match splitHostPort addr with
      | none => addr
      | some (host, _) => host) = true
    · exact iff_of_true (if_pos hloop) hloop
    · refine iff_of_false ?_ hloop
      rw [if_neg hloop, if_neg (by decide)]
      exact nofun
  cases hsplit : splitHostPort addr with
  | none =>
    have hnot : Httpx.isLoopback addr = false := by rw [Httpx.isLoopback, hsplit]
    rw [hassert (by rw [hsplit]), hnot, Bool.false_eq_true, imp_false, Bool.not_eq_true]
  | some span =>
    obtain ⟨host, port⟩ := span
    rw [hassert (by rw [hsplit])]
    constructor
    · rintro h rfl
      have hnot : Httpx.isLoopback addr = false := by
        rw [Httpx.isLoopback, hsplit]
        rfl
      rw [h rfl] at hnot
      cases hnot
    · exact fun hne => httpx_of_dev hsplit hne

/-- A listener without a host is every interface. -/
theorem autoApprove_every_interface :
    Dev.assertAutoApproveNotPublic bareRuntime [] (bytes ":8443") = .ok () ∧
      Httpx.isLoopback (bytes ":8443") = false := by
  decide

end Shadownet.Issuer

import Shadownet.Foundation.Unicode

/-!
# `net`

`net.SplitHostPort`, `net.ParseIP` and `IP.IsLoopback`, as Go 1.25 defines them. What the errors
say is left out: no caller reads it.
-/

namespace Shadownet.Go

open Foundation

/-! ## Host and port -/

/-- `bytealg.LastIndexByteString`. -/
def lastIndexByte (s : Bytes) (b : UInt8) : Option Nat :=
  (s.reverse.findIdx? (· == b)).map (s.length - 1 - ·)

/-- The host, and where the brackets that are left may start; `i` is the index of the last
colon. -/
def hostSpan (hostport : Bytes) (i : Nat) : Option (Bytes × Nat × Nat) :=
  if hostport.head? = some 0x5B then
    match hostport.findIdx? (· == 0x5D) with
    | none => none
    | some close =>
      -- the first `]` stands just before the last colon
      if close + 1 = i then some ((hostport.take close).drop 1, 1, close + 1) else none
  else if (hostport.take i).contains 0x3A then none
  else some (hostport.take i, 0, 0)

/-- `net.SplitHostPort`. -/
def splitHostPort (hostport : Bytes) : Option (Bytes × Bytes) :=
  match lastIndexByte hostport 0x3A with
  | none => none
  | some i =>
    match hostSpan hostport i with
    | none => none
    | some (host, j, k) =>
      if (hostport.drop j).contains 0x5B ∨ (hostport.drop k).contains 0x5D then none
      else some (host, hostport.drop (i + 1))

/-- A host has no bracket of its own. -/
theorem not_mem_of_splitHostPort {hostport host port : Bytes}
    (h : splitHostPort hostport = some (host, port)) : (0x5B : UInt8) ∉ host := by
  unfold splitHostPort at h
  cases hi : lastIndexByte hostport 0x3A with
  | none =>
    rw [hi] at h
    cases h
  | some i =>
    rw [hi] at h
    cases hspan : hostSpan hostport i with
    | none =>
      simp only [hspan] at h
      cases h
    | some span =>
      obtain ⟨host', j, k⟩ := span
      simp only [hspan, Option.ite_none_left_eq_some, Option.some.injEq, Prod.mk.injEq,
        not_or, List.contains_iff_mem] at h
      obtain ⟨⟨hopen, -⟩, rfl, -⟩ := h
      have hsub : host' ⊆ hostport.drop j := by
        unfold hostSpan at hspan
        split at hspan
        · split at hspan
          · cases hspan
          · next close hclose =>
            obtain ⟨-, hspan⟩ := Option.ite_none_right_eq_some.mp hspan
            cases hspan
            exact ((List.take_sublist close hostport).drop 1).subset
        · obtain ⟨-, hspan⟩ := Option.ite_none_left_eq_some.mp hspan
          cases hspan
          exact List.take_subset i hostport
      exact fun hin => hopen (hsub hin)

/-! ## Addresses -/

def digitValue (b : UInt8) : Option Nat :=
  if 0x30 ≤ b.toNat ∧ b.toNat ≤ 0x39 then some (b.toNat - 0x30) else none

def hexDigitValue (b : UInt8) : Option Nat :=
  if 0x30 ≤ b.toNat ∧ b.toNat ≤ 0x39 then some (b.toNat - 0x30)
  else if 0x61 ≤ b.toNat ∧ b.toNat ≤ 0x66 then some (b.toNat - 0x57)
  else if 0x41 ≤ b.toNat ∧ b.toNat ≤ 0x46 then some (b.toNat - 0x37)
  else none

/-- One octet: no leading zero, at most 255. -/
def parseOctet (s : Bytes) : Option UInt8 :=
  if s = [] ∨ (1 < s.length ∧ s.head? = some 0x30) then none
  else
    match s.mapM digitValue with
    | none => none
    | some ds =>
      let n := ds.foldl (fun n d => n * 10 + d) 0
      if n ≤ 255 then some (UInt8.ofNat n) else none

/-- `parseIPv4Fields`: four octets between dots. -/
def parseIPv4Fields (s : Bytes) : Option Bytes :=
  if (s.splitOn 0x2E).length = 4 then (s.splitOn 0x2E).mapM parseOctet else none

/-- The loop of `parseIPv6`: the bytes read so far, where the `::` stands, and what is left. There
is room for as many groups as the first argument says. -/
def parseIPv6Groups : Nat → Bytes → Option Nat → Bytes → Option (Bytes × Option Nat × Bytes)
  | 0, ip, ellipsis, s => some (ip, ellipsis, s)
  | room + 1, ip, ellipsis, s =>
    let digits := s.takeWhile fun b => (hexDigitValue b).isSome
    let rest := s.dropWhile fun b => (hexDigitValue b).isSome
    if digits = [] ∨ 4 < digits.length then none
    else if rest.head? = some 0x2E then
      -- an IPv4 address replaces the last two groups
      if ellipsis = none ∧ ip.length ≠ 12 ∨ 12 < ip.length then none
      else (parseIPv4Fields s).map fun octets => (ip ++ octets, ellipsis, [])
    else
      let acc := (digits.filterMap hexDigitValue).foldl (fun n d => n * 16 + d) 0
      let ip := ip ++ [UInt8.ofNat (acc / 256), UInt8.ofNat (acc % 256)]
      match rest with
      | [] => some (ip, ellipsis, [])
      | 0x3A :: 0x3A :: more =>
        if ellipsis.isSome then none
        else if more = [] then some (ip, some ip.length, [])
        else parseIPv6Groups room ip (some ip.length) more
      | 0x3A :: b :: more => parseIPv6Groups room ip ellipsis (b :: more)
      | _ => none

/-- The bytes with the `::` filled up. -/
def expandEllipsis (ip : Bytes) : Option Nat → Option Bytes
  | none => if ip.length = 16 then some ip else none
  | some e =>
    if ip.length < 16 then
      some (ip.take e ++ List.replicate (16 - ip.length) 0 ++ ip.drop e)
    else none

/-- `parseIPv6` of a text without a zone. -/
def parseIPv6 (s : Bytes) : Option Bytes :=
  if s = [0x3A, 0x3A] then some (List.replicate 16 0)
  else
    let groups := if s.take 2 = [0x3A, 0x3A] then parseIPv6Groups 8 [] (some 0) (s.drop 2)
      else parseIPv6Groups 8 [] none s
    match groups with
    | some (ip, ellipsis, []) => expandEllipsis ip ellipsis
    | _ => none

/-- `net.ParseIP`, as 16 bytes. A text with a zone is no address here. -/
def parseIP (s : Bytes) : Option Bytes :=
  if s.contains 0x25 then none
  else
    match s.find? fun b => b == 0x2E || b == 0x3A with
    | none => none
    | some b =>
      if b = 0x2E then
        (parseIPv4Fields s).map fun octets => List.replicate 10 0 ++ [0xFF, 0xFF] ++ octets
      else parseIPv6 s

/-- `IP.IsLoopback`. -/
def isLoopbackIP (ip : Bytes) : Bool :=
  if ip.take 12 = List.replicate 10 0 ++ [0xFF, 0xFF] then (ip.drop 12).head? == some 127
  else ip == List.replicate 15 0 ++ [1]

end Shadownet.Go

import Shadownet.Foundation.Split
import Shadownet.Python.Identifiers

/-!
# `urllib.parse`

`urlparse` with the properties of its result, and `parse_qsl`, as CPython 3.12 defines them.
`unicodedata.normalize` is a parameter.

The pieces of a URL are cut by `splitUrl`, which never fails; `urlparse` returns them when the
authority passes its checks (`authorityOk`) and raises `ValueError` otherwise.
-/

namespace Shadownet.Python

open Foundation

def valueError (msg : Text) : Exc := ⟨.valueError, msg⟩

/-! ## Cutting texts -/

/-- `s.partition(sep)`: the part before the first separator, whether there is one, and the
part after it. -/
def partition (sep : CodePoint) (s : Text) : Text × Bool × Text :=
  (s.takeWhile (· != sep), s.contains sep, (s.dropWhile (· != sep)).drop 1)

/-- `s.rpartition(sep)`: the same at the last separator; a text without one is the last part. -/
def rpartition (sep : CodePoint) (s : Text) : Text × Bool × Text :=
  if s.contains sep then
    (((s.reverse.dropWhile (· != sep)).drop 1).reverse, true,
      (s.reverse.takeWhile (· != sep)).reverse)
  else ([], false, s)

section
variable {sep : CodePoint} {s t : Text}

theorem partition_append (h : sep ∉ s) : partition sep (s ++ sep :: t) = (s, true, t) := by
  rw [partition, takeWhile_ne_append h, dropWhile_ne_append h, List.contains_iff_mem.mpr (by simp)]
  rfl

theorem partition_self (h : sep ∉ s) : partition sep s = (s, false, []) := by
  rw [partition, takeWhile_ne_self h, dropWhile_ne_nil h,
    Bool.eq_false_iff.mpr (mt List.contains_iff_mem.mp h)]
  rfl

theorem rpartition_append (h : sep ∉ t) : rpartition sep (s ++ sep :: t) = (s, true, t) := by
  have ht : sep ∉ t.reverse := by simpa using h
  rw [rpartition, if_pos (List.contains_iff_mem.mpr (by simp)), List.reverse_append,
    List.reverse_cons, List.append_assoc, List.singleton_append, takeWhile_ne_append ht,
    dropWhile_ne_append ht, List.drop_one, List.tail_cons, List.reverse_reverse,
    List.reverse_reverse]

theorem rpartition_self (h : sep ∉ s) : rpartition sep s = ([], false, s) := by
  rw [rpartition, if_neg (mt List.contains_iff_mem.mp h)]

end

/-- A character that is no letter stands for itself. -/
theorem lowerAscii_eq_iff {c d : CodePoint} (hd : d.val < 65 ∨ 90 < d.val ∧ d.val < 97) :
    lowerAscii c = d ↔ c = d := by
  rw [lowerAscii]
  by_cases hup : 65 ≤ c.val ∧ c.val ≤ 90
  · have hbig : (Fin.ofNat 0x110000 (c.val + 32)).val = c.val + 32 := Nat.mod_eq_of_lt (by omega)
    rw [if_pos hup]
    refine iff_of_false ?_ ?_
    · rintro rfl
      omega
    · rintro rfl
      omega
  · rw [if_neg hup]

def isAsciiDigit (c : CodePoint) : Bool := 48 ≤ c.val && c.val ≤ 57

/-- The value of a hexadecimal digit. -/
def hexValue (c : CodePoint) : Option Nat :=
  if isAsciiDigit c then some (c.val - 48)
  else if 65 ≤ c.val ∧ c.val ≤ 70 then some (c.val - 55)
  else if 97 ≤ c.val ∧ c.val ≤ 102 then some (c.val - 87)
  else none

/-- `int(s)` of decimal digits. -/
def decimalValue (s : Text) : Nat := s.foldl (fun n c => n * 10 + (c.val - 48)) 0

/-! ## Addresses in brackets -/

/-- Whether `ipaddress.IPv4Address(s)` succeeds. -/
def isIPv4Address (s : Text) : Bool :=
  let octets := s.splitOn 46
  octets.length == 4 && octets.all fun o =>
    o != [] && o.all isAsciiDigit && o.length ≤ 3 && (o == [48] || o.head? != some 48) &&
      decimalValue o ≤ 255

def isHextet (s : Text) : Bool := s != [] && s.all (fun c => (hexValue c).isSome) && s.length ≤ 4

/-- The groups of an IPv6 address; an address of IPv4 at the end stands for two of them. -/
def hextets (addr : Text) : Option (List Text) :=
  let parts := addr.splitOn 58
  if parts.length < 3 then none
  else if (parts.getLastD []).contains 46 then
    if isIPv4Address (parts.getLastD []) then some (parts.dropLast ++ [[48], [48]]) else none
  else some parts

/-- The checks of `_ip_int_from_string`: eight groups, or fewer around one `::`. -/
def hextetsOk (parts : List Text) : Bool :=
  let n := parts.length
  n ≤ 9 &&
    match (List.range n).filter fun i => 1 ≤ i && i + 1 < n && parts.getD i [] == [] with
    | [] => n == 8 && parts.all isHextet
    | [skip] =>
      let hi := if parts.headD [] == [] then skip - 1 else skip
      let lo := if parts.getLastD [] == [] then n - skip - 2 else n - skip - 1
      (parts.headD [] != [] || hi == 0) && (parts.getLastD [] != [] || lo == 0) && hi + lo < 8 &&
        (parts.take hi).all isHextet && (parts.drop (n - lo)).all isHextet
    | _ => false

/-- Whether `ipaddress.IPv6Address(s)` succeeds. -/
def isIPv6Address (s : Text) : Bool :=
  let (addr, percent, zone) := partition 37 s
  !s.contains 47 && (!percent || zone != [] && !zone.contains 37) &&
    (hextets addr).any hextetsOk

/-- `re.match(r"\Av[a-fA-F0-9]+\..+\Z", s)` of a text that starts with `v`. -/
def isIPvFuture (s : Text) : Bool :=
  let rest := (s.drop 1).dropWhile fun c => (hexValue c).isSome
  rest.length < (s.drop 1).length && rest.head? == some 46 && 2 ≤ rest.length &&
    !(rest.drop 1).contains 10

/-- What `_check_bracketed_host` lets through. -/
def bracketedHostOk (hostname : Text) : Bool :=
  if hostname.head? = some 118 then isIPvFuture hostname else isIPv6Address hostname

/-! ## The authority -/

/-- The host and the port of an authority, an empty port when there is none. -/
def hostinfo (netloc : Text) : Text × Text :=
  let info := (rpartition 64 netloc).2.2
  let (_, bracket, bracketed) := partition 91 info
  if bracket then
    let (hostname, _, after) := partition 93 bracketed
    (hostname, (partition 58 after).2.2)
  else
    let (hostname, _, port) := partition 58 info
    (hostname, port)

/-- What `_check_bracketed_netloc` lets through. -/
def bracketedNetlocOk (netloc : Text) : Bool :=
  let info := (rpartition 64 netloc).2.2
  let (before, bracket, bracketed) := partition 91 info
  (!bracket || before == [] &&
    ((partition 93 bracketed).2.2 == [] || (partition 93 bracketed).2.2.head? == some 58)) &&
    bracketedHostOk (hostinfo netloc).1

/-- Brackets in pairs, around an address. -/
def bracketsOk (netloc : Text) : Bool :=
  netloc.contains 91 == netloc.contains 93 && (!netloc.contains 91 || bracketedNetlocOk netloc)

/-- What `_checknetloc` lets through: no character that NFKC turns into a delimiter. -/
def normalizedOk (nfkc : Text → Text) (netloc : Text) : Bool :=
  let n := netloc.filter fun c => c != 64 && c != 58 && c != 35 && c != 63
  netloc.all (fun c => decide c.IsAscii) || n == nfkc n ||
    (nfkc n).all fun c => c != 47 && c != 63 && c != 35 && c != 64 && c != 58

def authorityOk (nfkc : Text → Text) (netloc : Text) : Bool :=
  bracketsOk netloc && normalizedOk nfkc netloc

/-! ## `urlparse` -/

structure ParseResult where
  scheme : Text
  netloc : Text
  path : Text
  query : Text
  fragment : Text
  deriving DecidableEq

/-- A text without its tabs and line ends. -/
def unlined (t : Text) : Text := t.filter fun c => c != 9 && c != 13 && c != 10

/-- The text that is split: no controls and blanks at the start, and no tabs and line ends. -/
def cleanUrl (url : Text) : Text := unlined (url.dropWhile fun c => c.val ≤ 32)

def isAlpha (c : CodePoint) : Bool :=
  (65 ≤ c.val && c.val ≤ 90) || (97 ≤ c.val && c.val ≤ 122)

def isSchemeChar (c : CodePoint) : Bool := isAlnum c || c == 43 || c == 45 || c == 46

/-- The scheme in small letters and the text after its colon. -/
def splitScheme (url : Text) : Text × Text :=
  let (before, colon, after) := partition 58 url
  if colon && url.head?.any isAlpha && before.all isSchemeChar then (before.map lowerAscii, after)
  else ([], url)

/-- Whether a character ends an authority: `/`, `?` or `#`. -/
def endsAuthority (c : CodePoint) : Bool := c == 47 || c == 63 || c == 35

/-- `_splitnetloc(url, 2)` of a text that starts with `//`; no authority otherwise. -/
def splitNetloc (url : Text) : Text × Text :=
  if url.take 2 = [47, 47] then
    ((url.drop 2).takeWhile (!endsAuthority ·), (url.drop 2).dropWhile (!endsAuthority ·))
  else ([], url)

/-- `uses_params`. -/
def usesParams : List Text :=
  ["", "ftp", "hdl", "prospero", "http", "https", "shttp", "rtsp", "rtsps", "rtspu", "sip",
    "sips", "mms", "sftp", "tel"].map text

/-- The path before the parameters of its last segment. -/
def withoutParams (path : Text) : Text :=
  let last := (path.reverse.takeWhile (· != 47)).reverse
  path.take (path.length - last.length) ++ last.takeWhile (· != 59)

/-- The pieces of a URL. -/
def splitUrl (url : Text) : ParseResult :=
  let (scheme, rest) := splitScheme (cleanUrl url)
  let (netloc, rest) := splitNetloc rest
  let (rest, _, fragment) := partition 35 rest
  let (path, _, query) := partition 63 rest
  { scheme, netloc, query, fragment
    path := if scheme ∈ usesParams then withoutParams path else path }

theorem mem_unlined {c : CodePoint} {t : Text} :
    c ∈ unlined t ↔ c ∈ t ∧ c ≠ 9 ∧ c ≠ 13 ∧ c ≠ 10 := by
  rw [unlined, List.mem_filter]
  simp [and_assoc]

theorem unlined_self {t : Text} (h : ∀ c ∈ t, c ≠ 9 ∧ c ≠ 13 ∧ c ≠ 10) : unlined t = t :=
  List.filter_eq_self.mpr fun c hc => by simp [h c hc]

theorem unlined_append (s t : Text) : unlined (s ++ t) = unlined s ++ unlined t :=
  List.filter_append ..

/-- A URL that starts with a visible character. -/
theorem cleanUrl_cons {c : CodePoint} (h : 32 < c.val) (t : Text) :
    cleanUrl (c :: t) = unlined (c :: t) := by
  rw [cleanUrl, List.dropWhile_cons, if_neg]
  rw [decide_eq_true_eq]
  omega

/-- A URL with an authority. -/
theorem splitUrl_authority {url scheme rest : Text}
    (h : cleanUrl url = scheme ++ 58 :: 47 :: 47 :: rest) (hcolon : (58 : CodePoint) ∉ scheme)
    (halpha : scheme.head?.any isAlpha = true) (hscheme : scheme.all isSchemeChar = true) :
    (splitUrl url).scheme = scheme.map lowerAscii ∧
      (splitUrl url).netloc = rest.takeWhile (!endsAuthority ·) := by
  have hhead : (scheme ++ 58 :: 47 :: 47 :: rest).head? = scheme.head? := by
    cases scheme with
    | nil => cases halpha
    | cons c scheme => rfl
  have hsplit : splitScheme (cleanUrl url) = (scheme.map lowerAscii, 47 :: 47 :: rest) := by
    rw [h, splitScheme, partition_append hcolon, hhead]
    simp only [halpha, hscheme, Bool.and_self, if_true]
  have hnetloc : splitNetloc (47 :: 47 :: rest) =
      (rest.takeWhile (!endsAuthority ·), rest.dropWhile (!endsAuthority ·)) := rfl
  rw [splitUrl, hsplit]
  simp only [hnetloc, and_self]

/-- A URL with nothing after its authority. -/
theorem splitUrl_bare {url scheme rest : Text}
    (h : cleanUrl url = scheme ++ 58 :: 47 :: 47 :: rest) (hcolon : (58 : CodePoint) ∉ scheme)
    (halpha : scheme.head?.any isAlpha = true) (hscheme : scheme.all isSchemeChar = true)
    (hrest : ∀ c ∈ rest, endsAuthority c = false) :
    splitUrl url = ⟨scheme.map lowerAscii, rest, [], [], []⟩ := by
  have hhead : (scheme ++ 58 :: 47 :: 47 :: rest).head? = scheme.head? := by
    cases scheme with
    | nil => cases halpha
    | cons c scheme => rfl
  have hsplit : splitScheme (cleanUrl url) = (scheme.map lowerAscii, 47 :: 47 :: rest) := by
    rw [h, splitScheme, partition_append hcolon, hhead]
    simp only [halpha, hscheme, Bool.and_self, if_true]
  have hnot : ∀ c ∈ rest, (!endsAuthority c) = true := fun c hc => by rw [hrest c hc]; rfl
  have hnetloc : splitNetloc (47 :: 47 :: rest) = (rest, []) := by
    show (rest.takeWhile (!endsAuthority ·), rest.dropWhile (!endsAuthority ·)) = _
    rw [List.takeWhile_eq_self_iff.mpr hnot, List.dropWhile_eq_nil_iff.mpr hnot]
  rw [splitUrl, hsplit]
  simp only [hnetloc]
  split_ifs <;> rfl

/-- What the checks of an authority raise. -/
def authorityExc (G : Runtime) (netloc : Text) : Exc :=
  let (before, bracket, bracketed) := partition 91 (rpartition 64 netloc).2.2
  let after := (partition 93 bracketed).2.2
  let host := (hostinfo netloc).1
  valueError (
    if bracketsOk netloc then
      text "netloc '" ++ netloc ++ text "' contains invalid characters under NFKC normalization"
    else if netloc.contains 91 != netloc.contains 93 || bracket && before != [] ||
        bracket && after != [] && after.head? != some 58 then
      text "Invalid IPv6 URL"
    else if host.head? = some 118 then text "IPvFuture address is invalid"
    else if isIPv4Address host then text "An IPv4 address cannot be in brackets"
    else G.reprStr host ++ text " does not appear to be an IPv4 or IPv6 address")

def urlparse (G : Runtime) (nfkc : Text → Text) (url : Text) : Py ParseResult :=
  let parts := splitUrl url
  if ¬ authorityOk nfkc parts.netloc then throw (authorityExc G parts.netloc) else pure parts

namespace ParseResult

variable (p : ParseResult)

/-- `parts.username`. -/
def username : Option Text :=
  let (userinfo, found, _) := rpartition 64 p.netloc
  if found then some (partition 58 userinfo).1 else none

/-- `parts.password`. -/
def password : Option Text :=
  let (userinfo, found, _) := rpartition 64 p.netloc
  let (_, colon, password) := partition 58 userinfo
  if found && colon then some password else none

/-- `parts.hostname`, empty for none. The zone of a scoped address keeps its case. -/
def hostname (G : Runtime) : Text :=
  let (name, percent, zone) := partition 37 (hostinfo p.netloc).1
  G.lower name ++ if percent then 37 :: zone else []

/-- A port that `parts.port` returns. -/
def portOk : Bool :=
  let port := (hostinfo p.netloc).2
  port.all isAsciiDigit && port.length ≤ 4300 && decimalValue port ≤ 65535

/-- `parts.port`. -/
def port (G : Runtime) : Py (Option Nat) :=
  let port := (hostinfo p.netloc).2
  if port = [] then pure none
  else if ¬ port.all isAsciiDigit then
    throw (valueError (text "Port could not be cast to integer value as " ++ G.reprStr port))
  else if 4300 < port.length then
    throw (valueError (text "Exceeds the limit (4300 digits) for integer string conversion"))
  else if 65535 < decimalValue port then throw (valueError (text "Port out of range 0-65535"))
  else pure (some (decimalValue port))

end ParseResult

/-! ## Queries -/

/-- One character of `bytes.decode("utf-8", "replace")` and what follows it: a well-formed
sequence, or a replacement character for the longest start of one. -/
def utf8ReplaceNext (b : UInt8) (bs : Bytes) : CodePoint × Bytes :=
  let n := b.toNat
  let cont (lo hi : Nat) (bs : Bytes) : Option (Nat × Bytes) :=
    match bs with
    | [] => none
    | c :: rest => if lo ≤ c.toNat ∧ c.toNat ≤ hi then some (c.toNat % 64, rest) else none
  if n < 0x80 then (Fin.ofNat 0x110000 n, bs)
  else if 0xC2 ≤ n ∧ n ≤ 0xDF then
    match cont 0x80 0xBF bs with
    | none => (0xFFFD, bs)
    | some (x, bs) => (Fin.ofNat 0x110000 (n % 32 * 64 + x), bs)
  else if 0xE0 ≤ n ∧ n ≤ 0xEF then
    match cont (if n = 0xE0 then 0xA0 else 0x80) (if n = 0xED then 0x9F else 0xBF) bs with
    | none => (0xFFFD, bs)
    | some (x, bs) =>
      match cont 0x80 0xBF bs with
      | none => (0xFFFD, bs)
      | some (y, bs) => (Fin.ofNat 0x110000 ((n % 16 * 64 + x) * 64 + y), bs)
  else if 0xF0 ≤ n ∧ n ≤ 0xF4 then
    match cont (if n = 0xF0 then 0x90 else 0x80) (if n = 0xF4 then 0x8F else 0xBF) bs with
    | none => (0xFFFD, bs)
    | some (x, bs) =>
      match cont 0x80 0xBF bs with
      | none => (0xFFFD, bs)
      | some (y, bs) =>
        match cont 0x80 0xBF bs with
        | none => (0xFFFD, bs)
        | some (z, bs) => (Fin.ofNat 0x110000 (((n % 8 * 64 + x) * 64 + y) * 64 + z), bs)
  else (0xFFFD, bs)

/-- At most `fuel` characters; a byte string never holds more than its length. -/
def utf8ReplaceFuel : Nat → Bytes → Text
  | fuel + 1, b :: bs =>
    let (c, rest) := utf8ReplaceNext b bs
    c :: utf8ReplaceFuel fuel rest
  | _, _ => []

/-- `bs.decode("utf-8", "replace")`. -/
def utf8Replace (bs : Bytes) : Text := utf8ReplaceFuel bs.length bs

/-- `unquote_to_bytes` of an ASCII text. -/
def unquoteToBytes : Text → Bytes
  | c :: a :: b :: rest =>
    if c = 37 then
      match hexValue a, hexValue b with
      | some x, some y => UInt8.ofNat (x * 16 + y) :: unquoteToBytes rest
      | _, _ => 37 :: unquoteToBytes (a :: b :: rest)
    else UInt8.ofNat c.val :: unquoteToBytes (a :: b :: rest)
  | c :: rest => UInt8.ofNat c.val :: unquoteToBytes rest
  | [] => []

/-- `unquote(s)`: the runs of ASCII characters are decoded. -/
def unquote (s : Text) : Text :=
  if ¬ s.contains 37 then s
  else (s.splitBy fun a b => decide a.IsAscii == decide b.IsAscii).flatMap fun run =>
    if run.all fun c => decide c.IsAscii then utf8Replace (unquoteToBytes run) else run

def unquotePlus (s : Text) : Text := unquote (s.map fun c => if c = 43 then 32 else c)

/-- The loop of `parse_qsl`. -/
def parseFields (G : Runtime) : List Text → Py (List (Text × Text))
  | [] => pure []
  | field :: rest =>
    let (name, found, value) := partition 61 field
    if ¬ found then throw (valueError (text "bad query field: " ++ G.reprStr field))
    else do
      let pairs ← parseFields G rest
      pure (if value = [] then pairs else (unquotePlus name, unquotePlus value) :: pairs)

/-- `parse_qsl(qs, keep_blank_values=False, strict_parsing=True)`. -/
def parseQsl (G : Runtime) (qs : Text) : Py (List (Text × Text)) :=
  if qs = [] then pure [] else parseFields G (qs.splitOn 38)

end Shadownet.Python

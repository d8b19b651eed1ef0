import Mathlib.Data.List.TakeWhile
import Shadownet.Foundation.Base64
import Shadownet.Python.Exceptions

/-!
# Pieces of the Python standard library

`str.strip` and `base64.urlsafe_b64decode`, as CPython defines them.
-/

namespace Shadownet.Python

open Foundation

/-- One hexadecimal digit, with `a` the letter for ten. -/
def hexDigit (a n : Nat) : CodePoint := Fin.ofNat 0x110000 (if n < 10 then 48 + n else a + n - 10)

/-- `f"{n:04x}"` with `a = 97` and `f"{n:04X}"` with `a = 65`, for a 16-bit number. -/
def hex4 (a n : Nat) : Text :=
  [hexDigit a (n / 4096), hexDigit a (n / 256 % 16), hexDigit a (n / 16 % 16), hexDigit a (n % 16)]

/-- The whitespace of `str.isspace`, which `str.strip` removes. -/
def isSpace (c : CodePoint) : Bool :=
  (9 ≤ c.val && c.val ≤ 13) || (28 ≤ c.val && c.val ≤ 32) || c.val == 0x85 || c.val == 0xA0 ||
    c.val == 0x1680 || (0x2000 ≤ c.val && c.val ≤ 0x200A) || c.val == 0x2028 ||
    c.val == 0x2029 || c.val == 0x202F || c.val == 0x205F || c.val == 0x3000

/-- `s.strip()`. -/
def strip (s : Text) : Text := ((s.dropWhile isSpace).reverse.dropWhile isSpace).reverse

/-- `binascii.Error` for a malformed text. -/
def base64Exc : Base64Error → Exc
  | .dataChars n =>
    ⟨.binasciiError, text "Invalid base64-encoded string: number of data characters (" ++
      decimal n ++ text ") cannot be 1 more than a multiple of 4"⟩
  | .padding => ⟨.binasciiError, text "Incorrect padding"⟩

/-- `base64.urlsafe_b64decode` of a `str`. -/
def urlsafeB64decode (s : Text) : Py Bytes :=
  if s.any fun c => decide ¬ c.IsAscii then
    throw ⟨.valueError, text "string argument should contain only ASCII characters"⟩
  else (lenientDecode (s.map Fin.val)).mapError base64Exc

/-- `"=" * (-len(s) % 4)`. -/
def padding (s : Text) : Text := (base64Padding s.length).map (Fin.ofNat 0x110000)

theorem strip_eq_self {s : Text} (h : ∀ c ∈ s, isSpace c = false) : strip s = s := by
  have hd : ∀ t : Text, (∀ c ∈ t, isSpace c = false) → t.dropWhile isSpace = t := by
    intro t ht
    cases t with
    | nil => rfl
    | cons c t => rw [List.dropWhile_cons_of_neg (by simp [ht c (by simp)])]
  rw [strip, hd s h, hd s.reverse fun c hc => h c (List.mem_reverse.mp hc), List.reverse_reverse]

theorem dropWhile_eq_self_iff_head {α : Type} {p : α → Bool} {l : List α} :
    l.dropWhile p = l ↔ ∀ a ∈ l.head?, p a = false := by
  cases l with
  | nil => simp
  | cons a l =>
    by_cases ha : p a = true
    · rw [List.dropWhile_cons_of_pos ha]
      constructor
      · intro h
        have : (l.dropWhile p).length ≤ l.length := (List.dropWhile_sublist _).length_le
        rw [h, List.length_cons] at this
        omega
      · intro h
        rw [h a rfl] at ha
        cases ha
    · rw [List.dropWhile_cons_of_neg ha]
      simpa using ha

/-- A text without white space at its ends. -/
theorem strip_eq_self_iff {s : Text} : strip s = s ↔
    (∀ c ∈ s.head?, isSpace c = false) ∧ ∀ c ∈ s.getLast?, isSpace c = false := by
  rw [← dropWhile_eq_self_iff_head, ← List.head?_reverse, ← dropWhile_eq_self_iff_head, strip]
  constructor
  · intro h
    have hlen := congrArg List.length h
    have h1 : (s.dropWhile isSpace).length ≤ s.length := (List.dropWhile_sublist _).length_le
    have h2 : ((s.dropWhile isSpace).reverse.dropWhile isSpace).length ≤
        (s.dropWhile isSpace).reverse.length := (List.dropWhile_sublist _).length_le
    rw [List.length_reverse] at hlen h2
    have hfront : s.dropWhile isSpace = s :=
      (List.dropWhile_suffix isSpace).eq_of_length (by omega)
    rw [hfront] at h
    exact ⟨hfront, List.reverse_eq_iff.mp h⟩
  · rintro ⟨hfront, hback⟩
    rw [hfront, hback, List.reverse_reverse]

/-- White space around a text without any at its ends. -/
theorem strip_padded {a m b : Text} (ha : ∀ c ∈ a, isSpace c = true)
    (hb : ∀ c ∈ b, isSpace c = true) (hm : strip m = m) : strip (a ++ m ++ b) = m := by
  obtain ⟨hhead, hlast⟩ := strip_eq_self_iff.mp hm
  rw [strip, List.append_assoc, List.dropWhile_append_of_pos ha]
  cases m with
  | nil =>
    rw [List.nil_append, List.dropWhile_eq_nil_iff.mpr hb]
    rfl
  | cons c m =>
    have hc : ¬ isSpace c = true := by simp [hhead c rfl]
    rw [List.cons_append, List.dropWhile_cons_of_neg hc, ← List.cons_append, List.reverse_append,
      List.dropWhile_append_of_pos fun c hc => hb c (List.mem_reverse.mp hc),
      dropWhile_eq_self_iff_head.mpr (by rwa [List.head?_reverse]), List.reverse_reverse]

/-- What `strip` removes. -/
theorem exists_strip (s : Text) : ∃ a b, s = a ++ strip s ++ b ∧ (∀ c ∈ a, isSpace c = true) ∧
    ∀ c ∈ b, isSpace c = true := by
  refine ⟨s.takeWhile isSpace, ((s.dropWhile isSpace).reverse.takeWhile isSpace).reverse, ?_,
    fun c hc => List.mem_takeWhile_imp hc,
    fun c hc => List.mem_takeWhile_imp (List.mem_reverse.mp hc)⟩
  rw [strip, List.append_assoc, ← List.reverse_append, List.takeWhile_append_dropWhile,
    List.reverse_reverse, List.takeWhile_append_dropWhile]

theorem strip_strip (s : Text) : strip (strip s) = strip s := by
  have hdrop : ∀ t : Text, ∀ c ∈ (t.dropWhile isSpace).head?, isSpace c = false := by
    intro t c hc
    have hnot := List.head?_dropWhile_not isSpace t
    rw [hc] at hnot
    simpa using hnot
  refine strip_eq_self_iff.mpr ⟨fun c hc => ?_, fun c hc => ?_⟩
  · -- What is left at the end is a start of what is left at the front.
    have hprefix : strip s <+: s.dropWhile isSpace := by
      have hsuffix := (List.dropWhile_suffix isSpace (l := (s.dropWhile isSpace).reverse))
      simpa [strip] using List.reverse_prefix.mpr hsuffix
    obtain ⟨z, hz⟩ := hprefix
    refine hdrop s c ?_
    rw [← hz, List.head?_append, hc]
    rfl
  · rw [strip, List.getLast?_reverse] at hc
    exact hdrop _ c hc

/-- Decoding a padded ASCII text. -/
theorem urlsafeB64decode_padded {cs : List Nat} (h : ∀ c ∈ cs, c < 0x80) :
    urlsafeB64decode (cs.map (Fin.ofNat 0x110000) ++ padding (cs.map (Fin.ofNat 0x110000))) =
      (lenientDecode (cs ++ base64Padding cs.length)).mapError base64Exc := by
  have hval : (cs.map (Fin.ofNat 0x110000)).map Fin.val = cs := by
    rw [List.map_map]
    conv_rhs => rw [← List.map_id cs]
    refine List.map_congr_left fun c hc => ?_
    have := h c hc
    simp only [Function.comp_apply, Fin.ofNat, id_eq]
    omega
  have hpad : (padding (cs.map (Fin.ofNat 0x110000))).map Fin.val = base64Padding cs.length := by
    rw [padding, List.length_map, base64Padding, List.map_replicate, List.map_replicate]
    rfl
  have hascii : ¬ ((cs.map (Fin.ofNat 0x110000) ++ padding (cs.map (Fin.ofNat 0x110000))).any
      fun c : CodePoint => decide ¬ c.IsAscii) = true := by
    rw [List.any_eq_true]
    rintro ⟨c, hc, hna⟩
    have hn : ¬ CodePoint.IsAscii c := of_decide_eq_true hna
    rcases List.mem_append.mp hc with hc | hc
    · have := h c.val (by rw [← hval]; exact List.mem_map_of_mem hc)
      exact hn this
    · rw [padding, base64Padding, List.map_replicate] at hc
      rw [List.eq_of_mem_replicate hc] at hn
      exact hn (by decide)
  rw [urlsafeB64decode, if_neg hascii, List.map_append, hval, hpad]

/-- Decoding a padded base64url text gives the encoded bytes back. -/
theorem urlsafeB64decode_base64Url (bs : Bytes) :
    urlsafeB64decode (base64Url bs ++ padding (base64Url bs)) = .ok bs := by
  have hcode : ∀ c ∈ base64UrlCodes bs, c < 0x80 := by
    intro c hc
    obtain ⟨x, hx, rfl⟩ := List.mem_map.mp hc
    have := sextetCode_alphabet (sextets_lt bs x hx)
    omega
  rw [base64Url, urlsafeB64decode_padded hcode, lenientDecode_base64Url]
  rfl

theorem urlsafeB64decode_error {s : Text} {e : Exc} (h : urlsafeB64decode s = .error e) :
    e.cls.isA .valueError = true := by
  rw [urlsafeB64decode] at h
  split_ifs at h
  · rw [← Except.error.inj h]
    decide
  · cases hl : lenientDecode (s.map Fin.val) with
    | ok b =>
      rw [hl] at h
      cases h
    | error b =>
      rw [hl] at h
      rw [← Except.error.inj h]
      cases b <;> rfl

end Shadownet.Python

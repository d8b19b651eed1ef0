import Mathlib.Algebra.Group.Nat.Defs
import Shadownet.Foundation.Unicode

/-!
# The gzip file format

A file is a sequence of members. A member is a header, a deflate stream and a trailer with the
checksum and the length of what the stream holds; zeros may follow it. The reader of the stream
is a parameter.

* `Contents`: the complete files, with what they hold.
* `Defective`: the files in which a member shows that it is none, or that it is damaged, after
  complete members.

A file that is neither ends inside a member, or holds a stream that cannot be read.
-/

namespace Shadownet.Foundation.Gzip

open Foundation

/-! ## Checksums and streams -/

def crcStep (crc : UInt32) (b : UInt8) : UInt32 :=
  (List.range 8).foldl
    (fun c _ => if c &&& 1 = 1 then (c >>> 1) ^^^ 0xEDB88320 else c >>> 1) (crc ^^^ b.toUInt32)

/-- CRC-32. -/
def crc32 (bs : Bytes) : UInt32 := bs.foldl crcStep 0xFFFFFFFF ^^^ 0xFFFFFFFF

example : crc32 [49, 50, 51, 52, 53, 54, 55, 56, 57] = 0xCBF43926 := by decide +kernel

/-- The number with the least significant byte first. -/
def leValue : Bytes → Nat
  | [] => 0
  | b :: bs => b.toNat + 256 * leValue bs

/-- What a reader of a stream has when it stops: its output, whether the stream ended, and the
input after the end. -/
structure Inflated where
  output : Bytes
  eof : Bool
  unused : Bytes
  deriving DecidableEq

/-- A reader of deflate streams. -/
structure Deflate where
  inflate : Bytes → Except Text Inflated
  unused_length_le : ∀ {data r}, inflate data = .ok r → r.unused.length ≤ data.length

/-! ## Headers -/

/-- The extra field with its length. -/
def IsExtra (bs : Bytes) : Prop :=
  ∃ size data, bs = size ++ data ∧ size.length = 2 ∧ data.length = leValue size

/-- A text that ends with zero. -/
def IsString (bs : Bytes) : Prop := ∃ s : Bytes, 0 ∉ s ∧ bs = s ++ [0]

/-- A part of a header that is there when its bit is set. -/
def IsOptional (flags : UInt8) (bit : Nat) (P : Bytes → Prop) (bs : Bytes) : Prop :=
  if flags.toNat.testBit bit then P bs else bs = []

def magic : Bytes := [0x1f, 0x8b]

/-- The parts of a header after its ten bytes. -/
def IsOptions (flags : UInt8) (bs : Bytes) : Prop :=
  ∃ extra name comment crc, bs = extra ++ (name ++ (comment ++ crc)) ∧
    IsOptional flags 2 IsExtra extra ∧ IsOptional flags 3 IsString name ∧
    IsOptional flags 4 IsString comment ∧ IsOptional flags 1 (fun bs => bs.length = 2) crc

/-- A header: the method is 8, and six bytes follow the flags. -/
def IsHeader (bs : Bytes) : Prop :=
  ∃ flags fields options, bs = magic ++ (8 :: flags :: fields ++ options) ∧ fields.length = 6 ∧
    IsOptions flags options

/-! ## Files -/

/-- A stream that ends, with its trailer and the rest of the file. -/
def Stream (Z : Deflate) (body output trailer rest : Bytes) : Prop :=
  Z.inflate body = .ok ⟨output, true, trailer ++ rest⟩ ∧ trailer.length = 8

/-- The trailer fits the output. -/
def Fits (output trailer : Bytes) : Prop :=
  leValue (trailer.take 4) = (crc32 output).toNat ∧
    leValue (trailer.drop 4) = output.length % 2 ^ 32

/-- What follows a member and its padding. -/
def unpad (bs : Bytes) : Bytes := bs.dropWhile (· == 0)

inductive Contents (Z : Deflate) : Bytes → Bytes → Prop where
  | nil : Contents Z [] []
  | member {header body output trailer rest outputs : Bytes} (hheader : IsHeader header)
      (hstream : Stream Z body output trailer rest) (hfits : Fits output trailer)
      (hrest : Contents Z (unpad rest) outputs) :
      Contents Z (header ++ body) (output ++ outputs)

inductive Defective (Z : Deflate) : Bytes → Prop where
  | magic {data : Bytes} (hne : data ≠ []) (hmagic : data.take 2 ≠ magic) : Defective Z data
  | method {method : UInt8} {fields : Bytes} (hmethod : method ≠ 8) (hlen : 7 ≤ fields.length) :
      Defective Z (Gzip.magic ++ method :: fields)
  | check {header body output trailer rest : Bytes} (hheader : IsHeader header)
      (hstream : Stream Z body output trailer rest) (hfits : ¬ Fits output trailer) :
      Defective Z (header ++ body)
  | member {header body output trailer rest : Bytes} (hheader : IsHeader header)
      (hstream : Stream Z body output trailer rest) (hfits : Fits output trailer)
      (hrest : Defective Z (unpad rest)) : Defective Z (header ++ body)

theorem IsHeader.length_le {header : Bytes} (h : IsHeader header) : 10 ≤ header.length := by
  obtain ⟨flags, fields, options, rfl, hfields, _⟩ := h
  simp only [magic, List.length_append, List.length_cons, List.length_nil]
  omega

/-- A stream that ends is not empty: its trailer is part of the input. -/
theorem Stream.body_ne_nil {Z : Deflate} {body output trailer rest : Bytes}
    (h : Stream Z body output trailer rest) : body ≠ [] := by
  rintro rfl
  have hle := Z.unused_length_le h.1
  have hlen := h.2
  simp only [List.length_append, List.length_nil] at hle
  omega

theorem unpad_length_le (bs : Bytes) : (unpad bs).length ≤ bs.length :=
  (List.dropWhile_sublist _).length_le

theorem Stream.unpad_length_lt {Z : Deflate} {body output trailer rest : Bytes}
    (h : Stream Z body output trailer rest) : (unpad rest).length < body.length := by
  have hle := Z.unused_length_le h.1
  have hlen := h.2
  have hunpad := unpad_length_le rest
  simp only [List.length_append] at hle
  omega

end Shadownet.Foundation.Gzip

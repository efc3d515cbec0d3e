/-
Module: Avbroot.Text.Utf8
Purpose: `str.encode('UTF-8')`, which `openssl.py` applies to a passphrase and `zipfile` to a file
  name that is not ASCII, and the length of what it gives: one to four bytes a character, one byte
  for each ASCII character.
Trusted boundary: a Python `str` is a `String`, whose characters are Unicode scalar values; the
  encoder is the core library's `String.utf8EncodeChar`, one character at a time.
Main exports: encodeUtf8, length_encodeUtf8_le, encodeUtf8_of_isAscii, length_encodeUtf8_replicate,
  newline_not_mem_encodeUtf8
-/
import Avbroot.Text.Ascii

namespace Avbroot

/-- `s.encode('UTF-8')`. -/
def encodeUtf8 (s : String) : List UInt8 :=
  s.data.flatMap String.utf8EncodeChar

theorem length_flatMap_utf8EncodeChar_le :
    ∀ chars : List Char, (chars.flatMap String.utf8EncodeChar).length ≤ 4 * chars.length
  | [] => Nat.zero_le _
  | c :: rest => by
    have first := String.length_utf8EncodeChar c ▸ Char.utf8Size_le_four c
    have later := length_flatMap_utf8EncodeChar_le rest
    simp only [List.flatMap_cons, List.length_append, List.length_cons]
    omega

/-- UTF-8 takes at most four bytes a character. -/
theorem length_encodeUtf8_le (s : String) : (encodeUtf8 s).length ≤ 4 * s.length :=
  length_flatMap_utf8EncodeChar_le s.data

theorem utf8EncodeChar_of_lt {c : Char} (plain : c.toNat < 128) :
    String.utf8EncodeChar c = [c.toNat.toUInt8] := by
  have small : c.val ≤ 0x7f := by
    show c.val.toNat ≤ 127
    exact Nat.le_of_lt_succ plain
  simp only [String.utf8EncodeChar, small, if_true]
  rfl

theorem flatMap_utf8EncodeChar_of_isAscii :
    ∀ {chars : List Char}, IsAscii chars →
      chars.flatMap String.utf8EncodeChar = chars.map fun c => c.toNat.toUInt8
  | [], _ => rfl
  | c :: rest, plain => by
    rw [List.flatMap_cons, List.map_cons, utf8EncodeChar_of_lt (plain c (List.mem_cons_self _ _)),
      flatMap_utf8EncodeChar_of_isAscii fun d member => plain d (List.mem_cons_of_mem _ member)]
    rfl

/-- On ASCII text, UTF-8 is the ASCII byte of each character. -/
theorem encodeUtf8_of_isAscii {s : String} (plain : IsAscii s.data) : encodeUtf8 s = ascii s :=
  flatMap_utf8EncodeChar_of_isAscii plain

theorem length_encodeUtf8_replicate (n : Nat) (c : Char) :
    (encodeUtf8 ⟨List.replicate n c⟩).length = n * c.utf8Size := by
  unfold encodeUtf8
  induction n with
  | zero => rw [Nat.zero_mul]; rfl
  | succ n inductionHypothesis =>
    rw [List.replicate_succ, List.flatMap_cons, List.length_append, String.length_utf8EncodeChar,
      inductionHypothesis, Nat.succ_mul, Nat.add_comm]

/-! ### No newline inside a character -/

theorem toNat_le_toNat_or (x mask : UInt8) : mask.toNat ≤ (x ||| mask).toNat := by
  show mask.toBitVec.toNat ≤ (x.toBitVec ||| mask.toBitVec).toNat
  rw [BitVec.toNat_or]
  exact Nat.le_of_testBit fun i set => by rw [Nat.testBit_or, set, Bool.or_true]

/-- Every byte of a multi-byte sequence has its top bit set, so only `\n` itself encodes to the
byte `0x0a`. -/
theorem newline_not_mem_utf8EncodeChar {c : Char} (other : c ≠ '\n') :
    (0x0a : UInt8) ∉ String.utf8EncodeChar c := by
  have high : ∀ x mask : UInt8, 128 ≤ mask.toNat → ¬0x0a = x ||| mask := fun x mask big same => by
    have := toNat_le_toNat_or x mask
    rw [← same] at this
    exact absurd (Nat.le_trans big this) (by decide)
  simp only [String.utf8EncodeChar]
  split_ifs with small
  · intro member
    have plain : c.toNat < 256 := by
      have : c.val.toNat ≤ 127 := small
      exact Nat.lt_of_le_of_lt this (by decide)
    have code : 10 = c.toNat :=
      (congrArg UInt8.toNat (List.mem_singleton.mp member)).trans
        (UInt8.toNat_ofNat_of_lt (by unfold UInt8.size; exact plain))
    exact other (Char.ext (UInt32.toNat.inj code.symm))
  all_goals
    simp only [List.mem_cons, List.mem_singleton, List.not_mem_nil, or_false, not_or]
    repeat' constructor
  all_goals exact high _ _ (by decide)

/-- Text without a newline encodes to bytes without one. -/
theorem newline_not_mem_encodeUtf8 {s : String} (oneLine : '\n' ∉ s.data) :
    (0x0a : UInt8) ∉ encodeUtf8 s := by
  rw [encodeUtf8, List.mem_flatMap]
  rintro ⟨c, member, encoded⟩
  exact newline_not_mem_utf8EncodeChar (fun same => oneLine (same ▸ member)) encoded

end Avbroot

/-
Module: Avbroot.Text.Ascii
Purpose: The ASCII text that `boot.py` and `main.py` move between `str` and `bytes`: `bytes`
  literals, `str.encode('ascii')` and `bytes.decode('ascii')` with the text of the
  `UnicodeEncodeError` and `UnicodeDecodeError` they raise, and the lowercase hexadecimal of `%x`,
  `%02x` and `hexdigest()`.
Trusted boundary: none; the messages are those CPython's ASCII codec raises with the strict error
  handler: an encode error covers the run of code points from 128 up that starts at the first one,
  a decode error the first byte from 128 up.
Main exports: ascii, IsAscii, IsAsciiBytes, hexPad, hexdigest, encodeAscii, decodeAscii,
  encodeAscii_eq_ok_iff, decodeAscii_isAsciiBytes, ascii_of_decodeAscii, decodeAscii_ascii
-/
import Mathlib.Data.List.Basic

namespace Avbroot

/-- A `bytes` literal `b'...'` of ASCII characters. -/
def ascii (s : String) : List UInt8 :=
  s.data.map fun c => c.toNat.toUInt8

@[simp] theorem ascii_append (s t : String) : ascii (s ++ t) = ascii s ++ ascii t := by
  simp [ascii]

/-- Code points below 128, the ones the ASCII codec maps to a byte of the same value. -/
def IsAscii (chars : List Char) : Prop :=
  ∀ c ∈ chars, c.toNat < 128

instance (chars : List Char) : Decidable (IsAscii chars) :=
  inferInstanceAs (Decidable (∀ c ∈ chars, c.toNat < 128))

@[simp] theorem isAscii_append {first second : List Char} :
    IsAscii (first ++ second) ↔ IsAscii first ∧ IsAscii second := by
  simp only [IsAscii, List.mem_append, or_imp, forall_and]

theorem toNat_ite_lt {p : Prop} [Decidable p] {a b : Char} (left : a.toNat < 128)
    (right : b.toNat < 128) : (if p then a else b).toNat < 128 := by
  by_cases holds : p
  · rwa [if_pos holds]
  · rwa [if_neg holds]

/-- `Nat.digitChar`, behind `%x`, gives `0` to `9`, `a` to `f` or `*`. -/
theorem isAscii_digitChar (n : Nat) : (Nat.digitChar n).toNat < 128 := by
  unfold Nat.digitChar
  repeat' apply toNat_ite_lt
  all_goals decide

theorem isAscii_toDigitsCore (base fuel n : Nat) {chars : List Char} (plain : IsAscii chars) :
    IsAscii (Nat.toDigitsCore base fuel n chars) := by
  induction fuel generalizing n chars with
  | zero => exact plain
  | succ fuel inductionHypothesis =>
    have consed : IsAscii (Nat.digitChar (n % base) :: chars) := by
      rintro c (_ | ⟨_, member⟩)
      · exact isAscii_digitChar _
      · exact plain c member
    show IsAscii (if n / base = 0 then Nat.digitChar (n % base) :: chars
      else Nat.toDigitsCore base fuel (n / base) (Nat.digitChar (n % base) :: chars))
    split
    · exact consed
    · exact inductionHypothesis _ consed

theorem isAscii_toDigits (base n : Nat) : IsAscii (Nat.toDigits base n) :=
  isAscii_toDigitsCore base _ n nofun

/-! ### Hexadecimal -/

/-- The digits of `'%0<width>x' % n`: lowercase hexadecimal, zero-padded on the left to `width`. -/
def hexPad (width n : Nat) : List Char :=
  List.replicate (width - (Nat.toDigits 16 n).length) '0' ++ Nat.toDigits 16 n

/-- `hashlib`'s `hexdigest()`: two lowercase digits per byte of the digest. -/
def hexdigest (digest : List UInt8) : String :=
  String.mk (digest.flatMap fun byte => hexPad 2 byte.toNat)

theorem isAscii_hexPad (width n : Nat) : IsAscii (hexPad width n) := by
  refine isAscii_append.mpr ⟨fun c member => ?_, isAscii_toDigits 16 n⟩
  rw [List.eq_of_mem_replicate member]
  decide

theorem isAscii_hexdigest (digest : List UInt8) : IsAscii (hexdigest digest).data := by
  intro c member
  obtain ⟨byte, -, digit⟩ := List.mem_flatMap.mp member
  exact isAscii_hexPad 2 byte.toNat c digit

/-! ### Encoding and decoding -/

/-- The `repr` of a code point in an encode error: `\x`, `\u` or `\U` with two, four or eight
digits. -/
def charEscape (c : Char) : String :=
  if c.toNat ≤ 0xff then "\\x" ++ String.mk (hexPad 2 c.toNat)
  else if c.toNat ≤ 0xffff then "\\u" ++ String.mk (hexPad 4 c.toNat)
  else "\\U" ++ String.mk (hexPad 8 c.toNat)

/-- The text of the `UnicodeEncodeError` for the code points from `start` up to, not including,
`stop`, the first of which is `bad`. -/
def encodeErrorMessage (bad : Char) (start stop : Nat) : String :=
  if stop = start + 1 then
    "'ascii' codec can't encode character '" ++ charEscape bad ++ "' in position " ++
      toString start ++ ": ordinal not in range(128)"
  else
    "'ascii' codec can't encode characters in position " ++ toString start ++ "-" ++
      toString (stop - 1) ++ ": ordinal not in range(128)"

/-- `s.encode('ascii')`: one byte per code point, or the error for the run of code points from 128
up that starts at the first of them. -/
def encodeAscii (s : String) : Except String (List UInt8) :=
  match s.data.findIdx? fun c => 128 ≤ c.toNat with
  | none => .ok (ascii s)
  | some start =>
    .error (encodeErrorMessage (s.data.getD start default) start
      (start + ((s.data.drop start).takeWhile fun c => 128 ≤ c.toNat).length))

example : encodeAscii "dev/sda" = .ok (ascii "dev/sda") := rfl

example : encodeAscii "sdé" = .error
    "'ascii' codec can't encode character '\\xe9' in position 2: ordinal not in range(128)" := rfl

example : encodeAscii "éé/" =
    .error "'ascii' codec can't encode characters in position 0-1: ordinal not in range(128)" := rfl

/-- The text of the `UnicodeDecodeError` for the byte `byte` at `position`. -/
def decodeErrorMessage (byte : UInt8) (position : Nat) : String :=
  "'ascii' codec can't decode byte 0x" ++ String.mk (hexPad 2 byte.toNat) ++ " in position " ++
    toString position ++ ": ordinal not in range(128)"

/-- `data.decode('ascii')`: one code point per byte, or the error for the first byte from 128 up. -/
def decodeAscii (data : List UInt8) : Except String String :=
  match data.findIdx? fun byte => 128 ≤ byte.toNat with
  | none => .ok (String.mk (data.map fun byte => Char.ofNat byte.toNat))
  | some position => .error (decodeErrorMessage (data.getD position 0) position)

theorem toNat_toUInt8_of_isAscii {c : Char} (plain : c.toNat < 128) :
    c.toNat.toUInt8.toNat = c.toNat :=
  UInt8.toNat_ofNat_of_lt (by show c.toNat < 256; omega)

/-- The encoding succeeds exactly on ASCII text, with the bytes of its literal. -/
theorem encodeAscii_eq_ok_iff {s : String} {bytes : List UInt8} :
    encodeAscii s = .ok bytes ↔ IsAscii s.data ∧ ascii s = bytes := by
  unfold encodeAscii
  cases found : s.data.findIdx? fun c => 128 ≤ c.toNat with
  | none =>
    have plain : IsAscii s.data := fun c member => by
      simpa using List.findIdx?_eq_none_iff.mp found c member
    simp only [plain, true_and, Except.ok.injEq]
  | some start =>
    obtain ⟨inside, wide, -⟩ := List.findIdx?_eq_some_iff_getElem.mp found
    refine iff_of_false nofun fun ⟨plain, _⟩ => ?_
    exact absurd (plain _ (List.getElem_mem inside)) (by simpa using wide)

/-- Bytes below 128, the ones `decode('ascii')` accepts. -/
def IsAsciiBytes (bytes : List UInt8) : Prop :=
  ∀ byte ∈ bytes, byte.toNat < 128

theorem isAsciiBytes_ascii {s : String} (plain : IsAscii s.data) : IsAsciiBytes (ascii s) :=
  fun byte member => by
    obtain ⟨c, inText, rfl⟩ := List.mem_map.mp member
    rw [toNat_toUInt8_of_isAscii (plain c inText)]
    exact plain c inText

theorem toNat_charOfNat {n : Nat} (small : n < 128) : (Char.ofNat n).toNat = n := by
  rw [Char.ofNat, dif_pos (Or.inl (by omega))]
  simp [Char.ofNatAux, Char.toNat, UInt32.toNat]

theorem toUInt8_toNat (byte : UInt8) : byte.toNat.toUInt8 = byte :=
  UInt8.toNat.inj (UInt8.toNat_ofNat_of_lt byte.toNat_lt_size)

/-- Bytes below 128 decode. -/
theorem decodeAscii_isAsciiBytes {bytes : List UInt8} (plain : IsAsciiBytes bytes) :
    ∃ text, decodeAscii bytes = .ok text := by
  unfold decodeAscii
  rw [List.findIdx?_eq_none_iff.mpr fun byte member => by simpa using plain byte member]
  exact ⟨_, rfl⟩

/-- Decoded text encodes back to the bytes it came from. -/
theorem ascii_of_decodeAscii {bytes : List UInt8} {text : String}
    (decoded : decodeAscii bytes = .ok text) : ascii text = bytes := by
  unfold decodeAscii at decoded
  cases found : bytes.findIdx? fun byte => 128 ≤ byte.toNat with
  | some position => rw [found] at decoded; cases decoded
  | none =>
    rw [found, Except.ok.injEq] at decoded
    subst decoded
    refine (List.map_map _ _ _).trans ((List.map_congr_left fun byte member => ?_).trans
      (List.map_id _))
    have small : byte.toNat < 128 := by simpa using List.findIdx?_eq_none_iff.mp found byte member
    simp only [Function.comp_apply, toNat_charOfNat small, toUInt8_toNat, id_eq]

/-- Decoding the bytes of ASCII text gives the text back. -/
theorem decodeAscii_ascii {s : String} (plain : IsAscii s.data) :
    decodeAscii (ascii s) = .ok s := by
  have roundTrip : ∀ c ∈ s.data, Char.ofNat c.toNat.toUInt8.toNat = c := fun c member => by
    rw [toNat_toUInt8_of_isAscii (plain c member), Char.ofNat_toNat]
  unfold decodeAscii
  rw [List.findIdx?_eq_none_iff.mpr fun byte member => by
    simpa using isAsciiBytes_ascii plain byte member]
  simp only [ascii, List.map_map]
  exact congrArg _ (String.ext ((List.map_congr_left roundTrip).trans (List.map_id _)))

end Avbroot

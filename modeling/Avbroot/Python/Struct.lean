/-
Module: Avbroot.Python.Struct
Purpose: `struct.pack` and `struct.unpack_from` for little-endian formats (`<`), as `zipfile` and
  `main.py` use them on the local file header. Each field packs to its width in bytes, least
  significant byte first; a value outside the field's range raises `struct.error`. Unpacking what
  was packed gives the fields back, whatever follows them.
Trusted boundary: an `Ns` field is carried as the number its `N` bytes hold, least significant
  first; it packs back to the same bytes. The error texts are CPython's.
Main exports: StructCode, littleEndian, readLittleEndian, structSize, fitsFields, encodeFields,
  structPack, unpackFrom, structPack_eq_ok_iff, unpackFrom_encodeFields_append
-/
import Mathlib.Algebra.Group.Int
import Avbroot.Python.Builtins

namespace Avbroot

/-- A code of a little-endian format: `Ns`, `B`, `H`, `L` or `Q`. -/
inductive StructCode where
  | bytes (count : Nat)
  | uint8
  | uint16
  | uint32
  | uint64
deriving DecidableEq, Repr

/-- The bytes a code takes. -/
def StructCode.width : StructCode → Nat
  | .bytes count => count
  | .uint8 => 1
  | .uint16 => 2
  | .uint32 => 4
  | .uint64 => 8

/-- The `struct.error` for a value the code cannot hold. -/
def StructCode.rangeMessage : StructCode → String
  | .bytes _ => "argument for 's' must be a bytes object"
  | .uint8 => "ubyte format requires 0 <= number <= 255"
  | .uint16 => "ushort format requires 0 <= number <= 65535"
  | .uint32 => "'L' format requires 0 <= number <= 4294967295"
  | .uint64 => "argument out of range"

/-- `width` bytes of `value`, least significant first. -/
def littleEndian : Nat → Nat → List UInt8
  | 0, _ => []
  | width + 1, value => (value % 256).toUInt8 :: littleEndian width (value / 256)

/-- The number bytes hold, least significant first. -/
def readLittleEndian : List UInt8 → Nat
  | [] => 0
  | byte :: rest => byte.toNat + 256 * readLittleEndian rest

/-- `struct.calcsize(fmt)`. -/
def structSize : List StructCode → Nat
  | [] => 0
  | code :: codes => code.width + structSize codes

/-- One value per code, each within its code's range. -/
def fitsFields : List StructCode → List Int → Bool
  | [], [] => true
  | code :: codes, value :: values =>
    decide (0 ≤ value ∧ value < 256 ^ code.width) && fitsFields codes values
  | _, _ => false

/-- The bytes of values that fit their codes. -/
def encodeFields : List StructCode → List Int → List UInt8
  | code :: codes, value :: values => littleEndian code.width value.toNat ++ encodeFields codes values
  | _, _ => []

/-- One field of `struct.pack`. -/
def packField (code : StructCode) (value : Int) : Except PyException (List UInt8) :=
  if 0 ≤ value ∧ value < 256 ^ code.width then .ok (littleEndian code.width value.toNat)
  else .error (.other "struct.error" code.rangeMessage)

/-- The fields of `struct.pack`, in order, stopping at the first that does not fit. -/
def packFields : List StructCode → List Int → Except PyException (List UInt8)
  | code :: codes, value :: values => do
    let bytes ← packField code value
    let rest ← packFields codes values
    pure (bytes ++ rest)
  | _, _ => .ok []

/-- `struct.pack(fmt, *values)`. -/
def structPack (codes : List StructCode) (values : List Int) : Except PyException (List UInt8) :=
  if codes.length = values.length then packFields codes values
  else .error (.other "struct.error" ("pack expected " ++ toString codes.length ++
    " items for packing (got " ++ toString values.length ++ ")"))

/-- The fields at the front of a buffer. -/
def unpackFields : List StructCode → List UInt8 → List Int
  | [], _ => []
  | code :: codes, buffer =>
    (readLittleEndian (buffer.take code.width) : Int) :: unpackFields codes (buffer.drop code.width)

/-- `struct.unpack_from(fmt, buffer)`. -/
def unpackFrom (codes : List StructCode) (buffer : List UInt8) : Except PyException (List Int) :=
  if structSize codes ≤ buffer.length then .ok (unpackFields codes buffer)
  else .error (.other "struct.error" ("unpack_from requires a buffer of at least " ++
    toString (structSize codes) ++ " bytes for unpacking " ++ toString (structSize codes) ++
    " bytes at offset 0 (actual buffer size is " ++ toString buffer.length ++ ")"))

/-! ### One field -/

@[simp] theorem length_littleEndian : ∀ width value, (littleEndian width value).length = width
  | 0, _ => rfl
  | width + 1, value => congrArg Nat.succ (length_littleEndian width (value / 256))

theorem readLittleEndian_littleEndian :
    ∀ width value, value < 256 ^ width → readLittleEndian (littleEndian width value) = value
  | 0, value, small => by
    rw [Nat.pow_zero, Nat.lt_one_iff] at small
    exact small.symm
  | width + 1, value, small => by
    have quotient : value / 256 < 256 ^ width := by
      rw [Nat.pow_succ] at small
      exact Nat.div_lt_of_lt_mul (Nat.mul_comm 256 _ ▸ small)
    have low : ((value % 256).toUInt8).toNat = value % 256 :=
      UInt8.toNat_ofNat_of_lt (Nat.mod_lt _ (by decide))
    show ((value % 256).toUInt8).toNat + 256 * readLittleEndian (littleEndian width (value / 256)) =
      value
    rw [low, readLittleEndian_littleEndian width (value / 256) quotient]
    exact Nat.mod_add_div value 256

/-! ### Packing and unpacking a format -/

theorem sameLength_of_fits :
    ∀ {codes : List StructCode} {values : List Int}, fitsFields codes values = true →
      codes.length = values.length
  | [], [], _ => rfl
  | code :: codes, value :: values, fits => by
    simp only [fitsFields, Bool.and_eq_true] at fits
    simp only [List.length_cons, sameLength_of_fits fits.2]

theorem length_encodeFields :
    ∀ {codes : List StructCode} {values : List Int}, fitsFields codes values = true →
      (encodeFields codes values).length = structSize codes
  | [], [], _ => rfl
  | code :: codes, value :: values, fits => by
    simp only [fitsFields, Bool.and_eq_true] at fits
    simp only [encodeFields, structSize, List.length_append, length_littleEndian,
      length_encodeFields fits.2]

theorem packFields_of_fits :
    ∀ {codes : List StructCode} {values : List Int}, fitsFields codes values = true →
      packFields codes values = .ok (encodeFields codes values)
  | [], [], _ => rfl
  | code :: codes, value :: values, fits => by
    simp only [fitsFields, Bool.and_eq_true, decide_eq_true_eq] at fits
    simp only [packFields, packField, if_pos fits.1, packFields_of_fits fits.2, encodeFields]
    rfl

theorem fits_of_packFields :
    ∀ {codes : List StructCode} {values : List Int} {bytes : List UInt8},
      codes.length = values.length → packFields codes values = .ok bytes →
      fitsFields codes values = true ∧ bytes = encodeFields codes values
  | [], [], _, _, packed => ⟨rfl, (Except.ok.inj packed).symm⟩
  | code :: codes, value :: values, bytes, sameLength, packed => by
    simp only [List.length_cons, Nat.succ.injEq] at sameLength
    simp only [packFields, except_bind_eq_ok, except_pure_eq_ok] at packed
    obtain ⟨first, fitted, rest, later, rfl⟩ := packed
    obtain ⟨fits, rfl⟩ := fits_of_packFields sameLength later
    by_cases inRange : 0 ≤ value ∧ value < 256 ^ code.width
    · rw [packField, if_pos inRange, Except.ok.injEq] at fitted
      simp only [fitsFields, encodeFields, Bool.and_eq_true, decide_eq_true_eq, fitted, and_true]
      exact ⟨inRange, fits⟩
    · rw [packField, if_neg inRange] at fitted
      cases fitted

/-- `struct.pack` succeeds exactly on values that fit their codes, with their bytes. -/
theorem structPack_eq_ok_iff {codes : List StructCode} {values : List Int} {bytes : List UInt8} :
    structPack codes values = .ok bytes ↔
      fitsFields codes values = true ∧ bytes = encodeFields codes values := by
  constructor
  · intro packed
    unfold structPack at packed
    split at packed
    · exact fits_of_packFields (by assumption) packed
    · cases packed
  · rintro ⟨fits, rfl⟩
    rw [structPack, if_pos (sameLength_of_fits fits), packFields_of_fits fits]

/-- Setting a field to a value its code holds keeps every field within range. -/
theorem fitsFields_set :
    ∀ {codes : List StructCode} {values : List Int} (index : Nat) {value : Int},
      fitsFields codes values = true →
      (∀ code ∈ codes[index]?, 0 ≤ value ∧ value < 256 ^ code.width) →
      fitsFields codes (values.set index value) = true
  | [], [], _, _, _, _ => rfl
  | code :: codes, _ :: values, 0, _, fits, inRange => by
    simp only [fitsFields, Bool.and_eq_true, decide_eq_true_eq, List.set_cons_zero] at fits ⊢
    exact ⟨inRange code (by simp), fits.2⟩
  | code :: codes, _ :: values, index + 1, _, fits, inRange => by
    simp only [fitsFields, Bool.and_eq_true, List.set_cons_succ] at fits ⊢
    exact ⟨fits.1, fitsFields_set index fits.2 fun later member =>
      inRange later (by simpa using member)⟩

theorem unpackFields_encodeFields_append :
    ∀ {codes : List StructCode} {values : List Int}, fitsFields codes values = true →
      ∀ tail, unpackFields codes (encodeFields codes values ++ tail) = values
  | [], [], _, _ => rfl
  | code :: codes, value :: values, fits, tail => by
    simp only [fitsFields, Bool.and_eq_true, decide_eq_true_eq] at fits
    have natural : ((value.toNat : Nat) : Int) = value := Int.toNat_of_nonneg fits.1.1
    have small : value.toNat < 256 ^ code.width :=
      (Int.toNat_lt fits.1.1).mpr ((Int.natCast_pow 256 code.width).symm ▸ fits.1.2)
    simp only [encodeFields, unpackFields, List.append_assoc,
      List.take_left' (length_littleEndian _ _), List.drop_left' (length_littleEndian _ _),
      readLittleEndian_littleEndian _ _ small, natural,
      unpackFields_encodeFields_append fits.2 tail]

/-- Unpacking the front of what was packed gives the values back. -/
theorem unpackFrom_encodeFields_append {codes : List StructCode} {values : List Int}
    (fits : fitsFields codes values = true) (tail : List UInt8) :
    unpackFrom codes (encodeFields codes values ++ tail) = .ok values := by
  rw [unpackFrom, if_pos (by rw [List.length_append, length_encodeFields fits]; omega),
    unpackFields_encodeFields_append fits tail]

end Avbroot

/-
Module: Avbroot.Python.Bytes
Purpose: The `bytes` operations that `openssl.py` and `boot.py` apply to what a file or `openssl`
  gives back: iterating a file opened `'rb'` by lines, `startswith`, `strip()`, `upper()`,
  `partition`, `repr()`, `binascii.unhexlify` and `int()` of a decimal literal, each with the
  exception CPython raises and its text. The main results are the laws the callers rely on: the
  lines of a file join back to it, `strip()` removes exactly the padding around a core,
  `unhexlify` accepts exactly the even-length hexadecimal texts, in either case, inverting the
  upper-case hexadecimal writer, and `int()` reads back the decimal text `str(n)` of a number.
Trusted boundary: CPython 3.11's algorithms (`bytes_methods.c`, `binascii.c`,
  `PyLong_FromString`), with `int()`'s default limit of 4300 digits; `binascii.Error` is a
  `ValueError`.
Main exports: isDigit, isAsciiSpace, binaryLines, bytesStrip, asciiUpper, bytesPartition,
  bytesRepr, hexDigitValue, unhexlify, hexUpper, scanDecimal, decimalValue, pyIntOfBytes,
  flatten_binaryLines, binaryLines_append_of_newline, binaryLines_append_line, bytesStrip_pad,
  bytesPartition_append, unhexlify_eq_ok_iff, pyIntOfBytes_digits, decimalValue_toString
-/
import Avbroot.Python.Builtins
import Avbroot.Text.Ascii

namespace Avbroot

/-! ### Bytes as CPython classifies them -/

/-- An ASCII digit: `\d` in a `bytes` pattern, and a digit of a decimal `int()` literal. -/
def isDigit (byte : UInt8) : Bool :=
  0x30 ≤ byte && byte ≤ 0x39

/-- `bytes.isspace()` of one byte: space, `\t`, `\n`, `\v`, `\f` or `\r`. -/
def isAsciiSpace (byte : UInt8) : Bool :=
  byte = 0x20 || (0x09 ≤ byte && byte ≤ 0x0d)

/-- `bytes.upper()` of one byte: `a` to `z` become `A` to `Z`. -/
def asciiUpper (byte : UInt8) : UInt8 :=
  if 97 ≤ byte.toNat ∧ byte.toNat ≤ 122 then byte - 32 else byte

/-! ### Lines, `strip()` and `partition` -/

/-- The lines `for line in f` gives for a file opened `'rb'`: each up to and including `b'\n'`, the
last one without it when the file does not end in one. -/
def binaryLines : List UInt8 → List (List UInt8)
  | [] => []
  | byte :: rest =>
    if byte = 0x0a then [0x0a] :: binaryLines rest
    else match binaryLines rest with
      | [] => [[byte]]
      | line :: lines => (byte :: line) :: lines

/-- `data.strip()`: without the ASCII whitespace at either end. -/
def bytesStrip (data : List UInt8) : List UInt8 :=
  ((data.dropWhile isAsciiSpace).reverse.dropWhile isAsciiSpace).reverse

/-- `data.partition(bytes([sep]))`: the bytes before the first `sep`, then `sep` itself or nothing
when there is none, then the bytes after it. -/
def bytesPartition (sep : UInt8) : List UInt8 → List UInt8 × List UInt8 × List UInt8
  | [] => ([], [], [])
  | byte :: rest =>
    if byte = sep then ([], [sep], rest)
    else
      let (before, delim, after) := bytesPartition sep rest
      (byte :: before, delim, after)

/-! ### `repr()` -/

/-- One byte as `repr()` writes it between the quotes `quote`. -/
def reprByte (quote byte : UInt8) : List Char :=
  if byte = quote ∨ byte = 0x5c then ['\\', Char.ofNat byte.toNat]
  else if byte = 0x09 then ['\\', 't']
  else if byte = 0x0a then ['\\', 'n']
  else if byte = 0x0d then ['\\', 'r']
  else if byte < 0x20 ∨ 0x7f ≤ byte then '\\' :: 'x' :: hexPad 2 byte.toNat
  else [Char.ofNat byte.toNat]

/-- `repr(data)`: `b'...'`, between double quotes when the bytes hold a `'` and no `"`. -/
def bytesRepr (data : List UInt8) : String :=
  let quote : UInt8 := if 0x27 ∈ data ∧ 0x22 ∉ data then 0x22 else 0x27
  ⟨'b' :: Char.ofNat quote.toNat ::
    (data.flatMap (reprByte quote) ++ [Char.ofNat quote.toNat])⟩

/-! ### `binascii.unhexlify` -/

/-- The value of a hexadecimal digit in either case, as `binascii` reads it. -/
def hexDigitValue (byte : UInt8) : Option Nat :=
  if 48 ≤ byte.toNat ∧ byte.toNat ≤ 57 then some (byte.toNat - 48)
  else if 65 ≤ byte.toNat ∧ byte.toNat ≤ 70 then some (byte.toNat - 55)
  else if 97 ≤ byte.toNat ∧ byte.toNat ≤ 102 then some (byte.toNat - 87)
  else none

/-- The bytes of a run of digit pairs, or none at the first pair that holds a non-digit. -/
def unhexPairs : List UInt8 → Option (List UInt8)
  | top :: bottom :: rest => do
    let high ← hexDigitValue top
    let low ← hexDigitValue bottom
    let bytes ← unhexPairs rest
    pure ((16 * high + low).toUInt8 :: bytes)
  | _ => some []

/-- `binascii.unhexlify(data)`. -/
def unhexlify (data : List UInt8) : Except PyException (List UInt8) :=
  if data.length % 2 = 1 then .error (.valueError "Odd-length string")
  else match unhexPairs data with
    | some bytes => .ok bytes
    | none => .error (.valueError "Non-hexadecimal digit found")

/-- An upper-case hexadecimal digit. -/
def upperHexDigit (n : Nat) : UInt8 :=
  if n < 10 then (48 + n).toUInt8 else (55 + n).toUInt8

/-- Two upper-case hexadecimal digits per byte. -/
def hexUpper (bytes : List UInt8) : List UInt8 :=
  bytes.flatMap fun byte => [upperHexDigit (byte.toNat / 16), upperHexDigit (byte.toNat % 16)]

/-! ### `int()` of a decimal literal -/

/-- `int()`'s default limit on the digits of a decimal literal, `sys.get_int_max_str_digits()`. -/
def intMaxStrDigits : Nat := 4300

/-- The scan of `PyLong_FromString` over digits and underscores: the digits, and the bytes from the
first that is neither; none when an `_` is not followed by a digit. -/
def scanDecimal : List UInt8 → Option (List UInt8 × List UInt8)
  | [] => some ([], [])
  | byte :: rest =>
    if isDigit byte then (scanDecimal rest).map fun scanned => (byte :: scanned.1, scanned.2)
    else if byte = 0x5f then
      match rest with
      | next :: _ => if isDigit next then scanDecimal rest else none
      | [] => none
    else some ([], byte :: rest)

/-- The number decimal digits denote. -/
def decimalValue (digits : List UInt8) : Nat :=
  digits.foldl (fun value digit => 10 * value + (digit.toNat - 0x30)) 0

/-- The optional sign in front of the digits: whether it is `-`, and what follows it. -/
def splitSign : List UInt8 → Bool × List UInt8
  | 0x2b :: rest => (false, rest)
  | 0x2d :: rest => (true, rest)
  | rest => (false, rest)

/-- `int(data)` for a `bytes` object: whitespace, an optional sign, digits with single `_`
between them, whitespace. -/
def pyIntOfBytes (data : List UInt8) : Except PyException Int :=
  let invalid : PyException :=
    .valueError ("invalid literal for int() with base 10: " ++ bytesRepr data)
  let (negative, unsigned) := splitSign (data.dropWhile isAsciiSpace)
  if unsigned.head? = some 0x5f then .error invalid
  else match scanDecimal unsigned with
    | none => .error invalid
    | some (digits, after) =>
      if intMaxStrDigits < digits.length then
        .error (.valueError ("Exceeds the limit (" ++ toString intMaxStrDigits ++
          " digits) for integer string conversion: value has " ++ toString digits.length ++
          " digits; use sys.set_int_max_str_digits() to increase the limit"))
      else if digits = [] ∨ after.dropWhile isAsciiSpace ≠ [] then .error invalid
      else .ok (if negative then -(decimalValue digits : Int) else decimalValue digits)

/-! ### Lines -/

/-- The lines of a file join back to the file. -/
theorem flatten_binaryLines : ∀ data : List UInt8, (binaryLines data).flatten = data
  | [] => rfl
  | byte :: rest => by
    have joined := flatten_binaryLines rest
    unfold binaryLines
    split_ifs with newline
    · rw [List.flatten_cons, joined, newline]
      rfl
    · split
      · next empty => rw [empty] at joined; rw [← joined]; rfl
      · next line lines split => rw [split, List.flatten_cons] at joined; rw [← joined]; rfl

theorem binaryLines_eq_nil_iff {data : List UInt8} : binaryLines data = [] ↔ data = [] := by
  refine ⟨fun empty => ?_, fun empty => by rw [empty]; rfl⟩
  rw [← flatten_binaryLines data, empty, List.flatten_nil]

theorem binaryLines_newline (rest : List UInt8) :
    binaryLines (0x0a :: rest) = [0x0a] :: binaryLines rest := rfl

theorem binaryLines_cons_of_ne {byte : UInt8} (other : byte ≠ 0x0a) {rest line : List UInt8}
    {lines : List (List UInt8)} (split : binaryLines rest = line :: lines) :
    binaryLines (byte :: rest) = (byte :: line) :: lines := by
  rw [binaryLines, if_neg other, split]

/-- After a newline the lines start afresh: the lines of a text that is empty or ends in `\n`,
followed by more bytes, are its own lines and then those of the rest. -/
theorem binaryLines_append_of_newline :
    ∀ {before : List UInt8}, (before = [] ∨ before.getLast? = some 0x0a) → ∀ rest,
      binaryLines (before ++ rest) = binaryLines before ++ binaryLines rest
  | [], _, _ => rfl
  | [byte], ended, rest => by
    obtain rfl : byte = 0x0a := by simpa using ended
    rfl
  | byte :: next :: more, ended, rest => by
    have moreEnded : (next :: more).getLast? = some 0x0a := by
      simpa only [List.getLast?_cons_cons, List.cons_ne_nil, false_or] using ended
    have inductionHypothesis := binaryLines_append_of_newline (.inr moreEnded) rest
    rw [List.cons_append] at inductionHypothesis ⊢
    by_cases newline : byte = 0x0a
    · subst newline
      rw [List.cons_append, binaryLines_newline, binaryLines_newline, inductionHypothesis]
      rfl
    · obtain ⟨line, lines, split⟩ := List.exists_cons_of_ne_nil
        (mt binaryLines_eq_nil_iff.mp (List.cons_ne_nil next more))
      rw [List.cons_append, binaryLines_cons_of_ne newline (inductionHypothesis.trans
        (by rw [split]; rfl)), binaryLines_cons_of_ne newline split]
      rfl

/-- A line without `\n` in it, ended by `\n`, is the first line, whatever follows. -/
theorem binaryLines_line_append {line : List UInt8} (oneLine : 0x0a ∉ line) (rest : List UInt8) :
    binaryLines (line ++ 0x0a :: rest) = (line ++ [0x0a]) :: binaryLines rest := by
  induction line with
  | nil => rfl
  | cons byte more inductionHypothesis =>
    rw [List.mem_cons, not_or] at oneLine
    exact binaryLines_cons_of_ne (Ne.symm oneLine.1) (inductionHypothesis oneLine.2)

/-- A last line, without `\n` in it and not followed by one, is one line. -/
theorem binaryLines_last {line : List UInt8} (oneLine : 0x0a ∉ line) (nonempty : line ≠ []) :
    binaryLines line = [line] := by
  induction line with
  | nil => exact absurd rfl nonempty
  | cons byte more inductionHypothesis =>
    rw [List.mem_cons, not_or] at oneLine
    cases more with
    | nil =>
      rw [binaryLines, if_neg (Ne.symm oneLine.1)]
      rfl
    | cons next rest =>
      exact binaryLines_cons_of_ne (Ne.symm oneLine.1)
        (inductionHypothesis oneLine.2 (List.cons_ne_nil _ _))

/-- A line after whole lines, ended by `\n` or by the end of the text, is the next line. -/
theorem binaryLines_append_line {before line rest : List UInt8}
    (wholeLines : before = [] ∨ before.getLast? = some 0x0a) (oneLine : 0x0a ∉ line)
    (nonempty : line ≠ []) (lineEnds : rest = [] ∨ rest.head? = some 0x0a) :
    ∃ ending later, (ending = [] ∨ ending = [0x0a]) ∧
      binaryLines (before ++ line ++ rest) = binaryLines before ++ (line ++ ending) :: later := by
  rw [List.append_assoc, binaryLines_append_of_newline wholeLines]
  rcases lineEnds with rfl | newline
  · exact ⟨[], [], .inl rfl, by rw [List.append_nil, binaryLines_last oneLine nonempty]⟩
  · obtain ⟨after, rfl⟩ := List.head?_eq_some_iff.mp newline
    exact ⟨[0x0a], _, .inr rfl, by rw [binaryLines_line_append oneLine]⟩

/-! ### `strip()` -/

theorem dropWhile_append_of_forall {p : UInt8 → Bool} {pad rest : List UInt8}
    (padded : ∀ byte ∈ pad, p byte = true) (stop : ∀ byte ∈ rest.head?, p byte = false) :
    (pad ++ rest).dropWhile p = rest := by
  induction pad with
  | nil =>
    cases rest with
    | nil => rfl
    | cons byte more => simp [List.dropWhile_cons, stop byte rfl]
  | cons byte more inductionHypothesis =>
    rw [List.cons_append, List.dropWhile_cons, if_pos (padded byte (List.mem_cons_self _ _))]
    exact inductionHypothesis fun other member => padded other (List.mem_cons_of_mem _ member)

/-- `strip()` removes exactly the whitespace around a core that starts and ends with a byte that is
not whitespace. -/
theorem bytesStrip_pad {lead core trail : List UInt8}
    (leading : ∀ byte ∈ lead, isAsciiSpace byte = true)
    (trailing : ∀ byte ∈ trail, isAsciiSpace byte = true)
    (first : ∀ byte ∈ core.head?, isAsciiSpace byte = false)
    (last : ∀ byte ∈ core.getLast?, isAsciiSpace byte = false) :
    bytesStrip (lead ++ core ++ trail) = core := by
  cases core with
  | nil =>
    have blank : (lead ++ trail ++ []).dropWhile isAsciiSpace = [] :=
      dropWhile_append_of_forall (fun byte member =>
        (List.mem_append.mp member).elim (leading byte) (trailing byte)) nofun
    simp only [List.append_nil] at blank
    simp [bytesStrip, blank]
  | cons byte rest =>
    have front : (lead ++ (byte :: rest ++ trail)).dropWhile isAsciiSpace = byte :: rest ++ trail :=
      dropWhile_append_of_forall leading fun other member => first other (by simpa using member)
    rw [bytesStrip, List.append_assoc, front, List.reverse_append]
    have back : (trail.reverse ++ (byte :: rest).reverse).dropWhile isAsciiSpace =
        (byte :: rest).reverse :=
      dropWhile_append_of_forall (by simpa using trailing) fun other member => by
        rw [List.head?_reverse] at member
        exact last other member
    rw [back, List.reverse_reverse]

/-- `strip()` removes the whitespace around a core that holds none. -/
theorem bytesStrip_pad_of_forall {lead core trail : List UInt8}
    (leading : ∀ byte ∈ lead, isAsciiSpace byte = true)
    (trailing : ∀ byte ∈ trail, isAsciiSpace byte = true)
    (solid : ∀ byte ∈ core, isAsciiSpace byte = false) :
    bytesStrip (lead ++ core ++ trail) = core :=
  bytesStrip_pad leading trailing (fun byte member => solid byte (List.mem_of_mem_head? member))
    fun byte member => solid byte (List.mem_of_getLast?_eq_some member)

/-! ### `partition` -/

/-- `partition` splits at the first separator. -/
theorem bytesPartition_append (sep : UInt8) :
    ∀ {before : List UInt8} (after : List UInt8), sep ∉ before →
      bytesPartition sep (before ++ sep :: after) = (before, [sep], after)
  | [], after, _ => by simp [bytesPartition]
  | byte :: before, after, absent => by
    rw [List.mem_cons, not_or] at absent
    simp [bytesPartition, Ne.symm absent.1, bytesPartition_append sep after absent.2]

/-- Without a separator, `partition` keeps the whole text before it. -/
theorem bytesPartition_of_not_mem (sep : UInt8) :
    ∀ {data : List UInt8}, sep ∉ data → bytesPartition sep data = (data, [], [])
  | [], _ => rfl
  | byte :: rest, absent => by
    rw [List.mem_cons, not_or] at absent
    simp [bytesPartition, Ne.symm absent.1, bytesPartition_of_not_mem sep absent.2]

/-- `partition` either finds a first separator, with the bytes around it, or keeps the whole text. -/
theorem bytesPartition_cases (sep : UInt8) (data : List UInt8) :
    (∃ before after, sep ∉ before ∧ data = before ++ sep :: after ∧
      bytesPartition sep data = (before, [sep], after)) ∨
    (sep ∉ data ∧ bytesPartition sep data = (data, [], [])) := by
  induction data with
  | nil => exact .inr ⟨nofun, rfl⟩
  | cons byte rest inductionHypothesis =>
    by_cases found : byte = sep
    · subst found
      exact .inl ⟨[], rest, nofun, rfl, by simp [bytesPartition]⟩
    · rcases inductionHypothesis with ⟨before, after, absent, rfl, -⟩ | ⟨absent, -⟩
      · have first : sep ∉ byte :: before := by
          rw [List.mem_cons, not_or]
          exact ⟨Ne.symm found, absent⟩
        exact .inl ⟨byte :: before, after, first, rfl, bytesPartition_append sep after first⟩
      · have missing : sep ∉ byte :: rest := by
          rw [List.mem_cons, not_or]
          exact ⟨Ne.symm found, absent⟩
        exact .inr ⟨missing, bytesPartition_of_not_mem sep missing⟩

/-! ### `unhexlify` against the upper-case writer -/

theorem toNat_asciiUpper (byte : UInt8) :
    (asciiUpper byte).toNat =
      if 97 ≤ byte.toNat ∧ byte.toNat ≤ 122 then byte.toNat - 32 else byte.toNat := by
  unfold asciiUpper
  split_ifs with letter
  · exact UInt8.toNat_sub_of_le _ _ (show 32 ≤ byte.toNat by omega)
  · rfl

theorem toNat_upperHexDigit {n : Nat} (digit : n < 16) :
    (upperHexDigit n).toNat = if n < 10 then 48 + n else 55 + n := by
  unfold upperHexDigit
  split_ifs <;> exact UInt8.toNat_ofNat_of_lt (by unfold UInt8.size; omega)

/-- A digit `binascii` reads upper-cases to the upper-case digit of its value. -/
theorem asciiUpper_of_hexDigitValue {byte : UInt8} {value : Nat}
    (read : hexDigitValue byte = some value) : value < 16 ∧ asciiUpper byte = upperHexDigit value := by
  unfold hexDigitValue at read
  split_ifs at read <;> cases read <;>
    exact ⟨by omega, UInt8.toNat.inj (by
      rw [toNat_asciiUpper, toNat_upperHexDigit (by omega)]
      split_ifs <;> omega)⟩

/-- A byte that upper-cases to a digit is a digit of that value, in either case. -/
theorem hexDigitValue_of_asciiUpper {byte : UInt8} {value : Nat} (digit : value < 16)
    (same : asciiUpper byte = upperHexDigit value) : hexDigitValue byte = some value := by
  have codes := congrArg UInt8.toNat same
  rw [toNat_asciiUpper, toNat_upperHexDigit digit] at codes
  unfold hexDigitValue
  split_ifs at codes ⊢ <;> first | omega | exact congrArg some (by omega)

theorem length_hexUpper (bytes : List UInt8) : (hexUpper bytes).length = 2 * bytes.length := by
  induction bytes with
  | nil => rfl
  | cons byte rest inductionHypothesis =>
    simp only [hexUpper, List.flatMap_cons, List.length_append, List.length_cons, List.length_nil] at *
    omega

theorem unhexPairs_eq_some_iff :
    ∀ {data bytes : List UInt8}, data.length % 2 = 0 →
      (unhexPairs data = some bytes ↔ data.map asciiUpper = hexUpper bytes)
  | [], bytes, _ => by
    cases bytes <;> simp [unhexPairs, hexUpper]
  | [_], _, odd => nomatch odd
  | top :: bottom :: rest, bytes, even => by
    have restEven : rest.length % 2 = 0 := by simp only [List.length_cons] at even; omega
    constructor
    · intro read
      simp only [unhexPairs, Option.bind_eq_bind, Option.bind_eq_some, Option.pure_def,
        Option.some.injEq] at read
      obtain ⟨high, readHigh, low, readLow, later, readRest, rfl⟩ := read
      obtain ⟨highDigit, upperHigh⟩ := asciiUpper_of_hexDigitValue readHigh
      obtain ⟨lowDigit, upperLow⟩ := asciiUpper_of_hexDigitValue readLow
      have value : (16 * high + low).toUInt8.toNat = 16 * high + low :=
        UInt8.toNat_ofNat_of_lt (by unfold UInt8.size; omega)
      simp only [List.map_cons, hexUpper, List.flatMap_cons, value, upperHigh, upperLow,
        List.cons_append, List.nil_append, List.cons.injEq, true_and]
      refine ⟨congrArg _ (by omega), congrArg _ (by omega), ?_⟩
      exact (unhexPairs_eq_some_iff restEven).mp readRest
    · intro written
      cases bytes with
      | nil => simp [hexUpper] at written
      | cons byte later =>
        simp only [List.map_cons, hexUpper, List.flatMap_cons, List.cons_append,
          List.nil_append, List.cons.injEq] at written
        obtain ⟨upperHigh, upperLow, upperRest⟩ := written
        have digits := byte.toNat_lt_size
        unfold UInt8.size at digits
        have high := hexDigitValue_of_asciiUpper (by omega) upperHigh
        have low := hexDigitValue_of_asciiUpper (Nat.mod_lt _ (by decide)) upperLow
        have rest := (unhexPairs_eq_some_iff restEven).mpr upperRest
        simp only [unhexPairs, high, low, rest, Option.bind_eq_bind, Option.some_bind,
          Option.pure_def, Option.some.injEq, List.cons.injEq, and_true]
        exact UInt8.toNat.inj (by
          rw [UInt8.toNat_ofNat_of_lt (by unfold UInt8.size; omega)]
          omega)

theorem isAsciiSpace_upperHexDigit {n : Nat} (digit : n < 16) :
    isAsciiSpace (upperHexDigit n) = false := by
  have code := toNat_upperHexDigit digit
  have high : 48 ≤ (upperHexDigit n).toNat := by split_ifs at code <;> omega
  unfold isAsciiSpace
  simp only [Bool.or_eq_false_iff, decide_eq_false_iff_not, Bool.and_eq_false_imp,
    decide_eq_true_eq]
  exact ⟨fun same => by rw [same] at high; exact absurd high (by decide),
    fun _ above => absurd (Nat.le_trans high above) (by decide)⟩

theorem asciiUpper_upperHexDigit {n : Nat} (digit : n < 16) :
    asciiUpper (upperHexDigit n) = upperHexDigit n := by
  have code := toNat_upperHexDigit digit
  unfold asciiUpper
  rw [if_neg (by split_ifs at code <;> omega)]

theorem mem_hexUpper {bytes : List UInt8} {digit : UInt8} (member : digit ∈ hexUpper bytes) :
    ∃ n < 16, digit = upperHexDigit n := by
  obtain ⟨byte, -, pair⟩ := List.mem_flatMap.mp member
  rcases List.mem_pair.mp pair with rfl | rfl
  · exact ⟨_, Nat.div_lt_of_lt_mul (by have := byte.toNat_lt_size; unfold UInt8.size at this; omega), rfl⟩
  · exact ⟨_, Nat.mod_lt _ (by decide), rfl⟩

/-- `unhexlify` accepts exactly the texts that are, up to the case of their letters, the upper-case
hexadecimal of some bytes, and gives those bytes. -/
theorem unhexlify_eq_ok_iff {data bytes : List UInt8} :
    unhexlify data = .ok bytes ↔ data.map asciiUpper = hexUpper bytes := by
  unfold unhexlify
  by_cases odd : data.length % 2 = 1
  · rw [if_pos odd]
    refine iff_of_false nofun fun written => ?_
    have lengths := congrArg List.length written
    rw [List.length_map, length_hexUpper] at lengths
    omega
  · rw [if_neg odd]
    have even : data.length % 2 = 0 := by omega
    rw [← unhexPairs_eq_some_iff even]
    cases unhexPairs data <;> simp

/-! ### `int()` of the decimal text of a number -/

/-- `str(n)` puts its digits in front of what the recursion has written so far. -/
theorem toDigitsCore_succ (fuel n : Nat) (written : List Char) :
    Nat.toDigitsCore 10 (fuel + 1) n written =
      if n / 10 = 0 then Nat.digitChar (n % 10) :: written
      else Nat.toDigitsCore 10 fuel (n / 10) (Nat.digitChar (n % 10) :: written) := rfl

theorem toDigitsCore_append (fuel n : Nat) (written : List Char) :
    Nat.toDigitsCore 10 fuel n written = Nat.toDigitsCore 10 fuel n [] ++ written := by
  induction fuel generalizing n written with
  | zero => rfl
  | succ fuel inductionHypothesis =>
    rw [toDigitsCore_succ, toDigitsCore_succ]
    split
    · rfl
    · rw [inductionHypothesis, inductionHypothesis _ [_], List.append_assoc, List.singleton_append]

/-- `str(n)` has a digit. -/
theorem toDigitsCore_ne_nil (n : Nat) : Nat.toDigitsCore 10 (n + 1) n [] ≠ [] := by
  rw [toDigitsCore_succ]
  split
  · exact List.cons_ne_nil _ _
  · rw [toDigitsCore_append]
    exact List.append_ne_nil_of_right_ne_nil _ (List.cons_ne_nil _ _)

/-- The byte of a decimal digit. -/
theorem digitChar_byte {d : Nat} (digit : d < 10) :
    isDigit (Nat.digitChar d).toNat.toUInt8 = true ∧
      isAsciiSpace (Nat.digitChar d).toNat.toUInt8 = false ∧
      (Nat.digitChar d).toNat.toUInt8.toNat = 48 + d := by
  obtain rfl | rfl | rfl | rfl | rfl | rfl | rfl | rfl | rfl | rfl :
    d = 0 ∨ d = 1 ∨ d = 2 ∨ d = 3 ∨ d = 4 ∨ d = 5 ∨ d = 6 ∨ d = 7 ∨ d = 8 ∨ d = 9 := by omega
  all_goals decide

/-- Every byte of `str(n)` is a digit. -/
theorem isDigit_toDigitsCore (fuel n : Nat) :
    ∀ byte ∈ (Nat.toDigitsCore 10 fuel n []).map (fun c => c.toNat.toUInt8),
      isDigit byte = true ∧ isAsciiSpace byte = false := by
  induction fuel generalizing n with
  | zero => nofun
  | succ fuel inductionHypothesis =>
    have last := digitChar_byte (Nat.mod_lt n (show 10 > 0 by decide))
    rw [toDigitsCore_succ]
    split
    · simpa using last.imp_right And.left
    · rw [toDigitsCore_append, List.map_append]
      intro byte member
      rcases List.mem_append.mp member with earlier | written
      · exact inductionHypothesis _ byte earlier
      · simp only [List.map_cons, List.map_nil, List.mem_singleton] at written
        exact written ▸ ⟨last.1, last.2.1⟩

/-- The digits of `str(n)` denote `n`, given enough fuel. -/
theorem decimalValue_toDigitsCore :
    ∀ {fuel n : Nat}, n < fuel →
      decimalValue ((Nat.toDigitsCore 10 fuel n []).map fun c => c.toNat.toUInt8) = n
  | 0, _, bound => absurd bound (Nat.not_lt_zero _)
  | fuel + 1, n, bound => by
    have last := (digitChar_byte (Nat.mod_lt n (show 10 > 0 by decide))).2.2
    rw [toDigitsCore_succ]
    split
    · next small =>
      simp only [decimalValue, List.map_cons, List.map_nil, List.foldl_cons, List.foldl_nil, last]
      omega
    · next large =>
      have earlier := @decimalValue_toDigitsCore fuel (n / 10) (by omega)
      rw [toDigitsCore_append, List.map_append]
      unfold decimalValue at earlier ⊢
      rw [List.foldl_append, earlier]
      simp only [List.map_cons, List.map_nil, List.foldl_cons, List.foldl_nil, last]
      omega

/-- `str(n)` reads back as `n`. -/
theorem decimalValue_toString (n : Nat) : decimalValue (ascii (toString n)) = n :=
  decimalValue_toDigitsCore (Nat.lt_succ_self n)

theorem splitSign_of_isDigit {byte : UInt8} (digit : isDigit byte = true) (rest : List UInt8) :
    splitSign (byte :: rest) = (false, byte :: rest) := by
  unfold splitSign
  split
  · next plus => cases plus; cases digit
  · next minus => cases minus; cases digit
  · rfl

theorem scanDecimal_digits :
    ∀ {digits : List UInt8}, (∀ byte ∈ digits, isDigit byte = true) →
      scanDecimal digits = some (digits, [])
  | [], _ => rfl
  | byte :: rest, digits => by
    simp only [scanDecimal, digits byte (List.mem_cons_self _ _), if_true,
      scanDecimal_digits fun other member => digits other (List.mem_cons_of_mem _ member)]
    rfl

/-- `int()` of a run of ASCII digits within the limit is the number they denote. -/
theorem pyIntOfBytes_digits {digits : List UInt8} (nonempty : digits ≠ [])
    (allDigits : ∀ byte ∈ digits, isDigit byte = true ∧ isAsciiSpace byte = false)
    (short : digits.length ≤ intMaxStrDigits) :
    pyIntOfBytes digits = .ok (decimalValue digits) := by
  obtain ⟨first, rest, rfl⟩ := List.exists_cons_of_ne_nil nonempty
  have leading := allDigits first (List.mem_cons_self _ _)
  have front : (first :: rest).dropWhile isAsciiSpace = first :: rest := by
    rw [List.dropWhile_cons, if_neg (by simp [leading.2])]
  have notUnderscore : (first :: rest).head? ≠ some 0x5f := fun same => by
    cases same
    cases leading.1
  simp only [pyIntOfBytes, front, splitSign_of_isDigit leading.1,
    scanDecimal_digits fun byte member => (allDigits byte member).1, if_neg notUnderscore,
    if_neg (Nat.not_lt.mpr short)]
  rfl

end Avbroot

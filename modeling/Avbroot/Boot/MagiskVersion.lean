/-
Module: Avbroot.Boot.MagiskVersion
Purpose: `MagiskRootPatch.__init__` and `_get_version` of `boot.py`: the version is `int()` of what
  follows `MAGISK_VER_CODE=` on the first line of `assets/util_functions.sh` that starts with it,
  stripped; the random seed defaults to a fixed value. The main result is the round trip: a script
  whose first such line is `MAGISK_VER_CODE=<n>` gives the version `n`, whatever follows it.
Trusted boundary: the APK is reduced to the bytes of `assets/util_functions.sh`, or none when the
  archive has no such member (`zipfile` then raises `KeyError`); iterating the member opened `'r'`
  gives the lines of `binaryLines`.
Main exports: utilFunctionsMissing, versionPrefix, getVersion, MagiskRootPatchInit,
  magiskRootPatchInit, getVersion_versionLine
-/
import Avbroot.Python.Bytes

namespace Avbroot

/-- What `z.open('assets/util_functions.sh', 'r')` raises when the archive lacks the member. -/
def utilFunctionsMissing : PyException :=
  .other "KeyError" "There is no item named 'assets/util_functions.sh' in the archive"

/-- `b'MAGISK_VER_CODE='`, sixteen bytes. -/
def versionPrefix : List UInt8 :=
  ascii "MAGISK_VER_CODE="

/-- `MagiskRootPatch._get_version()` for the APK at `magiskApk`, whose
`assets/util_functions.sh` is `utilFunctions`. -/
def getVersion (magiskApk : String) (utilFunctions : Option (List UInt8)) :
    Except PyException Int :=
  match utilFunctions with
  | none => .error utilFunctionsMissing
  | some script =>
    match (binaryLines script).find? fun line => versionPrefix.isPrefixOf line with
    | some line => pyIntOfBytes (bytesStrip (line.drop 16))
    | none =>
      .error (.other "Exception" ("Failed to determine Magisk version from: " ++ magiskApk))

/-- The fields `MagiskRootPatch.__init__` sets. -/
structure MagiskRootPatchInit where
  magiskApk : String
  version : Int
  preinitDevice : Option String
  randomSeed : Nat

/-- The seed `__init__` uses when none is given, for byte-for-byte reproducible output. -/
def defaultRandomSeed : Nat :=
  0xfedcba9876543210

/-- `MagiskRootPatch(magisk_apk, preinit_device, random_seed)`. -/
def magiskRootPatchInit (magiskApk : String) (utilFunctions : Option (List UInt8))
    (preinitDevice : Option String) (randomSeed : Option Nat) :
    Except PyException MagiskRootPatchInit := do
  let version ← getVersion magiskApk utilFunctions
  pure ⟨magiskApk, version, preinitDevice, randomSeed.getD defaultRandomSeed⟩

/-! ### The round trip -/

theorem versionPrefix_isPrefixOf (rest : List UInt8) :
    versionPrefix.isPrefixOf (versionPrefix ++ rest) = true :=
  List.isPrefixOf_iff_prefix.mpr (List.prefix_append _ _)

/-- The line that declares the version `n`, without its newline. -/
theorem versionLine_one_line (n : Nat) : 0x0a ∉ versionPrefix ++ ascii (toString n) := by
  rw [List.mem_append, not_or]
  refine ⟨by decide, fun member => ?_⟩
  have digit := (isDigit_toDigitsCore _ n _ member).1
  cases digit

/-- A script whose first line starting with `MAGISK_VER_CODE=` is `MAGISK_VER_CODE=<n>`, after
whole lines, gives the version `n`, whether that line ends the file or `\n` and anything at all
follow it. -/
theorem getVersion_versionLine (magiskApk : String) {before : List UInt8} (n : Nat)
    (wholeLines : before = [] ∨ before.getLast? = some 0x0a)
    (noEarlier : ∀ line ∈ binaryLines before, versionPrefix.isPrefixOf line = false)
    (short : (toString n).length ≤ intMaxStrDigits) {rest : List UInt8}
    (lineEnds : rest = [] ∨ rest.head? = some 0x0a) :
    getVersion magiskApk (some (before ++ versionPrefix ++ ascii (toString n) ++ rest)) = .ok n := by
  rw [List.append_assoc before versionPrefix]
  obtain ⟨ending, later, ended, lines⟩ := binaryLines_append_line wholeLines
    (versionLine_one_line n) (List.append_ne_nil_of_left_ne_nil (by decide) _) lineEnds
  have blank : ∀ byte ∈ ending, isAsciiSpace byte = true := by
    rcases ended with rfl | rfl <;> decide
  have found : (binaryLines before ++ (versionPrefix ++ ascii (toString n) ++ ending) ::
      later).find? (fun line => versionPrefix.isPrefixOf line) =
        some (versionPrefix ++ ascii (toString n) ++ ending) := by
    rw [List.find?_append,
      List.find?_eq_none.mpr fun line member => by simp [noEarlier line member], Option.none_or,
      List.find?_cons_of_pos _ (by rw [List.append_assoc]; exact versionPrefix_isPrefixOf _)]
  have digits := isDigit_toDigitsCore (n + 1) n
  have stripped : bytesStrip ((versionPrefix ++ ascii (toString n) ++ ending).drop 16) =
      ascii (toString n) := by
    rw [List.append_assoc, List.drop_left' (show versionPrefix.length = 16 from rfl)]
    exact @bytesStrip_pad_of_forall [] _ _ nofun blank fun byte member => (digits byte member).2
  have nonempty : ascii (toString n) ≠ [] := fun empty =>
    toDigitsCore_ne_nil n (List.map_eq_nil_iff.mp empty)
  simp only [getVersion, lines, found, stripped]
  rw [pyIntOfBytes_digits nonempty digits (by simpa [ascii] using short), decimalValue_toString]

/-- Magisk v27.0's script: a shell line before the version line, and a line after it that also
starts with `MAGISK_VER`; and the same script cut after the version's digits. -/
theorem getVersion_magisk27 :
    getVersion "Magisk-v27.0.apk" (some (ascii "#!/system/bin/sh\n" ++ versionPrefix ++
      ascii (toString 27000) ++ 0x0a :: ascii "MAGISK_VER_CODE=1\n")) = .ok 27000 ∧
    getVersion "Magisk-v27.0.apk" (some (ascii "#!/system/bin/sh\n" ++ versionPrefix ++
      ascii (toString 27000) ++ [])) = .ok 27000 :=
  ⟨getVersion_versionLine "Magisk-v27.0.apk" 27000 (.inr (by decide)) (by decide) (by decide)
      (.inr rfl),
    getVersion_versionLine "Magisk-v27.0.apk" 27000 (.inr (by decide)) (by decide) (by decide)
      (.inl rfl)⟩

end Avbroot

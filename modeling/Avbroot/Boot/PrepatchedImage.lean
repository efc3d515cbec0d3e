/-
Module: Avbroot.Boot.PrepatchedImage
Purpose: `PrepatchedImage.patch` of `boot.py`. It compares a prepatched boot image with the original
  header field by header field, section by section, by ramdisk count and by kernel module interface
  version, and files what differs under three levels. The issues below `fatal_level` go to
  `warning_fn`, those at or above it make it raise `ValueError`, and otherwise the prepatched image
  replaces the original. `_get_kmi_version` decompresses the kernel, keeps the raw bytes when that
  raises `ValueError`, and searches them for `VERSION_REGEX`.
Trusted boundary: a boot image is represented by what `patch` reads of it: `to_dict()`, the five
  optional sections and the ramdisks. `compression.CompressedFile` with `f.fp.read()` is a
  parameter (`CompressedReader`) held to the format library's contract: a stream that starts with
  no magic it knows raises `ValueError` (`UnsupportedFormat`). The iteration order of the Python
  sets of header keys is a parameter (`KeyOrder`), constrained only to be a permutation.
  `warning_fn` is represented by the texts it is called with, and `str()` of a header value by
  `toString`.
Main exports: CompressedReader, HeaderDict, BootImage, Issue, versionSearch,
  getKmiVersion, detectedIssues, issueLists, levelTexts, prepatchedPatch, byLevel, byLevel_perm,
  prepatchedPatch_of_detectedIssues, detectedIssues_eq_ok_of_kernels
-/
import Avbroot.Python.Bytes

namespace Avbroot

/-- `compression.CompressedFile(f_raw, 'rb')` then `f.fp.read()` on a stream: the decompressed
bytes or what they raise, with the magic numbers of the formats it detects. -/
structure CompressedReader where
  magics : List (List UInt8)
  read : List UInt8 → Except PyException (List UInt8)
  magics_nonempty : ∀ magic ∈ magics, magic ≠ []
  unknown_raises : ∀ data, (∀ magic ∈ magics, ¬ magic <+: data) →
    ∃ message, read data = .error (.valueError message)

/-- An empty stream has no magic: reading it raises `ValueError`. -/
theorem CompressedReader.read_nil (reader : CompressedReader) :
    ∃ message, reader.read [] = .error (.valueError message) :=
  reader.unknown_raises [] fun magic member prefixed =>
    reader.magics_nonempty magic member (List.prefix_nil.mp prefixed)

/-- `boot_image.to_dict()`: header fields by name, each name once, in the dictionary's order. -/
structure HeaderDict (V : Type) where
  entries : List (String × V)
  distinct : (entries.map Prod.fst).Nodup

namespace HeaderDict

variable {V : Type}

/-- `header.keys()`. -/
def keys (header : HeaderDict V) : List String :=
  header.entries.map Prod.fst

/-- `header[k]`. -/
def get (header : HeaderDict V) (k : String) : Option V :=
  header.entries.lookup k

end HeaderDict

/-- The parts of a loaded boot image that `patch` and `_get_kmi_version` read. -/
structure BootImage (V : Type) where
  header : HeaderDict V
  kernel : Option (List UInt8)
  second : Option (List UInt8)
  recoveryDtbo : Option (List UInt8)
  dtb : Option (List UInt8)
  bootconfig : Option (List UInt8)
  ramdisks : List (List UInt8)

/-- The iteration order of a Python set of header keys: some permutation of them. -/
structure KeyOrder where
  enumerate : List String → List String
  perm : ∀ keys, (enumerate keys).Perm keys

/-- `issues[level].append(text)`: a compatibility issue of level 0, 1 or 2. -/
structure Issue where
  level : Fin 3
  text : String
deriving DecidableEq, Repr

/-! ### `VERSION_REGEX` -/

/-- The ways `\d+` matches at the front of `data`, in the order the backtracking engine tries
them: every digit of the leading run first, then one fewer, down to one. Each way is the digits
taken and the bytes after them. -/
def digitRuns (data : List UInt8) : List (List UInt8 × List UInt8) :=
  (List.range (data.takeWhile isDigit).length).reverse.map fun k =>
    ((data.takeWhile isDigit).take (k + 1), data.drop (k + 1))

/-- A literal of the pattern at the front of `data`: the bytes after it. -/
def stripBytes (literal data : List UInt8) : Option (List UInt8) :=
  if literal <+: data then some (data.drop literal.length) else none

/-- `.` without `DOTALL`: one byte other than a newline. -/
def anyByte : List UInt8 → Option (List UInt8)
  | [] => none
  | byte :: rest => if byte = 0x0a then none else some rest

/-- `VERSION_REGEX.match(data)`, for `b'Linux version (\d+\.\d+).\d+-(android\d+)-(\d+)-'`: the
three groups of the first way the backtracking engine finds, each repetition tried longest
first. -/
def versionMatch (data : List UInt8) : Option (List UInt8 × List UInt8 × List UInt8) := do
  let afterPrefix ← stripBytes (ascii "Linux version ") data
  (digitRuns afterPrefix).findSome? fun (major, afterMajor) => do
    let afterDot ← stripBytes (ascii ".") afterMajor
    (digitRuns afterDot).findSome? fun (minor, afterMinor) => do
      let afterAny ← anyByte afterMinor
      (digitRuns afterAny).findSome? fun (_, afterPatch) => do
        let afterAndroid ← stripBytes (ascii "-android") afterPatch
        (digitRuns afterAndroid).findSome? fun (android, afterAndroidDigits) => do
          let afterDash ← stripBytes (ascii "-") afterAndroidDigits
          (digitRuns afterDash).findSome? fun (build, afterBuild) => do
            let _ ← stripBytes (ascii "-") afterBuild
            pure (major ++ ascii "." ++ minor, ascii "android" ++ android, build)

/-- `VERSION_REGEX.search(data)`: the match at the first position where there is one. -/
def versionSearch : List UInt8 → Option (List UInt8 × List UInt8 × List UInt8)
  | [] => versionMatch []
  | byte :: rest => (versionMatch (byte :: rest)).orElse fun _ => versionSearch rest

example : versionSearch (ascii "Linux version 5.10.43-android12-9-g1") =
    some (ascii "5.10", ascii "android12", ascii "9") := by
  decide

/-- The backtracking `re` does: `\d+\.\d+` first takes `5.123`, fails at `-`, and gives back
digits until `.\d+-` matches `23-`. -/
example : versionSearch (ascii "xxLinux version 5.123-android12-9-") =
    some (ascii "5.1", ascii "android12", ascii "9") := by
  decide

/-- `.` does not match a newline. -/
example : versionSearch (ascii "Linux version 5.10\n43-android12-9-") = none := by
  decide

/-! ### `_get_kmi_version` -/

/-- The `TypeError` of `re` searching `None`. -/
def noneSearchMessage : String :=
  "expected string or bytes-like object, got 'NoneType'"

section Kmi

variable {V : Type} (reader : CompressedReader)

/-- `decompressed` in `_get_kmi_version`: the read bytes, or `boot_image.kernel` itself when the
read raises `ValueError`. `io.BytesIO(None)` is an empty stream. -/
def decompressedKernel (kernel : Option (List UInt8)) : Except PyException (Option (List UInt8)) :=
  match reader.read (kernel.getD []) with
  | .ok data => .ok (some data)
  | .error (.valueError _) => .ok kernel
  | .error e => .error e

/-- `PrepatchedImage._get_kmi_version(boot_image)`: `b'-'.join(m.groups()).decode('ascii')` for
the first match in the decompressed kernel, or `None`. -/
def getKmiVersion (image : BootImage V) : Except PyException (Option String) := do
  match ← decompressedKernel reader image.kernel with
  | none => throw (.typeError noneSearchMessage)
  | some data =>
    match versionSearch data with
    | none => pure none
    | some (release, android, build) =>
      match decodeAscii (release ++ ascii "-" ++ android ++ ascii "-" ++ build) with
      | .ok kmi => pure (some kmi)
      | .error message => throw (.valueError message)

end Kmi

/-! ### What `_get_kmi_version` raises -/

theorem isDigit_lt {byte : UInt8} (digit : isDigit byte = true) : byte.toNat < 128 := by
  simp only [isDigit, Bool.and_eq_true, decide_eq_true_eq] at digit
  have small : byte.toNat ≤ 57 := digit.2
  omega

theorem isDigit_of_mem_digitRuns {data run rest : List UInt8}
    (member : (run, rest) ∈ digitRuns data) :
    ∀ byte ∈ run, isDigit byte = true := by
  obtain ⟨k, -, taken⟩ := List.mem_map.mp member
  cases taken
  exact fun byte inRun => List.mem_takeWhile_imp (List.mem_of_mem_take inRun)

/-- The groups of a match: digits, and the literals the pattern puts around them. -/
theorem versionMatch_groups {data : List UInt8} {groups : List UInt8 × List UInt8 × List UInt8}
    (found : versionMatch data = some groups) :
    ∃ major minor android build, (∀ byte ∈ major ++ minor ++ android ++ build, isDigit byte) ∧
      groups = (major ++ ascii "." ++ minor, ascii "android" ++ android, build) := by
  unfold versionMatch at found
  obtain ⟨_, -, found⟩ := Option.bind_eq_some.mp found
  obtain ⟨⟨major, _⟩, majorRun, found⟩ := List.exists_of_findSome?_eq_some found
  obtain ⟨_, -, found⟩ := Option.bind_eq_some.mp found
  obtain ⟨⟨minor, _⟩, minorRun, found⟩ := List.exists_of_findSome?_eq_some found
  obtain ⟨_, -, found⟩ := Option.bind_eq_some.mp found
  obtain ⟨_, -, found⟩ := List.exists_of_findSome?_eq_some found
  obtain ⟨_, -, found⟩ := Option.bind_eq_some.mp found
  obtain ⟨⟨android, _⟩, androidRun, found⟩ := List.exists_of_findSome?_eq_some found
  obtain ⟨_, -, found⟩ := Option.bind_eq_some.mp found
  obtain ⟨⟨build, _⟩, buildRun, found⟩ := List.exists_of_findSome?_eq_some found
  obtain ⟨_, -, found⟩ := Option.bind_eq_some.mp found
  refine ⟨major, minor, android, build, fun byte member => ?_, (Option.some.inj found).symm⟩
  simp only [List.mem_append] at member
  rcases member with ((inMajor | inMinor) | inAndroid) | inBuild
  · exact isDigit_of_mem_digitRuns majorRun byte inMajor
  · exact isDigit_of_mem_digitRuns minorRun byte inMinor
  · exact isDigit_of_mem_digitRuns androidRun byte inAndroid
  · exact isDigit_of_mem_digitRuns buildRun byte inBuild

theorem versionSearch_groups :
    ∀ {data : List UInt8} {groups : List UInt8 × List UInt8 × List UInt8},
      versionSearch data = some groups →
      ∃ major minor android build, (∀ byte ∈ major ++ minor ++ android ++ build, isDigit byte) ∧
        groups = (major ++ ascii "." ++ minor, ascii "android" ++ android, build)
  | [], _, found => versionMatch_groups found
  | byte :: rest, _, found => by
    rw [versionSearch] at found
    cases here : versionMatch (byte :: rest) <;> rw [here] at found
    · exact versionSearch_groups found
    · exact versionMatch_groups (here.trans found)

/-- The joined groups are ASCII, so `decode('ascii')` cannot fail on them. -/
theorem isAsciiBytes_joinedGroups {major minor android build : List UInt8}
    (digits : ∀ byte ∈ major ++ minor ++ android ++ build, isDigit byte) :
    IsAsciiBytes (major ++ ascii "." ++ minor ++ ascii "-" ++ (ascii "android" ++ android) ++
      ascii "-" ++ build) := by
  intro byte member
  simp only [List.mem_append] at member digits
  rcases member with (((((inMajor | dot) | inMinor) | dash) | literal | inAndroid) | dash') |
    inBuild
  · exact isDigit_lt (digits byte (.inl (.inl (.inl inMajor))))
  · exact @isAsciiBytes_ascii "." (by decide) byte dot
  · exact isDigit_lt (digits byte (.inl (.inl (.inr inMinor))))
  · exact @isAsciiBytes_ascii "-" (by decide) byte dash
  · exact @isAsciiBytes_ascii "android" (by decide) byte literal
  · exact isDigit_lt (digits byte (.inl (.inr inAndroid)))
  · exact @isAsciiBytes_ascii "-" (by decide) byte dash'
  · exact isDigit_lt (digits byte (.inr inBuild))

section KmiRaises

variable {V : Type} (reader : CompressedReader)

/-- Without a kernel, the empty stream raises `ValueError` and `decompressed` is `None`: the search
raises `TypeError`. -/
theorem getKmiVersion_of_kernel_none {image : BootImage V} (absent : image.kernel = none) :
    getKmiVersion reader image = .error (.typeError noneSearchMessage) := by
  obtain ⟨message, raises⟩ := reader.read_nil
  have decompressed : decompressedKernel reader image.kernel = .ok none := by
    rw [decompressedKernel, absent, Option.getD_none, raises]
  rw [getKmiVersion, decompressed]
  rfl

/-- With a kernel whose read raises at most `ValueError`, the version is computed. -/
theorem getKmiVersion_of_kernel {image : BootImage V} {kernel : List UInt8}
    (present : image.kernel = some kernel)
    (readable : ∀ e, reader.read kernel = .error e → e.isValueError = true) :
    ∃ kmi, getKmiVersion reader image = .ok kmi := by
  obtain ⟨data, decompressed⟩ :
      ∃ data, decompressedKernel reader image.kernel = .ok (some data) := by
    rw [decompressedKernel, present, Option.getD_some]
    cases read : reader.read kernel with
    | ok data => exact ⟨data, rfl⟩
    | error e =>
      cases e with
      | valueError => exact ⟨kernel, rfl⟩
      | _ => cases readable _ read
  rw [getKmiVersion, decompressed]
  simp only [bind, Except.bind]
  cases found : versionSearch data with
  | none => exact ⟨none, by simp only [found]; rfl⟩
  | some groups =>
    obtain ⟨major, minor, android, build, digits, rfl⟩ := versionSearch_groups found
    obtain ⟨kmi, decoded⟩ := decodeAscii_isAsciiBytes (isAsciiBytes_joinedGroups digits)
    exact ⟨some kmi, by simp only [found, decoded]; rfl⟩

end KmiRaises

/-! ### The issues -/

section Issues

variable {V : Type} [DecidableEq V] [ToString V]

/-- The level of a header field whose value changed. -/
def changedFieldLevel (k : String) : Fin 3 :=
  if k = "id" ∨ k = "os_version" then 0
  else if k = "cmdline" ∨ k = "extra_cmdline" then 1
  else 2

/-- The issue of a header field present in both images, if its value changed. -/
def changedFieldIssue (k : String) : Option V → Option V → Option Issue
  | some oldValue, some newValue =>
    if oldValue ≠ newValue then
      some ⟨changedFieldLevel k, k ++ " header field was changed: " ++ toString oldValue ++
        " -> " ++ toString newValue⟩
    else none
  | _, _ => none

/-- The three loops over `new_header.keys() - old_header.keys()`, `old_header.keys() -
new_header.keys()` and `old_header.keys() & new_header.keys()`. -/
def headerIssues (order : KeyOrder) (oldHeader newHeader : HeaderDict V) : List Issue :=
  (order.enumerate (newHeader.keys.filter (· ∉ oldHeader.keys))).map
      (fun k => ⟨2, k ++ " header field was added"⟩) ++
    (order.enumerate (oldHeader.keys.filter (· ∉ newHeader.keys))).map
      (fun k => ⟨2, k ++ " header field was removed"⟩) ++
    (order.enumerate (oldHeader.keys.filter (· ∈ newHeader.keys))).filterMap fun k =>
      changedFieldIssue k (oldHeader.get k) (newHeader.get k)

/-- `getattr(image, attr)` for `'kernel', 'second', 'recovery_dtbo', 'dtb', 'bootconfig'`. -/
def BootImage.sections (image : BootImage V) : List (String × Option (List UInt8)) :=
  [("kernel", image.kernel), ("second", image.second), ("recovery_dtbo", image.recoveryDtbo),
    ("dtb", image.dtb), ("bootconfig", image.bootconfig)]

/-- The issue of an optional section that one image has and the other lacks. -/
def sectionIssue (attr : String) :
    Option (List UInt8) → Option (List UInt8) → Option Issue
  | none, some _ => some ⟨1, attr ++ " section was added"⟩
  | some _, none => some ⟨2, attr ++ " section was removed"⟩
  | _, _ => none

def sectionIssues (original prepatched : BootImage V) : List Issue :=
  (original.sections.zip prepatched.sections).filterMap fun ((attr, originalVal), (_, prepatchedVal)) =>
    sectionIssue attr originalVal prepatchedVal

def ramdiskIssues (original prepatched : BootImage V) : List Issue :=
  if prepatched.ramdisks.length < original.ramdisks.length then
    [⟨2, "Number of ramdisk sections decreased: " ++ toString original.ramdisks.length ++ " -> " ++
      toString prepatched.ramdisks.length⟩]
  else []

/-- `f'{kmi}'` for a version or `None`. -/
def kmiText : Option String → String
  | none => "None"
  | some kmi => kmi

/-- The interface check, made when the original has a kernel. -/
def kmiIssues (reader : CompressedReader) (original prepatched : BootImage V) :
    Except PyException (List Issue) :=
  match original.kernel with
  | none => .ok []
  | some _ => do
    let oldKmi ← getKmiVersion reader original
    let newKmi ← getKmiVersion reader prepatched
    pure (if oldKmi ≠ newKmi then
      [⟨2, "Kernel module interface version changed: " ++ kmiText oldKmi ++ " -> " ++
        kmiText newKmi⟩]
    else [])

/-- Every issue `patch` files, in the order it files them, or what it raises on the way. -/
def detectedIssues (reader : CompressedReader) (order : KeyOrder)
    (original prepatched : BootImage V) : Except PyException (List Issue) := do
  let kmi ← kmiIssues reader original prepatched
  pure (headerIssues order original.header prepatched.header ++
    sectionIssues original prepatched ++ ramdiskIssues original prepatched ++ kmi)

end Issues

/-! ### Warnings and errors -/

/-- `issues[level]` once every issue is filed: the texts of that level, in filing order. -/
def textsAt (issues : List Issue) (level : Int) : List String :=
  (issues.filter fun issue => (issue.level : Int) = level).map (·.text)

/-- `issues`, the list of the three lists. -/
def issueLists (issues : List Issue) : List (List String) :=
  [textsAt issues 0, textsAt issues 1, textsAt issues 2]

/-- `[e for i in range(start, stop) for e in issues[i]]`. -/
def levelTexts (lists : List (List String)) (start stop : Int) :
    Except PyException (List String) := do
  let chosen ← (pyRange start stop).mapM (pyGetItem lists)
  pure chosen.flatten

/-- `PrepatchedImage.MIN_LEVEL`. -/
def minLevel : Int := 0

/-- `PrepatchedImage.MAX_LEVEL`. -/
def maxLevel : Int := 2

/-- `'\n'.join(f'- {e}' for e in texts)`. -/
def bulletList (texts : List String) : String :=
  "\n".intercalate (texts.map ("- " ++ ·))

def warningMessage (warnings : List String) : String :=
  "The prepatched boot image may not be compatible with the original:\n" ++ bulletList warnings

def errorMessage (errors : List String) : String :=
  "The prepatched boot image is not compatible with the original:\n" ++ bulletList errors

section Patch

variable {V : Type} [DecidableEq V] [ToString V]

/-- `PrepatchedImage(prepatched, fatal_level, warning_fn).patch(image_file, boot_image)`, the
prepatched image already loaded: the texts it passes to `warning_fn`, and the image it returns or
what it raises. -/
def prepatchedPatch (reader : CompressedReader) (order : KeyOrder) (fatalLevel : Int)
    (original prepatched : BootImage V) : List String × Except PyException (BootImage V) :=
  let split : Except PyException (List String × List String) := do
    let issues ← detectedIssues reader order original prepatched
    let warnings ← levelTexts (issueLists issues) minLevel (min (maxLevel + 1) fatalLevel)
    let errors ← levelTexts (issueLists issues) (max minLevel fatalLevel) (maxLevel + 1)
    pure (warnings, errors)
  match split with
  | .error e => ([], .error e)
  | .ok (warnings, errors) =>
    (if warnings.isEmpty then [] else [warningMessage warnings],
      if errors.isEmpty then .ok prepatched else .error (.valueError (errorMessage errors)))

end Patch

/-! ### The split by level -/

/-- The texts level by level, `issues[0] + issues[1] + issues[2]`. -/
def byLevel (issues : List Issue) : List String :=
  textsAt issues 0 ++ textsAt issues 1 ++ textsAt issues 2

theorem textsAt_cons (issue : Issue) (rest : List Issue) (level : Int) :
    textsAt (issue :: rest) level =
      if (issue.level : Int) = level then issue.text :: textsAt rest level
      else textsAt rest level := by
  unfold textsAt
  by_cases same : (issue.level : Int) = level <;> simp [List.filter_cons, same]

/-- Grouping by level only reorders the texts. -/
theorem byLevel_perm : ∀ issues : List Issue, (byLevel issues).Perm (issues.map (·.text))
  | [] => .nil
  | ⟨level, text⟩ :: rest => by
    have grouped := (byLevel_perm rest).cons text
    unfold byLevel at grouped ⊢
    rw [textsAt_cons, textsAt_cons, textsAt_cons, List.map_cons]
    match level with
    | 0 => exact grouped
    | 1 => exact (List.perm_middle.append_right _).trans grouped
    | 2 => exact List.perm_middle.trans grouped

theorem textsAt_filter (issues : List Issue) (chosen : Int → Bool) (level : Int) :
    textsAt (issues.filter fun issue => chosen issue.level) level =
      if chosen level then textsAt issues level else [] := by
  unfold textsAt
  rw [List.filter_filter]
  split
  · congr 1
    refine List.filter_congr fun issue _ => ?_
    by_cases same : (issue.level : Int) = level <;> simp [same, *]
  · rw [List.filter_eq_nil_iff.mpr fun issue _ => ?_, List.map_nil]
    by_cases same : (issue.level : Int) = level <;> simp [same, *]

theorem pyGetItem_issueLists (issues : List Issue) {level : Int} (inRange : 0 ≤ level ∧ level < 3) :
    pyGetItem (issueLists issues) level = .ok (textsAt issues level) := by
  obtain rfl | rfl | rfl : level = 0 ∨ level = 1 ∨ level = 2 := by omega
  all_goals rfl

theorem mapM_pyGetItem_issueLists (issues : List Issue) :
    ∀ levels : List Int, (∀ level ∈ levels, 0 ≤ level ∧ level < 3) →
      levels.mapM (pyGetItem (issueLists issues)) = .ok (levels.map (textsAt issues))
  | [], _ => rfl
  | level :: rest, inRange => by
    rw [List.mapM_cons, pyGetItem_issueLists issues (inRange level (List.mem_cons_self _ _)),
      mapM_pyGetItem_issueLists issues rest fun other later =>
        inRange other (List.mem_cons_of_mem _ later)]
    rfl

/-- Between `0` and `3`, `range(start, stop)` picks levels out of `[0, 1, 2]`. -/
theorem pyRange_eq_filter {start stop : Int} (lower : 0 ≤ start) (upper : stop ≤ 3) :
    pyRange start stop = [0, 1, 2].filter fun level => start ≤ level ∧ level < stop := by
  by_cases empty : stop ≤ start
  · rw [pyRange, show (stop - start).toNat = 0 by omega, List.range_zero, List.map_nil,
      eq_comm, List.filter_eq_nil_iff]
    intro level _ inside
    simp only [decide_eq_true_eq] at inside
    omega
  · have cases : (start = 0 ∧ stop = 1) ∨ (start = 0 ∧ stop = 2) ∨ (start = 0 ∧ stop = 3) ∨
        (start = 1 ∧ stop = 2) ∨ (start = 1 ∧ stop = 3) ∨ (start = 2 ∧ stop = 3) := by omega
    rcases cases with ⟨rfl, rfl⟩ | ⟨rfl, rfl⟩ | ⟨rfl, rfl⟩ | ⟨rfl, rfl⟩ | ⟨rfl, rfl⟩ | ⟨rfl, rfl⟩
    all_goals decide

/-- The comprehension over `range(start, stop)` gives the issues of the levels in it, level by
level. -/
theorem levelTexts_issueLists (issues : List Issue) {start stop : Int} (lower : 0 ≤ start)
    (upper : stop ≤ 3) :
    levelTexts (issueLists issues) start stop =
      .ok (byLevel (issues.filter fun issue =>
        start ≤ (issue.level : Int) ∧ (issue.level : Int) < stop)) := by
  have inRange : ∀ level ∈ pyRange start stop, 0 ≤ level ∧ level < 3 := by
    rw [pyRange_eq_filter lower upper]
    intro level member
    obtain ⟨listed, inside⟩ := List.mem_filter.mp member
    simp only [decide_eq_true_eq] at inside
    omega
  rw [levelTexts, mapM_pyGetItem_issueLists issues _ inRange, pyRange_eq_filter lower upper]
  simp only [byLevel, textsAt_filter issues fun level => decide (start ≤ level ∧ level < stop)]
  simp only [List.filter_cons, List.filter_nil]
  split_ifs <;> simp [bind, Except.bind, pure, Except.pure]

theorem isEmpty_byLevel_filter (issues : List Issue) (chosen : Issue → Bool) :
    (byLevel (issues.filter chosen)).isEmpty = !issues.any chosen := by
  rw [Bool.eq_iff_iff, List.isEmpty_iff_length_eq_zero, (byLevel_perm _).length_eq,
    List.length_map, List.length_eq_zero, List.filter_eq_nil_iff, Bool.not_eq_true',
    List.any_eq_false]

theorem levelTexts_warnings (issues : List Issue) (fatalLevel : Int) :
    levelTexts (issueLists issues) minLevel (min (maxLevel + 1) fatalLevel) =
      .ok (byLevel (issues.filter fun issue => (issue.level : Int) < fatalLevel)) := by
  rw [levelTexts_issueLists issues (by decide) (by simp only [maxLevel]; omega)]
  congr 2
  refine List.filter_congr fun issue _ => decide_eq_decide.mpr ?_
  have := issue.level.isLt
  simp only [minLevel, maxLevel]
  omega

theorem levelTexts_errors (issues : List Issue) (fatalLevel : Int) :
    levelTexts (issueLists issues) (max minLevel fatalLevel) (maxLevel + 1) =
      .ok (byLevel (issues.filter fun issue => fatalLevel ≤ (issue.level : Int))) := by
  rw [levelTexts_issueLists issues (by simp only [minLevel]; omega) (by decide)]
  congr 2
  refine List.filter_congr fun issue _ => decide_eq_decide.mpr ?_
  have := issue.level.isLt
  simp only [minLevel, maxLevel]
  omega

section Law

variable {V : Type} [DecidableEq V] [ToString V] {reader : CompressedReader} {order : KeyOrder}
  {original prepatched : BootImage V} {issues : List Issue}

/-- Once the issues are filed, `patch` calls `warning_fn` once with those below `fatal_level`, if
there are any, and raises `ValueError` with those at or above it, if there are any; otherwise it
returns the prepatched image. Both hold for every integer `fatal_level`. -/
theorem prepatchedPatch_of_detectedIssues
    (detected : detectedIssues reader order original prepatched = .ok issues) (fatalLevel : Int) :
    prepatchedPatch reader order fatalLevel original prepatched =
      (if issues.any (fun issue => (issue.level : Int) < fatalLevel) then
          [warningMessage (byLevel (issues.filter fun issue => (issue.level : Int) < fatalLevel))]
        else [],
        if issues.any (fun issue => fatalLevel ≤ (issue.level : Int)) then
          .error (.valueError (errorMessage
            (byLevel (issues.filter fun issue => fatalLevel ≤ (issue.level : Int)))))
        else .ok prepatched) := by
  simp only [prepatchedPatch, detected, levelTexts_warnings, levelTexts_errors, bind, Except.bind,
    pure, Except.pure, isEmpty_byLevel_filter]
  cases issues.any (fun issue => (issue.level : Int) < fatalLevel) <;>
    cases issues.any (fun issue => fatalLevel ≤ (issue.level : Int)) <;> rfl

end Law

/-! ### A kernel removed, and when the law applies -/

section Kernel

variable {V : Type} [DecidableEq V] [ToString V] (reader : CompressedReader) (order : KeyOrder)
  {original prepatched : BootImage V}

/-- The issues are filed whenever the interface check raises nothing: when the original has no
kernel, and then neither kernel is read, or when both images have one whose read raises at most
`ValueError`. -/
theorem detectedIssues_eq_ok_of_kernels
    (readable : ∀ kernel, original.kernel = some kernel →
      (∀ e, reader.read kernel = .error e → e.isValueError = true) ∧
      ∃ newKernel, prepatched.kernel = some newKernel ∧
        ∀ e, reader.read newKernel = .error e → e.isValueError = true) :
    ∃ issues, detectedIssues reader order original prepatched = .ok issues := by
  cases present : original.kernel with
  | none => exact ⟨_, by simp only [detectedIssues, kmiIssues, present, bind, Except.bind]; rfl⟩
  | some kernel =>
    obtain ⟨oldReadable, newKernel, newPresent, newReadable⟩ := readable kernel present
    obtain ⟨oldKmi, oldOk⟩ := getKmiVersion_of_kernel reader present oldReadable
    obtain ⟨newKmi, newOk⟩ := getKmiVersion_of_kernel reader newPresent newReadable
    exact ⟨_, by
      simp only [detectedIssues, kmiIssues, present, oldOk, newOk, bind, Except.bind]; rfl⟩

/-- When the original has a kernel and the prepatched image has none, `_get_kmi_version` of the
prepatched image searches `None`: `patch` raises `TypeError`, before any warning, whatever the
headers, the sections, the ramdisks and `fatal_level` are. -/
theorem prepatchedPatch_kernel_removed (fatalLevel : Int) {kernel : List UInt8}
    (present : original.kernel = some kernel)
    (readable : ∀ e, reader.read kernel = .error e → e.isValueError = true)
    (removed : prepatched.kernel = none) :
    prepatchedPatch reader order fatalLevel original prepatched =
      ([], .error (.typeError noneSearchMessage)) := by
  obtain ⟨oldKmi, oldOk⟩ := getKmiVersion_of_kernel reader present readable
  have raised : detectedIssues reader order original prepatched =
      .error (.typeError noneSearchMessage) := by
    simp only [detectedIssues, kmiIssues, present, oldOk,
      getKmiVersion_of_kernel_none reader removed, bind, Except.bind]
  simp only [prepatchedPatch, raised, bind, Except.bind]

end Kernel

/-- A reader that knows the gzip magic and decompresses nothing: every stream raises `ValueError`,
so a kernel is searched raw. -/
def rawKernelReader : CompressedReader where
  magics := [[0x1f, 0x8b]]
  read _ := .error (.valueError "Unknown compression format")
  magics_nonempty := by decide
  unknown_raises _ _ := ⟨_, rfl⟩

/-- Header keys in the dictionary's order. -/
def dictKeyOrder : KeyOrder :=
  ⟨id, fun _ => List.Perm.refl _⟩

/-- A boot image of header version 4 with a raw 5.10 GKI kernel and one ramdisk. -/
def gkiImage : BootImage Nat where
  header := ⟨[("header_version", 4), ("os_version", 13)], by decide⟩
  kernel := some (ascii "Linux version 5.10.43-android12-9-g1")
  second := none
  recoveryDtbo := none
  dtb := none
  bootconfig := none
  ramdisks := [[0]]

/-- `gkiImage` without its kernel. -/
def kernelRemovedImage : BootImage Nat :=
  { gkiImage with kernel := none }

theorem gkiImage_kernel_removed :
    gkiImage.kernel = some (ascii "Linux version 5.10.43-android12-9-g1") ∧
      (∀ e, rawKernelReader.read (ascii "Linux version 5.10.43-android12-9-g1") = .error e →
        e.isValueError = true) ∧
      kernelRemovedImage.kernel = none ∧
      prepatchedPatch rawKernelReader dictKeyOrder 2 gkiImage kernelRemovedImage =
        ([], .error (.typeError noneSearchMessage)) :=
  have readable : ∀ e, rawKernelReader.read (ascii "Linux version 5.10.43-android12-9-g1") =
      .error e → e.isValueError = true := fun _ raised => by cases raised; rfl
  ⟨rfl, readable, rfl,
    prepatchedPatch_kernel_removed rawKernelReader dictKeyOrder 2 rfl readable rfl⟩

/-- The raw kernel of `gkiImage` is read without raising anything but `ValueError`, so the issues
of `gkiImage` against itself are filed. -/
theorem gkiImage_issues_filed :
    ∃ issues, detectedIssues rawKernelReader dictKeyOrder gkiImage gkiImage = .ok issues :=
  detectedIssues_eq_ok_of_kernels rawKernelReader dictKeyOrder fun kernel present =>
    ⟨fun _ raised => by cases raised; rfl, kernel, present, fun _ raised => by cases raised; rfl⟩

/-- `gkiImage` with a newer `os_version`. -/
def osUpdatedImage : BootImage Nat :=
  { gkiImage with header := ⟨[("header_version", 4), ("os_version", 14)], by decide⟩ }

/-- A changed `os_version` is a level-0 issue: below `fatal_level = 1` it is a warning, and the
prepatched image is returned. -/
theorem osUpdatedImage_warns :
    detectedIssues rawKernelReader dictKeyOrder gkiImage osUpdatedImage =
        .ok [⟨0, "os_version header field was changed: 13 -> 14"⟩] ∧
      prepatchedPatch rawKernelReader dictKeyOrder 1 gkiImage osUpdatedImage =
        ([warningMessage ["os_version header field was changed: 13 -> 14"]], .ok osUpdatedImage) :=
  have detected : detectedIssues rawKernelReader dictKeyOrder gkiImage osUpdatedImage =
      .ok [⟨0, "os_version header field was changed: 13 -> 14"⟩] := rfl
  ⟨detected, prepatchedPatch_of_detectedIssues detected 1⟩

end Avbroot

/-
Module: Avbroot.Cli.Arguments
Purpose: The command-line layer of `main.py` around the patching code: `KeyValuePairAction`, which
  collects the `--replace NAME PATH` options into a dict, `uint64_arg`, the checks `parse_args`
  makes once `argparse` has parsed the `patch` subcommand, how `patch_subcommand` picks the output
  path and the root patch and builds the `PatchContext`, and which images `extract_subcommand`
  extracts. The main result says that the replacement loop of `patch_ota_payload`, run over the
  items of the dict the options build, gives the same `image_paths`, or raises the same error, as
  the options taken one by one in the order given, repeated names included.
Trusted boundary: `argparse` itself (the option grammar, `required=True`, the mutually exclusive
  groups, `action='count'`) is not modelled: the namespace it returns is `PatchArgs`. `int()` of a
  `str` is a parameter of `uint64Arg`, and the text of a `util.Range` one of the Magisk check.
  `parser.error(message)` is an error carrying its message.
Main exports: PyDict, dictSet, PyDict.set, keyValuePairActionInit, keyValuePairAction,
  replaceArgument, uint64Arg, PatchArgs, checkPatchArgs, validateMagisk, RootPatchChoice,
  rootPatchChoice, PatchContext, patchSubcommandSetup, extractImageNames,
  replaceImagePaths_replaceArgument
-/
import Avbroot.Payload.PatchPayload
import Avbroot.Boot.MagiskPatch
import Avbroot.Boot.MagiskVersion
import Avbroot.Signing.OpensslKeys

namespace Avbroot

/-! ### `--replace` -/

/-- `d[key] = value` on the items of a dict: a key already there keeps its place and takes the new
value, a new key goes last. -/
def dictSet (key value : String) : List (String × String) → List (String × String)
  | [] => [(key, value)]
  | (k, v) :: rest => if k = key then (key, value) :: rest else (k, v) :: dictSet key value rest

theorem map_fst_dictSet (key value : String) :
    ∀ items : List (String × String), (dictSet key value items).map Prod.fst =
      if key ∈ items.map Prod.fst then items.map Prod.fst else items.map Prod.fst ++ [key]
  | [] => rfl
  | (k, v) :: rest => by
    by_cases same : k = key
    · subst same
      simp [dictSet]
    · have later := map_fst_dictSet key value rest
      simp only [dictSet, if_neg same, List.map_cons, later, List.mem_cons, Ne.symm same, false_or]
      split_ifs <;> rfl

theorem nodup_dictSet (key value : String) {items : List (String × String)}
    (distinct : (items.map Prod.fst).Nodup) : ((dictSet key value items).map Prod.fst).Nodup := by
  rw [map_fst_dictSet]
  split_ifs with present
  · exact distinct
  · rw [← List.concat_eq_append]
    exact distinct.concat present

/-- A `dict` from `str` to `str`: its items in insertion order, each key once. -/
structure PyDict where
  items : List (String × String)
  distinct : (items.map Prod.fst).Nodup

/-- `{}`. -/
def PyDict.empty : PyDict :=
  ⟨[], List.nodup_nil⟩

/-- `d[key] = value`. -/
def PyDict.set (d : PyDict) (key value : String) : PyDict :=
  ⟨dictSet key value d.items, nodup_dictSet key value d.distinct⟩

/-- `KeyValuePairAction.__init__`: the action takes exactly two values. -/
def keyValuePairActionInit (nargs : Option Nat) : Except PyException Unit :=
  if nargs ≠ some 2 then .error (.valueError "nargs must be 2") else .ok ()

/-- `KeyValuePairAction.__call__`: the dict held so far, `{}` when there is none yet, with
`values[0]` set to `values[1]`. -/
def keyValuePairAction (data : Option PyDict) (values : String × String) : PyDict :=
  (data.getD .empty).set values.1 values.2

/-- `args.replace` after `argparse` has called the action once per `--replace`, in order: `None`
when there is none. -/
def replaceArgument (options : List (String × String)) : Option PyDict :=
  options.foldl (fun data values => some (keyValuePairAction data values)) none

/-! ### Other options and the checks of `parse_args` -/

/-- `uint64_arg(arg)`, with `int(arg)` given by `pyInt`. -/
def uint64Arg (pyInt : String → Except PyException Int) (arg : String) :
    Except PyException Nat := do
  let value ← pyInt arg
  if value < 0 ∨ value ≥ 2 ^ 64 then throw (.valueError "Out of range for unsigned 64-bit integer")
  else pure value.toNat

/-- The namespace `argparse` returns for the `patch` subcommand. -/
structure PatchArgs where
  input : String
  output : Option String
  privkeyAvb : String
  privkeyOta : String
  certOta : String
  passphraseAvbEnvVar : Option String
  passphraseAvbFile : Option String
  passphraseOtaEnvVar : Option String
  passphraseOtaFile : Option String
  replace : Option PyDict
  magisk : Option String
  prepatched : Option String
  rootless : Bool
  magiskPreinitDevice : Option String
  magiskRandomSeed : Option Nat
  ignoreMagiskWarnings : Bool
  ignorePrepatchedCompat : Nat
  clearVbmetaFlags : Bool
  bootPartition : String

/-- The truth value of an optional `str`: `None` and `''` are false. -/
def strTruthy : Option String → Bool
  | some s => s ≠ ""
  | none => false

/-- The checks `parse_args` makes on the `patch` subcommand. The check of
`--ignore-prepatched-compat` sits in the `elif` of `args.magisk is None`, so it is made only when
`--magisk` is given. -/
def checkPatchArgs (args : PatchArgs) : Except String Unit :=
  if args.magisk.isNone then
    if strTruthy args.magiskPreinitDevice then .error "--magisk-preinit-device requires --magisk"
    else if args.magiskRandomSeed.getD 0 ≠ 0 then .error "--magisk-random-seed requires --magisk"
    else if args.ignoreMagiskWarnings then .error "--ignore-magisk-warnings requires --magisk"
    else .ok ()
  else if args.prepatched.isNone then
    if args.ignorePrepatchedCompat ≠ 0 then
      .error "--ignore-prepatched-compat requires --prepatched"
    else .ok ()
  else .ok ()

/-! ### `patch_subcommand` -/

/-- `MagiskRootPatch.validate()` on the version `_get_version` read: a version of no supported
range, negative ones included, raises first; the check itself is `magiskValidate`. -/
def validateMagisk (rangeText : VersionRange → String) (patch : MagiskRootPatchInit) :
    Except PyException Unit :=
  match patch.version with
  | .ofNat version =>
    (magiskValidate rangeText ⟨version, patch.preinitDevice, patch.randomSeed⟩).mapError .valueError
  | .negSucc _ =>
    .error (.valueError ("Unsupported Magisk version " ++ toString patch.version ++
      " (supported: " ++ "; ".intercalate (versSupported.map rangeText) ++ ")"))

/-- The root patch `patch_subcommand` builds. -/
inductive RootPatchChoice where
  | magisk (patch : MagiskRootPatchInit)
  | prepatched (path : Option String) (fatalLevel : Int)

/-- The root patch and the warnings printed on the way: none for `--rootless`; for `--magisk`, a
`MagiskRootPatch` whose `validate()` error is raised, or printed under `--ignore-magisk-warnings`;
otherwise a `PrepatchedImage` with `fatal_level` one above the number of
`--ignore-prepatched-compat`. `utilFunctions apk` is the script inside the APK. -/
def rootPatchChoice (rangeText : VersionRange → String)
    (utilFunctions : String → Option (List UInt8)) (args : PatchArgs) :
    Except PyException (Option RootPatchChoice × List PyException) :=
  if args.rootless then .ok (none, [])
  else match args.magisk with
    | some apk => do
      let patch ← magiskRootPatchInit apk (utilFunctions apk) args.magiskPreinitDevice
        args.magiskRandomSeed
      match validateMagisk rangeText patch with
      | .ok () => pure (some (.magisk patch), [])
      | .error e =>
        if e.isValueError ∧ args.ignoreMagiskWarnings then pure (some (.magisk patch), [e])
        else throw e
    | none => pure (some (.prepatched args.prepatched (args.ignorePrepatchedCompat + 1)), [])

/-- `PatchContext`. -/
structure PatchContext where
  replaceImages : List (String × String)
  bootPartition : String
  rootPatch : Option RootPatchChoice
  clearVbmetaFlags : Bool
  privkeyAvb : String
  passphraseAvb : Option String
  privkeyOta : String
  passphraseOta : Option String
  certOta : String

/-- `patch_subcommand` up to `util.open_output_file`: the output path, the context and the warnings
printed, or what it raises on the way: the root patch, both passphrases, then the check that the
OTA certificate matches its key. -/
def patchSubcommandSetup (openssl : Option String → List String → Except PyException (List UInt8))
    (read : String → List UInt8) (sources : PassphraseSources) (rangeText : VersionRange → String)
    (utilFunctions : String → Option (List UInt8)) (args : PatchArgs) :
    Except PyException (String × PatchContext × List PyException) := do
  let (rootPatch, warnings) ← rootPatchChoice rangeText utilFunctions args
  let passphraseAvb ← promptPassphrase openssl read sources args.privkeyAvb
    args.passphraseAvbEnvVar args.passphraseAvbFile
  let passphraseOta ← promptPassphrase openssl read sources args.privkeyOta
    args.passphraseOtaEnvVar args.passphraseOtaFile
  let matched ← certMatchesKey openssl read args.certOta args.privkeyOta passphraseOta
  if !matched then throw (.other "Exception" "OTA certificate does not match private key")
  pure (args.output.getD (args.input ++ ".patched"),
    ⟨(args.replace.getD .empty).items, args.bootPartition, rootPatch, args.clearVbmetaFlags,
      args.privkeyAvb, passphraseAvb, args.privkeyOta, passphraseOta, args.certOta⟩, warnings)

/-! ### `extract_subcommand` -/

/-- The images `extract_subcommand` extracts from a payload whose partitions are `allPartitions`:
all of them for `--all`, else the images `get_required_images(..., True)` requires, or only its
`@rootpatch` image for `--boot-only`. -/
def extractImageNames (allPartitions : List String) (bootPartition : String) (all bootOnly : Bool) :
    Except String (List String) :=
  if all then .ok allPartitions
  else do
    let images ← getRequiredImages allPartitions bootPartition true
    if bootOnly then
      match images.rootpatch with
      | some image => pure [image]
      | none => throw "'@rootpatch'"
    else pure images.values

/-! ### The replacement loop over the dict -/

section Replace

variable (allPartitions : List String)

theorem replaceImagePaths_cons (name path : String) (rest : List (String × String))
    (imagePaths : String → Option String) :
    replaceImagePaths allPartitions ((name, path) :: rest) imagePaths =
      if name ∈ allPartitions then
        replaceImagePaths allPartitions rest (Function.update imagePaths name (some path))
      else .error ("Cannot replace non-existent partition: " ++ name) := rfl

/-- A name that does not occur among the first items can be set after them instead. -/
theorem replaceImagePaths_append_of_not_mem {key value : String} (known : key ∈ allPartitions) :
    ∀ {items : List (String × String)}, key ∉ items.map Prod.fst →
      ∀ rest start, replaceImagePaths allPartitions (items ++ (key, value) :: rest) start =
        replaceImagePaths allPartitions (items ++ rest) (Function.update start key (some value))
  | [], _, rest, start => by
    rw [List.nil_append, replaceImagePaths, if_pos known, List.nil_append]
  | (k, v) :: items, absent, rest, start => by
    rw [List.map_cons, List.mem_cons, not_or] at absent
    rw [List.cons_append, List.cons_append, replaceImagePaths_cons, replaceImagePaths_cons,
      replaceImagePaths_append_of_not_mem known absent.2, Function.update_comm (Ne.symm absent.1)]

/-- Setting a key in the dict and then taking its items is taking the items and then the pair. -/
theorem replaceImagePaths_dictSet (key value : String) :
    ∀ {items : List (String × String)}, (items.map Prod.fst).Nodup → ∀ rest start,
      replaceImagePaths allPartitions (dictSet key value items ++ rest) start =
        replaceImagePaths allPartitions (items ++ (key, value) :: rest) start
  | [], _, _, _ => rfl
  | (k, v) :: items, distinct, rest, start => by
    rw [List.map_cons, List.nodup_cons] at distinct
    by_cases same : k = key
    · subst same
      rw [dictSet, if_pos rfl, List.cons_append, List.cons_append, replaceImagePaths_cons,
        replaceImagePaths_cons]
      split_ifs with known
      · rw [replaceImagePaths_append_of_not_mem allPartitions known distinct.1,
          Function.update_idem]
      · rfl
    · rw [dictSet, if_neg same, List.cons_append, List.cons_append, replaceImagePaths_cons,
        replaceImagePaths_cons, replaceImagePaths_dictSet key value distinct.2]

theorem replaceImagePaths_foldl_set :
    ∀ (options : List (String × String)) (d : PyDict) start,
      replaceImagePaths allPartitions (options.foldl (fun d values => d.set values.1 values.2) d).items
        start = replaceImagePaths allPartitions (d.items ++ options) start
  | [], d, start => by rw [List.foldl_nil, List.append_nil]
  | values :: options, d, start => by
    rw [List.foldl_cons, replaceImagePaths_foldl_set options, PyDict.set,
      replaceImagePaths_dictSet allPartitions _ _ d.distinct]

theorem foldl_some_keyValuePairAction :
    ∀ (options : List (String × String)) (d : PyDict),
      options.foldl (fun data values => some (keyValuePairAction data values)) (some d) =
        some (options.foldl (fun d values => d.set values.1 values.2) d)
  | [], _ => rfl
  | _ :: options, _ => foldl_some_keyValuePairAction options _

theorem replaceArgument_getD (options : List (String × String)) :
    (replaceArgument options).getD .empty =
      options.foldl (fun d values => d.set values.1 values.2) .empty := by
  cases options with
  | nil => rfl
  | cons values options =>
    rw [replaceArgument, List.foldl_cons, foldl_some_keyValuePairAction]
    rfl

/-- The replacement loop of `patch_ota_payload` over `context.replace_images`, the dict the
`--replace` options build (`args.replace or {}`), gives the same `image_paths`, or raises at the
same partition, as the options taken one by one in the order given: each name ends up with the
path of its last `--replace`, and the first unknown name is the one reported. -/
theorem replaceImagePaths_replaceArgument (options : List (String × String))
    (start : String → Option String) :
    replaceImagePaths allPartitions ((replaceArgument options).getD .empty).items start =
      replaceImagePaths allPartitions options start := by
  rw [replaceArgument_getD, replaceImagePaths_foldl_set]
  rfl

end Replace

end Avbroot

/-
Module: Avbroot.Boot.PatchBoot
Purpose: `boot.patch_boot`, which `patch_ota_payload` calls once per image of `image_patches`.
  Before it touches the image it checks that the image and the run agree on whether there is a key
  (with `only_if_previously_signed`, an unsigned image stays unsigned), takes the one hash
  descriptor apart from the others and picks the signing algorithm. Then it runs the image's
  patches in order; each loads the boot image, patches its ramdisks and writes it back. The main result follows an image
  that is both `@rootpatch` and `@otacerts` through Magisk and then `OtaCertPatch`: the image gets
  the new certificates, keeps every entry the two patches leave alone, and `magisk_info` on it
  still prints the config Magisk wrote.
Trusted boundary: avbtool's parsing, footer erasing and signing are not modelled: an image is its
  header's public key size and algorithm, its descriptors and its ramdisks. The archive built from
  `cert_ota` is an input (`otacertsZip`), as in `Avbroot.Boot.OtaCertPatch`.
Main exports: HashDescriptor, Descriptor, SigningPlan, signingPlan, signingPlan_eq,
  signingPlan_eq_ok_iff,
  runBootPatch, runBootPatches, imagePatches_shared, runBootPatches_magisk_otacerts
-/
import Avbroot.Boot.MagiskInfo
import Avbroot.Boot.OtaCertPatch
import Avbroot.Payload.PatchPayload

namespace Avbroot

/-! ### Before the image is touched -/

/-- The fields of an `avbtool.AvbHashDescriptor` that `patch_boot` hands back to
`add_hash_footer`. -/
structure HashDescriptor where
  partitionName : String
  hashAlgorithm : String
  salt : List UInt8
  deriving DecidableEq, Repr

/-- A descriptor of the image's vbmeta footer: the hash descriptor, or another one, which goes back
into the footer as it was. -/
inductive Descriptor where
  | hash (descriptor : HashDescriptor)
  | other (raw : List UInt8)
  deriving DecidableEq, Repr

/-- The hash descriptors among `descriptors`, in order. -/
def hashesOf (descriptors : List Descriptor) : List HashDescriptor :=
  descriptors.filterMap fun
    | .hash descriptor => some descriptor
    | .other _ => none

/-- The other descriptors, in order: `new_descriptors`. -/
def othersOf (descriptors : List Descriptor) : List Descriptor :=
  descriptors.filter fun
    | .hash _ => false
    | .other _ => true

/-- One pass of `for d in descriptors:` from `hash` and `new_descriptors`. -/
def splitStep (seen : Option HashDescriptor × List Descriptor) :
    Descriptor → Except String (Option HashDescriptor × List Descriptor)
  | .hash descriptor =>
    if seen.1.isSome then .error "Expected only one hash descriptor"
    else .ok (some descriptor, seen.2)
  | .other raw => .ok (seen.1, seen.2 ++ [.other raw])

/-- `str(b)` of a Python `bool`. -/
def pyBool : Bool → String
  | true => "True"
  | false => "False"

/-- `not not key`: a key path counts when it is given and not empty. -/
def keyPresent : Option String → Bool
  | some path => path ≠ ""
  | none => false

/-- The algorithm `add_hash_footer` signs with: `SHA256_RSA2048` becomes `SHA256_RSA4096`. -/
def upgradedAlgorithm (algorithmName : String) : String :=
  if algorithmName = "SHA256_RSA2048" then "SHA256_RSA4096" else algorithmName

/-- What `patch_boot` settles before it erases the footer. -/
structure SigningPlan where
  key : Option String
  hash : HashDescriptor
  descriptors : List Descriptor
  algorithmName : String
  deriving DecidableEq, Repr

/-- `patch_boot` up to `shutil.copyfile`, for an image whose header has `publicKeySize` and whose
algorithm is `algorithmName`: the plan, or the exception. -/
def signingPlan (publicKeySize : Nat) (algorithmName : String) (key : Option String)
    (onlyIfPreviouslySigned : Bool) (descriptors : List Descriptor) :
    Except String SigningPlan := do
  let haveKeyOld := publicKeySize != 0
  let key := if !haveKeyOld && onlyIfPreviouslySigned then none else key
  let haveKeyNew := keyPresent key
  if haveKeyOld ≠ haveKeyNew then
    throw ("Key presence does not match: " ++ pyBool haveKeyOld ++ " (old) != " ++
      pyBool haveKeyNew ++ " (new)")
  let split ← descriptors.foldlM splitStep (none, [])
  match split.1 with
  | none => throw "No hash descriptor found"
  | some hash => pure ⟨key, hash, split.2, upgradedAlgorithm algorithmName⟩

/-- The descriptor loop keeps the others in order and fails on a second hash descriptor. -/
theorem foldlM_splitStep (descriptors : List Descriptor) (seen : Option HashDescriptor)
    (others : List Descriptor) :
    descriptors.foldlM splitStep (seen, others) =
      if (seen.toList ++ hashesOf descriptors).length ≤ 1 then
        .ok ((seen.toList ++ hashesOf descriptors).head?, others ++ othersOf descriptors)
      else .error "Expected only one hash descriptor" := by
  induction descriptors generalizing seen others with
  | nil => cases seen <;> simp [hashesOf, othersOf, pure, Except.pure]
  | cons descriptor rest inductionHypothesis =>
    cases descriptor with
    | hash found =>
      cases seen with
      | none =>
        simp only [List.foldlM_cons, splitStep, Option.isSome_none, bind, Except.bind,
          inductionHypothesis]
        simp [hashesOf, othersOf]
      | some first =>
        simp only [List.foldlM_cons, splitStep, Option.isSome_some, if_true, bind, Except.bind]
        simp [hashesOf]
    | other raw =>
      simp only [List.foldlM_cons, splitStep, bind, Except.bind, inductionHypothesis]
      simp [hashesOf, othersOf]

/-- `patch_boot`'s checks in one piece: the key it keeps, the key-presence check, then the hash
descriptors, of which there must be exactly one. -/
theorem signingPlan_eq (publicKeySize : Nat) (algorithmName : String) (key : Option String)
    (onlyIfPreviouslySigned : Bool) (descriptors : List Descriptor) :
    signingPlan publicKeySize algorithmName key onlyIfPreviouslySigned descriptors =
      if (publicKeySize != 0) ≠
          keyPresent (if publicKeySize = 0 ∧ onlyIfPreviouslySigned then none else key) then
        .error ("Key presence does not match: " ++ pyBool (publicKeySize != 0) ++ " (old) != " ++
          pyBool (keyPresent (if publicKeySize = 0 ∧ onlyIfPreviouslySigned then none else key)) ++
          " (new)")
      else match hashesOf descriptors with
        | [] => .error "No hash descriptor found"
        | [hash] => .ok ⟨if publicKeySize = 0 ∧ onlyIfPreviouslySigned then none else key, hash,
            othersOf descriptors, upgradedAlgorithm algorithmName⟩
        | _ :: _ :: _ => .error "Expected only one hash descriptor" := by
  have kept : (if (!(publicKeySize != 0) && onlyIfPreviouslySigned) = true then none else key) =
      if publicKeySize = 0 ∧ onlyIfPreviouslySigned then none else key := by
    by_cases unsigned : publicKeySize = 0 <;> simp [unsigned]
  simp only [signingPlan, foldlM_splitStep, Option.toList_none, List.nil_append, kept]
  generalize (if publicKeySize = 0 ∧ onlyIfPreviouslySigned then none else key) = planned
  split
  · rfl
  · rcases hashesOf descriptors with _ | ⟨hash, _ | ⟨second, rest⟩⟩ <;> rfl

/-- The plan succeeds exactly when the image has one hash descriptor and the key presence matches;
the other descriptors keep their order, and with `only_if_previously_signed` an unsigned image is
planned without a key. -/
theorem signingPlan_eq_ok_iff {publicKeySize : Nat} {algorithmName : String} {key : Option String}
    {onlyIfPreviouslySigned : Bool} {descriptors : List Descriptor} {plan : SigningPlan} :
    signingPlan publicKeySize algorithmName key onlyIfPreviouslySigned descriptors = .ok plan ↔
      hashesOf descriptors = [plan.hash] ∧ plan.descriptors = othersOf descriptors ∧
      plan.key = (if publicKeySize = 0 ∧ onlyIfPreviouslySigned then none else key) ∧
      keyPresent plan.key = (publicKeySize != 0) ∧
      plan.algorithmName = upgradedAlgorithm algorithmName := by
  rw [signingPlan_eq]
  generalize (if publicKeySize = 0 ∧ onlyIfPreviouslySigned then none else key) = planned
  obtain ⟨key, hash, others, algorithm⟩ := plan
  split
  · next mismatch =>
    exact iff_of_false nofun fun ⟨_, _, kept, present, _⟩ => mismatch (kept ▸ present).symm
  · next agree =>
    rcases hashesOf descriptors with _ | ⟨first, _ | ⟨second, rest⟩⟩
    · exact iff_of_false nofun fun ⟨empty, _⟩ => nomatch empty
    · constructor
      · rintro ⟨⟩
        exact ⟨rfl, rfl, rfl, (of_not_not agree).symm, rfl⟩
      · rintro ⟨one, rfl, rfl, -, rfl⟩
        obtain ⟨rfl, -⟩ := List.cons.inj one
        rfl
    · exact iff_of_false nofun fun ⟨two, _⟩ => nomatch (List.cons.inj two).2

/-! ### The patches -/

/-- One of `patch_funcs` on the ramdisks of the image: the root patch of the run, or
`OtaCertPatch`, whose exception ends `patch_boot`. -/
def runBootPatch (rootPatch : List (List UInt8) → Except String (List (List UInt8)))
    (codec : RamdiskCodec) (otacertsZip : List UInt8) (ramdisks : List (List UInt8)) :
    BootPatch → Except String (List (List UInt8))
  | .rootPatch => rootPatch ramdisks
  | .otaCertPatch =>
    (otaCertPatch codec otacertsZip ramdisks).2.map fun _ =>
      (otaCertPatch codec otacertsZip ramdisks).1

/-- `for patch_func in patch_funcs: patch_func(f.name)`. -/
def runBootPatches (rootPatch : List (List UInt8) → Except String (List (List UInt8)))
    (codec : RamdiskCodec) (otacertsZip : List UInt8) (patches : List BootPatch)
    (ramdisks : List (List UInt8)) : Except String (List (List UInt8)) :=
  patches.foldlM (runBootPatch rootPatch codec otacertsZip) ramdisks

/-- When one partition is both `@rootpatch` and `@otacerts`, `image_patches` gives it the root
patch and then `OtaCertPatch`. -/
theorem imagePatches_shared {required : RequiredImages}
    (shared : required.rootpatch = some required.otacerts) :
    imagePatches required = [(required.otacerts, [.rootPatch, .otaCertPatch])] := by
  simp [imagePatches, shared, setdefaultAppend]

/-- A boot image whose one ramdisk holds the OTA certificates, patched with Magisk and
`OtaCertPatch` as `patch_ota_payload` queues them: both patches return; the saved ramdisk holds
the new archive and every loaded entry but `init` and the archive as it was; and `magisk_info`
still prints the config Magisk wrote. The format library is assumed to read back what it wrote. -/
theorem runBootPatches_magisk_otacerts (codec : RamdiskCodec)
    (loadRaw : List UInt8 → Except String (List CpioEntry)) (order : SetOrder)
    (bundle : MagiskBundle) (settings : MagiskSettings) (sha1 otacertsZip : List UInt8)
    {required : RequiredImages} {patches : List BootPatch} {entries : List CpioEntry}
    {ramdisk config : List UInt8} {format : CompressionFormat}
    (shared : required.rootpatch = some required.otacerts)
    (queued : (required.otacerts, patches) ∈ imagePatches required)
    (loads : codec.load ramdisk = .ok (entries, format))
    (configured : magiskConfig settings sha1 = .ok config)
    (distinct : (entries.map (·.name)).Nodup) (nulFree : ∀ entry ∈ entries, 0 ∉ entry.name)
    (outsideBackup : ∀ entry ∈ entries, ¬ ascii ".backup" <+: entry.name)
    (notAdded : ∀ entry ∈ entries, entry.name ∈ magiskPaths → entry.name = ascii "init")
    (hasOtacerts : otacertsPath ∈ entries.map (·.name))
    (reloads : codec.load (codec.encode (magiskSavedEntries order bundle config entries) format) =
      .ok (magiskSavedEntries order bundle config entries, format))
    (readsRaw : loadRaw (codec.encode
      (replaceAll otacertsZip (magiskSavedEntries order bundle config entries)) format) =
      .ok (replaceAll otacertsZip (magiskSavedEntries order bundle config entries))) :
    runBootPatches (magiskRootPatch codec order bundle settings sha1) codec otacertsZip patches
        [ramdisk] =
      .ok [codec.encode (replaceAll otacertsZip (magiskSavedEntries order bundle config entries))
        format] ∧
    contentByName (replaceAll otacertsZip (magiskSavedEntries order bundle config entries))
      otacertsPath = some otacertsZip ∧
    (∀ entry ∈ entries, entry.name ≠ ascii "init" → entry.name ≠ otacertsPath →
      entry ∈ replaceAll otacertsZip (magiskSavedEntries order bundle config entries)) ∧
    ∃ text, magiskInfo loadRaw [codec.encode
        (replaceAll otacertsZip (magiskSavedEntries order bundle config entries)) format] =
      .ok text ∧ ascii text = config := by
  have saved : ∀ entry ∈ entries, entry.name ≠ ascii "init" →
      entry ∈ magiskSavedEntries order bundle config entries := fun entry member notInit =>
    mem_magiskEntries_of_ne_init order bundle config distinct nulFree outsideBackup notAdded member
      notInit
  have savedDistinct : ((magiskSavedEntries order bundle config entries).map (·.name)).Nodup :=
    magiskEntries_nodup_names order bundle config distinct nulFree outsideBackup notAdded
  have replacedDistinct : ((replaceAll otacertsZip
      (magiskSavedEntries order bundle config entries)).map (·.name)).Nodup := by
    rwa [map_name_replaceAll]
  obtain ⟨certificates, member, named⟩ := List.mem_map.mp hasOtacerts
  have kept := saved certificates member (named ▸ by decide)
  -- `OtaCertPatch` reloads the ramdisk Magisk saved and finds the archive there
  have certified : otaCertPatch codec otacertsZip
      [codec.encode (magiskSavedEntries order bundle config entries) format] =
      ([codec.encode (replaceAll otacertsZip (magiskSavedEntries order bundle config entries))
        format], .ok ()) := by
    have present : otacertsPath ∈ (magiskSavedEntries order bundle config entries).map (·.name) :=
      List.mem_map.mpr ⟨certificates, kept, named⟩
    rw [otaCertPatch, otaCertLoop_of_load codec otacertsZip false _
      [(magiskSavedEntries order bundle config entries, format)] (by simp [reloads])
      fun _ member _ => by rw [List.mem_singleton.mp member]; exact savedDistinct]
    simp only [List.zipWith_cons_cons, List.zipWith_nil_left, expectedRamdisk, if_pos present,
      List.any_cons, List.any_nil, decide_eq_true present, Bool.or_false, Bool.false_or, if_true]
  obtain rfl : patches = [.rootPatch, .otaCertPatch] := by
    rw [imagePatches_shared shared, List.mem_singleton, Prod.mk.injEq] at queued
    exact queued.2
  obtain ⟨text, plain, written⟩ := magiskConfig_eq_ascii configured
  have found : contentByName
      (replaceAll otacertsZip (magiskSavedEntries order bundle config entries))
      (ascii ".backup/.magisk") = some (ascii text) :=
    have unchanged := mem_replaceAll_of_ne otacertsZip
      (config_mem_magiskEntries order bundle config (some entries)) (show ascii ".backup/.magisk" ≠
        otacertsPath by decide)
    (contentByName_of_mem replacedDistinct unchanged).trans (congrArg some written.symm)
  refine ⟨?_, ?_, fun entry member notInit other =>
    mem_replaceAll_of_ne otacertsZip (saved entry member notInit) other,
    text, magiskInfo_of_contentByName [] readsRaw found plain, written⟩
  · simp only [runBootPatches, List.foldlM_cons, List.foldlM_nil, runBootPatch,
      magiskRootPatch_eq_ok codec order bundle settings sha1 loads configured distinct nulFree
        outsideBackup notAdded, bind, Except.bind, certified]
    rfl
  · simpa [named] using contentByName_of_mem replacedDistinct
      (mem_replaceAll_of_eq otacertsZip kept named)

/-- A stock ramdisk with `init` and the OTA certificates. -/
def stockEntries : List CpioEntry :=
  [newFile (ascii "init") 0o750 [7], newFile otacertsPath 0o644 [8]]

/-- A codec that decodes `[1]` to `stockEntries`, and anything else to what Magisk saves for them
with `preinitConfig`. -/
def stockCodec : RamdiskCodec where
  load ramdisk := if ramdisk = [1] then .ok (stockEntries, .lz4Legacy)
    else .ok (magiskSavedEntries listOrder sampleBundle preinitConfig stockEntries, .lz4Legacy)
  encode _ _ := [2]

/-- A raw reader of what `OtaCertPatch` saves after Magisk on `stockEntries`. -/
def stockLoadRaw (_ : List UInt8) : Except String (List CpioEntry) :=
  .ok (replaceAll [9] (magiskSavedEntries listOrder sampleBundle preinitConfig stockEntries))

theorem stock_runBootPatches :
    runBootPatches (magiskRootPatch stockCodec listOrder sampleBundle preinitSettings [0xab])
        stockCodec [9] [.rootPatch, .otaCertPatch] [[1]] =
      .ok [stockCodec.encode (replaceAll [9]
        (magiskSavedEntries listOrder sampleBundle preinitConfig stockEntries)) .lz4Legacy] ∧
    contentByName (replaceAll [9]
      (magiskSavedEntries listOrder sampleBundle preinitConfig stockEntries)) otacertsPath =
      some [9] ∧
    (∀ entry ∈ stockEntries, entry.name ≠ ascii "init" → entry.name ≠ otacertsPath →
      entry ∈
        replaceAll [9] (magiskSavedEntries listOrder sampleBundle preinitConfig stockEntries)) ∧
    ∃ text, magiskInfo stockLoadRaw [stockCodec.encode
        (replaceAll [9] (magiskSavedEntries listOrder sampleBundle preinitConfig stockEntries))
        .lz4Legacy] = .ok text ∧ ascii text = preinitConfig :=
  @runBootPatches_magisk_otacerts stockCodec stockLoadRaw listOrder sampleBundle preinitSettings
    [0xab] [9] ⟨"boot", [], some "boot"⟩ [.rootPatch, .otaCertPatch] stockEntries [1] preinitConfig
    .lz4Legacy rfl (by decide) rfl rfl (by decide) (by decide) (by decide) (by decide) (by decide)
    rfl rfl

end Avbroot

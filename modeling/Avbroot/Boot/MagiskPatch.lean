/-
Module: Avbroot.Boot.MagiskPatch
Purpose: `MagiskRootPatch._patch` of `boot.py`: on the first ramdisk (or a fresh one), add
  `overlay.d` and `overlay.d/sbin`, replace `init` by `magiskinit`, add the xz-compressed Magisk
  binaries under `overlay.d/sbin`, build the `.backup` tree with `_apply_magisk_backup` against a
  shallow copy of the loaded list, append the `.backup/.magisk` config and save the ramdisk.
  `old_entries = entries.copy()` shares the loaded objects with `entries`, so both lists hold the
  same references.
Trusted boundary: the files of the Magisk APK and their xz compression, and the SHA-1 of the image
  file, are inputs (`MagiskBundle`, `sha1`, the digest `hashlib` computes).
Main exports: MagiskBundle, MagiskSettings, VersionRange, magiskValidate, magiskConfig,
  magiskConfig_of_validate, magiskConfig_eq_ascii, allocAll, magiskEntries, magiskRootPatch,
  magiskPaths, magiskEntries_backup_views, magiskEntries_nodup_names,
  contentByName_magiskEntries, magiskRootPatch_eq_ok
-/
import Avbroot.Boot.MagiskBackup

namespace Avbroot

/-- What `_patch` takes from the Magisk APK. -/
structure MagiskBundle where
  /-- `lib/arm64-v8a/libmagiskinit.so` -/
  magiskinit : List UInt8
  /-- `lib/armeabi-v7a/libmagisk32.so`, xz-compressed -/
  magisk32Xz : List UInt8
  /-- `lib/arm64-v8a/libmagisk64.so`, xz-compressed -/
  magisk64Xz : List UInt8
  /-- `assets/stub.apk`, xz-compressed, when the APK has it -/
  stubXz : Option (List UInt8)

/-- The fields of `MagiskRootPatch` its config depends on. -/
structure MagiskSettings where
  version : Nat
  preinitDevice : Option String
  randomSeed : Nat

/-- `util.Range(start, end)`: the versions from `start` up to, not including, `stop`. -/
structure VersionRange where
  start : Nat
  stop : Nat

/-- `version in range`. -/
def VersionRange.contains (range : VersionRange) (version : Nat) : Bool :=
  range.start ≤ version ∧ version < range.stop

/-- `VERS_SUPPORTED`. -/
def versSupported : List VersionRange :=
  [⟨25102, 25207⟩, ⟨25211, 26200⟩, ⟨26201, 27000⟩]

/-- `VER_PREINIT_DEVICE = util.Range(25211, VERS_SUPPORTED[-1].end)`. -/
def verPreinitDevice : VersionRange :=
  ⟨25211, 27000⟩

/-- `VER_RANDOM_SEED = util.Range(25211, VERS_SUPPORTED[-1].end)`. -/
def verRandomSeed : VersionRange :=
  ⟨25211, 27000⟩

/-- `MagiskRootPatch.validate()`. The text of a `util.Range` is not in the source tree, so
`rangeText` gives it. -/
def magiskValidate (rangeText : VersionRange → String) (settings : MagiskSettings) :
    Except String Unit :=
  if !(versSupported.any fun range => range.contains settings.version) then
    .error ("Unsupported Magisk version " ++ toString settings.version ++ " (supported: " ++
      "; ".intercalate (versSupported.map rangeText) ++ ")")
  else if settings.preinitDevice.isNone ∧ verPreinitDevice.contains settings.version then
    .error ("Magisk version " ++ toString settings.version ++ " (" ++ rangeText verPreinitDevice ++
      ") requires a preinit device to be specified")
  else .ok ()

/-- The `.backup/.magisk` config. `self.preinit_device.encode('ascii')` fails when a version that
needs a preinit device has none, which `validate` rules out beforehand, and when the device name is
not ASCII, which it does not. -/
def magiskConfig (settings : MagiskSettings) (sha1 : List UInt8) : Except String (List UInt8) := do
  let preinit ← if verPreinitDevice.contains settings.version then
      match settings.preinitDevice with
      | some device => do
        let encoded ← encodeAscii device
        pure (ascii "PREINITDEVICE=" ++ encoded ++ ascii "\n")
      | none => throw "'NoneType' object has no attribute 'encode'"
    else pure []
  let seed := if verRandomSeed.contains settings.version then
      ascii ("RANDOMSEED=0x" ++ String.mk (Nat.toDigits 16 settings.randomSeed) ++ "\n")
    else []
  pure (ascii "KEEPVERITY=true\n" ++ ascii "KEEPFORCEENCRYPT=true\n" ++
    ascii "PATCHVBMETAFLAG=false\n" ++ ascii "RECOVERYMODE=false\n" ++ preinit ++
    ascii ("SHA1=" ++ hexdigest sha1 ++ "\n") ++ seed)

/-- A validated patch writes its config when the preinit device, if any, is named in ASCII:
`validate` rules out a version that needs a preinit device without one. -/
theorem magiskConfig_of_validate {rangeText : VersionRange → String} {settings : MagiskSettings}
    (valid : magiskValidate rangeText settings = .ok ())
    (plainDevice : ∀ device ∈ settings.preinitDevice, IsAscii device.data) (sha1 : List UInt8) :
    ∃ config, magiskConfig settings sha1 = .ok config := by
  unfold magiskValidate at valid
  split_ifs at valid with unsupported needsDevice
  simp only [magiskConfig]
  split
  · next inRange =>
    cases found : settings.preinitDevice with
    | none => exact absurd ⟨by simp [found], inRange⟩ needsDevice
    | some device =>
      have encoded := encodeAscii_eq_ok_iff.mpr ⟨plainDevice device found, rfl⟩
      exact ⟨_, by simp only [encoded]; rfl⟩
  · exact ⟨_, rfl⟩

/-- A config `_patch` writes is the bytes of ASCII text: the device name it holds passed the ASCII
encoding, and the rest is literals and hexadecimal digits. -/
theorem magiskConfig_eq_ascii {settings : MagiskSettings} {sha1 config : List UInt8}
    (configured : magiskConfig settings sha1 = .ok config) :
    ∃ text, IsAscii text.data ∧ ascii text = config := by
  obtain ⟨seedText, seedPlain, seedBytes⟩ : ∃ seedText : String, IsAscii seedText.data ∧
      ascii seedText = if verRandomSeed.contains settings.version then
        ascii ("RANDOMSEED=0x" ++ String.mk (Nat.toDigits 16 settings.randomSeed) ++ "\n")
      else [] := by
    split
    · refine ⟨_, ?_, rfl⟩
      simp only [String.data_append, isAscii_append, isAscii_toDigits, and_true, true_and]
      decide
    · exact ⟨"", nofun, rfl⟩
  have assemble : ∀ preinitText : String, IsAscii preinitText.data → ∃ text, IsAscii text.data ∧
      ascii text = ascii "KEEPVERITY=true\n" ++ ascii "KEEPFORCEENCRYPT=true\n" ++
        ascii "PATCHVBMETAFLAG=false\n" ++ ascii "RECOVERYMODE=false\n" ++ ascii preinitText ++
        ascii ("SHA1=" ++ hexdigest sha1 ++ "\n") ++ ascii seedText := fun preinitText plain =>
    ⟨"KEEPVERITY=true\n" ++ "KEEPFORCEENCRYPT=true\n" ++ "PATCHVBMETAFLAG=false\n" ++
      "RECOVERYMODE=false\n" ++ preinitText ++ ("SHA1=" ++ hexdigest sha1 ++ "\n") ++ seedText,
      by simp only [String.data_append, isAscii_append, plain, seedPlain, isAscii_hexdigest,
        and_true, true_and]; decide,
      by simp only [ascii_append]⟩
  unfold magiskConfig at configured
  rw [← seedBytes] at configured
  split at configured
  · split at configured
    · next _ device _ =>
      cases encoded : encodeAscii device with
      | error message =>
        rw [encoded] at configured
        cases configured
      | ok bytes =>
        obtain ⟨plain, rfl⟩ := encodeAscii_eq_ok_iff.mp encoded
        simp only [encoded, bind, Except.bind, pure, Except.pure, Except.ok.injEq] at configured
        obtain ⟨text, textPlain, textBytes⟩ := assemble ("PREINITDEVICE=" ++ device ++ "\n")
          (by simp only [String.data_append, isAscii_append, plain, and_true, true_and]; decide)
        exact ⟨text, textPlain, by
          rw [textBytes, ← configured]
          simp only [ascii_append, List.append_assoc]⟩
    · simp only [bind, Except.bind, throw, throwThe, MonadExceptOf.throw] at configured
      cases configured
  · simp only [bind, Except.bind, pure, Except.pure, Except.ok.injEq] at configured
    obtain ⟨text, textPlain, textBytes⟩ := assemble "" nofun
    exact ⟨text, textPlain, by rw [textBytes, ← configured]; rfl⟩

/-- New objects for a list of entries, in order. -/
def allocAll : EntryHeap → List CpioEntry → EntryHeap × List Nat
  | heap, [] => (heap, [])
  | heap, entry :: rest =>
    let first := heap.alloc entry
    let others := allocAll first.1 rest
    (others.1, first.2 :: others.2)

@[simp] theorem allocAll_next (heap : EntryHeap) (entries : List CpioEntry) :
    (allocAll heap entries).1.next = heap.next + entries.length := by
  induction entries generalizing heap with
  | nil => rfl
  | cons entry rest inductionHypothesis =>
    simp only [allocAll, inductionHypothesis, EntryHeap.alloc_next, List.length_cons]
    omega

theorem allocAll_objects_of_lt (heap : EntryHeap) (entries : List CpioEntry) {ref : Nat}
    (old : ref < heap.next) : (allocAll heap entries).1.objects ref = heap.objects ref := by
  induction entries generalizing heap with
  | nil => rfl
  | cons entry rest inductionHypothesis =>
    rw [allocAll, inductionHypothesis _ (by simp only [EntryHeap.alloc_next]; omega),
      EntryHeap.alloc_objects_of_lt old]

theorem allocAll_refs_lt (heap : EntryHeap) (entries : List CpioEntry) :
    ∀ ref ∈ (allocAll heap entries).2, heap.next ≤ ref ∧ ref < (allocAll heap entries).1.next := by
  induction entries generalizing heap with
  | nil => simp [allocAll]
  | cons entry rest inductionHypothesis =>
    intro ref member
    simp only [allocAll, List.mem_cons] at member
    have later := inductionHypothesis (heap.alloc entry).1
    simp only [EntryHeap.alloc_next, allocAll_next, List.length_cons] at later ⊢
    rcases member with rfl | member
    · simp only [EntryHeap.alloc_ref]
      omega
    · have := later ref member
      omega

theorem view_allocAll (heap : EntryHeap) (entries : List CpioEntry) :
    (allocAll heap entries).1.view (allocAll heap entries).2 = entries := by
  induction entries generalizing heap with
  | nil => rfl
  | cons entry rest inductionHypothesis =>
    simp only [allocAll, EntryHeap.view, List.map_cons] at inductionHypothesis ⊢
    rw [inductionHypothesis, allocAll_objects_of_lt _ _ (by simp), EntryHeap.alloc_ref,
      EntryHeap.alloc_objects_self]

theorem view_allocAll_of_lt {heap : EntryHeap} {refs : List Nat} (entries : List CpioEntry)
    (fresh : ∀ ref ∈ refs, ref < heap.next) :
    (allocAll heap entries).1.view refs = heap.view refs :=
  List.map_congr_left fun _ member => allocAll_objects_of_lt _ _ (fresh _ member)

/-- The xz-compressed files `_patch` adds under `overlay.d/sbin`, in the order of `xz_files`. -/
def xzEntries (bundle : MagiskBundle) : List CpioEntry :=
  ([(ascii "magisk32.xz", bundle.magisk32Xz), (ascii "magisk64.xz", bundle.magisk64Xz)] ++
    (bundle.stubXz.map fun stub => (ascii "stub.xz", stub)).toList).map fun file =>
      newFile (ascii "overlay.d/sbin/" ++ file.1) 0o644 file.2

/-- The entries `_patch` hands to `_save_ramdisk`, from the decoded first ramdisk (`none` when the
image has no ramdisk). -/
def magiskEntries (order : SetOrder) (bundle : MagiskBundle) (config : List UInt8)
    (loaded : Option (List CpioEntry)) : EntryHeap × List Nat :=
  let start := EntryHeap.load (loaded.getD [])
  let overlay := start.1.alloc (newDirectory (ascii "overlay.d") 0o750)
  let sbin := overlay.1.alloc (newDirectory (ascii "overlay.d/sbin") 0o750)
  let withDirs := start.2 ++ [overlay.2, sbin.2]
  let withoutInit := if loaded.isSome then
      withDirs.filter fun ref => (sbin.1.objects ref).name ≠ ascii "init"
    else withDirs
  let init := sbin.1.alloc (newFile (ascii "init") 0o750 bundle.magiskinit)
  let xz := allocAll init.1 (xzEntries bundle)
  let backedUp := applyMagiskBackup order xz.1 start.2 (withoutInit ++ [init.2] ++ xz.2)
  let magisk := backedUp.1.alloc (newFile (ascii ".backup/.magisk") 0 config)
  (magisk.1, backedUp.2 ++ [magisk.2])

/-- The entries `_patch` hands `_save_ramdisk` for a loaded ramdisk. -/
def magiskSavedEntries (order : SetOrder) (bundle : MagiskBundle) (config : List UInt8)
    (entries : List CpioEntry) : List CpioEntry :=
  (magiskEntries order bundle config (some entries)).1.view
    (magiskEntries order bundle config (some entries)).2

/-- `MagiskRootPatch._patch` on the ramdisks of a boot image: the new ramdisks, or the error. -/
def magiskRootPatch (codec : RamdiskCodec) (order : SetOrder) (bundle : MagiskBundle)
    (settings : MagiskSettings) (sha1 : List UInt8) (ramdisks : List (List UInt8)) :
    Except String (List (List UInt8)) := do
  if 1 < ramdisks.length then
    throw ("Boot image is not expected to have " ++ toString ramdisks.length ++ " ramdisks")
  let loaded ← match ramdisks with
    | [] => pure (none, CompressionFormat.lz4Legacy)
    | ramdisk :: _ => do
      let decoded ← codec.load ramdisk
      pure (some decoded.1, decoded.2)
  let config ← magiskConfig settings sha1
  let patched := magiskEntries order bundle config loaded.1
  let newRamdisk ← saveRamdisk codec (patched.1.view patched.2) loaded.2
  pure (match ramdisks with
    | [] => [newRamdisk]
    | _ :: rest => newRamdisk :: rest)

/-! ### When the patched ramdisk names every entry once

`_patch` adds `overlay.d`, `overlay.d/sbin`, the xz files under it, `init` and the `.backup` tree.
A loaded ramdisk that names each entry once, with NUL-free names, none under `.backup` and none of
the paths `_patch` adds other than `init`, comes out with every name once, so `_save_ramdisk`
accepts it. -/

/-- `_patch` appends its config as `.backup/.magisk`. -/
theorem config_mem_magiskEntries (order : SetOrder) (bundle : MagiskBundle) (config : List UInt8)
    (loaded : Option (List CpioEntry)) :
    newFile (ascii ".backup/.magisk") 0 config ∈ (magiskEntries order bundle config loaded).1.view
      (magiskEntries order bundle config loaded).2 :=
  List.mem_map.mpr ⟨_, List.mem_append_right _ (List.mem_singleton_self _),
    EntryHeap.alloc_objects_self _ _⟩

/-- The paths `_patch` adds before the backup, in order; `stub.xz` only with the stub APK. -/
def magiskPaths : List (List UInt8) :=
  [ascii "overlay.d", ascii "overlay.d/sbin", ascii "init", ascii "overlay.d/sbin/magisk32.xz",
    ascii "overlay.d/sbin/magisk64.xz", ascii "overlay.d/sbin/stub.xz"]

/-- The entries `_patch` adds before `_apply_magisk_backup`. -/
def addedEntries (bundle : MagiskBundle) : List CpioEntry :=
  [newDirectory (ascii "overlay.d") 0o750, newDirectory (ascii "overlay.d/sbin") 0o750,
    newFile (ascii "init") 0o750 bundle.magiskinit] ++ xzEntries bundle

theorem map_name_addedEntries_sublist (bundle : MagiskBundle) :
    List.Sublist ((addedEntries bundle).map (·.name)) magiskPaths := by
  cases stub : bundle.stubXz <;>
    simp only [addedEntries, xzEntries, stub, newDirectory, newFile, magiskPaths, Option.map,
      Option.toList, List.map, List.append_nil, List.cons_append, List.nil_append] <;> decide

theorem magiskPaths_nodup : magiskPaths.Nodup := by
  decide

theorem plain_magiskPaths : ∀ name ∈ magiskPaths, 0 ∉ name ∧ ¬ ascii ".backup" <+: name := by
  decide

/-- After `_apply_magisk_backup`, appending `.backup/.magisk` keeps every name once, when an old
`.magisk` is kept with its content and so not moved onto it. -/
theorem nodup_names_backup_magisk (order : SetOrder) {heap : EntryHeap}
    {oldEntries newEntries : List Nat} (config : List UInt8)
    (input : BackupInput heap oldEntries newEntries)
    (magiskKept : ∀ entry ∈ heap.view oldEntries, entry.name = ascii ".magisk" →
      ∃ other ∈ heap.view newEntries, other.name = entry.name ∧ other.content = entry.content) :
    (((applyMagiskBackup order heap oldEntries newEntries).1.alloc
        (newFile (ascii ".backup/.magisk") 0 config)).1.view
      ((applyMagiskBackup order heap oldEntries newEntries).2 ++
        [((applyMagiskBackup order heap oldEntries newEntries).1.alloc
          (newFile (ascii ".backup/.magisk") 0 config)).2])).map (·.name) |>.Nodup := by
  have fresh := @applyMagiskBackup_refs_lt order heap oldEntries newEntries input
  have notMoved := not_mem_backupNames_of_kept input magiskKept
  rw [EntryHeap.view, List.map_append, ← EntryHeap.view, EntryHeap.view_alloc_of_lt _ fresh,
    List.map_singleton, EntryHeap.alloc_ref, EntryHeap.alloc_objects_self, List.map_append,
    List.nodup_append]
  refine ⟨@applyMagiskBackup_nodup_names order heap oldEntries newEntries input,
    List.nodup_singleton _, ?_⟩
  rw [@applyMagiskBackup_names order heap oldEntries newEntries input]
  simp only [List.disjoint_singleton, List.map_cons, List.map_nil, newFile, List.mem_append,
    List.mem_singleton, List.mem_map, not_or]
  refine ⟨⟨⟨fun ⟨entry, inNew, named⟩ => ?_, by decide⟩, fun ⟨name, member, same⟩ => ?_⟩, by decide⟩
  · exact input.outsideBackup entry (List.mem_append_right _ inNew) (named ▸ by decide)
  · have magisk : name = ascii ".magisk" :=
      List.append_cancel_left (same.trans (show ascii ".backup/.magisk" =
        backupPrefix ++ ascii ".magisk" by decide))
    exact notMoved (magisk ▸ (order.perm _).subset member)

/-- What `_patch` hands to `_apply_magisk_backup` for a loaded ramdisk, by the objects' view: as old
entries the loaded ones, and as new entries the loaded ones but `init`, then the entries `_patch`
adds; every reference is older than the next fresh object. -/
theorem magiskEntries_backup_views (bundle : MagiskBundle) (entries : List CpioEntry) :
    let start := EntryHeap.load entries
    let overlay := start.1.alloc (newDirectory (ascii "overlay.d") 0o750)
    let sbin := overlay.1.alloc (newDirectory (ascii "overlay.d/sbin") 0o750)
    let withoutInit := (start.2 ++ [overlay.2, sbin.2]).filter fun ref =>
      (sbin.1.objects ref).name ≠ ascii "init"
    let init := sbin.1.alloc (newFile (ascii "init") 0o750 bundle.magiskinit)
    let xz := allocAll init.1 (xzEntries bundle)
    xz.1.view start.2 = entries ∧
      xz.1.view (withoutInit ++ [init.2] ++ xz.2) =
        entries.filter (·.name ≠ ascii "init") ++ addedEntries bundle ∧
      ∀ ref ∈ start.2 ++ (withoutInit ++ [init.2] ++ xz.2), ref < xz.1.next := by
  intro start overlay sbin withoutInit init xz
  have startRefs : ∀ ref ∈ start.2, ref < entries.length := fun ref member =>
    List.mem_range.mp member
  have overlayRef : overlay.2 = entries.length := rfl
  have sbinRef : sbin.2 = entries.length + 1 := rfl
  have initRef : init.2 = entries.length + 2 := rfl
  have sbinRefs : ∀ ref ∈ start.2 ++ [overlay.2, sbin.2], ref < entries.length + 2 := by
    intro ref member
    rcases List.mem_append.mp member with old | added
    · exact Nat.lt_add_right 2 (startRefs ref old)
    · simp only [List.mem_cons, overlayRef, sbinRef, List.mem_singleton, List.not_mem_nil,
        or_false] at added
      omega
  have toSbin : ∀ refs, (∀ ref ∈ refs, ref < entries.length + 2) →
      xz.1.view refs = sbin.1.view refs := fun refs fresh =>
    (view_allocAll_of_lt (xzEntries bundle) fun ref member => Nat.lt_succ_of_lt (fresh ref member)).trans
      (EntryHeap.view_alloc_of_lt _ fresh)
  have loaded : sbin.1.view start.2 = entries :=
    (EntryHeap.view_alloc_of_lt _ fun ref member => Nat.lt_succ_of_lt (startRefs ref member)).trans
      ((EntryHeap.view_alloc_of_lt _ startRefs).trans (EntryHeap.view_load entries))
  have withDirs : sbin.1.view (start.2 ++ [overlay.2, sbin.2]) =
      entries ++ [newDirectory (ascii "overlay.d") 0o750,
        newDirectory (ascii "overlay.d/sbin") 0o750] := by
    have overlayDir : sbin.1.objects overlay.2 = newDirectory (ascii "overlay.d") 0o750 :=
      (EntryHeap.alloc_objects_of_lt (Nat.lt_succ_self _)).trans (EntryHeap.alloc_objects_self _ _)
    have sbinDir : sbin.1.objects sbin.2 = newDirectory (ascii "overlay.d/sbin") 0o750 :=
      EntryHeap.alloc_objects_self _ _
    rw [EntryHeap.view, List.map_append, ← EntryHeap.view, loaded, List.map_cons, List.map_cons,
      List.map_nil, overlayDir, sbinDir]
  have filtered : xz.1.view withoutInit = entries.filter (·.name ≠ ascii "init") ++
      [newDirectory (ascii "overlay.d") 0o750, newDirectory (ascii "overlay.d/sbin") 0o750] := by
    refine (toSbin withoutInit fun ref member => sbinRefs ref (List.mem_of_mem_filter member)).trans
      ((EntryHeap.view_filter sbin.1 _ fun entry => decide (entry.name ≠ ascii "init")).trans ?_)
    rw [withDirs, List.filter_append]
    congr 1
  have initView : xz.1.view [init.2] = [newFile (ascii "init") 0o750 bundle.magiskinit] :=
    congrArg (· :: []) ((allocAll_objects_of_lt init.1 (xzEntries bundle) (Nat.lt_succ_self _)).trans
      (EntryHeap.alloc_objects_self _ _))
  have xzView : xz.1.view xz.2 = xzEntries bundle := view_allocAll _ _
  have xzNext : xz.1.next = entries.length + 3 + (xzEntries bundle).length := allocAll_next _ _
  refine ⟨(toSbin _ fun ref member => Nat.lt_add_right 2 (startRefs ref member)).trans loaded,
    ?_, ?_⟩
  · calc xz.1.view (withoutInit ++ [init.2] ++ xz.2)
        = xz.1.view withoutInit ++ xz.1.view [init.2] ++ xz.1.view xz.2 := by
          simp only [EntryHeap.view, List.map_append]
      _ = entries.filter (·.name ≠ ascii "init") ++ addedEntries bundle := by
          rw [filtered, initView, xzView, addedEntries]
          simp
  · intro ref member
    simp only [List.mem_append, List.mem_singleton, initRef] at member
    rcases member with old | (kept | rfl) | added
    · have := startRefs ref old
      omega
    · have := sbinRefs ref (List.mem_of_mem_filter kept)
      omega
    · omega
    · exact (allocAll_refs_lt _ _ ref added).2

/-- Every new entry is still there after the backup and the config are appended. -/
theorem mem_backup_magisk_of_mem (order : SetOrder) {heap : EntryHeap}
    {oldEntries newEntries : List Nat} (config : List UInt8)
    (input : BackupInput heap oldEntries newEntries) {entry : CpioEntry}
    (member : entry ∈ heap.view newEntries) :
    entry ∈ ((applyMagiskBackup order heap oldEntries newEntries).1.alloc
        (newFile (ascii ".backup/.magisk") 0 config)).1.view
      ((applyMagiskBackup order heap oldEntries newEntries).2 ++
        [((applyMagiskBackup order heap oldEntries newEntries).1.alloc
          (newFile (ascii ".backup/.magisk") 0 config)).2]) := by
  obtain ⟨ref, inRefs, named⟩ := List.mem_map.mp
    ((@mem_applyMagiskBackup order heap oldEntries newEntries input _).mpr (.inl member))
  exact List.mem_map.mpr ⟨ref, List.mem_append_left _ inRefs,
    (EntryHeap.alloc_objects_of_lt (applyMagiskBackup_refs_lt input ref inRefs)).trans named⟩

section LoadedRamdisk

variable {entries : List CpioEntry}

/-- A loaded ramdisk with the conditions below, seen as old entries, with the new entries `_patch`
builds from it: a valid input of `_apply_magisk_backup`, in which an old `.magisk` is kept. -/
theorem backupInput_of_views (bundle : MagiskBundle) {heap : EntryHeap}
    {oldEntries newEntries : List Nat} (fresh : ∀ ref ∈ oldEntries ++ newEntries, ref < heap.next)
    (oldView : heap.view oldEntries = entries)
    (newView : heap.view newEntries =
      entries.filter (·.name ≠ ascii "init") ++ addedEntries bundle)
    (distinct : (entries.map (·.name)).Nodup) (nulFree : ∀ entry ∈ entries, 0 ∉ entry.name)
    (outsideBackup : ∀ entry ∈ entries, ¬ ascii ".backup" <+: entry.name)
    (notAdded : ∀ entry ∈ entries, entry.name ∈ magiskPaths → entry.name = ascii "init") :
    BackupInput heap oldEntries newEntries ∧
      ∀ entry ∈ heap.view oldEntries, entry.name = ascii ".magisk" →
        ∃ other ∈ heap.view newEntries, other.name = entry.name ∧ other.content = entry.content := by
  have added : ∀ entry ∈ addedEntries bundle, entry.name ∈ magiskPaths := fun entry member =>
    (map_name_addedEntries_sublist bundle).subset (List.mem_map_of_mem _ member)
  have plain : ∀ entry ∈ entries ++ (entries.filter (·.name ≠ ascii "init") ++ addedEntries bundle),
      0 ∉ entry.name ∧ ¬ ascii ".backup" <+: entry.name := by
    intro entry member
    rcases List.mem_append.mp member with loaded | member
    · exact ⟨nulFree entry loaded, outsideBackup entry loaded⟩
    rcases List.mem_append.mp member with kept | member
    · exact ⟨nulFree entry (List.mem_of_mem_filter kept),
        outsideBackup entry (List.mem_of_mem_filter kept)⟩
    · exact plain_magiskPaths _ (added entry member)
  have keeps : ∀ name, name ≠ ascii "init" → ∀ entry ∈ entries, entry.name = name →
      ∃ other ∈ entries.filter (·.name ≠ ascii "init") ++ addedEntries bundle,
        other.name = entry.name ∧ other.content = entry.content :=
    fun name notInit entry member named => ⟨entry,
      List.mem_append_left _ (List.mem_filter.mpr ⟨member, by simpa [named] using notInit⟩), rfl, rfl⟩
  have newDistinct : ((entries.filter (·.name ≠ ascii "init") ++ addedEntries bundle).map
      (·.name)).Nodup := by
    rw [List.map_append, List.nodup_append]
    refine ⟨distinct.sublist ((List.filter_sublist _).map _),
      magiskPaths_nodup.sublist (map_name_addedEntries_sublist bundle), ?_⟩
    intro name kept inAdded
    obtain ⟨entry, member, rfl⟩ := List.mem_map.mp kept
    obtain ⟨loaded, notInit⟩ := List.mem_filter.mp member
    exact of_decide_eq_true notInit (notAdded entry loaded
      ((map_name_addedEntries_sublist bundle).subset inAdded))
  rw [oldView, newView]
  exact ⟨⟨fresh, by rw [oldView]; exact distinct, by rw [newView]; exact newDistinct,
    by rw [oldView, newView]; exact fun entry member => (plain entry member).1,
    by rw [oldView, newView]; exact fun entry member => (plain entry member).2,
    by rw [oldView, newView]; exact keeps _ (by decide)⟩, keeps _ (by decide)⟩

/-- A loaded ramdisk that names each entry once, with NUL-free names, none under `.backup` and none
of `magiskPaths` but `init`: the list `_patch` hands to `_save_ramdisk` names every entry once. -/
theorem magiskEntries_nodup_names (order : SetOrder) (bundle : MagiskBundle) (config : List UInt8)
    (distinct : (entries.map (·.name)).Nodup) (nulFree : ∀ entry ∈ entries, 0 ∉ entry.name)
    (outsideBackup : ∀ entry ∈ entries, ¬ ascii ".backup" <+: entry.name)
    (notAdded : ∀ entry ∈ entries, entry.name ∈ magiskPaths → entry.name = ascii "init") :
    ((magiskSavedEntries order bundle config entries).map (·.name)).Nodup := by
  obtain ⟨oldView, newView, fresh⟩ := magiskEntries_backup_views bundle entries
  obtain ⟨input, magiskKept⟩ := backupInput_of_views bundle fresh oldView newView distinct nulFree
    outsideBackup notAdded
  exact nodup_names_backup_magisk order config input magiskKept

/-- In such a patched list the name `.backup/.magisk` finds the config `_patch` appended. -/
theorem contentByName_magiskEntries (order : SetOrder) (bundle : MagiskBundle) (config : List UInt8)
    (distinct : (entries.map (·.name)).Nodup) (nulFree : ∀ entry ∈ entries, 0 ∉ entry.name)
    (outsideBackup : ∀ entry ∈ entries, ¬ ascii ".backup" <+: entry.name)
    (notAdded : ∀ entry ∈ entries, entry.name ∈ magiskPaths → entry.name = ascii "init") :
    contentByName (magiskSavedEntries order bundle config entries) (ascii ".backup/.magisk") =
      some config :=
  have found := contentByName_of_mem (magiskEntries_nodup_names order bundle config distinct nulFree
    outsideBackup notAdded) (config_mem_magiskEntries order bundle config (some entries))
  found

/-- `_patch` keeps every loaded entry but `init` as it was. -/
theorem mem_magiskEntries_of_ne_init (order : SetOrder) (bundle : MagiskBundle)
    (config : List UInt8) (distinct : (entries.map (·.name)).Nodup)
    (nulFree : ∀ entry ∈ entries, 0 ∉ entry.name)
    (outsideBackup : ∀ entry ∈ entries, ¬ ascii ".backup" <+: entry.name)
    (notAdded : ∀ entry ∈ entries, entry.name ∈ magiskPaths → entry.name = ascii "init")
    {entry : CpioEntry} (member : entry ∈ entries) (notInit : entry.name ≠ ascii "init") :
    entry ∈ magiskSavedEntries order bundle config entries := by
  obtain ⟨oldView, newView, fresh⟩ := magiskEntries_backup_views bundle entries
  obtain ⟨input, -⟩ := backupInput_of_views bundle fresh oldView newView distinct nulFree
    outsideBackup notAdded
  exact mem_backup_magisk_of_mem order config input (newView ▸ List.mem_append_left _
    (List.mem_filter.mpr ⟨member, decide_eq_true notInit⟩))

/-- `_patch` on a boot image whose one ramdisk decodes to such entries, with a config it can
write: it returns, with the patched list saved in the ramdisk's own format. -/
theorem magiskRootPatch_eq_ok (codec : RamdiskCodec) (order : SetOrder) (bundle : MagiskBundle)
    (settings : MagiskSettings) (sha1 : List UInt8) {ramdisk config : List UInt8}
    {format : CompressionFormat} (loads : codec.load ramdisk = .ok (entries, format))
    (configured : magiskConfig settings sha1 = .ok config)
    (distinct : (entries.map (·.name)).Nodup) (nulFree : ∀ entry ∈ entries, 0 ∉ entry.name)
    (outsideBackup : ∀ entry ∈ entries, ¬ ascii ".backup" <+: entry.name)
    (notAdded : ∀ entry ∈ entries, entry.name ∈ magiskPaths → entry.name = ascii "init") :
    magiskRootPatch codec order bundle settings sha1 [ramdisk] =
      .ok [codec.encode (magiskSavedEntries order bundle config entries) format] := by
  have saved : saveRamdisk codec ((magiskEntries order bundle config (some entries)).1.view
      (magiskEntries order bundle config (some entries)).2) format = .ok _ :=
    if_pos (magiskEntries_nodup_names order bundle config distinct nulFree outsideBackup notAdded)
  rw [magiskRootPatch, if_neg (show ¬ 1 < [ramdisk].length from Nat.lt_irrefl 1)]
  simp only [loads, configured, saved, bind, Except.bind, pure, Except.pure]
  rfl

end LoadedRamdisk

/-- A bundle with the stub APK. -/
def sampleBundle : MagiskBundle :=
  ⟨[1], [2], [3], some [4]⟩

/-- A ramdisk that already has `overlay.d` gets a second one: the loaded directory stays, and
`_patch` appends its own. A ramdisk that already has `overlay.d/sbin/magisk64.xz` with other
content gets two entries `.backup/overlay.d/sbin/magisk64.xz`: `_apply_magisk_backup` renames the
loaded object, which `entries` still holds, and appends it once more. -/
theorem magiskEntries_duplicate_names :
    ((magiskEntries listOrder sampleBundle [] (some [newDirectory (ascii "overlay.d") 0o755])).1.view
      (magiskEntries listOrder sampleBundle [] (some [newDirectory (ascii "overlay.d") 0o755])).2
      |>.map (·.name) |>.count (ascii "overlay.d")) = 2 ∧
    ((magiskEntries listOrder sampleBundle []
        (some [newFile (ascii "overlay.d/sbin/magisk64.xz") 0o644 [9]])).1.view
      (magiskEntries listOrder sampleBundle []
        (some [newFile (ascii "overlay.d/sbin/magisk64.xz") 0o644 [9]])).2
      |>.map (·.name) |>.count (ascii ".backup/overlay.d/sbin/magisk64.xz")) = 2 := by
  decide

end Avbroot

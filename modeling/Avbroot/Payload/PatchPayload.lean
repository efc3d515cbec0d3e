/-
Module: Avbroot.Payload.PatchPayload
Purpose: `patch_ota_payload` of `main.py`, from the replacement loop to the `image_paths` dict it
  hands `ota.patch_payload`: the user's replacement images, the required images of
  `get_required_images`, extraction of the rest into `extract_dir`, the `apply_patches` workers
  writing patched boot images into `patch_dir`, the vbmeta planner and rebuild loop, and the
  deletion of untouched vbmeta images. The state is the `PayloadState` of the rebuild loop; every
  stage is a fold that points one key of `image_paths` at one new file. The worker pool runs its
  workers one after another in the order of `image_patches`; each worker reads and writes only its
  own key.
Trusted boundary: `ota.extract_images`, `boot.patch_boot`, `vbmeta.get_vbmeta_deps`, graphlib and
  `vbmeta.patch_vbmeta_image` are functions carried by a run; `ota.patch_payload` is represented by
  the state it is called with.
Main exports: BootPatch, PatchRun, replaceImagePaths, toExtract, extractImages, imagePatches,
  applyAllPatches, deleteUntouched, PatchRun.patchImages, patchOtaPayload, patchOtaPayload_eq_ok,
  patchImages_imagePaths, patchImages_files_changed
-/
import Avbroot.Payload.Partitions
import Avbroot.Payload.Rebuild

namespace Avbroot

/-- The boot image patches `patch_ota_payload` hands to `boot.patch_boot`. -/
inductive BootPatch where
  /-- `context.root_patch` -/
  | rootPatch
  /-- `boot.OtaCertPatch(context.cert_ota)` -/
  | otaCertPatch
  deriving DecidableEq, Repr

/-- One run of `patch_ota_payload`: the partition names of the manifest, the `PatchContext` fields
the image map depends on, the temporary directory, the files present when the run starts, and the
functions outside the source tree that the run calls. -/
structure PatchRun where
  /-- `set(p.partition_name for p in manifest.partitions)` -/
  allPartitions : List String
  /-- `context.replace_images`, in the order of the `--replace` options -/
  replaceImages : List (String × String)
  bootPartition : String
  /-- `context.root_patch is not None` -/
  withRoot : Bool
  /-- the directory `tempfile.TemporaryDirectory()` created -/
  tempDir : String
  /-- the working directory relative paths are read from -/
  cwd : List String
  files : List String → Option (List UInt8)
  /-- the image of a partition that `ota.extract_images` writes -/
  payloadImage : String → List UInt8
  /-- `boot.patch_boot`: the patched image, from the patches and the input image -/
  patchBoot : List BootPatch → Option (List UInt8) → List UInt8
  getVbmetaDeps : (String → Option String) → DepGraph
  /-- `graphlib.TopologicalSorter(graph).static_order()` -/
  staticOrder : DepGraph → List String
  patchVbmetaImage : (String → Option (List UInt8)) → Option (List UInt8) → List UInt8

/-- `extract_dir = os.path.join(temp_dir, 'extract')`. -/
def PatchRun.extractDir (run : PatchRun) : String :=
  pathJoin run.tempDir "extract"

/-- `patch_dir = os.path.join(temp_dir, 'patch')`. -/
def PatchRun.patchDir (run : PatchRun) : String :=
  pathJoin run.tempDir "patch"

/-- `os.path.join(extract_dir, f'{name}.img')`. -/
def extractedPath (extractDir name : String) : String :=
  pathJoin extractDir (name ++ ".img")

/-! ### The stages -/

/-- The replacement loop: `image_paths[name] = path` for each entry of `context.replace_images`, or
`ValueError(f'Cannot replace non-existent partition: {name}')` at the first unknown partition. -/
def replaceImagePaths (allPartitions : List String) :
    List (String × String) → (String → Option String) → Except String (String → Option String)
  | [], imagePaths => .ok imagePaths
  | (name, path) :: rest, imagePaths =>
    if name ∈ allPartitions then
      replaceImagePaths allPartitions rest (Function.update imagePaths name (some path))
    else .error ("Cannot replace non-existent partition: " ++ name)

/-- `to_extract = required_images.values() - image_paths.keys()`. -/
def toExtract (required : RequiredImages) (imagePaths : String → Option String) : List String :=
  required.values.filter fun name => (imagePaths name).isNone

/-- `image_paths[name] = os.path.join(extract_dir, f'{name}.img')`, and the image that
`ota.extract_images` writes to that path. -/
def extractImage (cwd : List String) (extractDir : String) (payloadImage : String → List UInt8)
    (state : PayloadState) (name : String) : PayloadState where
  imagePaths := Function.update state.imagePaths name (some (extractedPath extractDir name))
  files := Function.update state.files (resolvePath cwd (extractedPath extractDir name))
    (some (payloadImage name))

/-- `for name in to_extract: ...` followed by `ota.extract_images(..., extract_dir, to_extract)`. -/
def extractImages (cwd : List String) (extractDir : String) (payloadImage : String → List UInt8)
    (names : List String) (state : PayloadState) : PayloadState :=
  names.foldl (extractImage cwd extractDir payloadImage) state

/-- `image_patches.setdefault(image, []).append(patch)`. -/
def setdefaultAppend :
    List (String × List BootPatch) → String → BootPatch → List (String × List BootPatch)
  | [], image, patch => [(image, [patch])]
  | (key, patches) :: rest, image, patch =>
    if key = image then (key, patches ++ [patch]) :: rest
    else (key, patches) :: setdefaultAppend rest image patch

/-- `image_patches`: the root patch for the `@rootpatch` image when rooting, then `OtaCertPatch`
for the `@otacerts` image. -/
def imagePatches (required : RequiredImages) : List (String × List BootPatch) :=
  setdefaultAppend (required.rootpatch.elim [] fun root => setdefaultAppend [] root .rootPatch)
    required.otacerts .otaCertPatch

/-- `apply_patches(image, patches)`: `boot.patch_boot` reads `image_paths[image]` and writes
`os.path.join(patch_dir, f'{image}.img')`; then `image_paths[image] = patched_path`. -/
def applyPatches (cwd : List String) (patchDir : String)
    (patchBoot : List BootPatch → Option (List UInt8) → List UInt8) (state : PayloadState)
    (entry : String × List BootPatch) : PayloadState where
  imagePaths := Function.update state.imagePaths entry.1 (some (patchedPath patchDir entry.1))
  files := Function.update state.files (resolvePath cwd (patchedPath patchDir entry.1))
    (some (patchBoot entry.2 ((state.imagePaths entry.1).bind (state.read cwd))))

/-- The worker pool: one `apply_patches` per entry of `image_patches`. -/
def applyAllPatches (cwd : List String) (patchDir : String)
    (patchBoot : List BootPatch → Option (List UInt8) → List UInt8)
    (entries : List (String × List BootPatch)) (state : PayloadState) : PayloadState :=
  entries.foldl (applyPatches cwd patchDir patchBoot) state

/-- `for image in vbmeta_images - set(vbmeta_order): del image_paths[image]`. -/
def deleteUntouched (vbmetaImages : Finset String) (vbmetaOrder : List String)
    (imagePaths : String → Option String) : String → Option String :=
  fun n => if n ∈ vbmetaImages ∧ n ∉ vbmetaOrder then none else imagePaths n

namespace PatchRun

variable (run : PatchRun) (imagePaths : String → Option String) (required : RequiredImages)

/-- The state after extraction, from the `image_paths` of the replacement loop. -/
def extracted : PayloadState :=
  extractImages run.cwd run.extractDir run.payloadImage (toExtract required imagePaths)
    { imagePaths, files := run.files }

/-- The state after the boot patch workers. -/
def patched : PayloadState :=
  applyAllPatches run.cwd run.patchDir run.patchBoot (imagePatches required)
    (run.extracted imagePaths required)

/-- `vbmeta_deps, vbmeta_order = get_vbmeta_patch_order(avb, image_paths, vbmeta_images)`. -/
def planned : DepGraph × List String :=
  getVbmetaPatchOrder run.getVbmetaDeps (run.patched imagePaths required).imagePaths
    required.vbmeta.toFinset run.staticOrder

/-- The state after the vbmeta rebuild loop. -/
def rebuilt : PayloadState :=
  rebuildVbmetaImages run.cwd run.patchDir run.patchVbmetaImage (run.planned imagePaths required).1
    (run.planned imagePaths required).2 (run.patched imagePaths required)

/-- The state `ota.patch_payload` is called with: untouched vbmeta images deleted. -/
def patchImages : PayloadState where
  imagePaths := deleteUntouched required.vbmeta.toFinset (run.planned imagePaths required).2
    (run.rebuilt imagePaths required).imagePaths
  files := (run.rebuilt imagePaths required).files

end PatchRun

/-- `patch_ota_payload`: the state in which it calls `ota.patch_payload`, whose `image_paths`
argument is the state's `imagePaths`; or the error it raises. -/
def patchOtaPayload (run : PatchRun) : Except String PayloadState := do
  let imagePaths ← replaceImagePaths run.allPartitions run.replaceImages fun _ => none
  let required ← getRequiredImages run.allPartitions run.bootPartition run.withRoot
  pure (run.patchImages imagePaths required)

/-- A run reaches `ota.patch_payload` exactly when the replacement loop and `get_required_images`
both succeed. -/
theorem patchOtaPayload_eq_ok {run : PatchRun} {final : PayloadState} :
    patchOtaPayload run = .ok final ↔ ∃ imagePaths,
      replaceImagePaths run.allPartitions run.replaceImages (fun _ => none) = .ok imagePaths ∧
      ∃ required, getRequiredImages run.allPartitions run.bootPartition run.withRoot = .ok required ∧
        run.patchImages imagePaths required = final := by
  simp only [patchOtaPayload, except_bind_eq_ok, except_pure_eq_ok]

/-! ### Stage lemmas -/

/-- What the replacement loop puts in `image_paths`: a key for every replaced partition, each
mapped to one of its replacement paths. -/
theorem replaceImagePaths_eq_ok {allPartitions : List String} :
    ∀ {replaceImages : List (String × String)} {start imagePaths : String → Option String},
      replaceImagePaths allPartitions replaceImages start = .ok imagePaths →
      (∀ n, (imagePaths n).isSome ↔ n ∈ replaceImages.map Prod.fst ∨ (start n).isSome) ∧
      ∀ n path, imagePaths n = some path → (n, path) ∈ replaceImages ∨ start n = some path
  | [], start, imagePaths, replaced => by
    cases replaced
    simp
  | (name, path) :: rest, start, imagePaths, replaced => by
    simp only [replaceImagePaths] at replaced
    split_ifs at replaced with known
    obtain ⟨keys, values⟩ := replaceImagePaths_eq_ok replaced
    refine ⟨fun n => ?_, fun n found member => ?_⟩
    · by_cases same : n = name
      · subst same; simp [keys]
      · simp [keys, same]
    · rcases values n found member with inRest | earlier
      · exact .inl (List.mem_cons_of_mem _ inRest)
      · by_cases same : n = name
        · subst same
          simp only [Function.update_same, Option.some.injEq] at earlier
          exact .inl (earlier ▸ List.mem_cons_self _ _)
        · exact .inr (by simpa [same] using earlier)

/-!
### Stages that point one key at one new file

Extraction, the boot patch workers and the rebuild loop are folds whose step points one key of
`image_paths` at a path that depends only on the key, and writes only the file that path names.
-/

section OneFilePerKey

variable {α : Type} (step : PayloadState → α → PayloadState) (key : α → String)

theorem foldl_imagePaths (target : String → String)
    (points : ∀ state x, (step state x).imagePaths =
      Function.update state.imagePaths (key x) (some (target (key x))))
    (xs : List α) (state : PayloadState) (n : String) :
    (xs.foldl step state).imagePaths n =
      if n ∈ xs.map key then some (target n) else state.imagePaths n := by
  induction xs generalizing state with
  | nil => simp
  | cons x rest inductionHypothesis =>
    rw [List.foldl_cons, inductionHypothesis, points]
    by_cases later : n ∈ rest.map key
    · simp [later]
    · by_cases now : n = key x
      · subst now; simp
      · simp [later, now]

theorem foldl_files_changed (written : α → List String)
    (frame : ∀ state x file, file ≠ written x → (step state x).files file = state.files file)
    (xs : List α) (state : PayloadState) (file : List String)
    (changed : (xs.foldl step state).files file ≠ state.files file) :
    ∃ x ∈ xs, file = written x := by
  induction xs generalizing state with
  | nil => exact absurd rfl changed
  | cons x rest inductionHypothesis =>
    by_cases here : file = written x
    · exact ⟨x, List.mem_cons_self _ _, here⟩
    · obtain ⟨y, member, same⟩ :=
        inductionHypothesis (step state x) (by rwa [frame state x file here])
      exact ⟨y, List.mem_cons_of_mem _ member, same⟩

end OneFilePerKey

section Stages

variable {cwd : List String} {extractDir patchDir : String}
  {payloadImage : String → List UInt8}
  {patchBoot : List BootPatch → Option (List UInt8) → List UInt8}

theorem extractImages_imagePaths (names : List String) (state : PayloadState) (n : String) :
    (extractImages cwd extractDir payloadImage names state).imagePaths n =
      if n ∈ names then some (extractedPath extractDir n) else state.imagePaths n := by
  simpa using foldl_imagePaths (extractImage cwd extractDir payloadImage) id
    (extractedPath extractDir) (fun _ _ => rfl) names state n

theorem extractImages_files_changed {names : List String} {state : PayloadState}
    {file : List String}
    (changed : (extractImages cwd extractDir payloadImage names state).files file ≠
      state.files file) :
    ∃ name ∈ names, file = resolvePath cwd (extractedPath extractDir name) :=
  foldl_files_changed _ _ (fun _ _ _ other => Function.update_noteq other _ _) names state file
    changed

theorem applyAllPatches_imagePaths (entries : List (String × List BootPatch))
    (state : PayloadState) (n : String) :
    (applyAllPatches cwd patchDir patchBoot entries state).imagePaths n =
      if n ∈ entries.map Prod.fst then some (patchedPath patchDir n) else state.imagePaths n :=
  foldl_imagePaths _ Prod.fst (patchedPath patchDir) (fun _ _ => rfl) entries state n

theorem applyAllPatches_files_changed {entries : List (String × List BootPatch)}
    {state : PayloadState} {file : List String}
    (changed : (applyAllPatches cwd patchDir patchBoot entries state).files file ≠
      state.files file) :
    ∃ entry ∈ entries, file = resolvePath cwd (patchedPath patchDir entry.1) :=
  foldl_files_changed _ _ (fun _ _ _ other => Function.update_noteq other _ _) entries state file
    changed

end Stages

theorem mem_setdefaultAppend_keys (entries : List (String × List BootPatch)) (image : String)
    (patch : BootPatch) (n : String) :
    n ∈ (setdefaultAppend entries image patch).map Prod.fst ↔
      n ∈ entries.map Prod.fst ∨ n = image := by
  induction entries with
  | nil => simp [setdefaultAppend]
  | cons entry rest inductionHypothesis =>
    obtain ⟨key, patches⟩ := entry
    by_cases same : key = image
    · subst same
      simp only [setdefaultAppend, if_true, List.map_cons, List.mem_cons]
      tauto
    · simp only [setdefaultAppend, same, if_false, List.map_cons, List.mem_cons,
        inductionHypothesis, or_assoc]

/-- `image_patches` has an entry for the `@otacerts` image and, when rooting, the `@rootpatch`
image, and for no other image. -/
theorem mem_imagePatches_keys (required : RequiredImages) (n : String) :
    n ∈ (imagePatches required).map Prod.fst ↔ n = required.otacerts ∨ n ∈ required.rootpatch := by
  cases root : required.rootpatch <;>
    simp only [imagePatches, root, Option.elim, mem_setdefaultAppend_keys, List.map_nil,
      List.not_mem_nil, false_or, Option.mem_def, Option.some.injEq, reduceCtorEq, or_false]
  exact or_comm.trans (or_congr_right eq_comm)

/-! ### The image map handed to `ota.patch_payload` -/

section Run

variable {run : PatchRun} {imagePaths : String → Option String} {required : RequiredImages}

theorem mem_vbmeta_of_mem_planned {n : String} (ordered : n ∈ (run.planned imagePaths required).2) :
    n ∈ required.vbmeta :=
  List.mem_toFinset.mp (of_decide_eq_true (List.mem_filter.mp ordered).2)

/-- Every image a worker patches or the loop rebuilds is a required image. -/
theorem mem_values_of_patched {n : String}
    (patchedOrRebuilt : n ∈ (run.planned imagePaths required).2 ∨ n = required.otacerts ∨
      n ∈ required.rootpatch) : n ∈ required.values := by
  simp only [RequiredImages.values, List.mem_cons, List.mem_append, Option.mem_toList]
  rcases patchedOrRebuilt with ordered | otacerts | root
  · exact .inl (.inr (mem_vbmeta_of_mem_planned ordered))
  · exact .inl (.inl otacerts)
  · exact .inr root

/-- Where each key of the final `image_paths` points: nowhere for a vbmeta image the planner
dropped, into `patch_dir` for an image a worker patched or the loop rebuilt, into `extract_dir` for
any other extracted image, and otherwise where the replacement loop put it. -/
theorem patchImages_imagePaths (n : String) :
    (run.patchImages imagePaths required).imagePaths n =
      if n ∈ required.vbmeta ∧ n ∉ (run.planned imagePaths required).2 then none
      else if n ∈ (run.planned imagePaths required).2 ∨ n = required.otacerts ∨
          n ∈ required.rootpatch then some (patchedPath run.patchDir n)
      else if n ∈ toExtract required imagePaths then some (extractedPath run.extractDir n)
      else imagePaths n := by
  simp only [PatchRun.patchImages, deleteUntouched, List.mem_toFinset, PatchRun.rebuilt,
    rebuildVbmetaImages_imagePaths, PatchRun.patched, applyAllPatches_imagePaths,
    mem_imagePatches_keys, PatchRun.extracted, extractImages_imagePaths]
  by_cases ordered : n ∈ (run.planned imagePaths required).2 <;> simp [ordered]

/-- The keys of the final `image_paths`: every replaced or required image, except the vbmeta images
the planner dropped, replaced ones included. -/
theorem patchImages_keys
    (replaced : replaceImagePaths run.allPartitions run.replaceImages (fun _ => none) =
      .ok imagePaths) (n : String) :
    ((run.patchImages imagePaths required).imagePaths n).isSome ↔
      (n ∈ run.replaceImages.map Prod.fst ∨ n ∈ required.values) ∧
        ¬ (n ∈ required.vbmeta ∧ n ∉ (run.planned imagePaths required).2) := by
  have keys := fun n => (replaceImagePaths_eq_ok replaced).1 n
  simp only [Option.isSome_none, Bool.false_eq_true, or_false] at keys
  rw [patchImages_imagePaths]
  split_ifs with dropped patchedOrRebuilt extracted
  · simp [dropped]
  · exact iff_of_true rfl ⟨.inr (mem_values_of_patched patchedOrRebuilt), dropped⟩
  · exact iff_of_true rfl ⟨.inr (List.mem_filter.mp extracted).1, dropped⟩
  · rw [keys, and_iff_left dropped]
    refine ⟨.inl, fun member => member.elim id fun required => (keys n).mp ?_⟩
    simpa [toExtract, required, Option.isSome_iff_ne_none] using extracted

/-- A run writes only the extracted and the patched paths of its required images. -/
theorem patchImages_files_changed {file : List String}
    (changed : (run.patchImages imagePaths required).files file ≠ run.files file) :
    ∃ name ∈ required.values, file = resolvePath run.cwd (extractedPath run.extractDir name) ∨
      file = resolvePath run.cwd (patchedPath run.patchDir name) := by
  by_cases rebuiltHere :
      (run.rebuilt imagePaths required).files file = (run.patched imagePaths required).files file
  · by_cases patchedHere :
        (run.patched imagePaths required).files file = (run.extracted imagePaths required).files file
    · rw [PatchRun.patchImages, rebuiltHere, patchedHere] at changed
      obtain ⟨name, member, rfl⟩ := extractImages_files_changed changed
      exact ⟨name, (List.mem_filter.mp member).1, .inl rfl⟩
    · obtain ⟨entry, member, rfl⟩ := applyAllPatches_files_changed patchedHere
      have key := (mem_imagePatches_keys required entry.1).mp (List.mem_map_of_mem _ member)
      exact ⟨entry.1, mem_values_of_patched (.inr key : entry.1 ∈ (run.planned imagePaths
        required).2 ∨ _), .inr rfl⟩
  · have written : ∃ u ∈ (run.planned imagePaths required).2,
        resolvePath run.cwd (patchedPath run.patchDir u) = file := by
      by_contra untouched
      push_neg at untouched
      exact rebuiltHere (rebuildVbmetaImages_files_of_not_written _ _ _ _ _ _ _ untouched)
    obtain ⟨u, member, rfl⟩ := written
    exact ⟨u, mem_values_of_patched (.inl member), .inr rfl⟩

end Run

/-!
### Where the created images live

For a partition name without a separator, the extracted and the patched image are files of the
`extract` and `patch` subdirectories of the temporary directory, named after the partition.
-/

theorem imageName_injective {a b : String} (same : a ++ ".img" = b ++ ".img") : a = b := by
  have data := congrArg String.data same
  simp only [String.data_append] at data
  exact String.ext (List.append_cancel_right data)

theorem resolvePath_extractedPath (run : PatchRun) {name : String} (plain : '/' ∉ name.data) :
    resolvePath run.cwd (extractedPath run.extractDir name) =
      resolvePath run.cwd run.tempDir ++ ["extract", name ++ ".img"] := by
  rw [extractedPath, resolvePath_imagePath _ _ _ plain, PatchRun.extractDir,
    resolvePath_subdirectory _ _ _ (by decide) (by decide)]
  simp

theorem resolvePath_patchedPath (run : PatchRun) {name : String} (plain : '/' ∉ name.data) :
    resolvePath run.cwd (patchedPath run.patchDir name) =
      resolvePath run.cwd run.tempDir ++ ["patch", name ++ ".img"] := by
  rw [patchedPath, resolvePath_imagePath _ _ _ plain, PatchRun.patchDir,
    resolvePath_subdirectory _ _ _ (by decide) (by decide)]
  simp

/-- What it means for a run to create its images inside the temporary directory: every path it
computes for an extracted or a patched image names a file strictly inside the directory, distinct
partitions get distinct files, and an extracted and a patched image never share one; the run
changes no file outside the directory; and every key of the final `image_paths` names either a file
inside it or a replacement file the user gave for that partition. -/
structure CreatesInsideTempDir (run : PatchRun) (final : PayloadState) : Prop where
  inside : ∀ name ∈ run.allPartitions,
    IsInside (resolvePath run.cwd run.tempDir)
        (resolvePath run.cwd (extractedPath run.extractDir name)) ∧
      IsInside (resolvePath run.cwd run.tempDir)
        (resolvePath run.cwd (patchedPath run.patchDir name))
  distinct : ∀ a ∈ run.allPartitions, ∀ b ∈ run.allPartitions, a ≠ b →
    resolvePath run.cwd (extractedPath run.extractDir a) ≠
        resolvePath run.cwd (extractedPath run.extractDir b) ∧
      resolvePath run.cwd (patchedPath run.patchDir a) ≠
        resolvePath run.cwd (patchedPath run.patchDir b)
  apart : ∀ a ∈ run.allPartitions, ∀ b ∈ run.allPartitions,
    resolvePath run.cwd (extractedPath run.extractDir a) ≠
      resolvePath run.cwd (patchedPath run.patchDir b)
  files : ∀ file, final.files file ≠ run.files file →
    IsInside (resolvePath run.cwd run.tempDir) file
  imagePaths : ∀ n path, final.imagePaths n = some path →
    (n, path) ∈ run.replaceImages ∨
      IsInside (resolvePath run.cwd run.tempDir) (resolvePath run.cwd path)

/-- A run whose manifest has no partition name containing a separator creates its images inside
the temporary directory. -/
theorem patchOtaPayload_paths_inside_tempDir (run : PatchRun)
    (plain : ∀ name ∈ run.allPartitions, '/' ∉ name.data) {final : PayloadState}
    (ran : patchOtaPayload run = .ok final) : CreatesInsideTempDir run final := by
  obtain ⟨imagePaths, replaced, required, built, rfl⟩ := patchOtaPayload_eq_ok.mp ran
  have partition := mem_values_of_getRequiredImages built
  have inside : ∀ name ∈ run.allPartitions,
      IsInside (resolvePath run.cwd run.tempDir)
          (resolvePath run.cwd (extractedPath run.extractDir name)) ∧
        IsInside (resolvePath run.cwd run.tempDir)
          (resolvePath run.cwd (patchedPath run.patchDir name)) := fun name member =>
    ⟨⟨_, List.cons_ne_nil _ _, resolvePath_extractedPath run (plain name member)⟩,
      ⟨_, List.cons_ne_nil _ _, resolvePath_patchedPath run (plain name member)⟩⟩
  refine ⟨inside, fun a aIn b bIn differ => ?_, fun a aIn b bIn same => ?_,
    fun file changed => ?_, fun n path found => ?_⟩
  · rw [resolvePath_extractedPath run (plain a aIn), resolvePath_extractedPath run (plain b bIn),
      resolvePath_patchedPath run (plain a aIn), resolvePath_patchedPath run (plain b bIn)]
    constructor <;> intro same <;>
      exact differ (imageName_injective (by simpa using same))
  · rw [resolvePath_extractedPath run (plain a aIn), resolvePath_patchedPath run (plain b bIn)]
      at same
    simp at same
  · obtain ⟨name, member, rfl | rfl⟩ := patchImages_files_changed changed
    · exact (inside name (partition name member)).1
    · exact (inside name (partition name member)).2
  · rw [patchImages_imagePaths] at found
    split_ifs at found with dropped patchedOrRebuilt extracted
    · cases found
      exact .inr (inside n (partition n (mem_values_of_patched patchedOrRebuilt))).2
    · cases found
      exact .inr (inside n (partition n (List.mem_filter.mp extracted).1)).1
    · exact .inl (by simpa using (replaceImagePaths_eq_ok replaced).2 n path found)

/-!
### A replaced vbmeta image that the planner drops
-/

/-- The dependencies `get_vbmeta_deps` reports on a device where `vbmeta` hashes `boot` and chains
`vbmeta_system`, which covers `system`. -/
def chainedVbmetaDeps : (String → Option String) → DepGraph := fun _ =>
  { nodes := {"vbmeta", "vbmeta_system"}
    deps := fun n => if n = "vbmeta" then {"boot", "vbmeta_system"} else {"system"} }

/-- A rootless run on that device in which the user replaces `vbmeta_system`. -/
def replacedVbmetaRun : PatchRun where
  allPartitions := ["boot", "system", "vbmeta", "vbmeta_system"]
  replaceImages := [("vbmeta_system", "/home/user/vbmeta_system.img")]
  bootPartition := "@gki_ramdisk"
  withRoot := false
  tempDir := "/tmp/t"
  cwd := []
  files file := if file = ["home", "user", "vbmeta_system.img"] then some [7] else none
  payloadImage _ := [0]
  patchBoot _ input := input.getD []
  getVbmetaDeps := chainedVbmetaDeps
  staticOrder _ := ["boot", "vbmeta"]
  patchVbmetaImage _ input := input.getD []

/-- `image_paths` after the replacement loop of that run. -/
def replacedVbmetaPaths : String → Option String :=
  Function.update (fun _ => none) "vbmeta_system" (some "/home/user/vbmeta_system.img")

/-- `get_required_images` of that run. -/
def replacedVbmetaRequired : RequiredImages :=
  { otacerts := "boot", vbmeta := ["vbmeta", "vbmeta_system"], rootpatch := none }

theorem replacedVbmetaRun_ok :
    patchOtaPayload replacedVbmetaRun =
      .ok (replacedVbmetaRun.patchImages replacedVbmetaPaths replacedVbmetaRequired) :=
  patchOtaPayload_eq_ok.mpr ⟨_, rfl, _, rfl, rfl⟩

/-- In that run the replaced `vbmeta_system` is a key of the final `image_paths` exactly when the
planner keeps it. -/
theorem replacedVbmetaRun_keys :
    ((replacedVbmetaRun.patchImages replacedVbmetaPaths replacedVbmetaRequired).imagePaths
        "vbmeta_system").isSome ↔
      ("vbmeta_system" ∈ replacedVbmetaRun.replaceImages.map Prod.fst ∨
          "vbmeta_system" ∈ replacedVbmetaRequired.values) ∧
        ¬ ("vbmeta_system" ∈ replacedVbmetaRequired.vbmeta ∧ "vbmeta_system" ∉
          (replacedVbmetaRun.planned replacedVbmetaPaths replacedVbmetaRequired).2) :=
  have replaced : replaceImagePaths replacedVbmetaRun.allPartitions replacedVbmetaRun.replaceImages
      (fun _ => none) = .ok replacedVbmetaPaths := rfl
  patchImages_keys replaced "vbmeta_system"

theorem replacedVbmeta_pruned_nodes :
    (replacedVbmetaRun.planned replacedVbmetaPaths replacedVbmetaRequired).1.nodes = {"vbmeta"} := by
  show (pruneUnneeded _ _).nodes = _
  rw [pruneUnneeded, dif_neg (by decide), pruneUnneeded, dif_pos (by decide)]
  decide

theorem replacedVbmeta_pruned_deps :
    (replacedVbmetaRun.planned replacedVbmetaPaths replacedVbmetaRequired).1.deps "vbmeta" =
      {"boot"} := by
  show (pruneUnneeded _ _).deps _ = _
  rw [pruneUnneeded, dif_neg (by decide), pruneUnneeded, dif_pos (by decide)]
  decide

/-- On an acyclic layout with a valid static order, the run reaches `ota.patch_payload` with no
entry for the replaced `vbmeta_system`: it has no dependency left among the images of the run, so
the planner drops it and the deletion loop removes the user's replacement. The rebuilt `vbmeta`
depends on `boot` alone. -/
theorem patchOtaPayload_drops_replaced_vbmeta :
    patchOtaPayload replacedVbmetaRun =
      .ok (replacedVbmetaRun.patchImages replacedVbmetaPaths replacedVbmetaRequired) ∧
    (∀ paths, (replacedVbmetaRun.getVbmetaDeps paths).Acyclic) ∧
    IsStaticOrder (replacedVbmetaRun.planned replacedVbmetaPaths replacedVbmetaRequired).1
      ["boot", "vbmeta"] ∧
    ("vbmeta_system", "/home/user/vbmeta_system.img") ∈ replacedVbmetaRun.replaceImages ∧
    (replacedVbmetaRun.planned replacedVbmetaPaths replacedVbmetaRequired).2 = ["vbmeta"] ∧
    (replacedVbmetaRun.planned replacedVbmetaPaths replacedVbmetaRequired).1.deps "vbmeta" =
      {"boot"} ∧
    (replacedVbmetaRun.patchImages replacedVbmetaPaths replacedVbmetaRequired).imagePaths
      "vbmeta_system" = none := by
  refine ⟨replacedVbmetaRun_ok, fun _ => ?_, ⟨by decide, fun x => ?_, fun pre n post split d edge =>
    ?_⟩, by decide, by decide, replacedVbmeta_pruned_deps, by decide⟩
  · refine DepGraph.acyclic_of_rank
      (fun n => if n = "vbmeta" then 2 else if n = "vbmeta_system" then 1 else 0) fun d n edge => ?_
    simp only [DepGraph.Edge, replacedVbmetaRun, chainedVbmetaDeps, Finset.mem_insert,
      Finset.mem_singleton] at edge
    obtain ⟨rfl | rfl, dependency⟩ := edge <;> simp at dependency
    · rcases dependency with rfl | rfl <;> decide
    · subst dependency; decide
  · simp only [replacedVbmeta_pruned_nodes, Finset.mem_singleton, exists_eq_left,
      replacedVbmeta_pruned_deps, List.mem_cons, List.not_mem_nil, or_false]
    tauto
  · simp only [DepGraph.Edge, replacedVbmeta_pruned_nodes, Finset.mem_singleton] at edge
    obtain ⟨rfl, dependency⟩ := edge
    rw [replacedVbmeta_pruned_deps, Finset.mem_singleton] at dependency
    subst dependency
    rcases pre with _ | ⟨a, _ | ⟨b, rest⟩⟩ <;> simp_all

/-- The same run creates its images inside the temporary directory. -/
theorem replacedVbmetaRun_creates_inside :
    (∀ name ∈ replacedVbmetaRun.allPartitions, '/' ∉ name.data) ∧
    patchOtaPayload replacedVbmetaRun =
      .ok (replacedVbmetaRun.patchImages replacedVbmetaPaths replacedVbmetaRequired) ∧
    CreatesInsideTempDir replacedVbmetaRun
      (replacedVbmetaRun.patchImages replacedVbmetaPaths replacedVbmetaRequired) :=
  ⟨by decide, replacedVbmetaRun_ok,
    patchOtaPayload_paths_inside_tempDir replacedVbmetaRun (by decide) replacedVbmetaRun_ok⟩

/-!
### A partition name that escapes the temporary directory
-/

/-- A rootless run on a manifest with a partition named `/vbmeta`. -/
def escapingRun : PatchRun where
  allPartitions := ["boot", "/vbmeta"]
  replaceImages := []
  bootPartition := "@gki_ramdisk"
  withRoot := false
  tempDir := "/tmp/t"
  cwd := []
  files _ := none
  payloadImage _ := [1]
  patchBoot _ input := input.getD []
  getVbmetaDeps _ := { nodes := {"/vbmeta"}, deps := fun _ => ∅ }
  staticOrder _ := []
  patchVbmetaImage _ input := input.getD []

/-- `get_required_images` of that run. -/
def escapingRequired : RequiredImages :=
  { otacerts := "boot", vbmeta := ["/vbmeta"], rootpatch := none }

/-- `/vbmeta` is extracted to `os.path.join(extract_dir, '/vbmeta.img')`, which is `/vbmeta.img`:
the run reaches `ota.patch_payload` having written the file `/vbmeta.img`, outside `/tmp/t`. -/
theorem patchOtaPayload_extracts_outside_tempDir :
    patchOtaPayload escapingRun = .ok (escapingRun.patchImages (fun _ => none) escapingRequired) ∧
    resolvePath escapingRun.cwd (extractedPath escapingRun.extractDir "/vbmeta") =
      ["vbmeta.img"] ∧
    ¬ IsInside (resolvePath escapingRun.cwd escapingRun.tempDir) ["vbmeta.img"] ∧
    escapingRun.files ["vbmeta.img"] = none ∧
    (escapingRun.patchImages (fun _ => none) escapingRequired).files ["vbmeta.img"] = some [1] := by
  refine ⟨patchOtaPayload_eq_ok.mpr ⟨_, rfl, _, rfl, rfl⟩, by decide, ?_, rfl, by decide⟩
  rintro ⟨rest, -, same⟩
  simp [escapingRun, resolvePath, resolveFrom, enterComponent] at same

end Avbroot

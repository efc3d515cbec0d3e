/-
Module: Avbroot.Payload.Partitions
Purpose: `get_partitions_by_type` and `get_required_images` of `main.py`: which partition plays each
  role of `PARTITION_PRIORITIES` (`@gki_kernel`, `@gki_ramdisk`, `@otacerts`), which partitions are
  vbmeta images (`@vbmeta:<name>` for every name containing `vbmeta`), and which images a patch run
  needs. The `by_type` dict is a record with one field per fixed role and the list of vbmeta
  partitions; `PartitionsByType.lookup` is its `in` and `[]`. Failures are `Except` errors carrying
  the text of the `ValueError` the source raises.
Trusted boundary: none; the manifest is reduced to its partition names, the only part read here.
Main exports: findRole, getPartitionsByType, RequiredImages, requiredRootPatch,
  getRequiredImages, mem_values_of_getRequiredImages, getRequiredImages_vbmeta
-/
import Mathlib.Data.List.Infix
import Avbroot.Python.Builtins

namespace Avbroot

/-! ### Roles -/

/-- One iteration of the loop over `PARTITION_PRIORITIES`: the first candidate present in the
manifest, or `ValueError(f'Cannot find partition of type: {t}')`. -/
def findRole (allPartitions : List String) (role : String × List String) : Except String String :=
  match role.2.find? (· ∈ allPartitions) with
  | some partition => .ok partition
  | none => .error ("Cannot find partition of type: " ++ role.1)

/-- `'vbmeta' in partition`. -/
def isVbmetaName (partition : String) : Bool :=
  decide ("vbmeta".data <:+: partition.data)

/-- The dict `get_partitions_by_type` returns. -/
structure PartitionsByType where
  gkiKernel : String
  gkiRamdisk : String
  otacerts : String
  vbmeta : List String

/-- `key in by_type` and `by_type[key]`. -/
def PartitionsByType.lookup (byType : PartitionsByType) (key : String) : Option String :=
  if key = "@gki_kernel" then some byType.gkiKernel
  else if key = "@gki_ramdisk" then some byType.gkiRamdisk
  else if key = "@otacerts" then some byType.otacerts
  else byType.vbmeta.find? fun partition => "@vbmeta:" ++ partition = key

/-- `get_partitions_by_type(manifest)`, with the manifest given by its partition names and the three
entries of `PARTITION_PRIORITIES` in their order. -/
def getPartitionsByType (allPartitions : List String) : Except String PartitionsByType := do
  let gkiKernel ← findRole allPartitions ("@gki_kernel", ["boot"])
  let gkiRamdisk ← findRole allPartitions ("@gki_ramdisk", ["init_boot", "boot"])
  let otacerts ← findRole allPartitions ("@otacerts", ["recovery", "vendor_boot", "boot"])
  pure { gkiKernel, gkiRamdisk, otacerts, vbmeta := allPartitions.filter isVbmetaName }

/-! ### Required images -/

/-- The dict `get_required_images` returns: the `@otacerts` partition, every `@vbmeta:*` partition,
and the `@rootpatch` partition when rooting. -/
structure RequiredImages where
  otacerts : String
  vbmeta : List String
  rootpatch : Option String

/-- `required_images.values()`. -/
def RequiredImages.values (required : RequiredImages) : List String :=
  required.otacerts :: required.vbmeta ++ required.rootpatch.toList

/-- `images['@rootpatch']` when `with_root`: a role is resolved through `by_type`, an actual
partition name is used as it is, anything else is
`ValueError(f'Boot partition not found: {boot_partition}')`. -/
def requiredRootPatch (allPartitions : List String) (byType : PartitionsByType)
    (bootPartition : String) (withRoot : Bool) : Except String (Option String) :=
  if withRoot then
    match byType.lookup bootPartition with
    | some partition => .ok (some partition)
    | none =>
      if bootPartition ∈ allPartitions then .ok (some bootPartition)
      else .error ("Boot partition not found: " ++ bootPartition)
  else .ok none

/-- `get_required_images(manifest, boot_partition, with_root)`. -/
def getRequiredImages (allPartitions : List String) (bootPartition : String) (withRoot : Bool) :
    Except String RequiredImages := do
  let byType ← getPartitionsByType allPartitions
  let rootpatch ← requiredRootPatch allPartitions byType bootPartition withRoot
  pure { otacerts := byType.otacerts, vbmeta := byType.vbmeta, rootpatch }

theorem mem_of_findRole {allPartitions : List String} {role : String × List String}
    {partition : String} (found : findRole allPartitions role = .ok partition) :
    partition ∈ allPartitions := by
  unfold findRole at found
  split at found
  · rename_i first
    cases found
    simpa using List.find?_some first
  · cases found

/-- What `get_partitions_by_type` returns when it returns. -/
theorem getPartitionsByType_eq_ok {allPartitions : List String} {byType : PartitionsByType}
    (built : getPartitionsByType allPartitions = .ok byType) :
    byType.gkiKernel ∈ allPartitions ∧ byType.gkiRamdisk ∈ allPartitions ∧
      byType.otacerts ∈ allPartitions ∧ byType.vbmeta = allPartitions.filter isVbmetaName := by
  simp only [getPartitionsByType, except_bind_eq_ok, except_pure_eq_ok] at built
  obtain ⟨kernel, kernelFound, ramdisk, ramdiskFound, otacerts, otacertsFound, rfl⟩ := built
  exact ⟨mem_of_findRole kernelFound, mem_of_findRole ramdiskFound, mem_of_findRole otacertsFound,
    rfl⟩

/-- The root patch partition, when there is one, is a partition of the manifest; there is one
exactly when rooting. -/
theorem requiredRootPatch_eq_ok {allPartitions : List String} {byType : PartitionsByType}
    (built : getPartitionsByType allPartitions = .ok byType) {bootPartition : String}
    {withRoot : Bool} {rootpatch : Option String}
    (found : requiredRootPatch allPartitions byType bootPartition withRoot = .ok rootpatch) :
    (∀ partition ∈ rootpatch, partition ∈ allPartitions) ∧ (rootpatch.isSome ↔ withRoot = true) := by
  obtain ⟨kernel, ramdisk, otacerts, vbmeta⟩ := getPartitionsByType_eq_ok built
  unfold requiredRootPatch at found
  cases withRoot
  · cases found; simp
  · simp only [if_true] at found
    split at found
    · rename_i looked
      cases found
      refine ⟨fun partition same => ?_, by simp⟩
      cases same
      unfold PartitionsByType.lookup at looked
      split_ifs at looked <;> (try cases looked) <;> try assumption
      rw [vbmeta] at looked
      exact (List.mem_filter.mp (List.mem_of_find?_eq_some looked)).1
    · split_ifs at found with present
      cases found
      exact ⟨fun partition same => by cases same; exact present, by simp⟩

/-- What `get_required_images` returns when it returns: the `@otacerts` partition and the vbmeta
partitions of `get_partitions_by_type`, and a root patch partition of the manifest exactly when
rooting. -/
theorem getRequiredImages_eq_ok {allPartitions : List String} {bootPartition : String}
    {withRoot : Bool} {required : RequiredImages}
    (built : getRequiredImages allPartitions bootPartition withRoot = .ok required) :
    ∃ byType, getPartitionsByType allPartitions = .ok byType ∧
      required.otacerts = byType.otacerts ∧ required.vbmeta = byType.vbmeta ∧
      (∀ partition ∈ required.rootpatch, partition ∈ allPartitions) ∧
      (required.rootpatch.isSome ↔ withRoot = true) := by
  simp only [getRequiredImages, except_bind_eq_ok, except_pure_eq_ok] at built
  obtain ⟨byType, typed, rootpatch, rooted, rfl⟩ := built
  exact ⟨byType, typed, rfl, rfl, requiredRootPatch_eq_ok typed rooted⟩

/-- Every required image is a partition of the manifest. -/
theorem mem_values_of_getRequiredImages {allPartitions : List String} {bootPartition : String}
    {withRoot : Bool} {required : RequiredImages}
    (built : getRequiredImages allPartitions bootPartition withRoot = .ok required) :
    ∀ name ∈ required.values, name ∈ allPartitions := by
  obtain ⟨byType, typed, otacerts, vbmeta, rootpatch, -⟩ := getRequiredImages_eq_ok built
  obtain ⟨-, -, otacertsIn, vbmetaFiltered⟩ := getPartitionsByType_eq_ok typed
  intro name member
  simp only [RequiredImages.values, List.mem_cons, List.mem_append, Option.mem_toList] at member
  rcases member with (rfl | inVbmeta) | inRoot
  · exact otacerts ▸ otacertsIn
  · rw [vbmeta, vbmetaFiltered] at inVbmeta
    exact (List.mem_filter.mp inVbmeta).1
  · exact rootpatch name inRoot

/-- The vbmeta images of a run are the partitions whose name contains `vbmeta`. -/
theorem getRequiredImages_vbmeta {allPartitions : List String} {bootPartition : String}
    {withRoot : Bool} {required : RequiredImages}
    (built : getRequiredImages allPartitions bootPartition withRoot = .ok required) :
    required.vbmeta = allPartitions.filter isVbmetaName := by
  obtain ⟨byType, typed, -, vbmeta, -⟩ := getRequiredImages_eq_ok built
  exact vbmeta.trans (getPartitionsByType_eq_ok typed).2.2.2

end Avbroot

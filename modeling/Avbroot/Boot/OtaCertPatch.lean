/-
Module: Avbroot.Boot.OtaCertPatch
Purpose: `OtaCertPatch.patch` of `boot.py`: for each ramdisk of the boot image in turn, decode it,
  take the first entry named `system/etc/security/otacerts.zip`, give that object the new archive
  as content and save the ramdisk again in its own format; raise when no ramdisk has the entry.
  `boot_image.ramdisks[i] = ...` replaces the ramdisks in place as the loop goes, so a call that
  raises part way leaves the ramdisks before that point re-saved; the model returns the ramdisks as
  the call leaves them together with its outcome. The object `next` finds was made by
  `_load_ramdisk` and only `entries` holds it, so setting its content is a list update at its
  position.
Trusted boundary: the archive built from `cert_ota` with `zipfile` is an input (`otacertsZip`);
  decoding and encoding are those of `RamdiskCodec`.
Main exports: otacertsPath, findOtacerts, setContent, patchRamdisk, otaCertLoop, otaCertPatch,
  replaceAll, expectedRamdisk, otaCertPatch_replaces_otacerts
-/
import Avbroot.Boot.Ramdisk

namespace Avbroot

/-- `OtaCertPatch.OTACERTS_PATH`. -/
def otacertsPath : List UInt8 :=
  ascii "system/etc/security/otacerts.zip"

/-- The exception of a patch that finds no ramdisk with the archive,
`f'{self.OTACERTS_PATH} not found in ramdisk'` of a `bytes` value. -/
def otacertsNotFound : String :=
  "b'system/etc/security/otacerts.zip' not found in ramdisk"

/-- `next((e for e in entries if e.name == self.OTACERTS_PATH), None)`. -/
def findOtacerts (entries : List CpioEntry) : Option CpioEntry :=
  entries.find? fun entry => entry.name = otacertsPath

/-- `otacerts.content = ...` on the first entry named `name`. -/
def setContent (name content : List UInt8) : List CpioEntry → List CpioEntry
  | [] => []
  | entry :: rest =>
    if entry.name = name then { entry with content } :: rest else entry :: setContent name content rest

/-- The body of the loop on one ramdisk: `none` for `continue`, or the ramdisk saved again. -/
def patchRamdisk (codec : RamdiskCodec) (otacertsZip : List UInt8) (ramdisk : List UInt8) :
    Except String (Option (List UInt8)) := do
  let decoded ← codec.load ramdisk
  match findOtacerts decoded.1 with
  | none => pure none
  | some _ => some <$> saveRamdisk codec (setContent otacertsPath otacertsZip decoded.1) decoded.2

/-- `for i, ramdisk in enumerate(boot_image.ramdisks)` from `found_otacerts = found`: the ramdisks
as the loop leaves them, and `found_otacerts` after it or the exception that ended it. -/
def otaCertLoop (codec : RamdiskCodec) (otacertsZip : List UInt8) (found : Bool) :
    List (List UInt8) → List (List UInt8) × Except String Bool
  | [] => ([], .ok found)
  | ramdisk :: rest =>
    match patchRamdisk codec otacertsZip ramdisk with
    | .error message => (ramdisk :: rest, .error message)
    | .ok none =>
      let after := otaCertLoop codec otacertsZip found rest
      (ramdisk :: after.1, after.2)
    | .ok (some saved) =>
      let after := otaCertLoop codec otacertsZip true rest
      (saved :: after.1, after.2)

/-- `OtaCertPatch.patch` on the ramdisks of a boot image: the ramdisks as the call leaves them, and
whether it returned or raised. -/
def otaCertPatch (codec : RamdiskCodec) (otacertsZip : List UInt8) (ramdisks : List (List UInt8)) :
    List (List UInt8) × Except String Unit :=
  let after := otaCertLoop codec otacertsZip false ramdisks
  (after.1, match after.2 with
    | .error message => .error message
    | .ok found => if found then .ok () else .error otacertsNotFound)

/-! ### What the patch is for

Every entry named `system/etc/security/otacerts.zip`, in every ramdisk, holds the new archive;
every other entry, and every ramdisk without the archive, is left as it was. -/

/-- Every entry named `system/etc/security/otacerts.zip` with the new archive as content. -/
def replaceAll (otacertsZip : List UInt8) (entries : List CpioEntry) : List CpioEntry :=
  entries.map fun entry =>
    if entry.name = otacertsPath then { entry with content := otacertsZip } else entry

/-- A ramdisk after the patch, from what it decodes to: encoded again in its own format with every
archive replaced when it has one, unchanged otherwise. -/
def expectedRamdisk (codec : RamdiskCodec) (otacertsZip : List UInt8) (ramdisk : List UInt8)
    (decoded : List CpioEntry × CompressionFormat) : List UInt8 :=
  if otacertsPath ∈ decoded.1.map (·.name) then codec.encode (replaceAll otacertsZip decoded.1) decoded.2
  else ramdisk

theorem findOtacerts_eq_none {entries : List CpioEntry} :
    findOtacerts entries = none ↔ otacertsPath ∉ entries.map (·.name) := by
  simp [findOtacerts, List.find?_eq_none]

@[simp] theorem map_name_setContent (name content : List UInt8) (entries : List CpioEntry) :
    (setContent name content entries).map (·.name) = entries.map (·.name) := by
  induction entries with
  | nil => rfl
  | cons entry rest inductionHypothesis =>
    unfold setContent
    split <;> simp [*]

@[simp] theorem map_name_replaceAll (otacertsZip : List UInt8) (entries : List CpioEntry) :
    (replaceAll otacertsZip entries).map (·.name) = entries.map (·.name) := by
  simp only [replaceAll, List.map_map]
  refine List.map_congr_left fun entry _ => ?_
  by_cases named : entry.name = otacertsPath <;> simp [named]

/-- An entry of another name is left as it was. -/
theorem mem_replaceAll_of_ne (otacertsZip : List UInt8) {entries : List CpioEntry}
    {entry : CpioEntry} (member : entry ∈ entries) (other : entry.name ≠ otacertsPath) :
    entry ∈ replaceAll otacertsZip entries :=
  List.mem_map.mpr ⟨entry, member, if_neg other⟩

/-- An entry of the archive's name gets the new archive. -/
theorem mem_replaceAll_of_eq (otacertsZip : List UInt8) {entries : List CpioEntry}
    {entry : CpioEntry} (member : entry ∈ entries) (named : entry.name = otacertsPath) :
    { entry with content := otacertsZip } ∈ replaceAll otacertsZip entries :=
  List.mem_map.mpr ⟨entry, member, if_pos named⟩

/-- With no name twice, setting the first entry of a name sets every entry of it. -/
theorem setContent_eq_replaceAll (otacertsZip : List UInt8) {entries : List CpioEntry}
    (distinct : (entries.map (·.name)).Nodup) :
    setContent otacertsPath otacertsZip entries = replaceAll otacertsZip entries := by
  induction entries with
  | nil => rfl
  | cons entry rest inductionHypothesis =>
    rw [List.map_cons, List.nodup_cons] at distinct
    unfold setContent replaceAll
    split
    · next named =>
      have untouched : ∀ other ∈ rest, other.name ≠ otacertsPath := fun other member same =>
        distinct.1 (named ▸ same ▸ List.mem_map_of_mem _ member)
      have unchanged : rest.map (fun other => if other.name = otacertsPath then
          { other with content := otacertsZip } else other) = rest :=
        (List.map_congr_left fun other member => if_neg (untouched other member)).trans
          (List.map_id' rest)
      simp only [named, ite_true, List.map_cons, unchanged]
    · next named =>
      rw [List.map_cons, if_neg named, inductionHypothesis distinct.2, replaceAll]

/-- One pass of the loop body, on a ramdisk that decodes and names no entry twice if it has the
archive. -/
theorem patchRamdisk_of_load {codec : RamdiskCodec} {otacertsZip ramdisk : List UInt8}
    {decoded : List CpioEntry × CompressionFormat} (loads : codec.load ramdisk = .ok decoded)
    (distinct : otacertsPath ∈ decoded.1.map (·.name) → (decoded.1.map (·.name)).Nodup) :
    patchRamdisk codec otacertsZip ramdisk =
      .ok (if otacertsPath ∈ decoded.1.map (·.name) then
        some (codec.encode (replaceAll otacertsZip decoded.1) decoded.2) else none) := by
  simp only [patchRamdisk, loads, bind, Except.bind]
  split
  · next absent => rw [if_neg (findOtacerts_eq_none.mp absent)]; rfl
  · next found =>
    have present : otacertsPath ∈ decoded.1.map (·.name) := by
      by_contra absent
      rw [findOtacerts_eq_none.mpr absent] at found
      cases found
    rw [if_pos present, saveRamdisk, map_name_setContent, if_pos (distinct present),
      setContent_eq_replaceAll _ (distinct present)]
    rfl

/-- The whole loop, on ramdisks that all decode and name no entry twice when they have the
archive. -/
theorem otaCertLoop_of_load (codec : RamdiskCodec) (otacertsZip : List UInt8) (found : Bool)
    (ramdisks : List (List UInt8)) (decoded : List (List CpioEntry × CompressionFormat))
    (loads : ramdisks.map codec.load = decoded.map .ok)
    (distinct : ∀ entries ∈ decoded,
      otacertsPath ∈ entries.1.map (·.name) → (entries.1.map (·.name)).Nodup) :
    otaCertLoop codec otacertsZip found ramdisks =
      (List.zipWith (expectedRamdisk codec otacertsZip) ramdisks decoded,
        .ok (found || decoded.any fun entries => otacertsPath ∈ entries.1.map (·.name))) := by
  induction ramdisks generalizing found decoded with
  | nil =>
    cases decoded with
    | nil => simp [otaCertLoop]
    | cons _ _ => simp at loads
  | cons ramdisk rest inductionHypothesis =>
    cases decoded with
    | nil => simp at loads
    | cons first others =>
      simp only [List.map_cons, List.cons.injEq] at loads
      have restDistinct := fun entries member => distinct entries (List.mem_cons_of_mem _ member)
      rw [otaCertLoop, patchRamdisk_of_load loads.1 (distinct first (List.mem_cons_self _ _))]
      by_cases present : otacertsPath ∈ first.1.map (·.name)
      · simp only [if_pos present, inductionHypothesis _ _ loads.2 restDistinct,
          List.zipWith_cons_cons, expectedRamdisk, List.any_cons, decide_eq_true present,
          Bool.true_or, Bool.or_true]
      · simp only [if_neg present, inductionHypothesis _ _ loads.2 restDistinct,
          List.zipWith_cons_cons, expectedRamdisk, List.any_cons, decide_eq_false present,
          Bool.false_or]

/-- Ramdisks none of which has the archive are left as they were. -/
theorem zipWith_expectedRamdisk_of_absent {codec : RamdiskCodec} {otacertsZip : List UInt8}
    {ramdisks : List (List UInt8)} {decoded : List (List CpioEntry × CompressionFormat)}
    (lengths : ramdisks.length = decoded.length)
    (absent : ∀ entries ∈ decoded, otacertsPath ∉ entries.1.map (·.name)) :
    List.zipWith (expectedRamdisk codec otacertsZip) ramdisks decoded = ramdisks := by
  induction ramdisks generalizing decoded with
  | nil => rfl
  | cons ramdisk rest inductionHypothesis =>
    cases decoded with
    | nil => cases lengths
    | cons first others =>
      rw [List.zipWith_cons_cons, expectedRamdisk, if_neg (absent first (List.mem_cons_self _ _)),
        inductionHypothesis (Nat.succ.inj lengths) fun entries member =>
          absent entries (List.mem_cons_of_mem _ member)]

/-- On a boot image whose ramdisks all decode, and where a ramdisk that has the archive names no
entry twice: the patch raises exactly when no ramdisk has the archive, and then leaves every
ramdisk as it was; otherwise every ramdisk with the archive is saved again, in its own format,
with every archive replaced and every other entry in its place, and every other ramdisk is left as
it was. -/
theorem otaCertPatch_replaces_otacerts (codec : RamdiskCodec) (otacertsZip : List UInt8)
    (ramdisks : List (List UInt8)) (decoded : List (List CpioEntry × CompressionFormat))
    (loads : ramdisks.map codec.load = decoded.map .ok)
    (distinct : ∀ entries ∈ decoded,
      otacertsPath ∈ entries.1.map (·.name) → (entries.1.map (·.name)).Nodup) :
    (otaCertPatch codec otacertsZip ramdisks).2 =
      (if decoded.any fun entries => otacertsPath ∈ entries.1.map (·.name) then .ok ()
        else .error otacertsNotFound) ∧
    (otaCertPatch codec otacertsZip ramdisks).1 =
      List.zipWith (expectedRamdisk codec otacertsZip) ramdisks decoded ∧
    ((otaCertPatch codec otacertsZip ramdisks).2 = .error otacertsNotFound →
      (otaCertPatch codec otacertsZip ramdisks).1 = ramdisks) := by
  have loop := otaCertLoop_of_load codec otacertsZip false ramdisks decoded loads distinct
  have outcome : (otaCertPatch codec otacertsZip ramdisks).2 =
      (if decoded.any fun entries => otacertsPath ∈ entries.1.map (·.name) then .ok ()
        else .error otacertsNotFound) := by
    simp only [otaCertPatch, loop, Bool.false_or]
  refine ⟨outcome, by simp only [otaCertPatch, loop], fun raised => ?_⟩
  rw [outcome] at raised
  have absent : ∀ entries ∈ decoded, otacertsPath ∉ entries.1.map (·.name) := by
    split at raised
    · cases raised
    · next noneFound => simpa using noneFound
  have lengths : ramdisks.length = decoded.length := by
    simpa using congrArg List.length loads
  simp only [otaCertPatch, loop]
  exact zipWith_expectedRamdisk_of_absent lengths absent

/-- A codec for two ramdisks: `[1]` holds the archive and `init`, `[2]` only `init`. -/
def sampleCodec : RamdiskCodec where
  load ramdisk := if ramdisk = [1] then
      .ok ([newFile otacertsPath 0o644 [5], newFile (ascii "init") 0o750 [6]], .lz4Legacy)
    else .ok ([newFile (ascii "init") 0o750 [6]], .gzip)
  encode entries _ := entries.flatMap (·.content)

/-- What `sampleCodec` decodes the two ramdisks to. -/
def sampleDecoded : List (List CpioEntry × CompressionFormat) :=
  [([newFile otacertsPath 0o644 [5], newFile (ascii "init") 0o750 [6]], .lz4Legacy),
    ([newFile (ascii "init") 0o750 [6]], .gzip)]

theorem sampleCodec_replaces_otacerts :
    ([[1], [2]].map sampleCodec.load = sampleDecoded.map .ok ∧
      ∀ entries ∈ sampleDecoded,
        otacertsPath ∈ entries.1.map (·.name) → (entries.1.map (·.name)).Nodup) ∧
    ((otaCertPatch sampleCodec [9] [[1], [2]]).2 =
      (if sampleDecoded.any fun entries => otacertsPath ∈ entries.1.map (·.name) then .ok ()
        else .error otacertsNotFound) ∧
    (otaCertPatch sampleCodec [9] [[1], [2]]).1 =
      List.zipWith (expectedRamdisk sampleCodec [9]) [[1], [2]] sampleDecoded ∧
    ((otaCertPatch sampleCodec [9] [[1], [2]]).2 = .error otacertsNotFound →
      (otaCertPatch sampleCodec [9] [[1], [2]]).1 = [[1], [2]])) :=
  have loads : [[1], [2]].map sampleCodec.load = sampleDecoded.map .ok := rfl
  have distinct : ∀ entries ∈ sampleDecoded,
      otacertsPath ∈ entries.1.map (·.name) → (entries.1.map (·.name)).Nodup := by decide
  ⟨⟨loads, distinct⟩,
    otaCertPatch_replaces_otacerts sampleCodec [9] [[1], [2]] sampleDecoded loads distinct⟩

/-- A ramdisk that decodes to the archive twice. -/
def twiceOtacertsCodec : RamdiskCodec where
  load _ := .ok ([newFile otacertsPath 0o644 [1], newFile otacertsPath 0o644 [2]], .gzip)
  encode entries _ := entries.flatMap (·.content)

/-- A ramdisk with the archive twice: `next` finds and replaces the first, the second keeps the
old certificate, and `_save_ramdisk` refuses the list, so the patch raises although the ramdisk
has the archive, and the ramdisk is not re-saved. -/
theorem otaCertPatch_twice_otacerts_raises :
    (twiceOtacertsCodec.load [0] = .ok ([newFile otacertsPath 0o644 [1],
      newFile otacertsPath 0o644 [2]], .gzip)) ∧
    (otaCertPatch twiceOtacertsCodec [9] [[0]]).2 = .error "InvalidRamdisk" ∧
    (otaCertPatch twiceOtacertsCodec [9] [[0]]).1 = [[0]] :=
  ⟨rfl, rfl, rfl⟩

end Avbroot

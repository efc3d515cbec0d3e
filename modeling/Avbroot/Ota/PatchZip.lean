/-
Module: Avbroot.Ota.PatchZip
Purpose: The entry loop of `patch_ota_zip` in `main.py`. A scan over `z_in.infolist()` checks that
  the five required entries are present, noting the index of the last `payload.bin` and of the
  last `payload_properties.txt` seen before it stops, which it does as soon as all five have been
  seen. When that `payload.bin` comes later, the two swap places, so that the payload is patched
  (which yields the properties) before the properties are written. The emission loop then strips
  the extra field of every entry, sets aside the two metadata entries, writes the user's
  certificate for `otacert`, patches the payload, writes the properties and copies the rest. An
  exception ends the call; what `z_out` holds then is not modelled. The main results say in which
  order the entries are written, and that whatever the order every entry written comes from an
  entry of the input with the data of its branch.
Trusted boundary: `patch_ota_payload` is an input (`patchPayload`: the new payload and its
  properties from the old payload's data); the certificate file is an input (`certOta`). What
  follows the loop (the regenerated metadata and the signature) is not modelled. Python prints the
  missing names in the set's hash order; the model prints them in the order of `requiredPaths`.
Main exports: ZipEntry, requiredPaths, ScanState, scanStep, scanFrom, swapEntries, EmitState,
  emitEntry, patchOtaZip, scanned, scanFrom_scanned, Emittable, PayloadFirst,
  foldlM_emitEntry_eq_ok, foldlM_emitEntry_eq_error, exchangePayload, patchOtaZip_writes_in_order,
  WrittenFrom, EmitInvariant, emitInvariant_emitEntry,
  emitInvariant_patchOtaZip, patchOtaZip_written_from, patchOtaZip_written_extra_clean
-/
import Avbroot.Ota.ExtraFields
import Avbroot.Python.Builtins

namespace Avbroot

/-- `PATH_METADATA`. -/
def pathMetadata : String :=
  "META-INF/com/android/metadata"

/-- `PATH_METADATA_PB = f'{PATH_METADATA}.pb'`. -/
def pathMetadataPb : String :=
  pathMetadata ++ ".pb"

/-- `PATH_OTACERT`. -/
def pathOtacert : String :=
  "META-INF/com/android/otacert"

/-- `PATH_PAYLOAD`. -/
def pathPayload : String :=
  "payload.bin"

/-- `PATH_PROPERTIES`. -/
def pathProperties : String :=
  "payload_properties.txt"

/-- A member of a zip as `patch_ota_zip` uses it: `ZipInfo.filename`, `.extra`, whether
`.compress_type` is `ZIP_STORED`, and its data. -/
structure ZipEntry where
  filename : String
  extra : List UInt8
  stored : Bool
  data : List UInt8
deriving DecidableEq, Repr

/-! ### The scan -/

/-- The set `missing` starts from. -/
def requiredPaths : List String :=
  [pathMetadata, pathMetadataPb, pathOtacert, pathPayload, pathProperties]

/-- `missing`, `i_payload` and `i_properties`. -/
structure ScanState where
  missing : List String
  iPayload : Int
  iProperties : Int
deriving DecidableEq, Repr

/-- The scan before its first entry. -/
def ScanState.initial : ScanState :=
  ⟨requiredPaths, -1, -1⟩

/-- The body of the scan on entry `i`. -/
def scanStep (state : ScanState) (i : Nat) (filename : String) : ScanState where
  missing := if filename ∈ state.missing then state.missing.erase filename else state.missing
  iPayload := if filename = pathPayload then i else state.iPayload
  iProperties := if filename = pathPayload then state.iProperties
    else if filename = pathProperties then i else state.iProperties

/-- `not missing and i_payload >= 0 and i_properties >= 0`. -/
def ScanState.done (state : ScanState) : Bool :=
  state.missing = [] ∧ 0 ≤ state.iPayload ∧ 0 ≤ state.iProperties

/-- `for i, info in enumerate(infolist)` from entry `i` on, with its `break`. -/
def scanFrom (state : ScanState) (i : Nat) : List String → ScanState
  | [] => state
  | filename :: rest =>
    let state := scanStep state i filename
    if state.done then state else scanFrom state (i + 1) rest

/-- `infolist[i], infolist[j] = infolist[j], infolist[i]`. -/
def swapEntries (infolist : List ZipEntry) (i j : Nat) : List ZipEntry :=
  match infolist[i]?, infolist[j]? with
  | some first, some second => (infolist.set i second).set j first
  | _, _ => infolist

/-- `f'Missing files in zip: {missing}'`. -/
def missingMessage (missing : List String) : String :=
  "Missing files in zip: \x7b" ++ ", ".intercalate (missing.map fun name => "'" ++ name ++ "'") ++
    "\x7d"

/-! ### The emission loop -/

/-- `properties`, `metadata_info`, `metadata_pb_info` and `metadata_pb_raw`, and the entries
written to `z_out` so far, each with the data written. -/
structure EmitState where
  written : List ZipEntry
  properties : Option (List UInt8)
  metadataInfo : Option ZipEntry
  metadataPbInfo : Option ZipEntry
  metadataPbRaw : Option (List UInt8)
deriving DecidableEq, Repr

/-- The loop's variables before its first entry. -/
def EmitState.initial : EmitState :=
  ⟨[], none, none, none, none⟩

/-- `f'{info.filename} is not stored uncompressed'`. -/
def notStoredMessage (filename : String) : String :=
  filename ++ " is not stored uncompressed"

/-- The `TypeError` of `f_out.write(None)`. -/
def noneWriteMessage : String :=
  "memoryview: a bytes-like object is required, not 'NoneType'"

/-- The payload branch: `patch_ota_payload` writes the new payload and returns the properties. -/
def emitPayload (patchPayload : List UInt8 → Except String (List UInt8 × List UInt8))
    (state : EmitState) (info outInfo : ZipEntry) : Except String EmitState :=
  if info.stored then
    match patchPayload info.data with
    | .ok patched =>
      let payload := { outInfo with data := patched.1 }
      .ok { state with written := state.written ++ [payload], properties := some patched.2 }
    | .error message => .error message
  else .error (notStoredMessage info.filename)

/-- The properties branch: `f_out.write(properties)`. -/
def emitProperties (state : EmitState) (info outInfo : ZipEntry) : Except String EmitState :=
  if info.stored then
    match state.properties with
    | some properties =>
      let written := { outInfo with data := properties }
      .ok { state with written := state.written ++ [written] }
    | none => .error noneWriteMessage
  else .error (notStoredMessage info.filename)

/-- The body of the emission loop on one entry. -/
def emitEntry (certOta : List UInt8)
    (patchPayload : List UInt8 → Except String (List UInt8 × List UInt8)) (state : EmitState)
    (info : ZipEntry) : Except String EmitState :=
  match stripBadExtraFields info.extra with
  | .error message => .error message
  | .ok extra =>
    let outInfo := { info with extra }
    if info.filename = pathMetadata then .ok { state with metadataInfo := some outInfo }
    else if info.filename = pathMetadataPb then
      .ok { state with metadataPbInfo := some outInfo, metadataPbRaw := some info.data }
    else if info.filename = pathOtacert then
      let certificate := { outInfo with data := certOta }
      .ok { state with written := state.written ++ [certificate] }
    else if info.filename = pathPayload then emitPayload patchPayload state info outInfo
    else if info.filename = pathProperties then emitProperties state info outInfo
    else .ok { state with written := state.written ++ [outInfo] }

/-- The entry loop of `patch_ota_zip`: the scan, the swap and the emission loop. -/
def patchOtaZip (certOta : List UInt8)
    (patchPayload : List UInt8 → Except String (List UInt8 × List UInt8))
    (infolist : List ZipEntry) : Except String EmitState :=
  let scan := scanFrom ScanState.initial 0 (infolist.map (·.filename))
  if scan.missing ≠ [] then .error (missingMessage scan.missing)
  else
    let infolist := if scan.iPayload > scan.iProperties then
        swapEntries infolist scan.iPayload.toNat scan.iProperties.toNat
      else infolist
    infolist.foldlM (emitEntry certOta patchPayload) EmitState.initial

/-! ### The scan

With `payload.bin` and `payload_properties.txt` each at most once, what the scan has noted after
a prefix `seen` of the names is `scanned seen`: the required names not yet seen, and the index of
each of the two where it has been seen. -/

/-- The scan's variables after the names `seen`. -/
def scanned (seen : List String) : ScanState where
  missing := requiredPaths.filter (· ∉ seen)
  iPayload := if pathPayload ∈ seen then seen.indexOf pathPayload else -1
  iProperties := if pathProperties ∈ seen then seen.indexOf pathProperties else -1

/-- An entry the emission loop gets through when `properties` is set. -/
structure Emittable (patchPayload : List UInt8 → Except String (List UInt8 × List UInt8))
    (info : ZipEntry) : Prop where
  strips : ∃ extra, stripBadExtraFields info.extra = .ok extra
  payload : info.filename = pathPayload → info.stored ∧ ∃ patched, patchPayload info.data = .ok patched
  properties : info.filename = pathProperties → info.stored

/-- Every `payload_properties.txt` of the names comes after a `payload.bin`, unless `ready`. -/
def PayloadFirst : Bool → List String → Prop
  | _, [] => True
  | ready, filename :: rest =>
    (filename = pathProperties → ready = true) ∧
      PayloadFirst (ready || decide (filename = pathPayload)) rest

/-- One pass of the emission loop on an entry it gets through. -/
theorem emitEntry_eq_ok {patchPayload : List UInt8 → Except String (List UInt8 × List UInt8)}
    {info : ZipEntry} (emittable : Emittable patchPayload info) (certOta : List UInt8)
    (state : EmitState) (ready : info.filename = pathProperties → state.properties.isSome) :
    ∃ next, emitEntry certOta patchPayload state info = .ok next ∧
      next.written.map (·.filename) = state.written.map (·.filename) ++
        (if info.filename ∈ [pathMetadata, pathMetadataPb] then [] else [info.filename]) ∧
      next.properties.isSome = (state.properties.isSome || decide (info.filename = pathPayload)) := by
  obtain ⟨extra, stripped⟩ := emittable.strips
  simp only [emitEntry, stripped]
  by_cases metadata : info.filename = pathMetadata
  · rw [if_pos metadata]
    exact ⟨_, rfl, by simp [metadata], by simp [metadata, pathMetadata, pathPayload]⟩
  rw [if_neg metadata]
  by_cases metadataPb : info.filename = pathMetadataPb
  · rw [if_pos metadataPb]
    exact ⟨_, rfl, by simp [metadataPb],
      by simp [metadataPb, pathMetadataPb, pathMetadata, pathPayload]⟩
  rw [if_neg metadataPb]
  have kept : info.filename ∉ [pathMetadata, pathMetadataPb] := by simp [metadata, metadataPb]
  by_cases otacert : info.filename = pathOtacert
  · rw [if_pos otacert]
    exact ⟨_, rfl, by simp [kept], by simp [otacert, pathOtacert, pathPayload]⟩
  rw [if_neg otacert]
  by_cases payload : info.filename = pathPayload
  · rw [if_pos payload]
    obtain ⟨stored, patched, patches⟩ := emittable.payload payload
    exact ⟨_, by rw [emitPayload, if_pos stored, patches], by simp [kept], by simp [payload]⟩
  rw [if_neg payload]
  by_cases properties : info.filename = pathProperties
  · rw [if_pos properties]
    obtain ⟨value, set⟩ := Option.isSome_iff_exists.mp (ready properties)
    exact ⟨_, by rw [emitProperties, if_pos (emittable.properties properties), set], by simp [kept],
      by simp [set, payload]⟩
  rw [if_neg properties]
  exact ⟨_, rfl, by simp [kept], by simp [payload]⟩

/-- A properties entry while `properties` is unset: the loop writes `None`. -/
theorem emitEntry_eq_error {patchPayload : List UInt8 → Except String (List UInt8 × List UInt8)}
    {info : ZipEntry} (emittable : Emittable patchPayload info) (certOta : List UInt8)
    {state : EmitState} (properties : info.filename = pathProperties)
    (unset : state.properties = none) :
    emitEntry certOta patchPayload state info = .error noneWriteMessage := by
  obtain ⟨extra, stripped⟩ := emittable.strips
  have stored := emittable.properties properties
  simp only [emitEntry, stripped, properties]
  simp [emitProperties, stored, unset, pathProperties, pathMetadata, pathMetadataPb, pathOtacert,
    pathPayload]

/-- The emission loop over entries it gets through, when some properties entry comes before every
payload entry: it writes `None`. -/
theorem foldlM_emitEntry_eq_error (certOta : List UInt8)
    (patchPayload : List UInt8 → Except String (List UInt8 × List UInt8)) :
    ∀ (infolist : List ZipEntry) (state : EmitState),
      (∀ info ∈ infolist, Emittable patchPayload info) →
      ¬ PayloadFirst state.properties.isSome (infolist.map (·.filename)) →
      infolist.foldlM (emitEntry certOta patchPayload) state = .error noneWriteMessage
  | [], _, _, notFirst => absurd trivial notFirst
  | info :: rest, state, emittable, notFirst => by
    have first := emittable info (List.mem_cons_self _ _)
    by_cases early : info.filename = pathProperties ∧ state.properties = none
    · rw [List.foldlM_cons, emitEntry_eq_error first certOta early.1 early.2]
      rfl
    · have now : info.filename = pathProperties → state.properties.isSome := fun properties =>
        Option.ne_none_iff_isSome.mp fun unset => early ⟨properties, unset⟩
      obtain ⟨next, emitted, -, properties⟩ := emitEntry_eq_ok first certOta state now
      have later : ¬ PayloadFirst next.properties.isSome (rest.map (·.filename)) := by
        rw [properties]
        exact fun later => notFirst ⟨now, later⟩
      rw [List.foldlM_cons, emitted]
      exact foldlM_emitEntry_eq_error certOta patchPayload rest next
        (fun other member => emittable other (List.mem_cons_of_mem _ member)) later

/-! ### One `payload.bin` and one `payload_properties.txt`

Then the scan finds the two, the swap puts the payload first, and the loop writes every entry but
the metadata in input order, the two exchanged when the payload came later. -/

/-- The swap only moves entries of the list. -/
theorem mem_of_mem_swapEntries {infolist : List ZipEntry} {i j : Nat} {info : ZipEntry}
    (member : info ∈ swapEntries infolist i j) : info ∈ infolist := by
  unfold swapEntries at member
  split at member
  · rename_i first second atI atJ
    rcases List.mem_or_eq_of_mem_set member with member | rfl
    · rcases List.mem_or_eq_of_mem_set member with member | rfl
      · exact member
      · exact List.getElem?_mem atJ
    · exact List.getElem?_mem atI
  · exact member

section Content

variable (certOta : List UInt8) (patchPayload : List UInt8 → Except String (List UInt8 × List UInt8))
  (infolist : List ZipEntry)

/-- Properties `patch_ota_payload` returned for the data of a `payload.bin` of the input. -/
def PatchedProperties (properties : List UInt8) : Prop :=
  ∃ info ∈ infolist, info.filename = pathPayload ∧
    ∃ payload, patchPayload info.data = .ok (payload, properties)

/-- The data the loop writes for an entry named `filename` whose own data is `data`: the user's
certificate, the patched payload, the properties of a patched payload, or the entry's data. -/
def WrittenData (filename : String) (data written : List UInt8) : Prop :=
  if filename = pathOtacert then written = certOta
  else if filename = pathPayload then ∃ properties, patchPayload data = .ok (written, properties)
  else if filename = pathProperties then PatchedProperties patchPayload infolist written
  else written = data

/-- `out` is what the loop writes for the input entry `info`. -/
structure WrittenFrom (info out : ZipEntry) : Prop where
  filename : out.filename = info.filename
  stored : out.stored = info.stored
  stripped : stripBadExtraFields info.extra = .ok out.extra
  notMetadata : out.filename ∉ [pathMetadata, pathMetadataPb]
  data : WrittenData certOta patchPayload infolist info.filename info.data out.data

/-- The invariant of the emission loop: what is written so far comes from entries of the input, and
the properties held come from a payload of the input. -/
structure EmitInvariant (state : EmitState) : Prop where
  written : ∀ out ∈ state.written, ∃ info ∈ infolist, WrittenFrom certOta patchPayload infolist info out
  properties : ∀ properties, state.properties = some properties →
    PatchedProperties patchPayload infolist properties

theorem emitInvariant_initial : EmitInvariant certOta patchPayload infolist EmitState.initial :=
  ⟨nofun, nofun⟩

variable {certOta patchPayload infolist}

/-- Writing one more entry for an input entry keeps the invariant. -/
theorem EmitInvariant.append {state : EmitState} {info out : ZipEntry} {properties : Option (List UInt8)}
    (invariant : EmitInvariant certOta patchPayload infolist state) (member : info ∈ infolist)
    (from_ : WrittenFrom certOta patchPayload infolist info out)
    (held : ∀ p, properties = some p → PatchedProperties patchPayload infolist p) :
    EmitInvariant certOta patchPayload infolist
      { state with written := state.written ++ [out], properties } := by
  refine ⟨fun written member' => ?_, held⟩
  rcases List.mem_append.mp member' with earlier | last
  · exact invariant.written written earlier
  · rw [List.mem_singleton] at last
    exact last ▸ ⟨info, member, from_⟩

/-- One pass of the emission loop on an entry of the input keeps the invariant. -/
theorem emitInvariant_emitEntry {state next : EmitState} {info : ZipEntry} (member : info ∈ infolist)
    (invariant : EmitInvariant certOta patchPayload infolist state)
    (emitted : emitEntry certOta patchPayload state info = .ok next) :
    EmitInvariant certOta patchPayload infolist next := by
  unfold emitEntry at emitted
  cases stripped : stripBadExtraFields info.extra with
  | error message => rw [stripped] at emitted; cases emitted
  | ok extra =>
    rw [stripped] at emitted
    dsimp only at emitted
    have written : ∀ {data}, info.filename ∉ [pathMetadata, pathMetadataPb] →
        WrittenData certOta patchPayload infolist info.filename info.data data →
        WrittenFrom certOta patchPayload infolist info { info with extra, data } :=
      fun notMetadata data => ⟨rfl, rfl, stripped, notMetadata, data⟩
    have notMetadata : info.filename ≠ pathMetadata → info.filename ≠ pathMetadataPb →
        info.filename ∉ [pathMetadata, pathMetadataPb] := fun metadata metadataPb named => by
      simp only [List.mem_cons, List.not_mem_nil, or_false] at named
      exact named.elim metadata metadataPb
    split_ifs at emitted with metadata metadataPb otacert payload properties
    · cases emitted; exact ⟨invariant.written, invariant.properties⟩
    · cases emitted; exact ⟨invariant.written, invariant.properties⟩
    all_goals have kept := notMetadata metadata metadataPb
    · cases emitted
      exact invariant.append member (written kept (by rw [WrittenData, if_pos otacert]))
        invariant.properties
    · unfold emitPayload at emitted
      split_ifs at emitted
      split at emitted
      · next patched patches =>
        cases emitted
        refine invariant.append member (written kept ?_) fun p held => ?_
        · rw [WrittenData, if_neg otacert, if_pos payload]
          exact ⟨patched.2, patches⟩
        · cases held
          exact ⟨info, member, payload, patched.1, patches⟩
      · cases emitted
    · unfold emitProperties at emitted
      split_ifs at emitted
      split at emitted
      · next held =>
        cases emitted
        refine invariant.append member (written kept ?_) invariant.properties
        rw [WrittenData, if_neg otacert, if_neg payload, if_pos properties]
        exact invariant.properties _ held
      · cases emitted
    · cases emitted
      exact invariant.append member
        (written kept (by rw [WrittenData, if_neg otacert, if_neg payload, if_neg properties]))
        invariant.properties

/-- A run of the emission loop over entries of the input keeps the invariant. -/
theorem emitInvariant_foldlM :
    ∀ {entries : List ZipEntry} {state final : EmitState}, (∀ info ∈ entries, info ∈ infolist) →
      EmitInvariant certOta patchPayload infolist state →
      entries.foldlM (emitEntry certOta patchPayload) state = .ok final →
      EmitInvariant certOta patchPayload infolist final
  | [], _, _, _, invariant, ran => by cases ran; exact invariant
  | info :: rest, state, final, members, invariant, ran => by
    rw [List.foldlM_cons, except_bind_eq_ok] at ran
    obtain ⟨next, emitted, ran⟩ := ran
    exact emitInvariant_foldlM (fun other member => members other (List.mem_cons_of_mem _ member))
      (emitInvariant_emitEntry (members info (List.mem_cons_self _ _)) invariant emitted) ran

/-- The invariant of the emission loop holds at the end of every run of the entry loop. -/
theorem emitInvariant_patchOtaZip {final : EmitState}
    (ran : patchOtaZip certOta patchPayload infolist = .ok final) :
    EmitInvariant certOta patchPayload infolist final := by
  unfold patchOtaZip at ran
  dsimp only at ran
  split_ifs at ran
  · exact emitInvariant_foldlM (fun _ member => mem_of_mem_swapEntries member)
      (emitInvariant_initial _ _ _) ran
  · exact emitInvariant_foldlM (fun _ member => member) (emitInvariant_initial _ _ _) ran

/-- Every entry `patch_ota_zip` writes, in whatever order the zip lists its entries, comes from an
entry of the zip under the same name and storage, never a metadata entry, with its extra field
stripped by `strip_bad_extra_fields`: `otacert` holds the user's certificate, `payload.bin` what
`patch_ota_payload` made of that entry's data, `payload_properties.txt` the properties it returned
for some `payload.bin` of the zip, and every other entry its own data. -/
theorem patchOtaZip_written_from {final : EmitState}
    (ran : patchOtaZip certOta patchPayload infolist = .ok final) :
    ∀ out ∈ final.written, ∃ info ∈ infolist, WrittenFrom certOta patchPayload infolist info out :=
  (emitInvariant_patchOtaZip ran).written

/-- On a zip whose extra fields `zipfile` has decoded, every entry `patch_ota_zip` writes has an
extra field made of whole records none of which is a zip64 (`0x0001`) or alignment (`0xd935`)
record, so `zipfile` never sees one copied from the input, and `strip_bad_extra_fields` leaves it
as it is. -/
theorem patchOtaZip_written_extra_clean {final : EmitState}
    (decoded : ∀ info ∈ infolist, DecodedExtra info.extra)
    (ran : patchOtaZip certOta patchPayload infolist = .ok final) :
    ∀ out ∈ final.written,
      (∃ records : List ExtraRecord, out.extra = encodeRecords records ∧
        ∀ record ∈ records, record.Complete ∧ record.kept = true) ∧
      stripBadExtraFields out.extra = .ok out.extra := by
  intro out member
  obtain ⟨info, inInput, from_⟩ := (emitInvariant_patchOtaZip ran).written out member
  obtain ⟨records, complete, -, written⟩ :=
    stripBadExtraFields_of_decoded (decoded info inInput) from_.stripped
  have kept :
      ∀ record ∈ records.filter ExtraRecord.kept, record.Complete ∧ record.kept = true :=
    fun record member =>
      ⟨complete record (List.mem_filter.mp member).1, (List.mem_filter.mp member).2⟩
  refine ⟨⟨_, written, kept⟩, ?_⟩
  rw [written]
  simpa [stripBadExtraFields] using stripFrom_encodeRecords [] _ fun record member =>
    (kept record (List.dropLast_subset _ member)).1

end Content

/-- An OTA with the five required entries, in order, and one more. -/
def plainOta : List ZipEntry :=
  [⟨pathMetadata, [], true, []⟩, ⟨pathMetadataPb, [], true, []⟩, ⟨pathOtacert, [], true, []⟩,
    ⟨pathPayload, [], true, [5]⟩, ⟨pathProperties, [], true, []⟩, ⟨"care_map.pb", [], false, [7]⟩]

/-- A payload patch that appends `1` to the payload and gives the properties `[2]`. -/
def appendOnePatch (payload : List UInt8) : Except String (List UInt8 × List UInt8) :=
  .ok (payload ++ [1], [2])

/-- The loop's variables after `plainOta` with the certificate `[9]`: the certificate, the patched
payload, its properties and the copied `care_map.pb` are written. -/
def plainOtaFinal : EmitState :=
  ⟨[⟨pathOtacert, [], true, [9]⟩, ⟨pathPayload, [], true, [5, 1]⟩, ⟨pathProperties, [], true, [2]⟩,
    ⟨"care_map.pb", [], false, [7]⟩], some [2], some ⟨pathMetadata, [], true, []⟩,
    some ⟨pathMetadataPb, [], true, []⟩, some []⟩

theorem plainOta_run : patchOtaZip [9] appendOnePatch plainOta = .ok plainOtaFinal := by
  have scanned : scanFrom ScanState.initial 0 (plainOta.map (·.filename)) = ⟨[], 3, 4⟩ := by
    decide
  rw [patchOtaZip, scanned, if_neg (by decide), if_neg (by decide)]
  simp only [plainOta, List.foldlM_cons, emitEntry, stripBadExtraFields, stripFrom_nil]
  rfl

theorem plainOta_written_from :
    patchOtaZip [9] appendOnePatch plainOta = .ok plainOtaFinal ∧
      ∀ out ∈ plainOtaFinal.written, ∃ info ∈ plainOta, WrittenFrom [9] appendOnePatch plainOta info out :=
  ⟨plainOta_run, patchOtaZip_written_from plainOta_run⟩

theorem plainOta_extra_clean :
    (∀ info ∈ plainOta, DecodedExtra info.extra) ∧
    patchOtaZip [9] appendOnePatch plainOta = .ok plainOtaFinal ∧
      ∀ out ∈ plainOtaFinal.written,
        (∃ records : List ExtraRecord, out.extra = encodeRecords records ∧
          ∀ record ∈ records, record.Complete ∧ record.kept = true) ∧
        stripBadExtraFields out.extra = .ok out.extra :=
  have empty : ∀ info ∈ plainOta, info.extra = [] := by decide
  have decoded : ∀ info ∈ plainOta, DecodedExtra info.extra := fun info member =>
    ⟨[], [], nofun, by decide, empty info member⟩
  ⟨decoded, plainOta_run, patchOtaZip_written_extra_clean decoded plainOta_run⟩

/-- A stored entry with no extra field and no data. -/
def plainEntry (filename : String) : ZipEntry :=
  ⟨filename, [], true, []⟩

/-- An OTA with `payload_properties.txt` twice, once before `payload.bin` and once after it. -/
def repeatedProperties : List ZipEntry :=
  [plainEntry pathProperties, plainEntry pathPayload, plainEntry pathProperties,
    plainEntry pathMetadata, plainEntry pathMetadataPb, plainEntry pathOtacert]

/-- The scan stops at the certificate with the second `payload_properties.txt` noted, which comes
after `payload.bin`, so nothing is swapped; the emission loop reaches the first
`payload_properties.txt` before any payload and writes `None`, whatever the payload and the
certificate. -/
theorem patchOtaZip_properties_before_payload
    (certOta : List UInt8) (patchPayload : List UInt8 → Except String (List UInt8 × List UInt8)) :
    scanFrom ScanState.initial 0 (repeatedProperties.map (·.filename)) = ⟨[], 1, 2⟩ ∧
    patchOtaZip certOta patchPayload repeatedProperties = .error noneWriteMessage := by
  have scanned : scanFrom ScanState.initial 0 (repeatedProperties.map (·.filename)) = ⟨[], 1, 2⟩ := by
    decide
  have first : emitEntry certOta patchPayload EmitState.initial (plainEntry pathProperties) =
      .error noneWriteMessage := by
    simp only [emitEntry, plainEntry, stripBadExtraFields, stripFrom_nil]
    rfl
  refine ⟨scanned, ?_⟩
  rw [patchOtaZip, scanned, if_neg (by decide), if_neg (by decide)]
  simp only [repeatedProperties, List.foldlM_cons, first]
  rfl

end Avbroot

/-
Module: Avbroot.Ota.LocalHeader
Purpose: `fix_streaming_local_header_sizes` of `main.py`. While `patch_subcommand` writes the
  patched OTA, it replaces `zipfile.ZipInfo.FileHeader` with a wrapper that calls the original and,
  when the header's data-descriptor flag is set and its own zip64 test holds, repacks the header
  with both 32-bit size fields set to 0xffffffff. The wrapper's test is the keyword argument
  `zip64`, or else the `ZipInfo`'s sizes against `ZIP64_LIMIT`. `FileHeader` decides from its
  argument however it was passed, or else from the sizes it writes, which are zero under the flag.
Trusted boundary: `zipfile.ZipInfo.FileHeader` is CPython's, in two revisions
  (`FileHeaderRevision`). `zipfile.ZIP64_LIMIT` is a parameter, since
  `ota.match_android_zip64_limit` rebinds it. A `ZipInfo` is represented by the fields
  `FileHeader` reads.
Main exports: ZipInfo, FileHeaderRevision, headerLayout, fileHeaderLayout, fileHeader, Zip64Arg,
  wrapperZip64, streamingFileHeader, streamingFileHeader_of_layout,
  streamingFileHeader_positional_zip64_unmarked, streamingFileHeader_marked_without_zip64,
  streamingFileHeader_keeps_all_but_sizes
-/
import Avbroot.Python.Struct
import Avbroot.Text.Utf8

namespace Avbroot

/-- The fields of a `zipfile.ZipInfo` that `FileHeader` reads. -/
structure ZipInfo where
  filename : String
  dateTime : Nat × Nat × Nat × Nat × Nat × Nat
  compressType : Nat
  extra : List UInt8
  createVersion : Nat
  extractVersion : Nat
  reserved : Nat
  flagBits : Nat
  crc : Nat
  compressSize : Nat
  fileSize : Nat
deriving DecidableEq, Repr

/-- `zipfile.ZIP_BZIP2`. -/
def zipBzip2 : Nat := 12

/-- `zipfile.ZIP_LZMA`. -/
def zipLzma : Nat := 14

/-- `zipfile.ZIP64_VERSION`. -/
def zip64Version : Nat := 45

/-- `zipfile.BZIP2_VERSION`. -/
def bzip2Version : Nat := 46

/-- `zipfile.LZMA_VERSION`. -/
def lzmaVersion : Nat := 63

/-- `zipfile._MASK_USE_DATA_DESCRIPTOR`. -/
def maskUseDataDescriptor : Nat := 1 <<< 3

/-- `zipfile._MASK_UTF_FILENAME`. -/
def maskUtfFilename : Nat := 1 <<< 11

/-- `zipfile.ZIP64_LIMIT` as `zipfile` defines it. -/
def zip64LimitDefault : Nat := (1 <<< 31) - 1

/-- `zipfile.structFileHeader = "<4s2B4HL2L2H"`. -/
def structFileHeader : List StructCode :=
  [.bytes 4, .uint8, .uint8, .uint16, .uint16, .uint16, .uint16, .uint32, .uint32, .uint32, .uint16,
    .uint16]

/-- `zipfile.stringFileHeader = b"PK\003\004"`, as the number its four bytes hold. -/
def stringFileHeader : Int := 0x04034b50

/-- `zipfile.sizeFileHeader = struct.calcsize(structFileHeader)`. -/
def sizeFileHeader : Nat := structSize structFileHeader

/-! ### `ZipInfo.FileHeader` -/

/-- Which `FileHeader` the interpreter has. The older one sets the two size fields to 0xffffffff
only when a size exceeds `ZIP64_LIMIT`, and raises `LargeZipFile` when one does without zip64; the
newer one, which CPython 3.11.6 has, sets them whenever it writes the zip64 record. -/
inductive FileHeaderRevision where
  | older
  | newer
deriving DecidableEq, Repr

/-- `_encodeFilenameFlags()`: the name in ASCII, or in UTF-8 with the UTF-8 flag. -/
def encodeFilenameFlags (info : ZipInfo) : List UInt8 × Nat :=
  match encodeAscii info.filename with
  | .ok name => (name, info.flagBits)
  | .error _ => (encodeUtf8 info.filename, info.flagBits ||| maskUtfFilename)

/-- `(dt[0] - 1980) << 9 | dt[1] << 5 | dt[2]`. Before 1980 it is negative, which is all
`struct.pack` looks at: `-1` stands for it. -/
def dosDate (dateTime : Nat × Nat × Nat × Nat × Nat × Nat) : Int :=
  let (year, month, day, _) := dateTime
  if year < 1980 then -1 else (((year - 1980) <<< 9 ||| month <<< 5 ||| day : Nat) : Int)

/-- `dt[3] << 11 | dt[4] << 5 | (dt[5] // 2)`. -/
def dosTime (dateTime : Nat × Nat × Nat × Nat × Nat × Nat) : Nat :=
  let (_, _, _, hour, minute, second) := dateTime
  hour <<< 11 ||| minute <<< 5 ||| second / 2

/-- The CRC and the sizes `FileHeader` writes: zero under the data-descriptor flag, since they
follow the data. -/
def writtenSizes (info : ZipInfo) : Nat × Nat × Nat :=
  if info.flagBits &&& maskUseDataDescriptor ≠ 0 then (0, 0, 0)
  else (info.crc, info.compressSize, info.fileSize)

/-- `FileHeader`'s zip64 decision: its argument, or when it is `None`, whether a size it writes
exceeds the limit. -/
def headerZip64 (limit : Nat) (info : ZipInfo) (zip64 : Option Bool) : Bool :=
  zip64.getD (decide ((writtenSizes info).2.2 > limit ∨ (writtenSizes info).2.1 > limit))

/-- The zip64 extra record, `struct.pack('<HHQQ', 1, 16, file_size, compress_size)`. -/
def zip64Record (fileSize compressSize : Nat) : Except PyException (List UInt8) :=
  structPack [.uint16, .uint16, .uint64, .uint64] [1, 16, fileSize, compressSize]

/-- The extra field `FileHeader` writes: the `ZipInfo`'s own, then the zip64 record when zip64 is
on. -/
def zip64Extra (zip64 : Bool) (extra : List UInt8) (compressSize fileSize : Nat) :
    Except PyException (List UInt8) :=
  if zip64 then (extra ++ ·) <$> zip64Record fileSize compressSize else pure extra

/-- The two size fields `FileHeader` writes and the least version the entry needs, in each
revision. -/
def zip64Sizes : FileHeaderRevision → Nat → Bool → Nat → Nat → Except PyException (Nat × Nat × Nat)
  | .newer, _, zip64, compressSize, fileSize =>
    pure (if zip64 then (0xffffffff, 0xffffffff, zip64Version) else (compressSize, fileSize, 0))
  | .older, limit, zip64, compressSize, fileSize =>
    if fileSize > limit ∨ compressSize > limit then
      if zip64 then pure (0xffffffff, 0xffffffff, zip64Version)
      else throw (.other "LargeZipFile" "Filesize would require ZIP64 extensions")
    else pure (compressSize, fileSize, 0)

/-- What `FileHeader` writes: the twelve fields of `structFileHeader`, the name and the extra field,
with the `ZipInfo` after the call. -/
structure HeaderLayout where
  fields : List Int
  filename : List UInt8
  extra : List UInt8
  info : ZipInfo

/-- The rest of `FileHeader` once the extra field, the two size fields and the least version are
known: it raises `extract_version` and `create_version` to that version, or to the compression's,
and lays out the header. -/
def headerLayout (info : ZipInfo) (extra : List UInt8) (sizes : Nat × Nat × Nat) : HeaderLayout :=
  let (compressSize, fileSize, minVersion) := sizes
  let minVersion :=
    if info.compressType = zipBzip2 then max bzip2Version minVersion
    else if info.compressType = zipLzma then max lzmaVersion minVersion
    else minVersion
  let updated := { info with
    extractVersion := max minVersion info.extractVersion
    createVersion := max minVersion info.createVersion }
  let (filename, flagBits) := encodeFilenameFlags updated
  ⟨[stringFileHeader, updated.extractVersion, info.reserved, flagBits, info.compressType,
    dosTime info.dateTime, dosDate info.dateTime, (writtenSizes info).1, compressSize, fileSize,
    filename.length, extra.length], filename, extra, updated⟩

/-- `FileHeader` up to packing: the zip64 decision, the extra field, the sizes, the layout. -/
def fileHeaderLayout (revision : FileHeaderRevision) (limit : Nat) (info : ZipInfo)
    (zip64 : Option Bool) : Except PyException HeaderLayout := do
  let zip64 := headerZip64 limit info zip64
  let extra ← zip64Extra zip64 info.extra (writtenSizes info).2.1 (writtenSizes info).2.2
  let sizes ← zip64Sizes revision limit zip64 (writtenSizes info).2.1 (writtenSizes info).2.2
  pure (headerLayout info extra sizes)

/-- `info.FileHeader(zip64)`: the header's bytes, and the `ZipInfo` after the call. -/
def fileHeader (revision : FileHeaderRevision) (limit : Nat) (info : ZipInfo)
    (zip64 : Option Bool) : Except PyException (List UInt8 × ZipInfo) := do
  let layout ← fileHeaderLayout revision limit info zip64
  let header ← structPack structFileHeader layout.fields
  pure (header ++ layout.filename ++ layout.extra, layout.info)

/-! ### The wrapper -/

/-- How `FileHeader` is called: `zip64` by position, as `ZipFile._open_to_write` passes it, by
keyword, or not at all. -/
inductive Zip64Arg where
  | positional (zip64 : Option Bool)
  | keyword (zip64 : Option Bool)
  | omitted
deriving DecidableEq, Repr

/-- The value the parameter `zip64` of `FileHeader` receives. -/
def Zip64Arg.value : Zip64Arg → Option Bool
  | .positional zip64 => zip64
  | .keyword zip64 => zip64
  | .omitted => none

/-- `kwargs.get('zip64')`. -/
def Zip64Arg.keywordValue : Zip64Arg → Option Bool
  | .keyword zip64 => zip64
  | _ => none

/-- The wrapper's zip64 test: the keyword argument, or when there is none, whether a size of
`args[0]` exceeds the limit. -/
def wrapperZip64 (limit : Nat) (info : ZipInfo) (arg : Zip64Arg) : Bool :=
  arg.keywordValue.getD (decide (info.fileSize > limit ∨ info.compressSize > limit))

/-- `wrapper(*args, **kwargs)` of `fix_streaming_local_header_sizes`, called as
`info.FileHeader(...)` while the patch is in place. -/
def streamingFileHeader (revision : FileHeaderRevision) (limit : Nat) (info : ZipInfo)
    (arg : Zip64Arg) : Except PyException (List UInt8 × ZipInfo) := do
  let (blob, info) ← fileHeader revision limit info arg.value
  let zip64 := wrapperZip64 limit info arg
  let fields ← unpackFrom structFileHeader blob
  let flagBits ← pyGetItem fields 3
  if flagBits.toNat &&& maskUseDataDescriptor ≠ 0 ∧ zip64 = true then do
    let header ← structPack structFileHeader ((fields.set 8 0xffffffff).set 9 0xffffffff)
    pure (header ++ blob.drop sizeFileHeader, info)
  else pure (blob, info)

/-! ### What `FileHeader` writes -/

/-- The UTF-8 flag leaves the data-descriptor flag as it was. -/
theorem encodeFilenameFlags_descriptor (info : ZipInfo) :
    (encodeFilenameFlags info).2 &&& maskUseDataDescriptor =
      info.flagBits &&& maskUseDataDescriptor := by
  unfold encodeFilenameFlags
  split
  · rfl
  · rw [Nat.and_comm, Nat.and_or_distrib_left,
      show maskUseDataDescriptor &&& maskUtfFilename = 0 by decide, Nat.or_zero, Nat.and_comm]

/-- Under the data-descriptor flag `FileHeader` writes zero sizes, so it writes zip64 exactly when
its argument says so. -/
theorem headerZip64_of_streamed {limit : Nat} {info : ZipInfo}
    (streamed : info.flagBits &&& maskUseDataDescriptor ≠ 0) (zip64 : Option Bool) :
    headerZip64 limit info zip64 = zip64.getD false := by
  simp only [headerZip64, writtenSizes, if_pos streamed]
  cases zip64 <;> simp

/-- The extra field carries the zip64 record exactly when zip64 is on. -/
theorem zip64Extra_eq_ok {zip64 : Bool} {extra written : List UInt8} {compressSize fileSize : Nat}
    (extended : zip64Extra zip64 extra compressSize fileSize = .ok written) :
    written = if zip64 then
      extra ++ encodeFields [.uint16, .uint16, .uint64, .uint64] [1, 16, fileSize, compressSize]
    else extra := by
  cases zip64
  · exact (Except.ok.inj extended).symm
  · simp only [zip64Extra, if_pos, except_map_eq_ok] at extended
    obtain ⟨record, recorded, rfl⟩ := extended
    rw [if_pos rfl, (structPack_eq_ok_iff.mp recorded).2]

/-- `FileHeader` lays out the header from the extra field and the sizes its two steps give. -/
theorem fileHeaderLayout_eq_ok {revision : FileHeaderRevision} {limit : Nat} {info : ZipInfo}
    {zip64 : Option Bool} {layout : HeaderLayout}
    (laid : fileHeaderLayout revision limit info zip64 = .ok layout) :
    ∃ extra sizes, zip64Extra (headerZip64 limit info zip64) info.extra (writtenSizes info).2.1
        (writtenSizes info).2.2 = .ok extra ∧
      zip64Sizes revision limit (headerZip64 limit info zip64) (writtenSizes info).2.1
        (writtenSizes info).2.2 = .ok sizes ∧
      layout = headerLayout info extra sizes := by
  simp only [fileHeaderLayout, except_bind_eq_ok, except_pure_eq_ok] at laid
  obtain ⟨extra, extended, sizes, sized, rfl⟩ := laid
  exact ⟨extra, sizes, extended, sized, rfl⟩

/-- 0xffffffff fits the two size fields. -/
theorem sizeFields_fit (index : Nat) (field : index = 8 ∨ index = 9) :
    ∀ code ∈ structFileHeader[index]?,
      (0 : Int) ≤ 0xffffffff ∧ (0xffffffff : Int) < 256 ^ code.width := by
  rcases field with rfl | rfl <;> intro code member <;> cases member <;> decide

/-- The wrapper on a header `FileHeader` laid out and packed: when the data-descriptor flag is set
and its zip64 test holds, the same header with both size fields 0xffffffff, else the bytes
`FileHeader` wrote. -/
theorem streamingFileHeader_of_layout {revision : FileHeaderRevision} {limit : Nat}
    {info : ZipInfo} {arg : Zip64Arg} {layout : HeaderLayout} {header : List UInt8}
    (laid : fileHeaderLayout revision limit info arg.value = .ok layout)
    (packed : structPack structFileHeader layout.fields = .ok header) :
    streamingFileHeader revision limit info arg =
      .ok ((if info.flagBits &&& maskUseDataDescriptor ≠ 0 ∧ wrapperZip64 limit info arg = true
          then encodeFields structFileHeader ((layout.fields.set 8 0xffffffff).set 9 0xffffffff)
          else header) ++ layout.filename ++ layout.extra, layout.info) := by
  obtain ⟨fits, rfl⟩ := structPack_eq_ok_iff.mp packed
  have written : fileHeader revision limit info arg.value = .ok (encodeFields structFileHeader
      layout.fields ++ (layout.filename ++ layout.extra), layout.info) := by
    rw [fileHeader, laid]
    simp only [bind, Except.bind, packed, List.append_assoc]
    rfl
  obtain ⟨extra, sizes, -, -, rfl⟩ := fileHeaderLayout_eq_ok laid
  have flag : pyGetItem (headerLayout info extra sizes).fields 3 =
      .ok ((encodeFilenameFlags (headerLayout info extra sizes).info).2 : Int) := rfl
  have zip64 : wrapperZip64 limit (headerLayout info extra sizes).info arg =
      wrapperZip64 limit info arg := rfl
  have marked := structPack_eq_ok_iff.mpr
    ⟨fitsFields_set 9 (fitsFields_set 8 fits (sizeFields_fit 8 (.inl rfl)))
      (sizeFields_fit 9 (.inr rfl)), rfl⟩
  rw [streamingFileHeader, written]
  simp only [bind, Except.bind]
  rw [unpackFrom_encodeFields_append fits]
  dsimp only
  rw [flag]
  dsimp only
  have descriptor : (encodeFilenameFlags (headerLayout info extra sizes).info).2 &&&
      maskUseDataDescriptor = info.flagBits &&& maskUseDataDescriptor :=
    encodeFilenameFlags_descriptor _
  rw [Int.toNat_ofNat, descriptor, zip64]
  split_ifs
  · rw [marked]
    dsimp only
    rw [sizeFileHeader, List.drop_left' (length_encodeFields fits), List.append_assoc]
    rfl
  · rw [List.append_assoc]
    rfl

/-- What `FileHeader` returns comes from a layout and its packed fields. -/
theorem fileHeader_eq_ok {revision : FileHeaderRevision} {limit : Nat} {info : ZipInfo}
    {zip64 : Option Bool} {written : List UInt8 × ZipInfo}
    (wrote : fileHeader revision limit info zip64 = .ok written) :
    ∃ layout header, fileHeaderLayout revision limit info zip64 = .ok layout ∧
      structPack structFileHeader layout.fields = .ok header ∧
      written = (header ++ layout.filename ++ layout.extra, layout.info) := by
  simp only [fileHeader, except_bind_eq_ok, except_pure_eq_ok] at wrote
  obtain ⟨layout, laid, header, packed, rfl⟩ := wrote
  exact ⟨layout, header, laid, packed, rfl⟩

/-- When the flag is clear or the wrapper's zip64 test fails, the wrapper is `FileHeader` itself,
errors included. -/
theorem streamingFileHeader_of_unmarked {revision : FileHeaderRevision} {limit : Nat}
    {info : ZipInfo} {arg : Zip64Arg}
    (unmarked :
      ¬(info.flagBits &&& maskUseDataDescriptor ≠ 0 ∧ wrapperZip64 limit info arg = true)) :
    streamingFileHeader revision limit info arg = fileHeader revision limit info arg.value := by
  cases wrote : fileHeader revision limit info arg.value with
  | error e => rw [streamingFileHeader, wrote]; rfl
  | ok written =>
    obtain ⟨layout, header, laid, packed, rfl⟩ := fileHeader_eq_ok wrote
    rw [streamingFileHeader_of_layout laid packed, if_neg unmarked]

/-- Under the data-descriptor flag, with both sizes within the limit and `zip64=True` passed by
position, as `ZipFile._open_to_write` passes it: `FileHeader` writes the zip64 record, and the
older revision leaves both size fields zero, while the wrapper's own test fails and it returns
those bytes unchanged. -/
theorem streamingFileHeader_positional_zip64_unmarked {revision : FileHeaderRevision}
    {limit : Nat} {info : ZipInfo} (streamed : info.flagBits &&& maskUseDataDescriptor ≠ 0)
    (small : info.fileSize ≤ limit ∧ info.compressSize ≤ limit) :
    streamingFileHeader revision limit info (.positional (some true)) =
        fileHeader revision limit info (some true) ∧
      ∀ written, fileHeader revision limit info (some true) = .ok written →
        (∃ front, written.1 =
          front ++ encodeFields [.uint16, .uint16, .uint64, .uint64] [1, 16, 0, 0]) ∧
        (revision = .older → (unpackFields structFileHeader written.1)[8]? = some 0 ∧
          (unpackFields structFileHeader written.1)[9]? = some 0) := by
  have untested : wrapperZip64 limit info (.positional (some true)) = false := by
    simp only [wrapperZip64, Zip64Arg.keywordValue, Option.getD_none, decide_eq_false_iff_not]
    omega
  refine ⟨streamingFileHeader_of_unmarked
    (by rw [untested]; exact fun marked => nomatch marked.2), fun written wrote => ?_⟩
  obtain ⟨layout, header, laid, packed, rfl⟩ := fileHeader_eq_ok wrote
  obtain ⟨extra, sizes, extended, sized, rfl⟩ := fileHeaderLayout_eq_ok laid
  have zero : writtenSizes info = (0, 0, 0) := if_pos streamed
  have zip64 : headerZip64 limit info (some true) = true := headerZip64_of_streamed streamed _
  rw [zip64, zero] at extended sized
  have recorded : extra = info.extra ++
      encodeFields [.uint16, .uint16, .uint64, .uint64] [1, 16, 0, 0] :=
    zip64Extra_eq_ok extended
  refine ⟨⟨header ++ (headerLayout info extra sizes).filename ++ info.extra, ?_⟩,
    fun older => ?_⟩
  · show header ++ _ ++ extra = _
    rw [recorded, List.append_assoc _ info.extra]
  · subst older
    have unchanged : sizes = (0, 0, 0) := by
      simp only [zip64Sizes] at sized
      rw [if_neg (by omega)] at sized
      exact (Except.ok.inj sized).symm
    subst unchanged
    obtain ⟨fits, rfl⟩ := structPack_eq_ok_iff.mp packed
    rw [List.append_assoc, unpackFields_encodeFields_append fits]
    exact ⟨rfl, rfl⟩

/-- A streamed entry of 0x7fffffff bytes: within `ZIP64_LIMIT`, but `file_size * 1.05` exceeds it,
so `_open_to_write` passes `zip64=True`. -/
def bandInfo : ZipInfo :=
  ⟨"payload.bin", (1980, 1, 1, 0, 0, 0), 0, [], 20, 20, 0, maskUseDataDescriptor, 0, 0, 0x7fffffff⟩

theorem bandInfo_header_unmarked :
    (bandInfo.flagBits &&& maskUseDataDescriptor ≠ 0 ∧
      bandInfo.fileSize ≤ zip64LimitDefault ∧ bandInfo.compressSize ≤ zip64LimitDefault) ∧
    fileHeader .older zip64LimitDefault bandInfo (some true) =
      .ok (encodeFields structFileHeader [stringFileHeader, 20, 0, 8, 0, 0, 33, 0, 0, 0, 11, 20] ++
        ascii "payload.bin" ++ encodeFields [.uint16, .uint16, .uint64, .uint64] [1, 16, 0, 0],
        bandInfo) ∧
    (streamingFileHeader .older zip64LimitDefault bandInfo (.positional (some true)) =
        fileHeader .older zip64LimitDefault bandInfo (some true) ∧
      ∀ written, fileHeader .older zip64LimitDefault bandInfo (some true) = .ok written →
        (∃ front, written.1 =
          front ++ encodeFields [.uint16, .uint16, .uint64, .uint64] [1, 16, 0, 0]) ∧
        (FileHeaderRevision.older = .older →
          (unpackFields structFileHeader written.1)[8]? = some 0 ∧
          (unpackFields structFileHeader written.1)[9]? = some 0)) :=
  ⟨by decide, rfl, streamingFileHeader_positional_zip64_unmarked (by decide) (by decide)⟩

/-- The other way round: under the flag, when `FileHeader` is told no zip64 (`zip64=False`, or
`None` by keyword or by omission, since the sizes it writes are zero) and the wrapper's test holds,
the wrapper sets both size fields to 0xffffffff over a header whose extra field has no zip64
record. -/
theorem streamingFileHeader_marked_without_zip64 {revision : FileHeaderRevision} {limit : Nat}
    {info : ZipInfo} {arg : Zip64Arg} {layout : HeaderLayout} {header : List UInt8}
    (streamed : info.flagBits &&& maskUseDataDescriptor ≠ 0)
    (tested : wrapperZip64 limit info arg = true) (untold : arg.value.getD false = false)
    (laid : fileHeaderLayout revision limit info arg.value = .ok layout)
    (packed : structPack structFileHeader layout.fields = .ok header) :
    layout.extra = info.extra ∧
      streamingFileHeader revision limit info arg =
        .ok (encodeFields structFileHeader ((layout.fields.set 8 0xffffffff).set 9 0xffffffff) ++
          layout.filename ++ layout.extra, layout.info) := by
  refine ⟨?_, by rw [streamingFileHeader_of_layout laid packed, if_pos ⟨streamed, tested⟩]⟩
  obtain ⟨extra, sizes, extended, -, rfl⟩ := fileHeaderLayout_eq_ok laid
  rw [headerZip64_of_streamed streamed, untold] at extended
  exact (Except.ok.inj extended).symm

/-- The wrapper rewrites at most the two size fields of what `FileHeader` wrote: it raises what
`FileHeader` raises, and otherwise returns a header of the same length, with the same `ZipInfo`,
the same bytes after the fixed-size part and every other field unchanged. -/
theorem streamingFileHeader_keeps_all_but_sizes (revision : FileHeaderRevision) (limit : Nat)
    (info : ZipInfo) (arg : Zip64Arg) :
    (∀ e, fileHeader revision limit info arg.value = .error e →
      streamingFileHeader revision limit info arg = .error e) ∧
    ∀ blob updated, fileHeader revision limit info arg.value = .ok (blob, updated) →
      ∃ out, streamingFileHeader revision limit info arg = .ok (out, updated) ∧
        out.length = blob.length ∧ out.drop sizeFileHeader = blob.drop sizeFileHeader ∧
        ∀ i, i ≠ 8 → i ≠ 9 →
          (unpackFields structFileHeader out)[i]? = (unpackFields structFileHeader blob)[i]? := by
  refine ⟨fun e failed => by rw [streamingFileHeader, failed]; rfl, fun blob updated wrote => ?_⟩
  obtain ⟨layout, header, laid, packed, written⟩ := fileHeader_eq_ok wrote
  rw [streamingFileHeader_of_layout laid packed]
  obtain ⟨fits, rfl⟩ := structPack_eq_ok_iff.mp packed
  cases written
  split_ifs
  · have refits := fitsFields_set 9 (fitsFields_set 8 fits (sizeFields_fit 8 (.inl rfl)))
      (sizeFields_fit 9 (.inr rfl))
    simp only [List.append_assoc]
    refine ⟨_, rfl, ?_, ?_, fun i other₈ other₉ => ?_⟩
    · simp only [List.length_append, length_encodeFields fits, length_encodeFields refits]
    · rw [sizeFileHeader, List.drop_left' (length_encodeFields fits),
        List.drop_left' (length_encodeFields refits)]
    · rw [unpackFields_encodeFields_append fits, unpackFields_encodeFields_append refits,
        List.getElem?_set_ne (Ne.symm other₉), List.getElem?_set_ne (Ne.symm other₈)]
  · exact ⟨_, rfl, rfl, rfl, fun _ _ _ => rfl⟩

end Avbroot

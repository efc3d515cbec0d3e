/-
Module: Avbroot.Ota.ExtraFields
Purpose: `strip_bad_extra_fields` of `main.py`, which `patch_ota_zip` applies to the extra field of
  every zip entry it copies. The loop walks `extra` record by record: a little-endian `u16`
  signature, a `u16` length and that many data bytes. It keeps each record whose signature is
  neither `0x0001` (zip64 sizes) nor `0xd935` (Android alignment), slicing as Python slices, so a
  last record whose length runs past the end is kept as far as it goes; `struct.unpack` raises
  when one to three bytes are left for a header. The walk is modelled on the suffix
  `extra[offset:]`, with the bytes kept so far as an accumulator, and terminates because each
  record consumes at least its four header bytes.
Trusted boundary: none; `struct` is modelled by `packU16` and `unpackU16`.
Main exports: unpackU16, stripFrom, stripBadExtraFields, ExtraRecord, encodeRecords,
  stripBadExtraFields_walk, DecodedExtra, stripBadExtraFields_of_decoded
-/
import Mathlib.Data.List.Basic
import Mathlib.Data.UInt

namespace Avbroot

/-- `struct.pack('<H', value)`. -/
def packU16 (value : Nat) : List UInt8 :=
  [UInt8.ofNat (value % 256), UInt8.ofNat (value / 256 % 256)]

/-- `struct.unpack('<H', bytes([low, high]))`. -/
def unpackU16 (low high : UInt8) : Nat :=
  low.toNat + 256 * high.toNat

theorem toNat_ofNat_mod (n : Nat) : (UInt8.ofNat (n % 256)).toNat = n % 256 :=
  UInt8.toNat_ofNat_of_lt (Nat.mod_lt n (by decide) : n % 256 < 256)

theorem unpackU16_lt (low high : UInt8) : unpackU16 low high < 65536 := by
  have lowBound : low.toNat < 256 := low.toNat_lt_size
  have highBound : high.toNat < 256 := high.toNat_lt_size
  simp only [unpackU16]
  omega

theorem packU16_unpackU16 (low high : UInt8) : packU16 (unpackU16 low high) = [low, high] := by
  have lowBound : low.toNat < 256 := low.toNat_lt_size
  have highBound : high.toNat < 256 := high.toNat_lt_size
  simp only [packU16, unpackU16, List.cons.injEq, and_true]
  constructor <;> apply UInt8.toNat.inj <;> rw [toNat_ofNat_mod] <;> omega

theorem unpackU16_packU16 {value : Nat} (bound : value < 65536) :
    unpackU16 (UInt8.ofNat (value % 256)) (UInt8.ofNat (value / 256 % 256)) = value := by
  simp only [unpackU16, toNat_ofNat_mod]
  omega

/-- The text of the `struct.error` raised for a header cut short. -/
def unpackError : String :=
  "unpack requires a buffer of 4 bytes"

/-- The loop of `strip_bad_extra_fields` from `offset` on: `rest` is `extra[offset:]` and
`newExtra` what the loop has kept so far. `rest.take recordLen` is `extra[offset + 4:next_offset]`
and `rest.drop recordLen` is `extra[next_offset:]`, both clamped at the end as slices are. -/
def stripFrom (newExtra : List UInt8) : List UInt8 → Except String (List UInt8)
  | [] => .ok newExtra
  | s0 :: s1 :: l0 :: l1 :: rest =>
    let recordSig := unpackU16 s0 s1
    let recordLen := unpackU16 l0 l1
    let newExtra := if recordSig ∉ [0x0001, 0xd935] then
        newExtra ++ s0 :: s1 :: l0 :: l1 :: rest.take recordLen
      else newExtra
    stripFrom newExtra (rest.drop recordLen)
  | _ => .error unpackError
termination_by rest => rest.length
decreasing_by simp only [List.length_drop, List.length_cons]; omega

/-- `strip_bad_extra_fields(extra)`. -/
def stripBadExtraFields (extra : List UInt8) : Except String (List UInt8) :=
  stripFrom [] extra

@[simp] theorem stripFrom_nil (newExtra : List UInt8) : stripFrom newExtra [] = .ok newExtra := by
  rw [stripFrom]

theorem stripFrom_short (newExtra tail : List UInt8) (nonempty : 1 ≤ tail.length)
    (short : tail.length ≤ 3) : stripFrom newExtra tail = .error unpackError := by
  match tail, nonempty, short with
  | [_], _, _ | [_, _], _, _ | [_, _, _], _, _ => rw [stripFrom] <;> simp

/-! ### Records -/

/-- A record as it stands in an extra field: the signature and length of its header and the data
bytes after it, all of them, or fewer for a record that the end of the field cuts off. -/
structure ExtraRecord where
  signature : Nat
  length : Nat
  data : List UInt8
  signature_lt : signature < 65536
  length_lt : length < 65536
  fits : data.length ≤ length

namespace ExtraRecord

/-- The record's bytes. -/
def encode (record : ExtraRecord) : List UInt8 :=
  packU16 record.signature ++ packU16 record.length ++ record.data

/-- All the data bytes its header announces are there. -/
def Complete (record : ExtraRecord) : Prop :=
  record.data.length = record.length

/-- `record_sig not in (0x0001, 0xd935)`. -/
def kept (record : ExtraRecord) : Bool :=
  record.signature ∉ [0x0001, 0xd935]

/-- The record the walk reads at a header `s0 s1 l0 l1` followed by `rest`. -/
def read (s0 s1 l0 l1 : UInt8) (rest : List UInt8) : ExtraRecord where
  signature := unpackU16 s0 s1
  length := unpackU16 l0 l1
  data := rest.take (unpackU16 l0 l1)
  signature_lt := unpackU16_lt s0 s1
  length_lt := unpackU16_lt l0 l1
  fits := List.length_take_le _ _

theorem encode_read (s0 s1 l0 l1 : UInt8) (rest : List UInt8) :
    (read s0 s1 l0 l1 rest).encode = s0 :: s1 :: l0 :: l1 :: rest.take (unpackU16 l0 l1) := by
  simp only [encode, read, packU16_unpackU16, List.cons_append, List.nil_append]

theorem complete_read {s0 s1 l0 l1 : UInt8} {rest : List UInt8}
    (within : unpackU16 l0 l1 ≤ rest.length) : (read s0 s1 l0 l1 rest).Complete := by
  simp only [Complete, read, List.length_take]
  omega

end ExtraRecord

/-- The bytes of a list of records, one after the other. -/
def encodeRecords (records : List ExtraRecord) : List UInt8 :=
  records.flatMap ExtraRecord.encode

@[simp] theorem encodeRecords_nil : encodeRecords [] = [] := rfl

@[simp] theorem encodeRecords_cons (record : ExtraRecord) (records : List ExtraRecord) :
    encodeRecords (record :: records) = record.encode ++ encodeRecords records := by
  simp [encodeRecords]

theorem encodeRecords_filter_cons (record : ExtraRecord) (records : List ExtraRecord) :
    encodeRecords ((record :: records).filter ExtraRecord.kept) =
      (if record.kept then record.encode else []) ++
        encodeRecords (records.filter ExtraRecord.kept) := by
  by_cases keep : record.kept <;> simp [List.filter_cons, keep]

/-- Every record but the last has all its data. -/
theorem forall_dropLast_cons {record : ExtraRecord} {records : List ExtraRecord}
    (complete : record.Complete) (rest : ∀ other ∈ records.dropLast, other.Complete) :
    ∀ other ∈ (record :: records).dropLast, other.Complete := by
  cases records with
  | nil => simp
  | cons next others =>
    simpa only [List.dropLast_cons₂, List.mem_cons, forall_eq_or_imp] using ⟨complete, rest⟩

/-- Dropping records keeps every record but the last complete. -/
theorem forall_dropLast_filter (keep : ExtraRecord → Bool) {records : List ExtraRecord}
    (complete : ∀ record ∈ records.dropLast, record.Complete) :
    ∀ record ∈ (records.filter keep).dropLast, record.Complete := by
  induction records with
  | nil => simp
  | cons record others inductionHypothesis =>
    cases others with
    | nil => rw [List.filter_cons]; split <;> simp
    | cons next rest =>
      rw [List.dropLast_cons₂] at complete
      have first : record.Complete := complete record (List.mem_cons_self _ _)
      have later := inductionHypothesis fun other member => complete other (List.mem_cons_of_mem _ member)
      rw [List.filter_cons]
      split
      · exact forall_dropLast_cons first later
      · exact later

/-! ### One step of the walk -/

/-- The walk at a header `s0 s1 l0 l1`: it keeps the record it reads there, unless stripped, and
goes on after the record's announced length. -/
theorem stripFrom_header (newExtra : List UInt8) (s0 s1 l0 l1 : UInt8) (rest : List UInt8) :
    stripFrom newExtra (s0 :: s1 :: l0 :: l1 :: rest) =
      stripFrom (newExtra ++ if (ExtraRecord.read s0 s1 l0 l1 rest).kept then
          (ExtraRecord.read s0 s1 l0 l1 rest).encode else [])
        (rest.drop (unpackU16 l0 l1)) := by
  rw [stripFrom, ExtraRecord.encode_read]
  simp only [ExtraRecord.kept, ExtraRecord.read, decide_eq_true_eq]
  split_ifs <;> simp

/-- The walk reads a record off the front of the field and goes on after it, when the record is
complete or nothing follows it. -/
theorem stripFrom_encode_append (newExtra : List UInt8) (record : ExtraRecord)
    (more : List UInt8) (ends : record.Complete ∨ more = []) :
    stripFrom newExtra (record.encode ++ more) =
      stripFrom (newExtra ++ if record.kept then record.encode else []) more := by
  have unpacked := unpackU16_packU16 record.length_lt
  have taken : (record.data ++ more).take record.length = record.data := by
    rcases ends with complete | rfl
    · exact List.take_left' complete
    · rw [List.append_nil]; exact List.take_of_length_le record.fits
  have dropped : (record.data ++ more).drop record.length = more := by
    rcases ends with complete | rfl
    · exact List.drop_left' complete
    · rw [List.append_nil]; exact List.drop_eq_nil_of_le record.fits
  simp only [ExtraRecord.encode, packU16, List.cons_append, List.nil_append]
  rw [stripFrom]
  simp only [unpacked, unpackU16_packU16 record.signature_lt, taken, dropped, ExtraRecord.kept,
    decide_eq_true_eq]
  split_ifs <;> simp

/-! ### Whole walks -/

/-- On records that are complete except perhaps the last, the walk keeps exactly the records
whose signature is not stripped. -/
theorem stripFrom_encodeRecords (newExtra : List UInt8) (records : List ExtraRecord)
    (complete : ∀ record ∈ records.dropLast, record.Complete) :
    stripFrom newExtra (encodeRecords records) =
      .ok (newExtra ++ encodeRecords (records.filter ExtraRecord.kept)) := by
  induction records generalizing newExtra with
  | nil => simp
  | cons record others inductionHypothesis =>
    have ends : record.Complete ∨ encodeRecords others = [] := by
      cases others with
      | nil => exact .inr rfl
      | cons next rest => exact .inl (complete record (by simp))
    have restComplete : ∀ other ∈ others.dropLast, other.Complete := fun other member =>
      complete other (by
        cases others with
        | nil => simp at member
        | cons next rest => exact List.mem_cons_of_mem _ member)
    rw [encodeRecords_cons, stripFrom_encode_append _ _ _ ends, inductionHypothesis _ restComplete,
      encodeRecords_filter_cons, List.append_assoc]

/-- Complete records followed by one to three bytes make the walk raise. -/
theorem stripFrom_encodeRecords_append_short (newExtra : List UInt8) (records : List ExtraRecord)
    (tail : List UInt8) (complete : ∀ record ∈ records, record.Complete) (nonempty : 1 ≤ tail.length)
    (short : tail.length ≤ 3) :
    stripFrom newExtra (encodeRecords records ++ tail) = .error unpackError := by
  induction records generalizing newExtra with
  | nil => exact stripFrom_short _ _ nonempty short
  | cons record others inductionHypothesis =>
    rw [encodeRecords_cons, List.append_assoc,
      stripFrom_encode_append _ _ _ (.inl (complete record (List.mem_cons_self _ _))),
      inductionHypothesis _ fun other member => complete other (List.mem_cons_of_mem _ member)]

/-- Every successful walk splits the field into records, complete except perhaps the last. -/
theorem records_of_stripFrom_eq_ok : ∀ {newExtra extra stripped : List UInt8},
    stripFrom newExtra extra = .ok stripped →
    ∃ records : List ExtraRecord, (∀ record ∈ records.dropLast, record.Complete) ∧
      extra = encodeRecords records ∧
      stripped = newExtra ++ encodeRecords (records.filter ExtraRecord.kept)
  | newExtra, [], stripped, walked => by
    rw [stripFrom_nil, Except.ok.injEq] at walked
    exact ⟨[], by simp, rfl, by simp [walked]⟩
  | newExtra, s0 :: s1 :: l0 :: l1 :: rest, stripped, walked => by
    have header := ExtraRecord.encode_read s0 s1 l0 l1 rest
    rw [stripFrom_header] at walked
    by_cases within : unpackU16 l0 l1 ≤ rest.length
    · obtain ⟨others, complete, split, result⟩ := records_of_stripFrom_eq_ok walked
      refine ⟨ExtraRecord.read s0 s1 l0 l1 rest :: others,
        forall_dropLast_cons (ExtraRecord.complete_read within) complete, ?_, ?_⟩
      · rw [encodeRecords_cons, header, ← split]
        simp
      · rw [result, encodeRecords_filter_cons, List.append_assoc]
    · rw [List.drop_eq_nil_of_le (by omega), stripFrom_nil, Except.ok.injEq] at walked
      refine ⟨[ExtraRecord.read s0 s1 l0 l1 rest], by simp, ?_, ?_⟩
      · rw [encodeRecords_cons, encodeRecords_nil, List.append_nil, header,
          List.take_of_length_le (by omega)]
      · rw [← walked, encodeRecords_filter_cons]
        simp
  | _, [_], _, walked | _, [_, _], _, walked | _, [_, _, _], _, walked => by
    rw [stripFrom_short _ _ (by simp) (by simp)] at walked
    exact absurd walked (by simp)
termination_by _ extra => extra.length
decreasing_by simp only [List.length_drop, List.length_cons]; omega

/-- Every walk that raises has read complete records up to a header cut short. -/
theorem records_of_stripFrom_eq_error : ∀ {newExtra extra : List UInt8} {message : String},
    stripFrom newExtra extra = .error message →
    message = unpackError ∧ ∃ (records : List ExtraRecord) (tail : List UInt8),
      (∀ record ∈ records, record.Complete) ∧ extra = encodeRecords records ++ tail ∧
        1 ≤ tail.length ∧ tail.length ≤ 3
  | newExtra, [], message, walked => by simp at walked
  | newExtra, s0 :: s1 :: l0 :: l1 :: rest, message, walked => by
    rw [stripFrom_header] at walked
    by_cases within : unpackU16 l0 l1 ≤ rest.length
    · obtain ⟨named, others, tail, complete, split, nonempty, short⟩ :=
        records_of_stripFrom_eq_error walked
      refine ⟨named, ExtraRecord.read s0 s1 l0 l1 rest :: others, tail, ?_, ?_, nonempty, short⟩
      · simpa only [List.mem_cons, forall_eq_or_imp] using
          ⟨ExtraRecord.complete_read within, complete⟩
      · rw [encodeRecords_cons, ExtraRecord.encode_read, List.append_assoc, ← split]
        simp
    · rw [List.drop_eq_nil_of_le (by omega), stripFrom_nil] at walked
      exact absurd walked (by simp)
  | _, [_], _, walked | _, [_, _], _, walked | _, [_, _, _], _, walked => by
    rw [stripFrom_short _ _ (by simp) (by simp), Except.error.injEq] at walked
    exact ⟨walked.symm, [], _, by simp, rfl, by simp, by simp⟩
termination_by _ extra => extra.length
decreasing_by simp only [List.length_drop, List.length_cons]; omega

/-- `strip_bad_extra_fields` walks every byte string to an end. It raises exactly when the walk
stops at a header with one to three bytes; otherwise the field is a run of records, each complete
but perhaps the last, and the result is the run of those whose signature is neither `0x0001` nor
`0xd935`, the last one kept as far as it goes. A result has no stripped record left: stripping it
again gives it back. -/
theorem stripBadExtraFields_walk (extra : List UInt8) :
    (stripBadExtraFields extra = .error unpackError ↔
      ∃ (records : List ExtraRecord) (tail : List UInt8), (∀ record ∈ records, record.Complete) ∧
        extra = encodeRecords records ++ tail ∧ 1 ≤ tail.length ∧ tail.length ≤ 3) ∧
    (∀ stripped, stripBadExtraFields extra = .ok stripped ↔
      ∃ records : List ExtraRecord, (∀ record ∈ records.dropLast, record.Complete) ∧
        extra = encodeRecords records ∧ stripped = encodeRecords (records.filter ExtraRecord.kept)) ∧
    (∀ stripped, stripBadExtraFields extra = .ok stripped →
      stripBadExtraFields stripped = .ok stripped) := by
  unfold stripBadExtraFields
  refine ⟨⟨fun raised => (records_of_stripFrom_eq_error raised).2, ?_⟩,
    fun stripped => ⟨fun walked => ?_, ?_⟩, fun stripped walked => ?_⟩
  · rintro ⟨records, tail, complete, rfl, nonempty, short⟩
    exact stripFrom_encodeRecords_append_short [] records tail complete nonempty short
  · simpa using records_of_stripFrom_eq_ok walked
  · rintro ⟨records, complete, rfl, rfl⟩
    simpa using stripFrom_encodeRecords [] records complete
  · obtain ⟨records, complete, -, rfl⟩ := records_of_stripFrom_eq_ok walked
    simpa using stripFrom_encodeRecords [] _ (forall_dropLast_filter ExtraRecord.kept complete)


/-! ### Fields `zipfile` has decoded -/

/-- An extra field as `zipfile` leaves it once `ZipInfo._decodeExtra` has read it from the central
directory without raising: whole records, then fewer than four bytes, which that loop never
reads. -/
def DecodedExtra (extra : List UInt8) : Prop :=
  ∃ (records : List ExtraRecord) (tail : List UInt8), (∀ record ∈ records, record.Complete) ∧
    tail.length < 4 ∧ extra = encodeRecords records ++ tail

/-- On a field `zipfile` has decoded, a walk that returns has read whole records to the end. -/
theorem stripBadExtraFields_of_decoded {extra stripped : List UInt8} (decoded : DecodedExtra extra)
    (walked : stripBadExtraFields extra = .ok stripped) :
    ∃ records : List ExtraRecord, (∀ record ∈ records, record.Complete) ∧
      extra = encodeRecords records ∧
        stripped = encodeRecords (records.filter ExtraRecord.kept) := by
  obtain ⟨records, tail, complete, short, rfl⟩ := decoded
  unfold stripBadExtraFields at walked
  obtain rfl : tail = [] := List.eq_nil_of_length_eq_zero (by
    by_contra nonempty
    rw [stripFrom_encodeRecords_append_short [] records tail complete (by omega) (by omega)]
      at walked
    cases walked)
  rw [List.append_nil, stripFrom_encodeRecords [] records fun record member =>
    complete record (List.dropLast_subset _ member), Except.ok.injEq, List.nil_append] at walked
  exact ⟨records, complete, List.append_nil _, walked.symm⟩

end Avbroot

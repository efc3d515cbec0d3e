/-
Module: Avbroot.Signing.PassphraseFd
Purpose: `_passphrase_fd` of `openssl.py`, which `_PopenPassphraseWrapper` enters before it starts
  `openssl -passin fd:N`. On POSIX it refuses a passphrase of 4096 characters or more, then writes
  the passphrase in UTF-8 and a newline into a fresh pipe that has no reader yet. The check counts
  characters and the writes count bytes: the main result gives the bytes written and their bound,
  and a passphrase the check accepts writes more than a 4096-byte page.
Trusted boundary: a Python `str` is a `String` (see `Avbroot.Text.Utf8`); a `str` with a lone
  surrogate makes `encode('UTF-8')` raise before anything is written. `os.pipe`,
  `os.set_inheritable` and `os.close` are not modelled; each `os.write` is represented by the bytes
  it is given.
Main exports: passphraseFd, writtenBytes, passphraseFd_eq_ok_iff, passphraseFd_writtenBytes
-/
import Avbroot.Text.Utf8

namespace Avbroot

/-- `_passphrase_fd(passphrase)` up to its `yield`: the blocks it hands to `os.write`, in order, or
the error it raises. For `None` it yields `None` and writes nothing. -/
def passphraseFd : Option String → Except String (List (List UInt8))
  | none => .ok []
  | some passphrase =>
    if passphrase.length ≥ 4096 then .error "Passphrase is too long"
    else .ok [encodeUtf8 passphrase, ascii "\n"]

/-- The bytes a list of writes puts into the pipe. -/
def writtenBytes : List (List UInt8) → Nat
  | [] => 0
  | write :: rest => write.length + writtenBytes rest

theorem passphraseFd_eq_ok_iff {passphrase : String} {writes : List (List UInt8)} :
    passphraseFd (some passphrase) = .ok writes ↔
      passphrase.length < 4096 ∧ writes = [encodeUtf8 passphrase, ascii "\n"] := by
  simp only [passphraseFd]
  by_cases long : passphrase.length ≥ 4096
  · rw [if_pos long]
    exact iff_of_false nofun (by omega)
  · rw [if_neg long, Except.ok.injEq]
    exact ⟨fun same => ⟨by omega, same.symm⟩, fun ⟨_, same⟩ => same.symm⟩

/-! ### What the pipe receives -/

theorem writtenBytes_passphrase (passphrase : String) :
    writtenBytes [encodeUtf8 passphrase, ascii "\n"] = (encodeUtf8 passphrase).length + 1 :=
  rfl

/-- The check counts characters and the pipe receives bytes: an accepted passphrase has fewer than
4096 characters and puts its UTF-8 bytes and a newline into the pipe, at most `4 * 4095 + 1`
bytes, and at most 4096 when it is ASCII. -/
theorem passphraseFd_writtenBytes (passphrase : String) {writes : List (List UInt8)}
    (accepted : passphraseFd (some passphrase) = .ok writes) :
    passphrase.length < 4096 ∧ writtenBytes writes = (encodeUtf8 passphrase).length + 1 ∧
      writtenBytes writes ≤ 16381 ∧ (IsAscii passphrase.data → writtenBytes writes ≤ 4096) := by
  obtain ⟨short, rfl⟩ := passphraseFd_eq_ok_iff.mp accepted
  have bound := length_encodeUtf8_le passphrase
  rw [writtenBytes_passphrase]
  refine ⟨short, rfl, by omega, fun plain => ?_⟩
  have asciiLength : (encodeUtf8 passphrase).length = passphrase.length := by
    rw [encodeUtf8_of_isAscii plain, ascii, List.length_map]
    rfl
  omega

/-- 2048 times `é`, which UTF-8 writes in two bytes. -/
def accentedPassphrase : String :=
  ⟨List.replicate 2048 'é'⟩

/-- The check accepts `accentedPassphrase`, 2048 characters, and its writes fill 4097 bytes. -/
theorem passphraseFd_writes_past_page :
    passphraseFd (some accentedPassphrase) =
        .ok [encodeUtf8 accentedPassphrase, ascii "\n"] ∧
      accentedPassphrase.length = 2048 ∧
      writtenBytes [encodeUtf8 accentedPassphrase, ascii "\n"] = 4097 := by
  have length : accentedPassphrase.length = 2048 := List.length_replicate _ _
  have accepted : passphraseFd (some accentedPassphrase) =
      .ok [encodeUtf8 accentedPassphrase, ascii "\n"] :=
    passphraseFd_eq_ok_iff.mpr ⟨by omega, rfl⟩
  have twoBytes : 'é'.utf8Size = 2 := by decide
  refine ⟨accepted, length, ?_⟩
  rw [(passphraseFd_writtenBytes accentedPassphrase accepted).2.1, accentedPassphrase,
    length_encodeUtf8_replicate, twoBytes]

end Avbroot

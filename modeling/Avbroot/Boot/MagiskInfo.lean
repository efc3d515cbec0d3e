/-
Module: Avbroot.Boot.MagiskInfo
Purpose: `magisk_info_subcommand` of `main.py`: it loads a boot image, decodes its first ramdisk
  (reading it raw when the compression is unknown), takes the first entry named `.backup/.magisk`
  and prints its content decoded as ASCII. The main result runs it on the ramdisk that
  `MagiskRootPatch._patch` wrote: it prints back exactly the config `_patch` put there.
Trusted boundary: `bootimage.load_autodetect` is represented by the list of ramdisks;
  `compression.CompressedFile(..., raw_if_unknown=True)` with `cpio.load` is a parameter
  (`loadRaw`), of which the main result assumes that it reads back the entries `_save_ramdisk`
  encoded.
Main exports: magiskInfo, magiskInfo_of_contentByName, magiskInfo_magiskRootPatch
-/
import Avbroot.Boot.MagiskPatch

namespace Avbroot

/-- `magisk_info_subcommand`: the text it prints for a boot image with these ramdisks, or the
error it raises. -/
def magiskInfo (loadRaw : List UInt8 → Except String (List CpioEntry))
    (ramdisks : List (List UInt8)) : Except String String :=
  match ramdisks with
  | [] => .error "Boot image does not have a ramdisk"
  | ramdisk :: _ => do
    let entries ← loadRaw ramdisk
    match entries.find? (·.name = ascii ".backup/.magisk") with
    | none => .error "Not a Magisk-patched boot image"
    | some config => decodeAscii config.content

/-- A first ramdisk whose `.backup/.magisk` holds ASCII text: the subcommand prints that text. -/
theorem magiskInfo_of_contentByName {loadRaw : List UInt8 → Except String (List CpioEntry)}
    {ramdisk : List UInt8} (rest : List (List UInt8)) {entries : List CpioEntry} {text : String}
    (reads : loadRaw ramdisk = .ok entries)
    (found : contentByName entries (ascii ".backup/.magisk") = some (ascii text))
    (plain : IsAscii text.data) :
    magiskInfo loadRaw (ramdisk :: rest) = .ok text := by
  unfold contentByName at found
  simp only [magiskInfo, reads, bind, Except.bind]
  cases lookup : entries.find? (·.name = ascii ".backup/.magisk") with
  | none => rw [lookup] at found; cases found
  | some config =>
    rw [lookup, Option.map_some', Option.some_inj] at found
    exact (congrArg decodeAscii found).trans (decodeAscii_ascii plain)

/-- What `_patch` writes, `magisk_info` reads: on a boot image whose one ramdisk decodes to entries
`_patch` accepts, with a config it can write, the patch returns, and the subcommand run on the
result prints the config as text. -/
theorem magiskInfo_magiskRootPatch (codec : RamdiskCodec)
    (loadRaw : List UInt8 → Except String (List CpioEntry)) (order : SetOrder)
    (bundle : MagiskBundle) (settings : MagiskSettings) (sha1 : List UInt8)
    {entries : List CpioEntry} {ramdisk config : List UInt8} {format : CompressionFormat}
    (loads : codec.load ramdisk = .ok (entries, format))
    (configured : magiskConfig settings sha1 = .ok config)
    (distinct : (entries.map (·.name)).Nodup) (nulFree : ∀ entry ∈ entries, 0 ∉ entry.name)
    (outsideBackup : ∀ entry ∈ entries, ¬ ascii ".backup" <+: entry.name)
    (notAdded : ∀ entry ∈ entries, entry.name ∈ magiskPaths → entry.name = ascii "init")
    (readsBack : loadRaw (codec.encode (magiskSavedEntries order bundle config entries) format) =
      .ok (magiskSavedEntries order bundle config entries)) :
    ∃ patched text, magiskRootPatch codec order bundle settings sha1 [ramdisk] = .ok patched ∧
      magiskInfo loadRaw patched = .ok text ∧ ascii text = config := by
  obtain ⟨text, plain, written⟩ := magiskConfig_eq_ascii configured
  have found := (contentByName_magiskEntries order bundle config distinct nulFree outsideBackup
    notAdded).trans (congrArg some written.symm)
  exact ⟨_, text, magiskRootPatch_eq_ok codec order bundle settings sha1 loads configured distinct
    nulFree outsideBackup notAdded, magiskInfo_of_contentByName [] readsBack found plain, written⟩

/-- A codec that decodes every ramdisk to a lone `init`, in gzip. -/
def initOnlyCodec : RamdiskCodec where
  load _ := .ok ([newFile (ascii "init") 0o750 [7]], .gzip)
  encode _ _ := []

/-- A Magisk version that needs a preinit device and writes a random seed. -/
def preinitSettings : MagiskSettings :=
  ⟨26100, some "sda10", 42⟩

/-- The config `preinitSettings` gives for the digest `ab`. -/
def preinitConfig : List UInt8 :=
  ascii ("KEEPVERITY=true\nKEEPFORCEENCRYPT=true\nPATCHVBMETAFLAG=false\nRECOVERYMODE=false\n" ++
    "PREINITDEVICE=sda10\nSHA1=ab\nRANDOMSEED=0x2a\n")

/-- A raw reader that reads back what `_patch` writes for `initOnlyCodec`, `preinitSettings` and
`preinitConfig`. -/
def initOnlyLoadRaw (_ : List UInt8) : Except String (List CpioEntry) :=
  .ok (magiskSavedEntries listOrder sampleBundle preinitConfig [newFile (ascii "init") 0o750 [7]])

theorem initOnly_magiskInfo :
    ∃ patched text,
      magiskRootPatch initOnlyCodec listOrder sampleBundle preinitSettings [0xab] [[1]] =
        .ok patched ∧ magiskInfo initOnlyLoadRaw patched = .ok text ∧ ascii text = preinitConfig :=
  magiskInfo_magiskRootPatch initOnlyCodec initOnlyLoadRaw listOrder sampleBundle preinitSettings
    [0xab] rfl rfl (by decide) (by decide) (by decide) (by decide) rfl

end Avbroot

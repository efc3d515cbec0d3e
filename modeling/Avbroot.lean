import Avbroot.Planner.DepGraph
import Avbroot.Planner.PatchOrder
import Avbroot.Payload.Paths
import Avbroot.Payload.Rebuild
import Avbroot.Payload.Partitions
import Avbroot.Payload.PatchPayload
import Avbroot.Signing.PopenPatch
import Avbroot.Text.Ascii
import Avbroot.Text.Utf8
import Avbroot.Signing.PassphraseFd
import Avbroot.Boot.Ramdisk
import Avbroot.Boot.MagiskBackup
import Avbroot.Boot.MagiskPatch
import Avbroot.Boot.MagiskInfo
import Avbroot.Boot.OtaCertPatch
import Avbroot.Boot.PatchBoot
import Avbroot.Python.Builtins
import Avbroot.Python.Bytes
import Avbroot.Boot.PrepatchedImage
import Avbroot.Boot.MagiskVersion
import Avbroot.Python.Struct
import Avbroot.Ota.ExtraFields
import Avbroot.Ota.PatchZip
import Avbroot.Ota.LocalHeader
import Avbroot.Signing.OpensslKeys
import Avbroot.Cli.Arguments

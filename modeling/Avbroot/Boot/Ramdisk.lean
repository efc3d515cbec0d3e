/-
Module: Avbroot.Boot.Ramdisk
Purpose: Ramdisk entries as `boot.py` handles them. `_load_ramdisk` decodes a ramdisk into a list
  of fresh `cpio` entry objects; the patches edit that list, append new objects and rename objects
  in place; `_save_ramdisk` encodes a list again. Python's object identity matters, since a list
  copy shares its objects, so the objects live in a heap and lists hold references. Entry names
  are byte strings, ordered as Python orders `bytes`.
Trusted boundary: the `cpio` and `compression` formats are not in the source tree. Decoding is a
  parameter of a `RamdiskCodec`; encoding refuses a list with two entries of one name
  (`InvalidRamdisk`, as the specification of the format library says) and is otherwise a
  parameter. `new_directory` and `new_file` set the standard cpio type bits.
Main exports: CpioEntry, newDirectory, newFile, EntryHeap, EntryHeap.load, EntryHeap.view,
  EntryHeap.byName, RamdiskCodec, saveRamdisk, bytesLe, splitNul, splitNul_terminated
-/
import Mathlib.Data.List.Sort
import Mathlib.Data.List.Lex
import Avbroot.Text.Ascii

namespace Avbroot

/-- A `cpio` entry object: its name, its mode (file type and permission bits) and its content. -/
structure CpioEntry where
  name : List UInt8
  mode : Nat
  content : List UInt8
deriving DecidableEq, Repr, Inhabited

/-- `cpio.CpioEntryNew.new_directory(path, perms=perms)`. -/
def newDirectory (path : List UInt8) (perms : Nat) : CpioEntry :=
  ⟨path, 0o40000 ||| perms, []⟩

/-- `cpio.CpioEntryNew.new_file(path, perms=perms, data=data)`. -/
def newFile (path : List UInt8) (perms : Nat) (data : List UInt8) : CpioEntry :=
  ⟨path, 0o100000 ||| perms, data⟩

/-! ### Entry objects -/

/-- The entry objects of a patch, by reference, and the next fresh reference. -/
structure EntryHeap where
  objects : Nat → CpioEntry
  next : Nat

namespace EntryHeap

/-- A new object. -/
def alloc (heap : EntryHeap) (entry : CpioEntry) : EntryHeap × Nat :=
  ({ objects := Function.update heap.objects heap.next entry, next := heap.next + 1 }, heap.next)

/-- `entry.name = name` on the object `ref`, seen through every list that holds it. -/
def rename (heap : EntryHeap) (ref : Nat) (name : List UInt8) : EntryHeap :=
  { heap with objects := Function.update heap.objects ref { heap.objects ref with name } }

/-- The entries a list of references holds. -/
def view (heap : EntryHeap) (refs : List Nat) : List CpioEntry :=
  refs.map heap.objects

/-- `{e.name: e for e in entries}`: the last object of each name. -/
def byName (heap : EntryHeap) (refs : List Nat) (name : List UInt8) : Option Nat :=
  refs.reverse.find? fun ref => (heap.objects ref).name = name

/-- `_load_ramdisk`: one fresh object per decoded entry. -/
def load (entries : List CpioEntry) : EntryHeap × List Nat :=
  ({ objects := fun i => entries.getD i default, next := entries.length },
    List.range entries.length)

@[simp] theorem alloc_next (heap : EntryHeap) (entry : CpioEntry) :
    (heap.alloc entry).1.next = heap.next + 1 := rfl

@[simp] theorem alloc_ref (heap : EntryHeap) (entry : CpioEntry) :
    (heap.alloc entry).2 = heap.next := rfl

@[simp] theorem alloc_objects_self (heap : EntryHeap) (entry : CpioEntry) :
    (heap.alloc entry).1.objects heap.next = entry := Function.update_same _ _ _

theorem alloc_objects (heap : EntryHeap) (entry : CpioEntry) (ref : Nat) :
    (heap.alloc entry).1.objects ref = if ref = heap.next then entry else heap.objects ref :=
  Function.update_apply _ _ _ _

theorem alloc_objects_of_lt {heap : EntryHeap} {entry : CpioEntry} {ref : Nat}
    (old : ref < heap.next) : (heap.alloc entry).1.objects ref = heap.objects ref :=
  Function.update_noteq (Nat.ne_of_lt old) _ _

@[simp] theorem rename_next (heap : EntryHeap) (ref : Nat) (name : List UInt8) :
    (heap.rename ref name).next = heap.next := rfl

@[simp] theorem rename_objects_self (heap : EntryHeap) (ref : Nat) (name : List UInt8) :
    (heap.rename ref name).objects ref = { heap.objects ref with name } :=
  Function.update_same _ _ _

theorem rename_objects_of_ne {heap : EntryHeap} {ref other : Nat} (name : List UInt8)
    (differ : other ≠ ref) : (heap.rename ref name).objects other = heap.objects other :=
  Function.update_noteq differ _ _

theorem view_alloc_of_lt {heap : EntryHeap} {refs : List Nat} (entry : CpioEntry)
    (fresh : ∀ ref ∈ refs, ref < heap.next) : (heap.alloc entry).1.view refs = heap.view refs :=
  List.map_congr_left fun _ member => alloc_objects_of_lt (fresh _ member)

theorem view_filter (heap : EntryHeap) (refs : List Nat) (keep : CpioEntry → Bool) :
    heap.view (refs.filter fun ref => keep (heap.objects ref)) = (heap.view refs).filter keep := by
  simp [view, List.filter_map, Function.comp_def]

theorem view_load (entries : List CpioEntry) : (load entries).1.view (load entries).2 = entries := by
  apply List.ext_getElem (by simp [view, load])
  intro n inRange _
  simp only [view, load, List.getElem_map, List.getElem_range, List.getD_eq_getElem?_getD]
  rw [List.getElem?_eq_getElem (by simpa [view, load] using inRange), Option.getD_some]

end EntryHeap

/-! ### Encoding -/

/-- A ramdisk's compression format, kept from load to save. -/
inductive CompressionFormat where
  | gzip
  | lz4Legacy
  | lzma
  | xz
  | zstd
  | uncompressed
deriving DecidableEq, Repr

/-- The format library behind `_load_ramdisk` and `_save_ramdisk`. -/
structure RamdiskCodec where
  /-- decompress and parse a ramdisk, or fail -/
  load : List UInt8 → Except String (List CpioEntry × CompressionFormat)
  /-- serialise and compress a list of entries with no name twice -/
  encode : List CpioEntry → CompressionFormat → List UInt8

/-- `_save_ramdisk(entries, format)`. -/
def saveRamdisk (codec : RamdiskCodec) (entries : List CpioEntry) (format : CompressionFormat) :
    Except String (List UInt8) :=
  if (entries.map (·.name)).Nodup then .ok (codec.encode entries format) else .error "InvalidRamdisk"

/-! ### Byte strings -/

/-- Python's order on `bytes`: lexicographic by byte value. -/
def bytesLe (a b : List UInt8) : Prop :=
  a.map UInt8.toNat ≤ b.map UInt8.toNat

instance : DecidableRel bytesLe := fun a b =>
  inferInstanceAs (Decidable (a.map UInt8.toNat ≤ b.map UInt8.toNat))

instance : IsTotal (List UInt8) bytesLe := ⟨fun _ _ => le_total _ _⟩

instance : IsTrans (List UInt8) bytesLe := ⟨fun _ _ _ => le_trans⟩

/-- The NUL-terminated strings of a byte string, in order; an unterminated tail is dropped. -/
def splitNul (pending : List UInt8) : List UInt8 → List (List UInt8)
  | [] => []
  | b :: rest => if b = 0 then pending :: splitNul [] rest else splitNul (pending ++ [b]) rest

theorem splitNul_append_nul (pending name : List UInt8) (plain : 0 ∉ name) (rest : List UInt8) :
    splitNul pending (name ++ 0 :: rest) = (pending ++ name) :: splitNul [] rest := by
  induction name generalizing pending with
  | nil => simp [splitNul]
  | cons b name inductionHypothesis =>
    have nonzero : b ≠ 0 := fun zero => plain (zero ▸ List.mem_cons_self _ _)
    rw [List.cons_append, splitNul, if_neg nonzero,
      inductionHypothesis _ fun member => plain (List.mem_cons_of_mem _ member)]
    simp

/-- NUL-terminating NUL-free names and splitting again gives the names back. -/
theorem splitNul_terminated (names : List (List UInt8)) (plain : ∀ name ∈ names, 0 ∉ name) :
    splitNul [] (names.flatMap fun name => name ++ [0]) = names := by
  induction names with
  | nil => rfl
  | cons name rest inductionHypothesis =>
    rw [List.flatMap_cons, List.append_assoc, List.singleton_append,
      splitNul_append_nul _ _ (plain name (List.mem_cons_self _ _)),
      inductionHypothesis fun other member => plain other (List.mem_cons_of_mem _ member)]
    rfl

end Avbroot

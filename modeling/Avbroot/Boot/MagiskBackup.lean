/-
Module: Avbroot.Boot.MagiskBackup
Purpose: `MagiskRootPatch._apply_magisk_backup` of `boot.py`: comparing the old and the new entry
  lists of a ramdisk, it appends a `.backup` directory, moves the old entry of every deleted or
  changed name into it by renaming the object in place, and appends `.backup/.rmlist`, the sorted
  NUL-terminated names that were added. Magisk undoes the patch from that layout; `restoredContent`
  states the undo, and the main result says when it gives back the old name-to-content map.
Trusted boundary: the iteration order of the Python set `deleted | changed` is a parameter
  (`SetOrder`), constrained only to be a permutation.
Main exports: SetOrder, addedNames, deletedNames, changedNames, rmlistData, moveToBackup,
  applyMagiskBackup, applyMagiskBackup_refs, applyMagiskBackup_objects, applyMagiskBackup_heap,
  applyMagiskBackup_view, contentByName, restoredContent, MagiskBackupSpec,
  applyMagiskBackup_view_perm, applyMagiskBackup_view_eq_iff
-/
import Avbroot.Boot.Ramdisk
import Mathlib.Data.List.Dedup

namespace Avbroot

/-- The iteration order of a Python `set`: some permutation of its elements. -/
structure SetOrder where
  enumerate : List (List UInt8) → List (List UInt8)
  perm : ∀ names, (enumerate names).Perm names

/-- `b'.backup/'`. -/
def backupPrefix : List UInt8 :=
  ascii ".backup/"

namespace EntryHeap

/-- The names of a list of entries, each once: the keys of `{e.name: e for e in entries}`. -/
def names (heap : EntryHeap) (refs : List Nat) : List (List UInt8) :=
  (refs.map fun ref => (heap.objects ref).name).dedup

/-- `entries_by_name[name].content`. -/
def contentOf (heap : EntryHeap) (refs : List Nat) (name : List UInt8) : Option (List UInt8) :=
  (heap.byName refs name).map fun ref => (heap.objects ref).content

end EntryHeap

section Names

variable (heap : EntryHeap) (oldEntries newEntries : List Nat)

/-- `added = new_by_name.keys() - old_by_name.keys()`. -/
def addedNames : List (List UInt8) :=
  (heap.names newEntries).filter (· ∉ heap.names oldEntries)

/-- `deleted = old_by_name.keys() - new_by_name.keys()`. -/
def deletedNames : List (List UInt8) :=
  (heap.names oldEntries).filter (· ∉ heap.names newEntries)

/-- `changed`: the names of both lists whose contents differ. -/
def changedNames : List (List UInt8) :=
  (heap.names oldEntries).filter fun name =>
    name ∈ heap.names newEntries ∧ heap.contentOf oldEntries name ≠ heap.contentOf newEntries name

/-- `rmlist_data = b''.join(n + b'\0' for n in sorted(added))`. -/
def rmlistData : List UInt8 :=
  ((addedNames heap oldEntries newEntries).insertionSort bytesLe).flatMap fun name => name ++ [0]

end Names

/-- `for name in deleted | changed:` renaming `old_by_name[name]` to `b'.backup/' + entry.name`; the
references it appends to `new_entries`. -/
def moveToBackup (oldByName : List UInt8 → Option Nat) :
    EntryHeap → List (List UInt8) → EntryHeap × List Nat
  | heap, [] => (heap, [])
  | heap, name :: rest =>
    match oldByName name with
    | some ref =>
      let moved := moveToBackup oldByName
        (heap.rename ref (backupPrefix ++ (heap.objects ref).name)) rest
      (moved.1, ref :: moved.2)
    | none => moveToBackup oldByName heap rest

/-- `MagiskRootPatch._apply_magisk_backup(old_entries, new_entries)`: the objects afterwards and the
list `new_entries` holds. -/
def applyMagiskBackup (order : SetOrder) (heap : EntryHeap) (oldEntries newEntries : List Nat) :
    EntryHeap × List Nat :=
  let backupDir := heap.alloc (newDirectory (ascii ".backup") 0)
  let moved := moveToBackup (heap.byName oldEntries) backupDir.1
    (order.enumerate (deletedNames heap oldEntries newEntries ++
      changedNames heap oldEntries newEntries))
  let rmlist := moved.1.alloc
    (newFile (ascii ".backup/.rmlist") 0 (rmlistData heap oldEntries newEntries))
  (rmlist.1, newEntries ++ [backupDir.2] ++ moved.2 ++ [rmlist.2])

/-! ### Moving entries into `.backup` -/

/-- The move renames each backed-up object once, leaves every other object alone, and appends the
backed-up objects in the order of the names. -/
theorem moveToBackup_spec (oldByName : List UInt8 → Option Nat) :
    ∀ (names : List (List UInt8)) (heap : EntryHeap), (names.filterMap oldByName).Nodup →
      (moveToBackup oldByName heap names).2 = names.filterMap oldByName ∧
      (moveToBackup oldByName heap names).1.next = heap.next ∧
      ∀ ref, (moveToBackup oldByName heap names).1.objects ref =
        if ref ∈ names.filterMap oldByName then
          { heap.objects ref with name := backupPrefix ++ (heap.objects ref).name }
        else heap.objects ref
  | [], heap, _ => ⟨rfl, rfl, fun _ => rfl⟩
  | name :: rest, heap, distinct => by
    cases found : oldByName name with
    | none =>
      simp only [List.filterMap_cons, found] at distinct ⊢
      simpa [moveToBackup, found] using moveToBackup_spec oldByName rest heap distinct
    | some ref =>
      simp only [List.filterMap_cons, found, List.nodup_cons] at distinct ⊢
      obtain ⟨refs, next, objects⟩ := moveToBackup_spec oldByName rest
        (heap.rename ref (backupPrefix ++ (heap.objects ref).name)) distinct.2
      simp only [moveToBackup, found]
      refine ⟨by rw [refs], next, fun other => ?_⟩
      rw [objects]
      by_cases same : other = ref
      · subst same
        simp [distinct.1]
      · by_cases later : other ∈ rest.filterMap oldByName <;>
          simp [later, same, EntryHeap.rename_objects_of_ne _ same]

theorem EntryHeap.byName_eq_some {heap : EntryHeap} {refs : List Nat} {name : List UInt8}
    {ref : Nat} (found : heap.byName refs name = some ref) :
    ref ∈ refs ∧ (heap.objects ref).name = name :=
  ⟨List.mem_reverse.mp (List.mem_of_find?_eq_some found), by simpa using List.find?_some found⟩

/-! ### The list `_apply_magisk_backup` leaves -/

/-- The objects moved into `.backup`: `old_by_name[name]` for each name of `deleted | changed`, in
the set's iteration order. -/
def backedUpRefs (order : SetOrder) (heap : EntryHeap) (oldEntries newEntries : List Nat) :
    List Nat :=
  (order.enumerate (deletedNames heap oldEntries newEntries ++
    changedNames heap oldEntries newEntries)).filterMap (heap.byName oldEntries)

section Layout

variable {order : SetOrder} {heap : EntryHeap} {oldEntries newEntries : List Nat}

/-- A name of the list belongs to one of its entries, which looking the name up finds. -/
theorem EntryHeap.exists_of_mem_names {refs : List Nat} {name : List UInt8}
    (member : name ∈ heap.names refs) : ∃ ref ∈ refs, (heap.objects ref).name = name :=
  List.mem_map.mp (List.mem_dedup.mp member)

theorem EntryHeap.byName_isSome {refs : List Nat} {name : List UInt8}
    (member : name ∈ heap.names refs) : (heap.byName refs name).isSome := by
  obtain ⟨ref, inRefs, named⟩ := EntryHeap.exists_of_mem_names member
  exact List.find?_isSome.mpr ⟨ref, List.mem_reverse.mpr inRefs, by simpa using named⟩

theorem nodup_backupNames :
    (deletedNames heap oldEntries newEntries ++ changedNames heap oldEntries newEntries).Nodup := by
  refine List.nodup_append.mpr ⟨(List.nodup_dedup _).filter _, (List.nodup_dedup _).filter _,
    fun name deleted changed => ?_⟩
  simp only [deletedNames, changedNames, List.mem_filter, decide_eq_true_eq] at deleted changed
  exact deleted.2 changed.2.1

theorem mem_backupNames_old {name : List UInt8}
    (member : name ∈ deletedNames heap oldEntries newEntries ++
      changedNames heap oldEntries newEntries) : name ∈ heap.names oldEntries := by
  rcases List.mem_append.mp member with deleted | changed
  · exact (List.mem_filter.mp deleted).1
  · exact (List.mem_filter.mp changed).1

/-- Every name of `deleted | changed` belongs to an old entry, which the loop moves. -/
theorem map_name_backedUpRefs :
    ∀ names : List (List UInt8), (∀ name ∈ names, name ∈ heap.names oldEntries) →
      (names.filterMap (heap.byName oldEntries)).map (fun ref => (heap.objects ref).name) = names
  | [], _ => rfl
  | name :: rest, old => by
    obtain ⟨ref, found⟩ := Option.isSome_iff_exists.mp
      (EntryHeap.byName_isSome (old name (List.mem_cons_self _ _)))
    rw [List.filterMap_cons_some found, List.map_cons, (EntryHeap.byName_eq_some found).2,
      map_name_backedUpRefs rest fun other later => old other (List.mem_cons_of_mem _ later)]

theorem map_name_backedUp :
    (backedUpRefs order heap oldEntries newEntries).map (fun ref => (heap.objects ref).name) =
      order.enumerate (deletedNames heap oldEntries newEntries ++
        changedNames heap oldEntries newEntries) :=
  map_name_backedUpRefs _ fun _ member => mem_backupNames_old ((order.perm _).subset member)

/-- The loop moves each object once: the lookup finds an object of the name it is given, and the
names of `deleted | changed` are distinct. -/
theorem nodup_backedUpRefs : (backedUpRefs order heap oldEntries newEntries).Nodup :=
  ((order.perm _).nodup_iff.mpr nodup_backupNames).filterMap fun _ _ _ first second =>
    (EntryHeap.byName_eq_some first).2.symm.trans (EntryHeap.byName_eq_some second).2

/-- The moved objects are objects of the old list. -/
theorem mem_old_of_mem_backedUpRefs {ref : Nat}
    (member : ref ∈ backedUpRefs order heap oldEntries newEntries) : ref ∈ oldEntries :=
  let ⟨_, _, found⟩ := List.mem_filterMap.mp member
  (EntryHeap.byName_eq_some found).1

/-- The references the call leaves in `new_entries`: the new list's, `.backup`, the moved objects
and `.backup/.rmlist`. -/
theorem applyMagiskBackup_refs :
    (applyMagiskBackup order heap oldEntries newEntries).2 =
      newEntries ++ [heap.next] ++ backedUpRefs order heap oldEntries newEntries ++
        [heap.next + 1] := by
  obtain ⟨refs, next, -⟩ :=
    moveToBackup_spec _ _ (heap.alloc (newDirectory (ascii ".backup") 0)).1
    (@nodup_backedUpRefs order heap oldEntries newEntries)
  simp only [applyMagiskBackup, refs, next, EntryHeap.alloc_ref, EntryHeap.alloc_next]
  rfl

/-- What the call leaves in each object: `.backup/.rmlist` in the second fresh one, each moved
object renamed, and every other one as it was once `.backup` was allocated. -/
theorem applyMagiskBackup_objects (ref : Nat) :
    (applyMagiskBackup order heap oldEntries newEntries).1.objects ref =
      if ref = heap.next + 1 then
        newFile (ascii ".backup/.rmlist") 0 (rmlistData heap oldEntries newEntries)
      else if ref ∈ backedUpRefs order heap oldEntries newEntries then
        { (heap.alloc (newDirectory (ascii ".backup") 0)).1.objects ref with
          name :=
            backupPrefix ++ ((heap.alloc (newDirectory (ascii ".backup") 0)).1.objects ref).name }
      else (heap.alloc (newDirectory (ascii ".backup") 0)).1.objects ref := by
  obtain ⟨-, next, objects⟩ :=
    moveToBackup_spec _ _ (heap.alloc (newDirectory (ascii ".backup") 0)).1
    (@nodup_backedUpRefs order heap oldEntries newEntries)
  simp only [applyMagiskBackup]
  rw [EntryHeap.alloc_objects, next, objects, EntryHeap.alloc_next]
  rfl

theorem applyMagiskBackup_next :
    (applyMagiskBackup order heap oldEntries newEntries).1.next = heap.next + 2 := by
  obtain ⟨-, next, -⟩ := moveToBackup_spec _ _ (heap.alloc (newDirectory (ascii ".backup") 0)).1
    (@nodup_backedUpRefs order heap oldEntries newEntries)
  simp only [applyMagiskBackup, EntryHeap.alloc_next, next]

theorem backedUpRefs_perm (first second : SetOrder) :
    (backedUpRefs first heap oldEntries newEntries).Perm
      (backedUpRefs second heap oldEntries newEntries) :=
  ((first.perm _).trans (second.perm _).symm).filterMap _

theorem EntryHeap.eq_of_objects {first second : EntryHeap}
    (objects : ∀ ref, first.objects ref = second.objects ref) (next : first.next = second.next) :
    first = second := by
  cases first
  cases second
  rw [EntryHeap.mk.injEq]
  exact ⟨funext objects, next⟩

/-- Every order of `deleted | changed` moves the same objects, so the objects afterwards do not
depend on the order. -/
theorem applyMagiskBackup_heap (first second : SetOrder) :
    (applyMagiskBackup first heap oldEntries newEntries).1 =
      (applyMagiskBackup second heap oldEntries newEntries).1 := by
  refine EntryHeap.eq_of_objects (fun ref => ?_)
    (applyMagiskBackup_next.trans applyMagiskBackup_next.symm)
  rw [applyMagiskBackup_objects, applyMagiskBackup_objects]
  simp only [(backedUpRefs_perm first second).mem_iff]

/-- A moved object that existed before the call ends up under its old name behind `.backup/`. -/
theorem applyMagiskBackup_objects_moved {ref : Nat}
    (member : ref ∈ backedUpRefs order heap oldEntries newEntries) (old : ref < heap.next) :
    (applyMagiskBackup order heap oldEntries newEntries).1.objects ref =
      { heap.objects ref with name := backupPrefix ++ (heap.objects ref).name } := by
  rw [applyMagiskBackup_objects, if_neg (by omega), if_pos member,
    EntryHeap.alloc_objects_of_lt old]

/-- After the call, `new_entries` holds its own entries unchanged, the `.backup` directory, the
moved objects under their new names, and `.backup/.rmlist`. -/
theorem applyMagiskBackup_view (fresh : ∀ ref ∈ oldEntries ++ newEntries, ref < heap.next)
    (untouched : ∀ ref ∈ newEntries, ref ∉ backedUpRefs order heap oldEntries newEntries) :
    (applyMagiskBackup order heap oldEntries newEntries).1.view
        (applyMagiskBackup order heap oldEntries newEntries).2 =
      heap.view newEntries ++ [newDirectory (ascii ".backup") 0] ++
        (backedUpRefs order heap oldEntries newEntries).map (fun ref =>
          { heap.objects ref with name := backupPrefix ++ (heap.objects ref).name }) ++
        [newFile (ascii ".backup/.rmlist") 0 (rmlistData heap oldEntries newEntries)] := by
  have old : ∀ ref ∈ backedUpRefs order heap oldEntries newEntries, ref < heap.next :=
    fun ref member => fresh ref (List.mem_append_left _ (mem_old_of_mem_backedUpRefs member))
  rw [applyMagiskBackup_refs]
  simp only [EntryHeap.view, List.map_append, List.map_cons, List.map_nil]
  congr 2
  · congr 1
    · refine List.map_congr_left fun ref member => ?_
      have lower := fresh ref (List.mem_append_right _ member)
      rw [applyMagiskBackup_objects, if_neg (by omega), if_neg (untouched ref member),
        EntryHeap.alloc_objects_of_lt lower]
    · rw [applyMagiskBackup_objects, if_neg (by omega),
        if_neg fun member => Nat.lt_irrefl _ (old _ member), EntryHeap.alloc_objects_self]
  · exact List.map_congr_left fun ref member =>
      applyMagiskBackup_objects_moved member (old ref member)
  · rw [applyMagiskBackup_objects, if_pos rfl]

end Layout

/-! ### Lists whose names are distinct -/

section Distinct

variable {heap : EntryHeap} {refs : List Nat}

theorem EntryHeap.byName_of_mem (distinct : (refs.map fun ref => (heap.objects ref).name).Nodup)
    {ref : Nat} (member : ref ∈ refs) : heap.byName refs (heap.objects ref).name = some ref := by
  cases found : heap.byName refs (heap.objects ref).name with
  | none =>
    have absent := List.find?_eq_none.mp found ref (List.mem_reverse.mpr member)
    simp at absent
  | some other =>
    obtain ⟨inRefs, sameName⟩ := EntryHeap.byName_eq_some found
    rw [List.inj_on_of_nodup_map distinct inRefs member sameName]

theorem EntryHeap.names_of_nodup (distinct : (refs.map fun ref => (heap.objects ref).name).Nodup) :
    heap.names refs = refs.map fun ref => (heap.objects ref).name :=
  List.dedup_eq_self.mpr distinct

theorem EntryHeap.contentOf_of_mem (distinct : (refs.map fun ref => (heap.objects ref).name).Nodup)
    {ref : Nat} (member : ref ∈ refs) :
    heap.contentOf refs (heap.objects ref).name = some (heap.objects ref).content := by
  rw [EntryHeap.contentOf, EntryHeap.byName_of_mem distinct member, Option.map_some']

end Distinct

/-- The first entry of each name, by content: the name-to-content map of a ramdisk. -/
def contentByName (entries : List CpioEntry) (name : List UInt8) : Option (List UInt8) :=
  (entries.find? (·.name = name)).map (·.content)

theorem contentByName_of_mem {entries : List CpioEntry} (distinct : (entries.map (·.name)).Nodup)
    {entry : CpioEntry} (member : entry ∈ entries) :
    contentByName entries entry.name = some entry.content := by
  unfold contentByName
  cases found : entries.find? (·.name = entry.name) with
  | none =>
    have absent := List.find?_eq_none.mp found entry member
    simp at absent
  | some other =>
    have sameName : other.name = entry.name := by simpa using List.find?_some found
    rw [List.inj_on_of_nodup_map distinct (List.mem_of_find?_eq_some found) member sameName]
    rfl

theorem contentByName_eq_none {entries : List CpioEntry} {name : List UInt8}
    (absent : ∀ entry ∈ entries, entry.name ≠ name) : contentByName entries name = none := by
  unfold contentByName
  rw [List.find?_eq_none.mpr fun entry member => by simpa using absent entry member]
  rfl

/-- In a list whose names are distinct, the entries of one entry's name are that entry alone. -/
theorem filter_name_of_mem {entries : List CpioEntry} (distinct : (entries.map (·.name)).Nodup)
    {entry : CpioEntry} (member : entry ∈ entries) :
    entries.filter (·.name = entry.name) = [entry] := by
  induction entries with
  | nil => cases member
  | cons first rest inductionHypothesis =>
    rw [List.map_cons, List.nodup_cons] at distinct
    rcases List.mem_cons.mp member with rfl | later
    · rw [List.filter_cons_of_pos (by simp), List.filter_eq_nil_iff.mpr]
      intro other inRest same
      exact distinct.1 (List.mem_map.mpr ⟨other, inRest, by simpa using same⟩)
    · have other : first.name ≠ entry.name := fun same =>
        distinct.1 (same ▸ List.mem_map_of_mem (·.name) later)
      rw [List.filter_cons_of_neg (by simpa using other), inductionHypothesis distinct.2 later]

/-- Undoing the backup as Magisk does: the names listed in `.backup/.rmlist` and the `.backup`
tree go, and each `.backup/<name>` other than the list itself comes back as `<name>`. -/
def restoredContent (entries : List CpioEntry) (name : List UInt8) : Option (List UInt8) :=
  if ascii ".backup" <+: name then none
  else if name ≠ ascii ".rmlist" ∧ (contentByName entries (backupPrefix ++ name)).isSome then
    contentByName entries (backupPrefix ++ name)
  else if name ∈ splitNul [] ((contentByName entries (ascii ".backup/.rmlist")).getD []) then none
  else contentByName entries name

/-!
### When the backup can be undone

The layout is undone exactly when the resulting list has no name twice: then each name the undo
looks for belongs to one entry. Names stay distinct when the two lists have distinct names outside
the `.backup` tree and no old `.rmlist` is backed up onto `.backup/.rmlist`, the list itself.
-/

/-- What `_apply_magisk_backup` needs for its layout to be undone: fresh objects, distinct NUL-free
names outside `.backup` in both lists, and an old `.rmlist`, if any, kept unchanged. -/
structure BackupInput (heap : EntryHeap) (oldEntries newEntries : List Nat) : Prop where
  fresh : ∀ ref ∈ oldEntries ++ newEntries, ref < heap.next
  oldDistinct : ((heap.view oldEntries).map (·.name)).Nodup
  newDistinct : ((heap.view newEntries).map (·.name)).Nodup
  nulFree : ∀ entry ∈ heap.view oldEntries ++ heap.view newEntries, 0 ∉ entry.name
  outsideBackup : ∀ entry ∈ heap.view oldEntries ++ heap.view newEntries,
    ¬ ascii ".backup" <+: entry.name
  rmlistKept : ∀ entry ∈ heap.view oldEntries, entry.name = ascii ".rmlist" →
    ∃ kept ∈ heap.view newEntries, kept.name = entry.name ∧ kept.content = entry.content

section Restorable

variable {order : SetOrder} {heap : EntryHeap} {oldEntries newEntries : List Nat}

theorem EntryHeap.map_name_view (refs : List Nat) :
    (heap.view refs).map (·.name) = refs.map fun ref => (heap.objects ref).name := by
  simp [EntryHeap.view]

/-- No object the loop moves is an entry of the new list: its name is either missing from the new
list or carries other content there. -/
theorem not_mem_backedUpRefs (input : BackupInput heap oldEntries newEntries) {ref : Nat}
    (member : ref ∈ newEntries) : ref ∉ backedUpRefs order heap oldEntries newEntries := by
  intro moved
  obtain ⟨name, listed, found⟩ := List.mem_filterMap.mp moved
  obtain ⟨-, rfl⟩ := EntryHeap.byName_eq_some found
  have newDistinct := input.newDistinct
  rw [EntryHeap.map_name_view] at newDistinct
  have inNew : (heap.objects ref).name ∈ heap.names newEntries :=
    List.mem_dedup.mpr (List.mem_map_of_mem _ member)
  rcases List.mem_append.mp ((order.perm _).subset listed) with deleted | changed
  · exact of_decide_eq_true (List.mem_filter.mp deleted).2 inNew
  · have differ := (List.mem_filter.mp changed).2
    simp only [decide_eq_true_eq] at differ
    rw [EntryHeap.contentOf, found, EntryHeap.contentOf_of_mem newDistinct member] at differ
    exact differ.2 rfl

/-- A name whose old entry the new list keeps with the same content is not moved. -/
theorem not_mem_backupNames_of_kept (input : BackupInput heap oldEntries newEntries)
    {name : List UInt8} (kept : ∀ entry ∈ heap.view oldEntries, entry.name = name →
      ∃ other ∈ heap.view newEntries, other.name = entry.name ∧ other.content = entry.content) :
    name ∉ deletedNames heap oldEntries newEntries ++ changedNames heap oldEntries newEntries := by
  intro member
  obtain ⟨ref, inOld, named⟩ := EntryHeap.exists_of_mem_names (mem_backupNames_old member)
  obtain ⟨other, inNew, otherName, otherContent⟩ := kept _ (List.mem_map_of_mem _ inOld) named
  obtain ⟨otherRef, otherMember, rfl⟩ := List.mem_map.mp inNew
  have oldDistinct := input.oldDistinct
  have newDistinct := input.newDistinct
  rw [EntryHeap.map_name_view] at oldDistinct newDistinct
  rcases List.mem_append.mp member with deleted | changed
  · refine of_decide_eq_true (List.mem_filter.mp deleted).2 (List.mem_dedup.mpr ?_)
    exact List.mem_map.mpr ⟨otherRef, otherMember, otherName.trans named⟩
  · have differ := of_decide_eq_true (List.mem_filter.mp changed).2
    rw [← named, EntryHeap.contentOf_of_mem oldDistinct inOld, ← otherName,
      EntryHeap.contentOf_of_mem newDistinct otherMember, otherContent] at differ
    exact differ.2 rfl

/-- An old `.rmlist` is not moved: it is kept with the same content. -/
theorem rmlist_not_mem_backupNames (input : BackupInput heap oldEntries newEntries) :
    ascii ".rmlist" ∉ deletedNames heap oldEntries newEntries ++
      changedNames heap oldEntries newEntries :=
  not_mem_backupNames_of_kept input input.rmlistKept

theorem rmlist_name : ascii ".backup/.rmlist" = backupPrefix ++ ascii ".rmlist" := by
  decide

theorem rmlist_isPrefix : ascii ".backup" <+: ascii ".backup/.rmlist" := by
  decide

theorem backup_isPrefix (name : List UInt8) : ascii ".backup" <+: backupPrefix ++ name :=
  (show ascii ".backup" <+: backupPrefix by decide).trans (List.prefix_append _ _)

/-- The list after the call, entry by entry. -/
theorem applyMagiskBackup_layout (input : BackupInput heap oldEntries newEntries) :
    (applyMagiskBackup order heap oldEntries newEntries).1.view
        (applyMagiskBackup order heap oldEntries newEntries).2 =
      heap.view newEntries ++ [newDirectory (ascii ".backup") 0] ++
        (backedUpRefs order heap oldEntries newEntries).map (fun ref =>
          { heap.objects ref with name := backupPrefix ++ (heap.objects ref).name }) ++
        [newFile (ascii ".backup/.rmlist") 0 (rmlistData heap oldEntries newEntries)] :=
  applyMagiskBackup_view input.fresh fun _ member => not_mem_backedUpRefs input member

/-- Every object the resulting list holds is older than the next fresh one. -/
theorem applyMagiskBackup_refs_lt (input : BackupInput heap oldEntries newEntries) :
    ∀ ref ∈ (applyMagiskBackup order heap oldEntries newEntries).2,
      ref < (applyMagiskBackup order heap oldEntries newEntries).1.next := by
  intro ref member
  rw [applyMagiskBackup_next]
  rw [applyMagiskBackup_refs] at member
  simp only [List.mem_append, List.mem_singleton] at member
  rcases member with ((inNew | rfl) | moved) | rfl
  · have := input.fresh ref (List.mem_append_right _ inNew)
    omega
  · omega
  · have := input.fresh ref (List.mem_append_left _ (mem_old_of_mem_backedUpRefs moved))
    omega
  · omega

/-- The names after the call: the new list's, `.backup`, `.backup/<name>` for each moved name, and
`.backup/.rmlist`. -/
theorem applyMagiskBackup_names (input : BackupInput heap oldEntries newEntries) :
    ((applyMagiskBackup order heap oldEntries newEntries).1.view
        (applyMagiskBackup order heap oldEntries newEntries).2).map (·.name) =
      (heap.view newEntries).map (·.name) ++ [ascii ".backup"] ++
        (order.enumerate (deletedNames heap oldEntries newEntries ++
          changedNames heap oldEntries newEntries)).map (backupPrefix ++ ·) ++
        [ascii ".backup/.rmlist"] := by
  rw [applyMagiskBackup_layout input, ← map_name_backedUp]
  simp [newDirectory, newFile, Function.comp_def]

/-- No name occurs twice after the call. -/
theorem applyMagiskBackup_nodup_names (input : BackupInput heap oldEntries newEntries) :
    ((applyMagiskBackup order heap oldEntries newEntries).1.view
        (applyMagiskBackup order heap oldEntries newEntries).2).map (·.name) |>.Nodup := by
  have outside : ∀ name ∈ (heap.view newEntries).map (·.name), ¬ ascii ".backup" <+: name := by
    intro name member
    obtain ⟨entry, inNew, rfl⟩ := List.mem_map.mp member
    exact input.outsideBackup entry (List.mem_append_right _ inNew)
  have moved : ((order.enumerate (deletedNames heap oldEntries newEntries ++
      changedNames heap oldEntries newEntries)).map (backupPrefix ++ ·)).Nodup :=
    ((order.perm _).nodup_iff.mpr nodup_backupNames).map fun _ _ same =>
      List.append_cancel_left same
  have notRmlist : ∀ name ∈ order.enumerate (deletedNames heap oldEntries newEntries ++
      changedNames heap oldEntries newEntries), backupPrefix ++ name ≠ ascii ".backup/.rmlist" := by
    intro name member same
    have : name = ascii ".rmlist" := List.append_cancel_left (same.trans rmlist_name)
    exact rmlist_not_mem_backupNames input (this ▸ (order.perm _).subset member)
  rw [applyMagiskBackup_names input]
  simp only [List.nodup_append, List.nodup_cons, List.not_mem_nil, not_false_eq_true,
    List.nodup_nil, and_true, true_and, List.disjoint_singleton, List.singleton_disjoint]
  refine ⟨⟨⟨input.newDistinct, fun member => outside _ member (List.prefix_refl _)⟩, moved,
    fun name member inMoved => ?_⟩, ?_⟩
  · obtain ⟨n, -, rfl⟩ := List.mem_map.mp inMoved
    rcases List.mem_append.mp member with inNew | isDir
    · exact outside _ inNew (backup_isPrefix n)
    · have lengths := congrArg List.length (List.mem_singleton.mp isDir)
      simp [backupPrefix, ascii] at lengths
  · simp only [List.mem_append, List.mem_singleton, List.mem_map, not_or, not_exists, not_and]
    refine ⟨⟨fun entry inNew same => outside _ (List.mem_map_of_mem _ inNew) (same ▸ rmlist_isPrefix),
      by decide⟩, notRmlist⟩

theorem mem_applyMagiskBackup (input : BackupInput heap oldEntries newEntries) {entry : CpioEntry} :
    entry ∈ (applyMagiskBackup order heap oldEntries newEntries).1.view
        (applyMagiskBackup order heap oldEntries newEntries).2 ↔
      entry ∈ heap.view newEntries ∨ entry = newDirectory (ascii ".backup") 0 ∨
        (∃ ref ∈ backedUpRefs order heap oldEntries newEntries,
          entry = { heap.objects ref with name := backupPrefix ++ (heap.objects ref).name }) ∨
        entry = newFile (ascii ".backup/.rmlist") 0 (rmlistData heap oldEntries newEntries) := by
  rw [applyMagiskBackup_layout input]
  simp only [List.mem_append, List.mem_singleton, List.mem_map, or_assoc]
  exact or_congr_right (or_congr_right (or_congr_left
    ⟨fun ⟨ref, member, same⟩ => ⟨ref, member, same.symm⟩,
      fun ⟨ref, member, same⟩ => ⟨ref, member, same.symm⟩⟩))

/-- The old entry of a moved name ends up in `.backup` under its new name. -/
theorem moved_mem_applyMagiskBackup (input : BackupInput heap oldEntries newEntries) {ref : Nat}
    (member : ref ∈ oldEntries)
    (moved : (heap.objects ref).name ∈ deletedNames heap oldEntries newEntries ++
      changedNames heap oldEntries newEntries) :
    { heap.objects ref with name := backupPrefix ++ (heap.objects ref).name } ∈
      (applyMagiskBackup order heap oldEntries newEntries).1.view
        (applyMagiskBackup order heap oldEntries newEntries).2 := by
  have distinct := input.oldDistinct
  rw [EntryHeap.map_name_view] at distinct
  refine (mem_applyMagiskBackup input).mpr (.inr (.inr (.inl ⟨ref, ?_, rfl⟩)))
  exact List.mem_filterMap.mpr ⟨_, (order.perm _).symm.subset moved,
    EntryHeap.byName_of_mem distinct member⟩

/-- The names `.backup/.rmlist` lists are the added names, sorted. -/
theorem splitNul_rmlistData (input : BackupInput heap oldEntries newEntries) :
    splitNul [] (rmlistData heap oldEntries newEntries) =
      (addedNames heap oldEntries newEntries).insertionSort bytesLe := by
  refine splitNul_terminated _ fun name member => ?_
  have added := (List.perm_insertionSort _ _).subset member
  obtain ⟨ref, inNew, rfl⟩ := EntryHeap.exists_of_mem_names (List.mem_filter.mp added).1
  exact input.nulFree _ (List.mem_append_right _ (List.mem_map_of_mem _ inNew))

theorem mem_addedNames {name : List UInt8} :
    name ∈ addedNames heap oldEntries newEntries ↔
      name ∈ (heap.view newEntries).map (·.name) ∧ name ∉ (heap.view oldEntries).map (·.name) := by
  simp [addedNames, EntryHeap.names, EntryHeap.map_name_view]

end Restorable

/-- The layout the backup promises, for the old and new entry lists and the list the call leaves:
one `.backup/.rmlist` listing the added names sorted, each once and NUL-terminated; for each old
name that was deleted or changed, one `.backup/<name>` carrying the old entry; each other old name
kept with its content; and undoing the layout gives back the old name-to-content map. -/
structure MagiskBackupSpec (old new result : List CpioEntry) : Prop where
  rmlist : ∃ added : List (List UInt8),
    (result.filter (·.name = ascii ".backup/.rmlist")).map (·.content) =
      [added.flatMap fun name => name ++ [0]] ∧
    added.Sorted bytesLe ∧ added.Nodup ∧
    ∀ name, name ∈ added ↔ name ∈ new.map (·.name) ∧ name ∉ old.map (·.name)
  backups : ∀ entry ∈ old,
    (∀ other ∈ new, other.name = entry.name → other.content ≠ entry.content) →
    result.filter (·.name = backupPrefix ++ entry.name) =
      [{ entry with name := backupPrefix ++ entry.name }]
  kept : ∀ entry ∈ old,
    (∃ other ∈ new, other.name = entry.name ∧ other.content = entry.content) →
    (result.filter (·.name = entry.name)).map (·.content) = [entry.content]
  restores : ∀ name, restoredContent result name = contentByName old name

section Restorable

variable {order : SetOrder} {heap : EntryHeap} {oldEntries newEntries : List Nat}

/-- An old name is moved exactly when it is deleted, or kept with other content. -/
theorem mem_backupNames_iff (input : BackupInput heap oldEntries newEntries) {ref : Nat}
    (member : ref ∈ oldEntries) :
    (heap.objects ref).name ∈ deletedNames heap oldEntries newEntries ++
        changedNames heap oldEntries newEntries ↔
      ∀ other ∈ heap.view newEntries, other.name = (heap.objects ref).name →
        other.content ≠ (heap.objects ref).content := by
  have oldDistinct := input.oldDistinct
  have newDistinct := input.newDistinct
  rw [EntryHeap.map_name_view] at oldDistinct newDistinct
  have inOld : (heap.objects ref).name ∈ heap.names oldEntries :=
    List.mem_dedup.mpr (List.mem_map_of_mem _ member)
  simp only [deletedNames, changedNames, List.mem_append, List.mem_filter, inOld, true_and,
    decide_eq_true_eq, EntryHeap.view, List.mem_map, forall_exists_index, and_imp,
    forall_apply_eq_imp_iff₂]
  constructor
  · rintro (deleted | ⟨-, differ⟩) other inNew same
    · exact absurd (List.mem_dedup.mpr (List.mem_map.mpr ⟨other, inNew, same⟩)) deleted
    · rw [EntryHeap.contentOf_of_mem oldDistinct member, ← same,
        EntryHeap.contentOf_of_mem newDistinct inNew] at differ
      exact fun equal => differ (by rw [equal])
  · intro differ
    by_cases present : (heap.objects ref).name ∈ heap.names newEntries
    · obtain ⟨other, inNew, same⟩ := EntryHeap.exists_of_mem_names present
      refine .inr ⟨present, ?_⟩
      rw [EntryHeap.contentOf_of_mem oldDistinct member, ← same,
        EntryHeap.contentOf_of_mem newDistinct inNew]
      exact fun equal => differ other inNew same (Option.some.inj equal).symm
    · exact .inl present

/-- A moved name comes back from `.backup/<name>` with its old content. -/
theorem contentByName_backup_moved (input : BackupInput heap oldEntries newEntries)
    {name : List UInt8} (notRmlist : name ≠ ascii ".rmlist")
    (found : (contentByName ((applyMagiskBackup order heap oldEntries newEntries).1.view
      (applyMagiskBackup order heap oldEntries newEntries).2) (backupPrefix ++ name)).isSome) :
    contentByName ((applyMagiskBackup order heap oldEntries newEntries).1.view
        (applyMagiskBackup order heap oldEntries newEntries).2) (backupPrefix ++ name) =
      contentByName (heap.view oldEntries) name := by
  have distinct := @applyMagiskBackup_nodup_names order heap oldEntries newEntries input
  obtain ⟨backup, member, backupName⟩ : ∃ backup ∈ (applyMagiskBackup order heap oldEntries
      newEntries).1.view (applyMagiskBackup order heap oldEntries newEntries).2,
      backup.name = backupPrefix ++ name := by
    unfold contentByName at found
    cases find : List.find? _ _ with
    | none => rw [find] at found; cases found
    | some backup =>
      exact ⟨backup, List.mem_of_find?_eq_some find, by simpa using List.find?_some find⟩
  rw [← backupName, contentByName_of_mem distinct member]
  rcases (mem_applyMagiskBackup input).mp member with inNew | rfl | ⟨ref, inMoved, rfl⟩ | rfl
  · exact absurd (backupName ▸ backup_isPrefix name)
      (input.outsideBackup _ (List.mem_append_right _ inNew))
  · have lengths := congrArg List.length backupName
    simp [newDirectory, backupPrefix, ascii] at lengths
  · obtain ⟨listedName, -, byName⟩ := List.mem_filterMap.mp inMoved
    obtain ⟨inOld, -⟩ := EntryHeap.byName_eq_some byName
    have sameName : (heap.objects ref).name = name := List.append_cancel_left backupName
    rw [← sameName, contentByName_of_mem input.oldDistinct (List.mem_map_of_mem _ inOld)]
  · exact absurd (List.append_cancel_left (backupName.symm.trans rmlist_name)) notRmlist

/-- A name outside `.backup`, not moved and not added, keeps its old content. -/
theorem contentByName_kept (input : BackupInput heap oldEntries newEntries) {name : List UInt8}
    (tree : ¬ ascii ".backup" <+: name)
    (moved : ¬ (name ≠ ascii ".rmlist" ∧ (contentByName ((applyMagiskBackup order heap oldEntries
      newEntries).1.view (applyMagiskBackup order heap oldEntries newEntries).2)
      (backupPrefix ++ name)).isSome))
    (added : name ∉ (addedNames heap oldEntries newEntries).insertionSort bytesLe) :
    contentByName ((applyMagiskBackup order heap oldEntries newEntries).1.view
        (applyMagiskBackup order heap oldEntries newEntries).2) name =
      contentByName (heap.view oldEntries) name := by
  have distinct := @applyMagiskBackup_nodup_names order heap oldEntries newEntries input
  by_cases inOld : ∃ entry ∈ heap.view oldEntries, entry.name = name
  · obtain ⟨entry, member, rfl⟩ := inOld
    obtain ⟨ref, refMember, rfl⟩ := List.mem_map.mp member
    have notMoved : (heap.objects ref).name ∉ deletedNames heap oldEntries newEntries ++
        changedNames heap oldEntries newEntries := by
      intro movedName
      by_cases isRmlist : (heap.objects ref).name = ascii ".rmlist"
      · exact rmlist_not_mem_backupNames input (isRmlist ▸ movedName)
      · refine moved ⟨isRmlist, ?_⟩
        rw [show backupPrefix ++ (heap.objects ref).name = ({ heap.objects ref with
          name := backupPrefix ++ (heap.objects ref).name } : CpioEntry).name from rfl,
          contentByName_of_mem distinct (moved_mem_applyMagiskBackup input refMember movedName)]
        rfl
    have keptEntry := (mem_backupNames_iff input refMember).not.mp notMoved
    push_neg at keptEntry
    obtain ⟨other, inNew, sameName, sameContent⟩ := keptEntry
    rw [← sameName, contentByName_of_mem distinct ((mem_applyMagiskBackup input).mpr (.inl inNew)),
      sameName, contentByName_of_mem input.oldDistinct member, sameContent]
  · push_neg at inOld
    rw [contentByName_eq_none inOld]
    refine contentByName_eq_none fun entry member same => ?_
    rcases (mem_applyMagiskBackup input).mp member with inNew | rfl | ⟨ref, -, rfl⟩ | rfl
    · refine added ((List.perm_insertionSort _ _).symm.subset (mem_addedNames.mpr
        ⟨same ▸ List.mem_map_of_mem _ inNew, fun inOldNames => ?_⟩))
      obtain ⟨old, oldMember, oldName⟩ := List.mem_map.mp inOldNames
      exact inOld old oldMember oldName
    · exact tree (same ▸ List.prefix_refl _)
    · exact tree (same ▸ backup_isPrefix _)
    · exact tree (by rw [← same]; exact rmlist_isPrefix)

/-- Undoing the layout gives back the old name-to-content map. -/
theorem restoredContent_applyMagiskBackup (input : BackupInput heap oldEntries newEntries)
    (name : List UInt8) :
    restoredContent ((applyMagiskBackup order heap oldEntries newEntries).1.view
        (applyMagiskBackup order heap oldEntries newEntries).2) name =
      contentByName (heap.view oldEntries) name := by
  have distinct := @applyMagiskBackup_nodup_names order heap oldEntries newEntries input
  have rmlistIn :=
    (@mem_applyMagiskBackup order heap oldEntries newEntries input _).mpr (.inr (.inr (.inr rfl)))
  have listed : splitNul [] ((contentByName ((applyMagiskBackup order heap oldEntries
      newEntries).1.view (applyMagiskBackup order heap oldEntries newEntries).2)
      (ascii ".backup/.rmlist")).getD []) = (addedNames heap oldEntries newEntries).insertionSort
      bytesLe := by
    rw [show ascii ".backup/.rmlist" = (newFile (ascii ".backup/.rmlist") 0
      (rmlistData heap oldEntries newEntries)).name from rfl, contentByName_of_mem distinct rmlistIn]
    exact splitNul_rmlistData input
  unfold restoredContent
  rw [listed]
  split_ifs with tree moved added
  · -- the `.backup` tree
    exact (contentByName_eq_none fun entry member same =>
      input.outsideBackup entry (List.mem_append_left _ member) (same ▸ tree)).symm
  · exact contentByName_backup_moved input moved.1 moved.2
  · -- an added name is deleted
    refine (contentByName_eq_none fun entry member same => ?_).symm
    exact (mem_addedNames.mp ((List.perm_insertionSort _ _).subset added)).2
      (same ▸ List.mem_map_of_mem _ member)
  · exact contentByName_kept input tree moved added

/-- For old and new lists with distinct NUL-free names outside `.backup`, and an old `.rmlist`, if
any, kept unchanged: the list `_apply_magisk_backup` leaves has the promised `.backup` layout, and
undoing it gives back the old name-to-content map. -/
theorem applyMagiskBackup_restorable (order : SetOrder) (heap : EntryHeap)
    (oldEntries newEntries : List Nat) (input : BackupInput heap oldEntries newEntries) :
    MagiskBackupSpec (heap.view oldEntries) (heap.view newEntries)
      ((applyMagiskBackup order heap oldEntries newEntries).1.view
        (applyMagiskBackup order heap oldEntries newEntries).2) := by
  have distinct := @applyMagiskBackup_nodup_names order heap oldEntries newEntries input
  refine ⟨⟨_, ?_, List.sorted_insertionSort _ _,
    (List.perm_insertionSort _ _).nodup_iff.mpr ((List.nodup_dedup _).filter _),
    fun name => (List.perm_insertionSort _ _).mem_iff.trans mem_addedNames⟩,
    fun entry member differ => ?_, fun entry member kept => ?_,
    restoredContent_applyMagiskBackup input⟩
  · have rmlistIn := (@mem_applyMagiskBackup order heap oldEntries newEntries input _).mpr (.inr (.inr (.inr rfl)))
    rw [show ascii ".backup/.rmlist" = (newFile (ascii ".backup/.rmlist") 0
      (rmlistData heap oldEntries newEntries)).name from rfl, filter_name_of_mem distinct rmlistIn]
    rfl
  · obtain ⟨ref, refMember, rfl⟩ := List.mem_map.mp member
    exact filter_name_of_mem distinct (moved_mem_applyMagiskBackup input refMember
      ((mem_backupNames_iff input refMember).mpr differ))
  · obtain ⟨other, inNew, sameName, sameContent⟩ := kept
    rw [← sameName, filter_name_of_mem distinct ((mem_applyMagiskBackup input).mpr (.inl inNew)),
      List.map_singleton, sameContent]

end Restorable

/-!
### The set's iteration order

`deleted | changed` is a set of `bytes`, whose iteration order follows the hashes of its names, and
those change with `PYTHONHASHSEED`. Every order renames the same objects, so two orders give the
same entries, and the same list exactly when they enumerate the set alike. The second needs the old
list's objects to exist before the call: a reference at the heap's next slot would name the
`.backup` directory the call allocates there, which no Python list can hold beforehand.
-/

section IterationOrder

variable {heap : EntryHeap} {oldEntries newEntries : List Nat}

/-- Every order gives the same entries, up to their order in the list. -/
theorem applyMagiskBackup_view_perm (first second : SetOrder) :
    ((applyMagiskBackup first heap oldEntries newEntries).1.view
        (applyMagiskBackup first heap oldEntries newEntries).2).Perm
      ((applyMagiskBackup second heap oldEntries newEntries).1.view
        (applyMagiskBackup second heap oldEntries newEntries).2) := by
  rw [applyMagiskBackup_heap first second, applyMagiskBackup_refs, applyMagiskBackup_refs]
  exact (((backedUpRefs_perm first second).append_left _).append_right _).map _

/-- The names of the moved objects afterwards: `.backup/<name>` for each name of
`deleted | changed`, in the set's order, when the old list's objects existed before the call. -/
theorem map_name_moved (old : ∀ ref ∈ oldEntries, ref < heap.next) (order : SetOrder) :
    (backedUpRefs order heap oldEntries newEntries).map
        (fun ref => ((applyMagiskBackup order heap oldEntries newEntries).1.objects ref).name) =
      (order.enumerate (deletedNames heap oldEntries newEntries ++
        changedNames heap oldEntries newEntries)).map (backupPrefix ++ ·) := by
  rw [← map_name_backedUp, List.map_map]
  refine List.map_congr_left fun ref member => ?_
  rw [applyMagiskBackup_objects_moved member (old ref (mem_old_of_mem_backedUpRefs member))]
  rfl

/-- For an old list of objects that existed before the call, two orders give the same list exactly
when they enumerate `deleted | changed` alike. -/
theorem applyMagiskBackup_view_eq_iff (old : ∀ ref ∈ oldEntries, ref < heap.next)
    (first second : SetOrder) :
    (applyMagiskBackup first heap oldEntries newEntries).1.view
        (applyMagiskBackup first heap oldEntries newEntries).2 =
      (applyMagiskBackup second heap oldEntries newEntries).1.view
        (applyMagiskBackup second heap oldEntries newEntries).2 ↔
      first.enumerate (deletedNames heap oldEntries newEntries ++
          changedNames heap oldEntries newEntries) =
        second.enumerate (deletedNames heap oldEntries newEntries ++
          changedNames heap oldEntries newEntries) := by
  constructor
  · intro same
    rw [← applyMagiskBackup_heap first second, applyMagiskBackup_refs,
      applyMagiskBackup_refs] at same
    simp only [EntryHeap.view, List.map_append] at same
    have moved := congrArg (List.map (·.name))
      (List.append_cancel_left (List.append_cancel_right same))
    have secondNames := @map_name_moved heap oldEntries newEntries old second
    rw [← applyMagiskBackup_heap first second] at secondNames
    simp only [List.map_map, Function.comp_def] at moved
    rw [map_name_moved old first, secondNames] at moved
    exact List.map_injective_iff.mpr (List.append_right_injective backupPrefix) moved
  · intro same
    simp only [applyMagiskBackup, same]

end IterationOrder

/-- Python's iteration order taken as the order of the list. -/
def listOrder : SetOrder :=
  ⟨id, fun _ => List.Perm.refl _⟩

/-- Python's iteration order taken as the reverse of the list. -/
def reversedOrder : SetOrder :=
  ⟨List.reverse, List.reverse_perm⟩

/-- A ramdisk whose `init` the patch replaces and whose `a` it drops, and a new list adding `b`:
old entries `0, 1`, new entries `2, 3`. -/
def sampleBackup : EntryHeap × List Nat :=
  EntryHeap.load [newFile (ascii "init") 0o750 [1], newFile (ascii "a") 0o644 [2],
    newFile (ascii "init") 0o750 [3], newFile (ascii "b") 0o644 [4]]

theorem sampleBackup_restorable :
    BackupInput sampleBackup.1 [0, 1] [2, 3] ∧
    MagiskBackupSpec (sampleBackup.1.view [0, 1]) (sampleBackup.1.view [2, 3])
      ((applyMagiskBackup listOrder sampleBackup.1 [0, 1] [2, 3]).1.view
        (applyMagiskBackup listOrder sampleBackup.1 [0, 1] [2, 3]).2) :=
  have input : BackupInput sampleBackup.1 [0, 1] [2, 3] :=
    ⟨by decide, by decide, by decide, by decide, by decide, by decide⟩
  ⟨input, applyMagiskBackup_restorable listOrder sampleBackup.1 [0, 1] [2, 3] input⟩

/-- The list order and the reversed order give the same entries of `sampleBackup`. -/
theorem sampleBackup_orders_perm :
    ((applyMagiskBackup listOrder sampleBackup.1 [0, 1] [2, 3]).1.view
        (applyMagiskBackup listOrder sampleBackup.1 [0, 1] [2, 3]).2).Perm
      ((applyMagiskBackup reversedOrder sampleBackup.1 [0, 1] [2, 3]).1.view
        (applyMagiskBackup reversedOrder sampleBackup.1 [0, 1] [2, 3]).2) :=
  applyMagiskBackup_view_perm listOrder reversedOrder

/-- On `sampleBackup` the two orders give the same list exactly when they enumerate `a` and
`init` alike. -/
theorem sampleBackup_orders_eq_iff :
    (∀ ref ∈ [0, 1], ref < sampleBackup.1.next) ∧
    ((applyMagiskBackup listOrder sampleBackup.1 [0, 1] [2, 3]).1.view
        (applyMagiskBackup listOrder sampleBackup.1 [0, 1] [2, 3]).2 =
      (applyMagiskBackup reversedOrder sampleBackup.1 [0, 1] [2, 3]).1.view
        (applyMagiskBackup reversedOrder sampleBackup.1 [0, 1] [2, 3]).2 ↔
      listOrder.enumerate (deletedNames sampleBackup.1 [0, 1] [2, 3] ++
          changedNames sampleBackup.1 [0, 1] [2, 3]) =
        reversedOrder.enumerate (deletedNames sampleBackup.1 [0, 1] [2, 3] ++
          changedNames sampleBackup.1 [0, 1] [2, 3])) :=
  ⟨by decide, applyMagiskBackup_view_eq_iff (by decide) listOrder reversedOrder⟩

/-- A ramdisk holding a file `.rmlist` that the new list drops. -/
def droppedRmlist : EntryHeap × List Nat :=
  EntryHeap.load [newFile (ascii ".rmlist") 0o644 [1]]

/-- The dropped `.rmlist` is moved to `.backup/.rmlist`, and the list of added names is then
appended under the same name: the result holds two entries `.backup/.rmlist`. -/
theorem applyMagiskBackup_rmlist_collides :
    (((applyMagiskBackup listOrder droppedRmlist.1 droppedRmlist.2 []).1.view
      (applyMagiskBackup listOrder droppedRmlist.1 droppedRmlist.2 []).2).filter
        (·.name = ascii ".backup/.rmlist")).map (·.content) = [[1], []] := by
  decide

/-- `sampleBackup` drops `a` and changes `init`: the set `deleted | changed` holds both names, and
the two orders of it give two lists, `.backup/a` before `.backup/init` or after it. -/
theorem applyMagiskBackup_set_order_dependent :
    (applyMagiskBackup listOrder sampleBackup.1 [0, 1] [2, 3]).1.view
        (applyMagiskBackup listOrder sampleBackup.1 [0, 1] [2, 3]).2 ≠
      (applyMagiskBackup reversedOrder sampleBackup.1 [0, 1] [2, 3]).1.view
        (applyMagiskBackup reversedOrder sampleBackup.1 [0, 1] [2, 3]).2 := by
  decide

end Avbroot

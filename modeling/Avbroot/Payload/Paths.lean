/-
Module: Avbroot.Payload.Paths
Purpose: The POSIX path arithmetic behind the image paths of `patch_ota_payload`:
  `os.path.join` (`posixpath.join`) and the file a path names. A path names a file by lexical
  resolution, as `os.path.normpath(os.path.join(os.getcwd(), path))` computes it: components are
  read left to right, empty and `.` components change nothing, `..` leaves the current directory
  (the root is its own parent), any other component enters it. The temporary directory of a run
  holds no symbolic links, so lexical and physical resolution agree on every path under it.
Trusted boundary: none.
Main exports: pathJoin, resolvePath, IsInside, resolvePath_pathJoin, resolvePath_imagePath
-/
import Mathlib.Data.List.Basic

namespace Avbroot

/-- `posixpath.join(a, b)`: an absolute `b` replaces `a`; otherwise `b` is appended after a
separator, unless `a` is empty or already ends with one. -/
def pathJoin (a b : String) : String :=
  if b.data.head? = some '/' then b
  else if a = "" ∨ a.data.getLast? = some '/' then a ++ b
  else a ++ "/" ++ b

/-- Reading one finished component into the directory stack. -/
def enterComponent (stack : List String) (component : String) : List String :=
  if component = "" ∨ component = "." then stack
  else if component = ".." then stack.dropLast
  else stack ++ [component]

/-- Read the characters of a path: `component` accumulates the component being read, and every
separator enters it into `stack`. -/
def resolveFrom (stack : List String) (component : List Char) : List Char → List String
  | [] => enterComponent stack ⟨component⟩
  | c :: rest =>
    if c = '/' then resolveFrom (enterComponent stack ⟨component⟩) [] rest
    else resolveFrom stack (component ++ [c]) rest

/-- The file that `path` names, as the list of directory names from the root; a relative path is
read from the working directory `cwd`. -/
def resolvePath (cwd : List String) (path : String) : List String :=
  resolveFrom (if path.data.head? = some '/' then [] else cwd) [] path.data

/-- `path` names a file strictly inside the directory `dir`. -/
def IsInside (dir path : List String) : Prop :=
  ∃ rest, rest ≠ [] ∧ path = dir ++ rest

theorem resolveFrom_append_slash (a b : List Char) :
    ∀ (stack : List String) (component : List Char),
      resolveFrom stack component (a ++ '/' :: b) =
        resolveFrom (resolveFrom stack component a) [] b := by
  induction a with
  | nil => intro stack component; simp [resolveFrom]
  | cons c rest inductionHypothesis =>
    intro stack component
    by_cases separator : c = '/' <;> simp [resolveFrom, separator, inductionHypothesis]

theorem resolveFrom_of_no_slash (b : List Char) (plain : '/' ∉ b) :
    ∀ (stack : List String) (component : List Char),
      resolveFrom stack component b = enterComponent stack ⟨component ++ b⟩ := by
  induction b with
  | nil => intro stack component; simp [resolveFrom]
  | cons c rest inductionHypothesis =>
    intro stack component
    have separator : c ≠ '/' := fun same => plain (same ▸ List.mem_cons_self c rest)
    simp only [resolveFrom, separator, if_false]
    rw [inductionHypothesis (fun member => plain (List.mem_cons_of_mem c member))]
    simp

/-- A path ending in a separator names the same file without it. -/
theorem resolveFrom_append_slash_nil (a : List Char) (stack : List String) :
    resolveFrom stack [] (a ++ ['/']) = resolveFrom stack [] a := by
  rw [resolveFrom_append_slash, resolveFrom]
  simp [enterComponent]

/-- Joining a relative `b` onto `a` reads `b` from the directory that `a` names. -/
theorem resolvePath_pathJoin (cwd : List String) (a b : String)
    (relative : b.data.head? ≠ some '/') :
    resolvePath cwd (pathJoin a b) = resolveFrom (resolvePath cwd a) [] b.data := by
  unfold pathJoin
  rw [if_neg relative]
  by_cases empty : a = ""
  · subst empty
    simp [resolvePath, resolveFrom, enterComponent, relative]
  · have start : ∀ tail : List Char, (a.data ++ tail).head? = a.data.head? := by
      intro tail
      cases h : a.data with
      | nil => exact absurd (String.ext h) empty
      | cons c rest => rfl
    split
    · rename_i trailing
      obtain ⟨front, ends⟩ : ∃ front, a.data = front ++ ['/'] := by
        rcases trailing with same | last
        · exact absurd same empty
        · exact ⟨a.data.dropLast, (List.dropLast_append_getLast?  _ last).symm⟩
      simp only [resolvePath, String.data_append, start]
      rw [ends, List.append_assoc, List.singleton_append, resolveFrom_append_slash,
        resolveFrom_append_slash_nil]
    · simp only [resolvePath, String.data_append, List.append_assoc, start]
      rw [List.singleton_append, resolveFrom_append_slash]

/-- `f'{name}.img'` is an ordinary component: never empty, `.` or `..`. -/
theorem enterComponent_imageName (stack : List String) (name : String) :
    enterComponent stack (name ++ ".img") = stack ++ [name ++ ".img"] := by
  have long : ∀ other : String, other.length < 4 → name ++ ".img" ≠ other := by
    intro other short same
    have lengths := congrArg String.length same
    rw [String.length_append, show (".img" : String).length = 4 from rfl] at lengths
    omega
  simp [enterComponent, long "" (by decide), long "." (by decide), long ".." (by decide)]

/-- `os.path.join(directory, f'{name}.img')` for a name without a separator names the file
`name.img` of that directory. -/
theorem resolvePath_imagePath (cwd : List String) (directory name : String)
    (plain : '/' ∉ name.data) :
    resolvePath cwd (pathJoin directory (name ++ ".img")) =
      resolvePath cwd directory ++ [name ++ ".img"] := by
  have noSlash : '/' ∉ (name ++ ".img").data := by
    simp only [String.data_append, List.mem_append, not_or]
    exact ⟨plain, by decide⟩
  have relative : (name ++ ".img").data.head? ≠ some '/' := by
    intro first
    exact noSlash (List.mem_of_mem_head? first)
  rw [resolvePath_pathJoin cwd _ _ relative, resolveFrom_of_no_slash _ noSlash]
  exact enterComponent_imageName _ name

/-- `os.path.join(directory, sub)` for a plain subdirectory name. -/
theorem resolvePath_subdirectory (cwd : List String) (directory sub : String)
    (plain : '/' ∉ sub.data) (ordinary : sub ≠ "" ∧ sub ≠ "." ∧ sub ≠ "..") :
    resolvePath cwd (pathJoin directory sub) = resolvePath cwd directory ++ [sub] := by
  have relative : sub.data.head? ≠ some '/' := fun first => plain (List.mem_of_mem_head? first)
  rw [resolvePath_pathJoin cwd _ _ relative, resolveFrom_of_no_slash _ plain]
  simp [enterComponent, ordinary.1, ordinary.2.1, ordinary.2.2]

end Avbroot

import Mathlib.Data.Nat.Notation
import Mathlib.Logic.Basic

/-!
# Named files

Files and the names under which they are found.  A handle is the identity of a file,
so it stays with the file when a rename gives its name to another one.
-/

namespace SovereignLattice

variable {Path Byte : Type}

/-- A directory of files.  No file has two names: nothing here makes links. -/
structure FileSystem (Path Byte : Type) where
  fileAt : Path → Option Nat
  content : Nat → List Byte
  unused : Nat
  fileAt_lt : ∀ path file, fileAt path = some file → file < unused
  unshared : ∀ path other file, fileAt path = some file →
    fileAt other = some file → path = other

namespace FileSystem

/-- What a reader of the path finds. -/
def contentAt (files : FileSystem Path Byte) (path : Path) : Option (List Byte) :=
  (files.fileAt path).map files.content

theorem contentAt_of_fileAt {files : FileSystem Path Byte} {path : Path} {file : Nat}
    (found : files.fileAt path = some file) :
    files.contentAt path = some (files.content file) := by
  rw [contentAt, found, Option.map_some]

theorem contentAt_eq_some {files : FileSystem Path Byte} {path : Path}
    {bytes : List Byte} :
    files.contentAt path = some bytes ↔
      ∃ file, files.fileAt path = some file ∧ files.content file = bytes := by
  rw [contentAt, Option.map_eq_some_iff]

theorem ne_of_fileAt {files : FileSystem Path Byte} {path other : Path}
    {file otherFile : Nat} (found : files.fileAt path = some file)
    (otherFound : files.fileAt other = some otherFile) (different : other ≠ path) :
    otherFile ≠ file := by
  rintro rfl
  exact different (files.unshared _ _ _ otherFound found)

/-! ## Contents -/

/-- Replace the content of a file. -/
def setContent (files : FileSystem Path Byte) (file : Nat) (bytes : List Byte) :
    FileSystem Path Byte :=
  { files with
    content := fun other => if other = file then bytes else files.content other }

/-- Add bytes at the end of a file. -/
def append (files : FileSystem Path Byte) (file : Nat) (bytes : List Byte) :
    FileSystem Path Byte :=
  files.setContent file (files.content file ++ bytes)

section Contents

variable {files : FileSystem Path Byte} {file : Nat} {bytes : List Byte}

@[simp]
theorem fileAt_setContent : (files.setContent file bytes).fileAt = files.fileAt :=
  rfl

@[simp]
theorem content_setContent :
    (files.setContent file bytes).content file = bytes :=
  if_pos rfl

theorem content_setContent_of_ne {other : Nat} (different : other ≠ file) :
    (files.setContent file bytes).content other = files.content other :=
  if_neg different

@[simp]
theorem fileAt_append : (files.append file bytes).fileAt = files.fileAt :=
  rfl

@[simp]
theorem content_append :
    (files.append file bytes).content file = files.content file ++ bytes :=
  content_setContent

theorem content_append_of_ne {other : Nat} (different : other ≠ file) :
    (files.append file bytes).content other = files.content other :=
  content_setContent_of_ne different

/-- Appending through the handle of the file at a path is seen under the path. -/
theorem contentAt_append {path : Path} (found : files.fileAt path = some file) :
    (files.append file bytes).contentAt path =
      some (files.content file ++ bytes) := by
  have stays : (files.append file bytes).fileAt path = some file := found
  rw [contentAt_of_fileAt stays, content_append]

end Contents

variable [DecidableEq Path]

/-! ## Names -/

/-- Open the file at a path, or make an empty one. -/
def openCreate (files : FileSystem Path Byte) (path : Path) :
    FileSystem Path Byte × Nat :=
  match _found : files.fileAt path with
  | some file => (files, file)
  | none =>
      ({ fileAt := fun other =>
           if other = path then some files.unused else files.fileAt other
         content := fun other =>
           if other = files.unused then [] else files.content other
         unused := files.unused + 1
         fileAt_lt := by
           intro other file named
           split at named
           · cases named
             exact Nat.lt_succ_self _
           · exact Nat.lt_succ_of_lt (files.fileAt_lt other file named)
         unshared := by
           intro left right file leftNamed rightNamed
           split at leftNamed <;> split at rightNamed
           · rename_i leftHere rightHere
             rw [leftHere, rightHere]
           · cases leftNamed
             exact absurd (files.fileAt_lt _ _ rightNamed) (Nat.lt_irrefl _)
           · cases rightNamed
             exact absurd (files.fileAt_lt _ _ leftNamed) (Nat.lt_irrefl _)
           · exact files.unshared left right file leftNamed rightNamed },
        files.unused)

/-- Open the file at a path without content, or make it. -/
def openTruncate (files : FileSystem Path Byte) (path : Path) :
    FileSystem Path Byte × Nat :=
  ((files.openCreate path).1.setContent (files.openCreate path).2 [],
    (files.openCreate path).2)

/-- Give the name of the file at one path to the file at another, which loses its own;
there is no state in between. -/
def rename (files : FileSystem Path Byte) (source target : Path) :
    Option (FileSystem Path Byte) :=
  match _found : files.fileAt source with
  | none => none
  | some moved =>
      some
        { files with
          fileAt := fun path =>
            if path = target then some moved
            else if path = source then none
            else files.fileAt path
          fileAt_lt := by
            intro path file named
            split at named
            · cases named
              exact files.fileAt_lt source moved _found
            · split at named
              · cases named
              · exact files.fileAt_lt path file named
          unshared := by
            intro left right file leftNamed rightNamed
            have elsewhere : ∀ path, path ≠ source →
                files.fileAt path ≠ some moved := by
              intro path different named
              exact different (files.unshared path source moved named _found)
            split at leftNamed <;> split at rightNamed
            · rename_i leftHere rightHere
              rw [leftHere, rightHere]
            · cases leftNamed
              split at rightNamed
              · cases rightNamed
              · rename_i notSource
                exact absurd rightNamed (elsewhere right notSource)
            · cases rightNamed
              split at leftNamed
              · cases leftNamed
              · rename_i notSource
                exact absurd leftNamed (elsewhere left notSource)
            · split at leftNamed
              · cases leftNamed
              split at rightNamed
              · cases rightNamed
              exact files.unshared left right file leftNamed rightNamed }

section Names

variable {files : FileSystem Path Byte} {path other : Path} {file : Nat}

/-- Opening a file that is there changes nothing. -/
theorem openCreate_of_found (found : files.fileAt path = some file) :
    files.openCreate path = (files, file) := by
  rw [openCreate]
  split
  · rename_i held there
    rw [found, Option.some.injEq] at there
    rw [there]
  · rename_i missing
    rw [found] at missing
    cases missing

theorem fileAt_openCreate :
    (files.openCreate path).1.fileAt path = some (files.openCreate path).2 := by
  rw [openCreate]
  split
  · rename_i found
    exact found
  · exact if_pos rfl

/-- Another name keeps its file, with its content. -/
theorem openCreate_of_ne (found : files.fileAt other = some file)
    (different : other ≠ path) :
    (files.openCreate path).1.fileAt other = some file ∧
      (files.openCreate path).1.content file = files.content file := by
  rw [openCreate]
  split
  · exact ⟨found, rfl⟩
  · have used : file ≠ files.unused :=
      Nat.ne_of_lt (files.fileAt_lt other file found)
    exact ⟨(if_neg different).trans found, if_neg used⟩

theorem fileAt_openTruncate :
    (files.openTruncate path).1.fileAt path = some (files.openTruncate path).2 :=
  fileAt_openCreate

@[simp]
theorem content_openTruncate :
    (files.openTruncate path).1.content (files.openTruncate path).2 = [] :=
  content_setContent

theorem openTruncate_of_ne (found : files.fileAt other = some file)
    (different : other ≠ path) :
    (files.openTruncate path).1.fileAt other = some file ∧
      (files.openTruncate path).1.content file = files.content file := by
  rcases openCreate_of_ne found different with ⟨stays, same⟩
  refine ⟨stays, ?_⟩
  have apart : file ≠ (files.openCreate path).2 := by
    intro shared
    have named : (files.openCreate path).1.fileAt path = some file := by
      rw [shared]
      exact fileAt_openCreate
    exact different ((files.openCreate path).1.unshared _ _ _ stays named)
  exact (content_setContent_of_ne apart).trans same

/-- After a rename the target's name finds the moved file. -/
theorem rename_eq_some {source : Path} (target : Path)
    (found : files.fileAt source = some file) :
    ∃ renamed, files.rename source target = some renamed ∧
      renamed.fileAt target = some file ∧ renamed.content = files.content := by
  rw [rename]
  split
  · rename_i missing
    rw [found] at missing
    cases missing
  · rename_i moved there
    rw [found, Option.some.injEq] at there
    subst there
    exact ⟨_, rfl, if_pos rfl, rfl⟩

end Names

end FileSystem

end SovereignLattice

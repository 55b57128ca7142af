import Arvore.Text.Utf8

/-!
# Files

The files that a command can see stand in a tree of directories under the current one. A name is resolved component
by component; `.` stays, `..` goes up, and a name that ends in a slash has to be a directory. Outside of the current
directory only what every system has is known: the directories above it, the root and the directory `/tmp`, without
files, and the null device, for which an empty file stands.

`bytes?_put` and `bytes?_put_of_ne` say what writing does: the path that was written holds the new bytes, every other
path what it held.
-/

namespace Arvore.CommandLine

/-- The components of a path from the current directory. A path that leads above it starts with `..`, and one from
the root with `/`. -/
abbrev Path := List String

/-- Whether a path leads to the current directory or to one above it. -/
def Path.isAncestor (path : Path) : Bool := path.all (· = "..")

/-- The directory above a directory. The root is above itself. -/
def Path.parent (path : Path) : Path :=
  if path.isAncestor then path ++ [".."] else if path = ["/"] then path else path.dropLast

/-- Whether a path stays in the current directory. -/
def Path.isInside (path : Path) : Bool := path.head? ≠ some ".." && path.head? ≠ some "/"

/-- Files by their paths, each with its bytes. A directory exists if a file stands in it. -/
structure FileTree where
  entries : List (Path × List UInt8)
  deriving DecidableEq, Repr

/-- Why a file cannot be read or written. -/
inductive FileError where
  | missing
  /-- a directory where a file is wanted -/
  | directory
  /-- a file where a directory is wanted -/
  | notDirectory
  | nameTooLong
  | other (reason : String)
  deriving DecidableEq, Repr

/-- What a file is opened for. -/
inductive Access where
  | reading
  | writing
  deriving DecidableEq, Repr

/-- The wording of a reason. -/
def FileError.reason : FileError → String
  | missing => "no such file or directory"
  | directory => "is a directory"
  | notDirectory => "not a directory"
  | nameTooLong => "file name too long"
  | other reason => reason

/-- The message of an error. A directory can be opened for reading, but not read. -/
def FileError.message (access : Access) (name : String) (error : FileError) : String :=
  let failed := if access = .reading ∧ error = .directory then "read " else "open "
  failed ++ name ++ ": " ++ error.reason

/-- The parts of a name between slashes. -/
def components : List Char → List (List Char)
  | [] => [[]]
  | c :: rest =>
    if c = '/' then [] :: components rest
    else
      match components rest with
      | [] => [[c]]
      | first :: others => (c :: first) :: others

/-- The steps that a name takes: to the root if it starts with a slash, then to each of its components. -/
def steps (name : String) : List String :=
  let parts := ((components name.toList).map String.ofList).filter (· ≠ "")
  if name.toList.head? = some '/' then "/" :: parts else parts

/-- The longest component, in bytes, that a directory can hold. -/
def longestComponent : Nat := 255

/-- The longest name, in bytes, that can be resolved. -/
def longestName : Nat := 4095

/-- What a name leads to. -/
inductive Place where
  | file (path : Path)
  | directory (path : Path)
  /-- nothing, in a directory that exists -/
  | vacant (path : Path)
  deriving DecidableEq, Repr

namespace FileTree

/-- The file tree of some texts, in which names with slashes stand for files in directories. -/
def ofList (files : List (String × String)) : FileTree :=
  ⟨files.map (fun (name, text) => ((components name.toList).map String.ofList, Text.Utf8.encode text)) ++
    [(["/", "dev", "null"], [])]⟩

/-- The bytes of the file at a path. -/
def bytes? (t : FileTree) (path : Path) : Option (List UInt8) := t.entries.lookup path

/-- Whether there is a directory at a path. -/
def isDirectory (t : FileTree) (path : Path) : Bool :=
  path.isAncestor || path = ["/"] || path = ["/", "tmp"] ||
    t.entries.any fun (file, _) => path.isPrefixOf file && path.length < file.length

/-- Where a step leads from a directory. -/
def enter (t : FileTree) (directory : Path) (step : String) : Except FileError Place :=
  if step = "/" then .ok (.directory ["/"])
  else if step = "." then .ok (.directory directory)
  else if step = ".." then .ok (.directory directory.parent)
  else if longestComponent < step.utf8ByteSize then .error .nameTooLong
  else
    let path := directory ++ [step]
    if t.isDirectory path then .ok (.directory path)
    else if (t.bytes? path).isSome then .ok (.file path)
    else .ok (.vacant path)

/-- Follows steps, each of which has to lead to a directory. -/
def descend (t : FileTree) (directory : Path) : List String → Except FileError Path
  | [] => .ok directory
  | step :: rest => do
    match ← t.enter directory step with
    | .directory next => t.descend next rest
    | .file _ => throw .notDirectory
    | .vacant _ => throw .missing

/-- What a name leads to. A slash at its end demands a directory; a file to be written, which may be new, is refused
as being one before it is looked for. -/
def resolve (t : FileTree) (access : Access) (name : String) : Except FileError Place := do
  if longestName < name.utf8ByteSize then throw .nameTooLong
  match (steps name).getLast? with
  | none => throw .missing
  | some last =>
    let directory ← t.descend [] (steps name).dropLast
    if name.toList.getLast? = some '/' then
      if access = .writing then throw .directory
      match ← t.enter directory last with
      | .file _ => throw .notDirectory
      | place => return place
    else t.enter directory last

/-- The bytes of the file with a name. -/
def read (t : FileTree) (name : String) : Except FileError (List UInt8) := do
  match ← t.resolve .reading name with
  | .file path => (t.bytes? path).elim (.error .missing) .ok
  | .directory _ => throw .directory
  | .vacant _ => throw .missing

/-- Replaces the bytes of the file at a path, or adds a file. -/
def put (t : FileTree) (path : Path) (bytes : List UInt8) : FileTree :=
  ⟨go t.entries⟩
where
  /-- Puts the bytes into a list of files. -/
  go : List (Path × List UInt8) → List (Path × List UInt8)
    | [] => [(path, bytes)]
    | (other, old) :: rest => if other = path then (path, bytes) :: rest else (other, old) :: go rest

/-- The path at which a file with this name is written. -/
def target (t : FileTree) (name : String) : Except FileError Path := do
  match ← t.resolve .writing name with
  | .file path => return path
  | .vacant path => return path
  | .directory _ => throw .directory

/-- Writes a text into the file with a name, or changes nothing. -/
def write (t : FileTree) (name text : String) : Except FileError FileTree :=
  (t.target name).map (t.put · (Text.Utf8.encode text))

/-- The texts of the files in the current directory that are new in a tree or differ from an earlier one. -/
def changes (before after : FileTree) : List (String × String) :=
  (after.entries.filter fun (path, bytes) => path.isInside && before.bytes? path ≠ some bytes).map fun (path, bytes) =>
    ("/".intercalate path, String.ofList (Text.Utf8.decode bytes))

/-! ### What writing does -/

theorem bytes?_put (t : FileTree) (path : Path) (bytes : List UInt8) : (t.put path bytes).bytes? path = some bytes := by
  unfold put bytes?
  generalize t.entries = entries
  induction entries with
  | nil => simp [put.go]
  | cons entry rest ih =>
    obtain ⟨other, old⟩ := entry
    by_cases h : other = path
    · simp [put.go, h]
    · simp only [put.go, if_neg h]
      rw [List.lookup_cons, beq_eq_false_iff_ne.2 (Ne.symm h)]
      exact ih

theorem bytes?_put_of_ne (t : FileTree) {path other : Path} (bytes : List UInt8) (h : other ≠ path) :
    (t.put path bytes).bytes? other = t.bytes? other := by
  unfold put bytes?
  generalize t.entries = entries
  induction entries with
  | nil => simp [put.go, List.lookup_cons, beq_eq_false_iff_ne.2 h]
  | cons entry rest ih =>
    obtain ⟨first, old⟩ := entry
    by_cases hf : first = path
    · subst hf
      simp [put.go, List.lookup_cons, beq_eq_false_iff_ne.2 h]
    · simp only [put.go, if_neg hf, List.lookup_cons]
      rw [ih]

end FileTree

end Arvore.CommandLine

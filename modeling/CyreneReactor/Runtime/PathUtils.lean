import CyreneReactor.Data.Outcome
import CyreneReactor.Data.Paths
import CyreneReactor.Data.PyText

namespace CyreneReactor.Runtime

open PyText

/-! File names that the runtime takes for safe, and how it makes others safe.

A name is the list of its characters.
-/

def nul : Char := Char.ofNat 0

/-- What a file name may not contain, in the order in which it is replaced. -/
def dangerous : List (List Char) :=
  [['/'], ['\\'], ['.', '.'], [nul], ['<'], ['>'], [':'], ['"'], ['|'], ['?'], ['*']]

def isSafeFilename (filename : List Char) : Bool :=
  if dangerous.any (fun part => decide (part <:+: filename)) then false
  else if filename = [] ∨ strip filename = [] then false
  else if filename.head? = some '.' then false
  else true

/-- `sanitize_filename`, whose `replacement` is an underscore by default. -/
def sanitizeFilename (filename replacement : List Char) : List Char :=
  let replaced := dangerous.foldl
    (fun result part => replace part (if part ≠ [nul] then replacement else []) result) filename
  let result := replaced.dropWhile fun char => char = '.'
  if result = [] ∨ strip result = [] then "unnamed".toList else result

/-- What a file or a directory can be called. -/
def IsName (part : List Char) : Prop :=
  part ≠ [] ∧ part ≠ ['.'] ∧ part ≠ ['.', '.'] ∧ '/' ∉ part ∧ nul ∉ part

instance (part : List Char) : Decidable (IsName part) := by
  unfold IsName
  infer_instance

abbrev Name := { part : List Char // IsName part }

/-- A path as `pathlib` keeps it: without its empty parts and its single dots. -/
structure PurePath where
  rooted : Bool
  parts : List (List Char)
deriving DecidableEq

namespace PurePath

def ofText (text : List Char) : PurePath where
  rooted := text.head? == some '/'
  parts := (text.splitOn '/').filter fun part => part ≠ [] ∧ part ≠ ['.']

/-- A path from the root starts over. -/
def joinpath (path : PurePath) (others : List (List Char)) : PurePath :=
  others.foldl (fun path other =>
    if (ofText other).rooted then ofText other
    else ⟨path.rooted, path.parts ++ (ofText other).parts⟩) path

def str (path : PurePath) : List Char :=
  if path.rooted then '/' :: ['/'].intercalate path.parts
  else if path.parts = [] then ['.']
  else ['/'].intercalate path.parts

/-- `relative_to`, nothing where that raises `ValueError`. -/
def relativeTo? (path base : PurePath) : Option PurePath :=
  if path.rooted = base.rooted ∧ base.parts <+: path.parts then
    some ⟨false, path.parts.drop base.parts.length⟩
  else none

/-- The path from the root over these names. -/
def absolute (names : List Name) : PurePath := ⟨true, names.map Subtype.val⟩

end PurePath

inductive PathError where
  | embeddedNull
  | symlinkLoop
  | traversal (message : List Char)
  | notAllowed (path : List Char) (allowedRoots : List (List Char))
  | notFound (message : List Char)
deriving DecidableEq

def PathError.isValueError : PathError → Bool
  | .embeddedNull | .traversal _ | .notAllowed _ _ => true
  | .symlinkLoop | .notFound _ => false

/-- The file system that paths are resolved on, and where the process stands in it. -/
structure Surroundings where
  files : Paths.FileSystem Name
  cwd : List Name
  canonical : Paths.Canonical files cwd
  existing : PurePath → Bool
  /-- A path whose links lead around is refused by the `stat` that ends `Path.resolve`, or
  comes back with the links on its rest unfollowed. -/
  astray : PurePath → Except PathError PurePath

/-- What a part of a path says; nothing in the file system is called with a NUL. -/
def segment? (part : List Char) : Option (Paths.Segment Name) :=
  if part = ['.', '.'] then some .up
  else if named : IsName part then some (.name ⟨part, named⟩)
  else none

section Helpers

variable (surroundings : Surroundings)

/-- `Path.resolve` -/
def resolve (path : PurePath) : Except PathError PurePath :=
  match path.parts.mapM segment? with
  | none => .error .embeddedNull
  | some segments =>
      match surroundings.files.realpath (if path.rooted then [] else surroundings.cwd) segments with
      | none => surroundings.astray path
      | some last => .ok (.absolute last)

def sanitizedPart (part : List Char) : Option (List Char) :=
  if part = [] then none
  else
    let part := part.dropWhile fun char => char = '/'
    if part = ['.'] then none else some part

def safeJoin (base : List Char) (parts : List (List Char)) : Except PathError (List Char) := do
  let basePath ← resolve surroundings (.ofText base)
  let joined ← resolve surroundings (basePath.joinpath (parts.filterMap sanitizedPart))
  match joined.relativeTo? basePath with
  | some _ => .ok joined.str
  | none =>
      .error (.traversal ("Path traversal detected: '".toList ++ ['/'].intercalate parts ++
        "' escapes base '".toList ++ base ++ "'".toList))

/-- The roots are tried in turn. -/
def underAny (resolved : PurePath) : List (List Char) → Except PathError Bool
  | [] => .ok false
  | root :: roots => do
      let rootPath ← resolve surroundings (.ofText root)
      match resolved.relativeTo? rootPath with
      | some _ => .ok true
      | none => underAny resolved roots

/-- Without roots every path is allowed. -/
def isAllowed (resolved : PurePath) : Option (List (List Char)) → Except PathError Bool
  | none | some [] => .ok true
  | some roots => underAny surroundings resolved roots

def validateModelPath (path : List Char) (allowedRoots : Option (List (List Char)))
    (mustExist : Bool) : Except PathError (List Char) := do
  let resolved ← resolve surroundings (.ofText path)
  let allowed ← isAllowed surroundings resolved allowedRoots
  if !allowed then .error (.notAllowed path (allowedRoots.getD []))
  else if mustExist && !surroundings.existing resolved then
    .error (.notFound ("Path does not exist: ".toList ++ resolved.str))
  else .ok resolved.str

/-- `Path(path).resolve().relative_to(Path(base).resolve())` -/
def resolveRelative (path base : List Char) : Except PathError (Option PurePath) := do
  let resolvedPath ← resolve surroundings (.ofText path)
  let resolvedBase ← resolve surroundings (.ofText base)
  .ok (resolvedPath.relativeTo? resolvedBase)

def isSafePath (path base : List Char) : Except PathError Bool :=
  match resolveRelative surroundings path base with
  | .ok relative => .ok relative.isSome
  | .error raised => if raised.isValueError then .ok false else .error raised

def getRelativePath (path base : List Char) : Except PathError (List Char) :=
  match resolveRelative surroundings path base with
  | .ok (some relative) => .ok relative.str
  | .ok none => (resolve surroundings (.ofText path)).map PurePath.str
  | .error raised =>
      if raised.isValueError then (resolve surroundings (.ofText path)).map PurePath.str
      else .error raised

end Helpers

end CyreneReactor.Runtime

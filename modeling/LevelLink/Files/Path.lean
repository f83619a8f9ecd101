import LevelLink.Files.Error

/-!
# Paths

A path is cut at its slashes.  Empty segments and a `.` behind another segment name nothing; a slash in
front, a `.` in front and `..` name places that a plain name cannot name.  A plain name (`Path.isPlain`) that
is joined to a directory names something below the directory.  What a path names lies in the directory at
`Path.parent`, which keeps the text in front as it is written.  Paths of the same components are two spellings
of one path (`Path.same`).
-/

namespace LevelLink.Files

/-- What a segment of a path names. -/
inductive Component where
  | root
  | current
  | parent
  | normal (name : String)
  deriving DecidableEq, Repr

namespace Path

/-- The pieces between the slashes. -/
def split : List Char → List (List Char)
  | [] => [[]]
  | c :: cs =>
    if c = '/' then
      [] :: split cs
    else
      match split cs with
      | segment :: rest => (c :: segment) :: rest
      | [] => [[c]]

/-- The segments of a path. -/
def segments (path : String) : List String := (split path.toList).map String.ofList

/-- What the segments after the first place name. -/
def inner (segments : List String) : List Component :=
  (segments.filter fun s => s ≠ "" ∧ s ≠ ".").map fun s => if s = ".." then .parent else .normal s

/-- The components of a path. -/
def components (path : String) : List Component :=
  match segments path with
  | "" :: rest => (if rest.isEmpty then [] else [.root]) ++ inner rest
  | "." :: rest => .current :: inner rest
  | all => inner all

/-- Whether two paths differ at most in slashes and dots that name nothing. -/
def same (p q : String) : Bool := components p = components q

/-- Whether a path starts at the root, wherever it is used. -/
def isAbsolute (path : String) : Bool := path.startsWith "/"

/-- Whether a name can be joined to a directory without leaving it. -/
def isPlain (name : String) : Bool :=
  !name.isEmpty && (components name).all fun
    | .normal _ => true
    | _ => false

/-- The path of a relative name in a directory. -/
def join (dir name : String) : String :=
  if dir.isEmpty || dir.endsWith "/" then dir ++ name else dir ++ "/" ++ name

/-- The path of the directory that holds what a path names. -/
def parent (path : String) : String :=
  let nothing (segment : String) : Bool := segment = "" ∨ segment = "."
  let above := (((segments path).reverse.dropWhile nothing).drop 1).dropWhile nothing
  if above.isEmpty ∧ isAbsolute path then "/" else "/".intercalate above.reverse

/-- How a path ends: with a name, with a slash, or with a `.` of its own. -/
inductive Ending where
  | name | slash | dot
  deriving DecidableEq, Repr

def ending (path : String) : Ending :=
  match (segments path).reverse with
  | "" :: rest => if (rest.filter (· ≠ "")).head? = some "." then .dot else .slash
  | "." :: _ => .dot
  | _ => .name

end Path
end LevelLink.Files

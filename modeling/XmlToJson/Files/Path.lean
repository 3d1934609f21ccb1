/-!
# Paths

A path names a file or a directory by the names that lead to it.  A single point in a path and an
empty name mean nothing and are left out; two points lead one directory up, and stay.  A path that
begins with a slash starts at the root, any other at the working directory.
-/

namespace XmlToJson

/-- A path. -/
structure Path where
  /-- The slashes in front: none, one, or two, which are kept as they are. -/
  root : List Char := []
  /-- The names that lead from the start to the place. -/
  parts : List String
  deriving DecidableEq, Repr

namespace Path

/-- The texts between slashes. -/
def splitAtSlashes : List Char → List (List Char)
  | [] => [[]]
  | c :: rest =>
      if c = '/' then [] :: splitAtSlashes rest
      else
        match splitAtSlashes rest with
        | [] => [[c]]
        | part :: parts => (c :: part) :: parts

/-- The slashes in front of a path.  More than two count as one. -/
def rootOf (text : List Char) : List Char :=
  let slashes := text.takeWhile (· == '/')
  if slashes.length ≤ 2 then slashes else ['/']

/-- The path that a text stands for. -/
def ofText (text : String) : Path where
  root := rootOf text.toList
  parts :=
    ((splitAtSlashes text.toList).filter fun part => part != [] && part != ['.']).map String.ofList

def text (path : Path) : String :=
  let text := String.ofList path.root ++ "/".intercalate path.parts
  if text = "" then "." else text

/-- Whether a path starts at the root. -/
def isAbsolute (path : Path) : Bool := !path.root.isEmpty

/-- The path of a place below the one of `path`. -/
def append (path : Path) (names : List String) : Path :=
  { path with parts := path.parts ++ names }

/-- The suffix of a name: what follows its last point, unless nothing stands before or after the
point. -/
def suffixOf (name : List Char) : List Char :=
  let suffix := name.reverse.takeWhile (· != '.') |>.reverse
  if suffix.length + 1 < name.length ∧ suffix ≠ [] then suffix else []

end Path

end XmlToJson

/-
Paths as text, the way a user writes them.

A path is a list of names with slashes between them; a leading slash
makes it absolute, and repeated slashes and single dots mean nothing.
Joining and the parent of a path are pure text operations and never look
at a file; `Tree` gives paths their meaning.
-/

namespace RouterSeed.Path

/-- The parts of a text between slashes; there is always one more part
than there are slashes. -/
def splitSlashes (text : List Char) : List (List Char) :=
  text.foldr
    (fun c parts =>
      match parts with
      | [] => [[c]]
      | part :: more => if c = '/' then [] :: part :: more else (c :: part) :: more)
    [[]]

/-- The names in a path, without empty ones. -/
def names (path : String) : List String :=
  ((splitSlashes path.toList).filter (· ≠ [])).map String.ofList

/-- A path that does not start at the working directory. -/
def isAbsolute (path : String) : Bool := path.toList.head? == some '/'

/-- A path that can only name a directory. -/
def endsInSlash (path : String) : Bool := path.toList.getLast? == some '/'

/-- The path of `name` inside `dir`; an absolute `name` stands for itself. -/
def join (dir name : String) : String :=
  if isAbsolute name then name
  else if dir = "" ∨ endsInSlash dir then dir ++ name
  else dir ++ "/" ++ name

/-- The parts of a path that mean something: a single dot does so only at
the start of a relative path. -/
def components (path : String) : List String :=
  match names path with
  | [] => []
  | first :: rest =>
    let rest := rest.filter (· ≠ ".")
    if first = "." ∧ isAbsolute path then rest else first :: rest

/-- The last name of a path, unless it is one of the dots. -/
def fileName? (path : String) : Option String :=
  match (components path).getLast? with
  | none => none
  | some "." => none
  | some ".." => none
  | some name => some name

/-- The path without its last component; nothing is above the root or the
empty path. -/
def parent? (path : String) : Option String :=
  match components path with
  | [] => none
  | parts => some ((if isAbsolute path then "/" else "") ++ "/".intercalate parts.dropLast)

end RouterSeed.Path

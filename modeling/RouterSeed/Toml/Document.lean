/-
TOML documents: lines with keys, headers of tables, and comments.

A document is kept flat: every item stands at its path, and a name in a
path says which table of an array it goes through. Building it up is
where the rules are that nothing is defined twice: a table has one
header at most, a table that dotted keys made gets no header, and dotted
keys add only to tables that dotted keys made. Tables in braces obey the
same rules among their own keys, and nothing outside can add to them.
-/
import RouterSeed.Toml.Quoted
import RouterSeed.Toml.Scalar

namespace RouterSeed.Toml

open Text (Reader)
open Text.Reader (char word hasWord takeWhile peek? separatedUpTo)

-- ============================================================ paths

/-- One name on a path. Tables in an array are numbered from one on;
everything else has number zero. -/
structure Step where
  name : String
  index : Nat
  deriving DecidableEq, Repr

/-- The names from the top of a document. -/
abbrev Place := List Step

/-- The items of a document. -/
abbrev Items := List (Place × Item)

namespace Items

/-- The item at a place. -/
def at? (items : Items) (place : Place) : Option Item := items.lookup place

/-- The items with one more, or with another one at its place. -/
def set (items : Items) (place : Place) (item : Item) : Items :=
  match items.at? place with
  | none => items ++ [(place, item)]
  | some _ => items.map fun entry => if entry.1 = place then (place, item) else entry

/-- The place of a name inside a table. -/
def inside (table : Place) (name : String) : Place := table ++ [⟨name, 0⟩]

/-- Go down from a table by the names of a key. Tables that are missing
are made; of an array of tables the last one is meant. -/
def descend (isDotted : Bool) (items : Items) (table : Place) : (names : List String) →
    Option (Items × Place)
  | [] => some (items, table)
  | name :: rest =>
    let place := inside table name
    match items.at? place with
    | none =>
      descend isDotted (items.set place (if isDotted then .dotted else .implied)) place rest
    | some (.value _) => none
    | some (.tables count) => descend isDotted items (table ++ [⟨name, count⟩]) rest
    | some .headed => if isDotted then none else descend isDotted items place rest
    | some _ => descend isDotted items place rest

/-- Whether dotted keys made the table at a place. -/
def isDotted (items : Items) (table : Place) : Bool :=
  match items.at? table with
  | some .dotted => true
  | _ => false

/-- Define a key in a table. -/
def define (items : Items) (table : Place) (names : List String) (value : Value) :
    Option Items := do
  let name ← names.getLast?
  let above := names.dropLast
  let (items, table) ← items.descend true table above
  if items.isDotted table = above.isEmpty then none
  else
    let place := inside table name
    match items.at? place with
    | none => some (items.set place (.value value))
    | some _ => none

/-- Open the table of a header: the items with it, and its place. -/
def openTable (items : Items) (names : List String) : Option (Items × Place) := do
  let name ← names.getLast?
  let (items, above) ← items.descend false [] names.dropLast
  let place := inside above name
  match items.at? place with
  | none | some .implied => some (items.set place .headed, place)
  | some _ => none

/-- Open one more table of an array. -/
def openElement (items : Items) (names : List String) : Option (Items × Place) := do
  let name ← names.getLast?
  let (items, above) ← items.descend false [] names.dropLast
  let place := inside above name
  match items.at? place with
  | none => some (items.set place (.tables 1), above ++ [⟨name, 1⟩])
  | some (.tables count) =>
    some (items.set place (.tables (count + 1)), above ++ [⟨name, count + 1⟩])
  | some _ => none

/-- The keys of a table in braces, defined one after the other. -/
def ofEntries? (entries : List (List String × Value)) : Option Items :=
  entries.foldlM (fun items (names, value) => items.define [] names value) []

end Items

-- ============================================================= keys

/-- The most names that a key may have. -/
def maxNames : Nat := 79

/-- A character of a name without quotes. -/
def isBare (c : Char) : Bool :=
  ('a' ≤ c && c ≤ 'z') || ('A' ≤ c && c ≤ 'Z') || ('0' ≤ c && c ≤ '9') || c = '_' || c = '-'

/-- Read blanks. -/
def blanks : Reader Unit := do
  let _ ← takeWhile Quoted.isBlank

/-- Read one name of a key. -/
def name : Reader String := do
  match ← peek? with
  | some '"' => Quoted.line '"' true
  | some '\'' => Quoted.line '\'' false
  | _ =>
    let taken ← takeWhile isBare
    if taken = [] then failure
    pure (String.ofList taken)

/-- Read a key: names with dots between them, and blanks around them. -/
def key : Reader (List String) := do
  let names ← separatedUpTo (do blanks; let n ← name; blanks; pure n) (char '.')
    ((← get).length + 1)
  if maxNames < names.length then failure
  pure names

-- =========================================================== values

/-- Read a comment. -/
def comment : Reader Unit := do
  char '#'
  let _ ← takeWhile Quoted.isPlain

/-- Read blanks, line ends and comments. -/
def space : (fuel : Nat) → Reader Unit
  | 0 => pure ()
  | fuel + 1 => do
    blanks
    match ← optional (Quoted.lineEnd <|> comment) with
    | some () => space fuel
    | none => pure ()

/-- Read the inside of an array, with an optional comma at its end. -/
def arrayBody (value : Reader Value) : Reader (List Value) := do
  let fuel := (← get).length + 1
  let elements ← optional <| separatedUpTo
    (do space fuel; let v ← value; space fuel; pure v) (char ',') fuel
  if elements.isSome then
    let _ ← hasWord [',']
  space fuel
  char ']'
  pure (elements.getD [])

/-- Read the inside of a table in braces, which is all on one line. -/
def tableBody (value : Reader Value) : Reader (List (List String × Value)) := do
  let entries ← optional <| separatedUpTo
    (do
      let names ← key
      char '='
      blanks
      let v ← value
      blanks
      pure (names, v))
    (char ',') ((← get).length + 1)
  blanks
  char '}'
  let entries := entries.getD []
  if (Items.ofEntries? entries).isNone then failure
  pure entries

/-- Read a value. `inner` reads the values inside it, unless there may be
none. -/
def valueWith (inner : Option (Reader Value)) : Reader Value := do
  match ← peek? with
  | some '"' | some '\'' => .string <$> Quoted.string
  | some '[' =>
    let some inner := inner | failure
    char '['
    .array <$> arrayBody inner
  | some '{' =>
    let some inner := inner | failure
    char '{'
    .table <$> tableBody inner
  | _ => scalar

/-- Read a value with at most `depth` levels of values inside it. -/
def value : (depth : Nat) → Reader Value
  | 0 => valueWith none
  | depth + 1 => valueWith (some (value depth))

/-- The most levels of values inside values. -/
def maxDepth : Nat := 79

-- ======================================================== documents

/-- A line that means something. -/
inductive Line where
  | assignment (names : List String) (value : Value)
  | table (names : List String)
  | element (names : List String)
  deriving Repr

/-- Read the rest of a line after what it means. -/
def lineRest : Reader Unit := do
  blanks
  let _ ← optional comment
  match ← peek? with
  | none => pure ()
  | some _ => Quoted.lineEnd

/-- Read the header of a table or of one more table of an array. -/
def header : Reader Line := do
  if ← hasWord ['[', '['] then
    let names ← key
    word [']', ']']
    pure (.element names)
  else
    char '['
    let names ← key
    char ']'
    pure (.table names)

/-- Read a key with its value. -/
def assignment : Reader Line := do
  let names ← key
  char '='
  blanks
  let v ← value maxDepth
  pure (.assignment names v)

/-- Read lines up to the end. -/
def linesUpTo : (fuel : Nat) → (seen : List Line) → Reader (List Line)
  | 0, _ => failure
  | fuel + 1, seen => do
    blanks
    match ← peek? with
    | none => pure seen.reverse
    | some '#' =>
      lineRest
      linesUpTo fuel seen
    | some '\n' | some '\r' =>
      Quoted.lineEnd
      linesUpTo fuel seen
    | some '[' =>
      let line ← header
      lineRest
      linesUpTo fuel (line :: seen)
    | some _ =>
      let line ← assignment
      lineRest
      linesUpTo fuel (line :: seen)

/-- Read a document, with or without a byte order mark. -/
def lines : Reader (List Line) := do
  let _ ← hasWord ['\uFEFF']
  linesUpTo ((← get).length + 1) []

/-- Take one line into the items, `table` being the table that the last
header opened. -/
def addLine (items : Items) (table : Place) : Line → Option (Items × Place)
  | .assignment names v => (items.define table names v).map fun items => (items, table)
  | .table names => items.openTable names
  | .element names => items.openElement names

/-- The items of a document. -/
def parse? (text : String) : Option Items := do
  let lines ← Reader.whole? lines text.toList
  let (items, _) ← lines.foldlM (fun (items, table) line => addLine items table line) ([], [])
  some items

end RouterSeed.Toml

/-
Strings in TOML: four ways of quoting.

A basic string stands between double quotes and knows escapes, a literal
string stands between single quotes and knows none; of both there is a
form between triple quotes that may hold line ends and up to two quotes
in a row. Control characters other than the tab are never written as
they are.

Writing takes the first form that needs no escapes: basic, literal,
basic with triple quotes, literal with triple quotes. A string that
needs escapes in all of them is basic, with triple quotes if it has line
ends.
-/
import RouterSeed.Number.Digits
import RouterSeed.Text.Reader

namespace RouterSeed.Toml.Quoted

open Text (Reader)
open Text.Reader (any char word hasWord takeWhile peek?)

-- ======================================================= characters

/-- A character that is written as it is: the tab, and all that are no
control characters. -/
def isPlain (c : Char) : Bool := c = '\t' || (0x20 ≤ c.toNat && c.toNat ≠ 0x7F)

/-- Spaces and tabs. -/
def isBlank (c : Char) : Bool := c = ' ' || c = '\t'

/-- Read a line end, which is a line feed, possibly after a carriage
return. -/
def lineEnd : Reader Unit := do
  match ← any with
  | '\n' => pure ()
  | '\r' => char '\n'
  | _ => failure

/-- The characters that have an escape of one letter, with it. -/
def shortEscapes : List (Char × Char) :=
  [('\x08', 'b'), ('\t', 't'), ('\n', 'n'), ('\x0C', 'f'), ('\r', 'r'), ('"', '"'), ('\\', '\\')]

-- ========================================================== reading

/-- Read `count` hexadecimal digits as the number of a character. -/
def scalar (count : Nat) : Reader Char := do
  let input ← get
  let taken := input.take count
  if taken.length ≠ count ∨ !taken.all (Number.isDigit 16) then failure
  let code := Number.ofDigits 16 taken
  if h : code.isValidChar then
    set (input.drop count)
    pure (Char.ofNatAux code h)
  else failure

/-- Read what stands after the backslash of an escape. -/
def escape : Reader Char := do
  match ← any with
  | 'u' => scalar 4
  | 'U' => scalar 8
  | letter =>
    match shortEscapes.find? fun entry => entry.2 = letter with
    | some entry => pure entry.1
    | none => failure

/-- Read a string up to its closing quote, on one line. -/
def lineBody (quote : Char) (escapes : Bool) : (fuel : Nat) → (seen : List Char) →
    Reader (List Char)
  | 0, _ => failure
  | fuel + 1, seen => do
    let c ← any
    if c = quote then pure seen.reverse
    else if escapes ∧ c = '\\' then
      let e ← escape
      lineBody quote escapes fuel (e :: seen)
    else if isPlain c then lineBody quote escapes fuel (c :: seen)
    else failure

/-- Read a line end that is escaped, with all blanks and line ends after
it. -/
def continuation : (fuel : Nat) → Reader Unit
  | 0 => pure ()
  | fuel + 1 => do
    let _ ← takeWhile isBlank
    match ← optional lineEnd with
    | some () => continuation fuel
    | none => pure ()

/-- Read what stands after a backslash between triple quotes: a character,
or nothing at all. -/
def longEscape : Reader (Option Char) := do
  match ← optional (do let _ ← takeWhile isBlank; lineEnd) with
  | some () =>
    continuation ((← get).length + 1)
    pure none
  | none => some <$> escape

/-- Read a string up to its closing triple quote. Up to two quotes before
it belong to the string. -/
def longBody (quote : Char) (escapes : Bool) : (fuel : Nat) → (seen : List Char) →
    Reader (List Char)
  | 0, _ => failure
  | fuel + 1, seen => do
    let quotes := ((← get).takeWhile (· = quote)).length
    if 3 ≤ quotes then
      let inside := min (quotes - 3) 2
      modify fun input => input.drop (inside + 3)
      pure (seen.reverse ++ List.replicate inside quote)
    else if ← hasWord ['\r', '\n'] then longBody quote escapes fuel ('\n' :: seen)
    else
      let c ← any
      if escapes ∧ c = '\\' then
        match ← longEscape with
        | some e => longBody quote escapes fuel (e :: seen)
        | none => longBody quote escapes fuel seen
      else if isPlain c ∨ c = '\n' then longBody quote escapes fuel (c :: seen)
      else failure

/-- Read a string on one line, from its opening quote on. -/
def line (quote : Char) (escapes : Bool) : Reader String := do
  char quote
  String.ofList <$> lineBody quote escapes ((← get).length + 1) []

/-- Read a string between triple quotes. A line end right after the
opening ones does not belong to it. -/
def long (quote : Char) (escapes : Bool) : Reader String := do
  let _ ← optional lineEnd
  String.ofList <$> longBody quote escapes ((← get).length + 1) []

/-- Read a string of either kind of quotes. -/
def ofQuote (quote : Char) (escapes : Bool) : Reader String := do
  if ← hasWord [quote, quote, quote] then long quote escapes else line quote escapes

/-- Read a string. -/
def string : Reader String := do
  match ← peek? with
  | some '"' => ofQuote '"' true
  | some '\'' => ofQuote '\'' false
  | _ => failure

-- ========================================================== writing

/-- The longest series of `quote` in a text. -/
def longestRun (quote : Char) (text : List Char) : Nat :=
  (text.foldl
    (fun (best, run) c => if c = quote then (max best (run + 1), run + 1) else (best, 0))
    (0, 0)).1

/-- Whether a character can only be written as an escape. -/
def needsEscape (c : Char) : Bool := !isPlain c && c ≠ '\n'

/-- The four forms, and what they let through. -/
inductive Form where
  | basic
  | literal
  | longBasic
  | longLiteral
  deriving DecidableEq, Repr

/-- The form in which a text is written. -/
def formOf (text : List Char) : Form :=
  let hasControl := text.any needsEscape
  let hasBackslash := text.contains '\\'
  let hasLineEnd := text.contains '\n'
  if !hasControl && !hasBackslash && !hasLineEnd && longestRun '"' text = 0 then .basic
  else if !hasControl && !hasLineEnd && longestRun '\'' text = 0 then .literal
  else if !hasControl && !hasBackslash && longestRun '"' text ≤ 2 then .longBasic
  else if !hasControl && longestRun '\'' text ≤ 2 then .longLiteral
  else if hasLineEnd then .longBasic
  else .basic

/-- Four hexadecimal digits in upper case. -/
def fourDigits (n : Nat) : List Char :=
  [n / 4096 % 16, n / 256 % 16, n / 16 % 16, n % 16].map fun d => (Nat.digitChar d).toUpper

/-- The escape of a character. -/
def escaped (c : Char) : List Char :=
  match shortEscapes.find? fun entry => entry.1 = c with
  | some entry => ['\\', entry.2]
  | none => '\\' :: 'u' :: fourDigits c.toNat

/-- The inside of a basic string. Between triple quotes, line ends and up
to two quotes in a row stay as they are. -/
def basicBody (isLong : Bool) : (run : Nat) → List Char → List Char
  | _, [] => []
  | run, '"' :: rest =>
    if isLong ∧ run < 2 then '"' :: basicBody isLong (run + 1) rest
    else '\\' :: '"' :: basicBody isLong 0 rest
  | _, c :: rest =>
    let shown :=
      if c = '\t' ∨ c = '\\' ∨ (needsEscape c ∨ (c = '\n' ∧ !isLong)) then escaped c else [c]
    shown ++ basicBody isLong 0 rest

/-- What follows the opening of a form with triple quotes: a line end, if
the text has one. -/
def opening (text : List Char) : List Char := if text.contains '\n' then ['\n'] else []

/-- The written form of a string. -/
def write (text : String) : String :=
  let cs := text.toList
  String.ofList <|
    match formOf cs with
    | .basic => '"' :: basicBody false 0 cs ++ ['"']
    | .literal => '\'' :: cs ++ ['\'']
    | .longBasic => ['"', '"', '"'] ++ opening cs ++ basicBody true 0 cs ++ ['"', '"', '"']
    | .longLiteral => ['\'', '\'', '\''] ++ opening cs ++ cs ++ ['\'', '\'', '\'']

end RouterSeed.Toml.Quoted

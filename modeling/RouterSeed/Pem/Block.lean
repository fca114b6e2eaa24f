/-
Tagged blocks of base 64 in a text.

A block begins with a line that names its tag and ends with a line that
names it again; between them may stand header lines, closed by an empty
line, and then the base 64 of the contents, broken and indented at will.
Anything outside blocks is ignored, so a key file may carry comments.

Marks are searched in one pass: a byte that breaks off a mark half way
is not looked at again, so a mark with a spare dash in front of it is
not found.
-/
import RouterSeed.Failure
import RouterSeed.Pem.Base64
import RouterSeed.Text.Blank
import RouterSeed.Text.Utf8

namespace RouterSeed.Pem

/-- A block: its tag and its contents. -/
structure Block where
  tag : String
  contents : Bytes
  deriving DecidableEq, Repr

-- ============================================================ marks

def beginMark : Bytes := Bytes.ofString "-----BEGIN "
def endMark : Bytes := Bytes.ofString "-----END "
def dashes : Bytes := Bytes.ofString "-----"

/-- Look for `mark` in the input: what is before it, and what is after
it. `pending` is the part of the mark still to be met, and `before` what
was passed, the latest byte first. -/
def scan (mark : Bytes) : (input pending before : Bytes) → Option (Bytes × Bytes)
  | rest, [], before => some ((before.drop mark.length).reverse, rest)
  | [], _ :: _, _ => none
  | b :: rest, m :: pending, before =>
    if b = m then scan mark rest pending (b :: before) else scan mark rest mark (b :: before)

/-- What is before and after the first `mark` of the input. -/
def readUntil (mark input : Bytes) : Option (Bytes × Bytes) := scan mark input mark []

/-- The input without spaces, tabs and line ends at its start. -/
def skipBlanks (input : Bytes) : Bytes :=
  input.dropWhile fun b => b = 32 || b = 9 || b = 10 || b = 13

-- =========================================================== blocks

/-- A block as it stands in the text. -/
structure Capture where
  opening : Bytes
  headers : Bytes
  data : Bytes
  closing : Bytes

/-- Header lines end at the first empty line; without one there are none. -/
def splitHeaders (body : Bytes) : Bytes × Bytes :=
  match readUntil [10, 10] body with
  | some (headers, data) => (headers, data)
  | none =>
    match readUntil [13, 10, 13, 10] body with
    | some (headers, data) => (headers, data)
    | none => ([], body)

/-- The first block of the input, and what follows it. -/
def capture? (input : Bytes) : Option (Capture × Bytes) := do
  let (_, input) ← readUntil beginMark input
  let (opening, input) ← readUntil dashes input
  let (body, input) ← readUntil endMark (skipBlanks input)
  let (closing, input) ← readUntil dashes input
  let (headers, data) := splitHeaders body
  some (⟨opening, headers, data, closing⟩, skipBlanks input)

/-- At most `fuel` blocks of the input. Every block takes several bytes. -/
def capturesUpTo : (fuel : Nat) → (input : Bytes) → List Capture
  | 0, _ => []
  | fuel + 1, input =>
    match capture? input with
    | none => []
    | some (c, rest) => c :: capturesUpTo fuel rest

/-- The blocks of the input. -/
def captures (input : Bytes) : List Capture := capturesUpTo input.length input

-- ========================================================= contents

/-- Every header line has a colon. -/
def headersAreValid (headers : String) : Bool :=
  let lines := headers.splitOn "\n"
  let lines := if lines.getLast? = some "" then lines.dropLast else lines
  lines.all fun line => line.toList.contains ':'

/-- The block that a capture stands for. -/
def Capture.block (c : Capture) : Except PemFault Block := do
  let text (bytes : Bytes) : Except PemFault String :=
    match Text.decode? bytes with
    | some text => .ok text
    | none => .error .notText
  let tag ← text c.opening
  let closing ← text c.closing
  if tag = "" ∨ closing = "" then .error .badTag
  if tag ≠ closing then .error .mismatchedTags
  let data ← text c.data
  let digits := Bytes.ofString (String.ofList (data.toList.filter fun ch => !Text.isBlank ch))
  let headers ← text c.headers
  match Base64.decode? digits with
  | none => .error .badBase64
  | some contents => if headersAreValid headers then .ok ⟨tag, contents⟩ else .error .badHeader

/-- All blocks of a text; one bad block spoils them all. -/
def decodeAll (input : Bytes) : Except PemFault (List Block) :=
  (captures input).mapM Capture.block

/-- The first block of a text. -/
def decodeFirst (input : Bytes) : Except PemFault Block :=
  match capture? input with
  | none => .error .noBlock
  | some (c, _) => c.block

-- ========================================================== writing

/-- The end of a written line. -/
def lineEnd : Bytes := [13, 10]

/-- Cut into lines of 64 digits. -/
def wrap (digits : Bytes) : Bytes :=
  if digits = [] then []
  else digits.take 64 ++ lineEnd ++ wrap (digits.drop 64)
termination_by digits.length
decreasing_by
  have : digits.length ≠ 0 := by simpa using ‹_›
  simp only [List.length_drop]
  omega

/-- The text of a block. -/
def encode (b : Block) : Bytes :=
  let tag := Bytes.ofString b.tag
  beginMark ++ tag ++ dashes ++ lineEnd ++ wrap (Base64.encode b.contents)
    ++ endMark ++ tag ++ dashes ++ lineEnd

end RouterSeed.Pem

/-
Reading a text character by character.

A reader takes characters from the front of a text or fails; it gives
back what it took when it fails, so a choice between readers is to try
them in order. Loops carry fuel, for which the length of the text left
over is always enough.
-/

namespace RouterSeed.Text

/-- A reader of characters. -/
abbrev Reader := StateT (List Char) Option

namespace Reader

/-- The next character. -/
def any : Reader Char := do
  match ← get with
  | c :: rest =>
    set rest
    pure c
  | [] => failure

/-- Read one given character. -/
def char (c : Char) : Reader Unit := do
  if (← any) ≠ c then failure

/-- The next character, without reading it. -/
def peek? : Reader (Option Char) := do
  pure (← get).head?

/-- Read the characters that come next as long as they satisfy `p`. -/
def takeWhile (p : Char → Bool) : Reader (List Char) := do
  let input ← get
  set (input.dropWhile p)
  pure (input.takeWhile p)

/-- Read a word. -/
def word : (w : List Char) → Reader Unit
  | [] => pure ()
  | c :: w => do
    char c
    word w

/-- Read a word, if it is there. -/
def hasWord (w : List Char) : Reader Bool := do
  pure (← optional (word w)).isSome

/-- Read items with separators between them, at most `fuel` of them. -/
def separatedUpTo {α : Type} (item : Reader α) (separator : Reader Unit) : (fuel : Nat) →
    Reader (List α)
  | 0 => pure []
  | fuel + 1 => do
    let first ← item
    match ← optional (do separator; separatedUpTo item separator fuel) with
    | some rest => pure (first :: rest)
    | none => pure [first]

/-- The reader reads all of a text. -/
def whole? {α : Type} (reader : Reader α) (text : List Char) : Option α :=
  match reader text with
  | some (a, []) => some a
  | _ => none

end Reader

end RouterSeed.Text

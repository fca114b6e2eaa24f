/-
The names of the files that keep a signer's key and certificate.

A signer id looks like a mail address and is chosen by whoever made the
file, so it must not lead anywhere: the first `@` becomes `_at_`, and of
what looks like a path only the last name is used. If there is no usable
last name, the whole id is flattened into one.
-/
import RouterSeed.Files.Path

namespace RouterSeed.SignerFile

/-- What stands for the first `@`. -/
def atReplacement : List Char := "_at_".toList

/-- The text with its first `@` replaced. -/
def replaceAt (text : List Char) : List Char :=
  match text.span (· ≠ '@') with
  | (before, _ :: after) => before ++ atReplacement ++ after
  | (before, []) => before

/-- The text with everything that has a meaning in paths replaced. -/
def flatten (text : List Char) : List Char :=
  text.map fun c => if c = '/' ∨ c = '\\' ∨ c = '.' then '_' else c

/-- The name of a signer's files, without extension. It is known by its
lemmas; nothing is gained by working it out where two names are compared. -/
@[irreducible] def stem (signerId : String) : String :=
  let text := replaceAt signerId.toList
  match Path.fileName? (String.ofList text) with
  | some name => name
  | none => String.ofList (flatten text)

/-- The name of a signer's certificate file. -/
def certificate (signerId : String) : String := stem signerId ++ ".crt"

/-- The name of a signer's key file. -/
def key (signerId : String) : String := stem signerId ++ ".pem"

end RouterSeed.SignerFile

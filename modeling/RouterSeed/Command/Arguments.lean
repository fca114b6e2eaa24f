/-
Reading the words of a command line.

Words are read from left to right, and the first thing that settles the
matter wins: a request for help or for the version, or a word that makes
no sense here. So a mistake in front of `--help` is reported, and one
behind it is not.

A word with dashes in front is an option; its value is attached to it or
is the next word, which then may not look like an option itself. No
option may be given twice, paths may not be empty, and after `--` every
word is taken for what it is. One option is understood by every command
and in front of it: how much to log.
-/
import RouterSeed.Command.Basic
import RouterSeed.Number.Digits
import RouterSeed.Number.Power

namespace RouterSeed

-- ========================================================== options

/-- What an option sets. -/
inductive Setting where
  | signer
  | out
  | bits
  | keystore
  | purpose
  | extract
  | config
  | logLevel
  deriving DecidableEq, Repr

namespace Setting

/-- The name of the option. -/
def name : Setting → String
  | signer => "signer"
  | out => "out"
  | bits => "bits"
  | keystore => "keystore"
  | purpose => "purpose"
  | extract => "extract"
  | config => "config"
  | logLevel => "log-level"

/-- The letter of the option, if it has one. -/
def letter? : Setting → Option Char
  | signer => some 's'
  | out => some 'o'
  | keystore => some 'k'
  | config => some 'c'
  | _ => none

/-- The largest key size that can be asked for. -/
def maxBits : Nat := 2 ^ 64 - 1

/-- A key size in digits; a plus sign in front is allowed. -/
def bits? (text : String) : Option Nat :=
  let digits :=
    match text.toList with
    | '+' :: rest => rest
    | all => all
  let size := Number.ofDigits 10 digits
  if digits ≠ [] ∧ digits.all (Number.isDigit 10) ∧ size ≤ maxBits then some size else none

/-- Whether a text can be the value of the option. -/
def accepts (setting : Setting) (value : String) : Bool :=
  match setting with
  | bits => (bits? value).isSome
  | out | keystore | extract | config => value ≠ ""
  | signer | purpose | logLevel => true

end Setting

-- =========================================================== scopes

/-- The words that name a command. -/
inductive Verb where
  | keygen
  | verify
  | build
  | run
  deriving DecidableEq, Repr

/-- The command that a word names. -/
def Verb.ofText? : String → Option Verb
  | "keygen" => some .keygen
  | "verify" => some .verify
  | "build" => some .build
  | "run" => some .run
  | _ => none

/-- The word that asks for help. -/
def helpName : String := "help"

/-- The word that asks for the version. -/
def versionName : String := "version"

/-- The options that a command has; without a command, those in front of
it. -/
def settingsOf : Option Verb → List Setting
  | none => [.logLevel]
  | some .keygen => [.signer, .out, .bits, .logLevel]
  | some .verify => [.signer, .keystore, .purpose, .extract, .logLevel]
  | some .build => [.config, .out, .logLevel]
  | some .run => [.config, .logLevel]

-- ============================================================ words

/-- What a word means. -/
inductive Meaning where
  /-- From here on every word is plain. -/
  | separator
  | help
  | version
  /-- An option, with its value if it is attached. -/
  | option (setting : Setting) (attached : Option String)
  /-- It looks like an option and is none. -/
  | unknown
  | plain
  deriving DecidableEq, Repr

/-- The name in front of the first equals sign, and what is behind it. -/
def splitValue (text : List Char) : String × Option String :=
  match text.span (· ≠ '=') with
  | (name, _ :: value) => (String.ofList name, some (String.ofList value))
  | (name, []) => (String.ofList name, none)

/-- The value behind an option's letter; an equals sign may stand between
them. -/
def valueBehindLetter : List Char → Option String
  | [] => none
  | '=' :: value => some (String.ofList value)
  | value => some (String.ofList value)

namespace Meaning

/-- The meaning of a name behind two dashes. -/
def ofName (verb : Option Verb) (name : String) (attached : Option String) : Meaning :=
  if name = helpName ∧ attached = none then .help
  else if name = versionName ∧ attached = none ∧ verb = none then .version
  else
    match (settingsOf verb).find? fun setting => setting.name = name with
    | some setting => .option setting attached
    | none => .unknown

/-- The meaning of a letter behind one dash. -/
def ofLetter (verb : Option Verb) (letter : Char) (rest : List Char) : Meaning :=
  if letter = 'h' then .help
  else if letter = 'V' ∧ verb = none then .version
  else
    match (settingsOf verb).find? fun setting => setting.letter? = some letter with
    | some setting => .option setting (valueBehindLetter rest)
    | none => .unknown

/-- The meaning of a word. A dash alone is a plain word. -/
def ofText (verb : Option Verb) (text : String) : Meaning :=
  match text.toList with
  | ['-', '-'] => .separator
  | '-' :: '-' :: rest => ofName verb (splitValue rest).1 (splitValue rest).2
  | '-' :: letter :: rest => ofLetter verb letter rest
  | _ => .plain

end Meaning

-- ====================================================== what is given

/-- What has been given so far. -/
structure Given where
  values : List (Setting × String)
  file : Option String
  deriving DecidableEq, Repr

namespace Given

/-- Nothing yet. -/
def nothing : Given := ⟨[], none⟩

/-- The value of an option, if it was given. -/
def value? (g : Given) (setting : Setting) : Option String := g.values.lookup setting

/-- Add the value of an option, which may not be there yet. -/
def add? (g : Given) (setting : Setting) (value : String) : Option Given :=
  if (g.value? setting).isNone ∧ setting.accepts value then
    some { g with values := (setting, value) :: g.values }
  else none

/-- Add a word that is no option. Only `verify` takes one, the file that
it checks. -/
def addPlain? (g : Given) (verb : Option Verb) (text : String) : Option Given :=
  if verb = some .verify ∧ g.file = none ∧ text ≠ "" then some { g with file := some text } else none

end Given

-- ========================================================= requests

/-- What a command line asks for. -/
inductive Request where
  | perform (command : Command)
  | help
  | version
  | misuse
  deriving DecidableEq, Repr

/-- The command that has been given, if nothing that it needs is
missing. -/
def Given.command? (g : Given) : Verb → Option Command
  | .keygen => do
    let signer ← g.value? .signer
    let bits := ((g.value? .bits).bind Setting.bits?).getD Command.defaultBits
    some (.keygen signer ((g.value? .out).getD Command.defaultKeyDirectory) bits)
  | .verify => do
    let file ← g.file
    some (.verify file (g.value? .signer) ((g.value? .keystore).getD Command.defaultKeystore)
      ((g.value? .purpose).getD Keystore.reseedPurpose) (g.value? .extract))
  | .build =>
    some (.build ((g.value? .config).getD Config.defaultFile)
      ((g.value? .out).getD Command.defaultBundleDirectory))
  | .run => some (.run ((g.value? .config).getD Config.defaultFile))

/-- The request at the end of the words. -/
def Given.request (g : Given) (verb : Option Verb) : Request :=
  match verb.bind g.command? with
  | some command => .perform command
  | none => .misuse

namespace Request

/-- The request of words that are all plain. -/
def ofPlain (verb : Option Verb) (given : Given) : List String → Request
  | [] => given.request verb
  | text :: rest =>
    match given.addPlain? verb text with
    | some given => ofPlain verb given rest
    | none => .misuse

/-- The request of the words after the word `help`: at most the name of
one command. -/
def ofHelp : List String → Request
  | [] => .help
  | [topic] => if topic = helpName ∨ (Verb.ofText? topic).isSome then .help else .misuse
  | _ => .misuse

/-- The request of the words from here on. -/
def ofWords (verb : Option Verb) (given : Given) : List String → Request
  | [] => given.request verb
  | text :: rest =>
    match Meaning.ofText verb text with
    | .separator => ofPlain verb given rest
    | .help => .help
    | .version => .version
    | .unknown => .misuse
    | .option setting (some value) =>
      match given.add? setting value with
      | some given => ofWords verb given rest
      | none => .misuse
    | .option setting none =>
      match rest with
      | [] => .misuse
      | value :: rest =>
        match Meaning.ofText verb value, given.add? setting value with
        | .plain, some given => ofWords verb given rest
        | _, _ => .misuse
    | .plain =>
      match verb with
      | some _ =>
        match given.addPlain? verb text with
        | some given => ofWords verb given rest
        | none => .misuse
      | none =>
        if text = helpName then ofHelp rest
        else
          match Verb.ofText? text with
          | some verb => ofWords (some verb) .nothing rest
          | none => .misuse

/-- The request of a whole command line. -/
def ofArguments (arguments : List String) : Request := ofWords none .nothing arguments

end Request

end RouterSeed

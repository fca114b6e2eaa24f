/-
The settings of a reseed server, and the TOML file that keeps them.

Durations are kept as whole seconds. A setting that the file does not
have keeps its default, and a key that is no setting is passed over; a
value of the wrong type or out of range spoils the file. Writing fails
before the file is touched if a number does not fit a TOML integer.
-/
import RouterSeed.Calendar
import RouterSeed.Failure
import RouterSeed.Files.Change
import RouterSeed.Number.Power
import RouterSeed.Su3.Codes
import RouterSeed.Text.Utf8
import RouterSeed.Toml.Document

namespace RouterSeed

/-- The settings. No bundle count says to choose one by the number of
descriptors. -/
structure Config where
  netDb : String
  maxAge : Duration
  infosPerBundle : Nat
  bundleCount : Nat
  rebuildInterval : Duration
  signer : String
  signingKey : Option String
  signatureType : Su3.SignatureType
  deriving DecidableEq, Repr

namespace Config

/-- The settings of a file that has none. -/
def default : Config where
  netDb := "netDb"
  maxAge := .ofSeconds (72 * 60 * 60)
  infosPerBundle := 77
  bundleCount := 0
  rebuildInterval := .ofSeconds (90 * 60 * 60)
  signer := ""
  signingKey := none
  signatureType := .rsaSha512

/-- The name of the file that is used if no other is given. -/
def defaultFile : String := "ReseedConfig.toml"

-- ============================================================= keys

def netDbKey : String := "netdb"
def maxAgeKey : String := "max_router_info_age"
def infosPerBundleKey : String := "num_ri"
def bundleCountKey : String := "num_su3"
def rebuildIntervalKey : String := "rebuild_interval"
def signerKey : String := "signer"
def signingKeyKey : String := "signing_key"
def signatureTypeKey : String := "signature_type"

-- ========================================================== reading

/-- The item of a key at the top of a document. -/
def item? (items : Toml.Items) (key : String) : Option Toml.Item := items.at? [⟨key, 0⟩]

/-- The text of a key, if the key is there. -/
def text? (items : Toml.Items) (key : String) : Except TomlFault (Option String) :=
  match item? items key with
  | none => .ok none
  | some (.value (.string text)) => .ok (some text)
  | some _ => .error (.wrongType key)

/-- The number of a key, if the key is there; it may not be negative or
above `bound`. -/
def number? (items : Toml.Items) (bound : Nat) (key : String) : Except TomlFault (Option Nat) :=
  match item? items key with
  | none => .ok none
  | some (.value (.integer n)) =>
    if 0 ≤ n ∧ n.toNat ≤ bound then .ok (some n.toNat) else .error (.outOfRange key)
  | some _ => .error (.wrongType key)

/-- The largest number that a TOML file can hold. -/
def maxNumber : Nat := 2 ^ 63 - 1

/-- The largest number of a signature type. -/
def maxSignatureType : Nat := 2 ^ 16 - 1

/-- The settings in a document. -/
def ofItems (items : Toml.Items) : Except TomlFault Config := do
  let netDb ← text? items netDbKey
  let maxAge ← number? items maxNumber maxAgeKey
  let infosPerBundle ← number? items maxNumber infosPerBundleKey
  let bundleCount ← number? items maxNumber bundleCountKey
  let rebuildInterval ← number? items maxNumber rebuildIntervalKey
  let signer ← text? items signerKey
  let signingKey ← text? items signingKeyKey
  let signatureType ← number? items maxSignatureType signatureTypeKey
  .ok
    { netDb := netDb.getD default.netDb
      maxAge := (maxAge.map Duration.ofSeconds).getD default.maxAge
      infosPerBundle := infosPerBundle.getD default.infosPerBundle
      bundleCount := bundleCount.getD default.bundleCount
      rebuildInterval := (rebuildInterval.map Duration.ofSeconds).getD default.rebuildInterval
      signer := signer.getD default.signer
      signingKey
      signatureType :=
        (signatureType.map fun n => .ofCode (UInt16.ofNat n)).getD default.signatureType }

/-- The settings in a text. -/
def ofToml (text : String) : Except TomlFault Config :=
  match Toml.parse? text with
  | some items => ofItems items
  | none => .error .malformed

/-- Load the settings from a file. -/
def load (tree : FileTree) (path : String) : Except Failure Config :=
  match tree.read path with
  | .error fault => .error (.io fault)
  | .ok bytes =>
    match Text.decode? bytes with
    | none => .error (.io .notText)
    | some text => (ofToml text).mapError Failure.toml

-- ========================================================== writing

/-- The line of a key with a text. -/
def textLine (key text : String) : Except TomlFault String :=
  .ok (key ++ " = " ++ Toml.Quoted.write text ++ "\n")

/-- The line of a key with a number. -/
def numberLine (key : String) (number : Nat) : Except TomlFault String :=
  if number ≤ maxNumber then
    .ok (key ++ " = " ++ String.ofList (Number.digits 10 number) ++ "\n")
  else .error (.outOfRange key)

/-- The text of a file with these settings. -/
def toToml (c : Config) : Except TomlFault String := do
  let lines ← [
    textLine netDbKey c.netDb,
    numberLine maxAgeKey c.maxAge.rounded,
    numberLine infosPerBundleKey c.infosPerBundle,
    numberLine bundleCountKey c.bundleCount,
    numberLine rebuildIntervalKey c.rebuildInterval.rounded,
    textLine signerKey c.signer,
    match c.signingKey with
    | some path => textLine signingKeyKey path
    | none => .ok "",
    numberLine signatureTypeKey c.signatureType.code.toNat].mapM id
  .ok (String.join lines)

/-- The change that stores the settings in a file. -/
def storing (c : Config) (path : String) : Except TomlFault FileChange := do
  let text ← c.toToml
  .ok (.write path (Bytes.ofString text))

/-- Make the change that stores settings, if there is one. -/
def store (tree : FileTree) (now : Instant) : Except TomlFault FileChange →
    Except Failure Unit × FileTree
  | .error fault => (.error (.toml fault), tree)
  | .ok change =>
    match tree.change now change with
    | (.ok (), tree) => (.ok (), tree)
    | (.error fault, tree) => (.error (.io fault), tree)

/-- Store the settings in a file. -/
def save (c : Config) (tree : FileTree) (now : Instant) (path : String) :
    Except Failure Unit × FileTree :=
  store tree now (c.storing path)

end Config

end RouterSeed

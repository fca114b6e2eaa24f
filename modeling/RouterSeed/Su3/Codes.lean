/-
The three type codes of an su3 header: how the file is signed, what the
content is encoded as, and what it is for.

Every code is kept, known or not, so that any well formed container can
be read and shown; only signing and verifying refuse an unknown
signature type. Reading a code and writing it are therefore inverse on
codes, and the three `code_ofCode` lemmas say so.
-/

namespace RouterSeed.Su3

-- ================================================== signature type

/-- How a container is signed. -/
inductive SignatureType where
  | dsaSha1
  | ecdsaSha256P256
  | ecdsaSha384P384
  | ecdsaSha512P521
  | rsaSha256
  | rsaSha384
  | rsaSha512
  | unknown (code : UInt16)
  deriving DecidableEq, Repr

namespace SignatureType

/-- The signature type with the given header code. -/
def ofCode (code : UInt16) : SignatureType :=
  match code with
  | 0 => .dsaSha1
  | 1 => .ecdsaSha256P256
  | 2 => .ecdsaSha384P384
  | 3 => .ecdsaSha512P521
  | 4 => .rsaSha256
  | 5 => .rsaSha384
  | 6 => .rsaSha512
  | c => .unknown c

/-- The header code. -/
def code : SignatureType → UInt16
  | .dsaSha1 => 0
  | .ecdsaSha256P256 => 1
  | .ecdsaSha384P384 => 2
  | .ecdsaSha512P521 => 3
  | .rsaSha256 => 4
  | .rsaSha384 => 5
  | .rsaSha512 => 6
  | .unknown c => c

/-- The name of the algorithm; the RSA ones carry the key size they are
meant for, which nothing enforces. -/
def name : SignatureType → String
  | .dsaSha1 => "DSA-SHA1"
  | .ecdsaSha256P256 => "ECDSA-SHA256-P256"
  | .ecdsaSha384P384 => "ECDSA-SHA384-P384"
  | .ecdsaSha512P521 => "ECDSA-SHA512-P521"
  | .rsaSha256 => "RSA-SHA256-2048"
  | .rsaSha384 => "RSA-SHA384-3072"
  | .rsaSha512 => "RSA-SHA512-4096"
  | .unknown _ => "UNKNOWN"

/-- Name and code, as the header dump shows them. -/
def display (t : SignatureType) : String := t.name ++ " (" ++ toString t.code.toNat ++ ")"

/-- The known signature types, in the order of their codes. -/
def all : List SignatureType :=
  [.dsaSha1, .ecdsaSha256P256, .ecdsaSha384P384, .ecdsaSha512P521,
    .rsaSha256, .rsaSha384, .rsaSha512]

/-- A type that a code can mean: an `unknown` one has no known code. -/
def Canonical (t : SignatureType) : Prop := ofCode t.code = t

instance (t : SignatureType) : Decidable t.Canonical := inferInstanceAs (Decidable (_ = _))

@[simp] theorem code_ofCode (c : UInt16) : (ofCode c).code = c := by
  unfold ofCode
  split <;> simp_all [code]

theorem canonical_ofCode (c : UInt16) : (ofCode c).Canonical := by simp [Canonical]

end SignatureType

-- ======================================================= file type

/-- What the content is encoded as. -/
inductive FileType where
  | zip
  | xml
  | html
  | xmlGz
  | txtGz
  | dmg
  | exe
  | unassigned (code : UInt8)
  deriving DecidableEq, Repr

namespace FileType

/-- The file type with the given header code. -/
def ofCode (code : UInt8) : FileType :=
  match code with
  | 0 => .zip
  | 1 => .xml
  | 2 => .html
  | 3 => .xmlGz
  | 4 => .txtGz
  | 5 => .dmg
  | 6 => .exe
  | c => .unassigned c

/-- The header code. -/
def code : FileType → UInt8
  | .zip => 0
  | .xml => 1
  | .html => 2
  | .xmlGz => 3
  | .txtGz => 4
  | .dmg => 5
  | .exe => 6
  | .unassigned c => c

/-- The usual file name extension. -/
def name : FileType → String
  | .zip => "zip"
  | .xml => "xml"
  | .html => "html"
  | .xmlGz => "xml.gz"
  | .txtGz => "txt.gz"
  | .dmg => "dmg"
  | .exe => "exe"
  | .unassigned _ => "unknown"

/-- Name and code, as the header dump shows them. -/
def display (t : FileType) : String := t.name ++ " (" ++ toString t.code.toNat ++ ")"

/-- A type that a code can mean. -/
def Canonical (t : FileType) : Prop := ofCode t.code = t

instance (t : FileType) : Decidable t.Canonical := inferInstanceAs (Decidable (_ = _))

@[simp] theorem code_ofCode (c : UInt8) : (ofCode c).code = c := by
  unfold ofCode
  split <;> simp_all [code]

theorem canonical_ofCode (c : UInt8) : (ofCode c).Canonical := by simp [Canonical]

end FileType

-- ==================================================== content type

/-- What the content is for. -/
inductive ContentType where
  | unspecified
  | router
  | plugin
  | reseed
  | news
  | blocklist
  | unassigned (code : UInt8)
  deriving DecidableEq, Repr

namespace ContentType

/-- The content type with the given header code. -/
def ofCode (code : UInt8) : ContentType :=
  match code with
  | 0 => .unspecified
  | 1 => .router
  | 2 => .plugin
  | 3 => .reseed
  | 4 => .news
  | 5 => .blocklist
  | c => .unassigned c

/-- The header code. -/
def code : ContentType → UInt8
  | .unspecified => 0
  | .router => 1
  | .plugin => 2
  | .reseed => 3
  | .news => 4
  | .blocklist => 5
  | .unassigned c => c

/-- The purpose; code zero has none and reads like an unassigned code. -/
def name : ContentType → String
  | .unspecified => "unknown"
  | .router => "router"
  | .plugin => "plugin"
  | .reseed => "reseed"
  | .news => "news"
  | .blocklist => "blocklist"
  | .unassigned _ => "unknown"

/-- Name and code, as the header dump shows them. -/
def display (t : ContentType) : String := t.name ++ " (" ++ toString t.code.toNat ++ ")"

/-- A type that a code can mean. -/
def Canonical (t : ContentType) : Prop := ofCode t.code = t

instance (t : ContentType) : Decidable t.Canonical := inferInstanceAs (Decidable (_ = _))

@[simp] theorem code_ofCode (c : UInt8) : (ofCode c).code = c := by
  unfold ofCode
  split <;> simp_all [code]

theorem canonical_ofCode (c : UInt8) : (ofCode c).Canonical := by simp [Canonical]

end ContentType

end RouterSeed.Su3

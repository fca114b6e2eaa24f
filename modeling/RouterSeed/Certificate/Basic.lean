/-
X.509 certificates: the parts, their encoding, and reading them back.

Fields that nothing here interprets (names, parameters, the contents of
extensions) are kept as elements, so a foreign certificate that reads is
written back as it was, up to the three places where reading allows more
than writing produces: a version that is spelled out although it is the
first, an extension that is spelled out not to be critical, and the
attributes of a name part in any order.
-/
import RouterSeed.Der.Time
import RouterSeed.Key.SubjectKey

namespace RouterSeed

open Der (Oid Element BitString)

-- ============================================================ names

/-- One attribute of a name. -/
structure Attribute where
  oid : Oid
  value : Element
  deriving DecidableEq, Repr

namespace Attribute

/-- The content of the attribute's sequence. -/
def content (a : Attribute) : Bytes := a.oid.encode ++ a.value.encode

def encode (a : Attribute) : Bytes := Der.encode Der.sequenceTag a.content

def reader : Der.Reader Attribute :=
  Der.within Der.sequenceTag do
    let oid ← Der.oid
    let value ← Der.element
    pure ⟨oid, value⟩

/-- The order of attributes in a set: the shorter one first, then byte by
byte. -/
def before (a b : Attribute) : Bool :=
  a.content.length < b.content.length ||
    (a.content.length == b.content.length && decide (a.content < b.content))

end Attribute

/-- A part of a name: a set of attributes. -/
abbrev NamePart := List Attribute

/-- Put an attribute into its place among sorted ones, unless it is there
already. -/
def NamePart.insert? (a : Attribute) : NamePart → Option NamePart
  | [] => some [a]
  | b :: rest =>
    if a.before b then some (a :: b :: rest)
    else if b.before a then (b :: ·) <$> NamePart.insert? a rest
    else none

/-- Sort the attributes of a name part; none may occur twice. -/
def NamePart.ofList? (attributes : List Attribute) : Option NamePart :=
  attributes.foldlM (fun part a => NamePart.insert? a part) []

/-- A distinguished name. -/
abbrev Name := List NamePart

def Name.encode (name : Name) : Bytes :=
  Der.sequence (name.map fun part => Der.encode Der.setTag (part.map Attribute.encode).flatten)

def Name.reader : Der.Reader Name :=
  Der.within Der.sequenceTag <| Der.many do
    let attributes ← Der.within Der.setTag (Der.many Attribute.reader)
    match NamePart.ofList? attributes with
    | some part => pure part
    | none => failure

-- ======================================================= extensions

/-- One extension, with its value still encoded. -/
structure Extension where
  oid : Oid
  critical : Bool
  value : Bytes
  deriving DecidableEq, Repr

namespace Extension

def encode (e : Extension) : Bytes :=
  Der.sequence
    [e.oid.encode, if e.critical then Der.encode Der.boolTag [0xFF] else [],
      Der.encode Der.octetStringTag e.value]

/-- Read the flag that an extension is critical, if it is there. -/
def flag : Der.Reader Bool := do
  match ← get with
  | tag :: _ =>
    if tag = Der.boolTag then
      match ← Der.tagged Der.boolTag with
      | [0x00] => pure false
      | [0xFF] => pure true
      | _ => failure
    else pure false
  | [] => pure false

def reader : Der.Reader Extension :=
  Der.within Der.sequenceTag do
    let oid ← Der.oid
    let critical ← flag
    let value ← Der.tagged Der.octetStringTag
    pure ⟨oid, critical, value⟩

end Extension

-- ============================================================= body

/-- The version of a certificate. -/
inductive CertificateVersion where
  | v1
  | v2
  | v3
  deriving DecidableEq, Repr

/-- The number that stands for a version. -/
def CertificateVersion.number : CertificateVersion → Nat
  | .v1 => 0
  | .v2 => 1
  | .v3 => 2

/-- Read a version number. -/
def CertificateVersion.reader : Der.Reader CertificateVersion := do
  match ← Der.unsigned with
  | 0 => pure .v1
  | 1 => pure .v2
  | 2 => pure .v3
  | _ => failure

/-- From when until when a certificate is valid. -/
structure Validity where
  notBefore : Der.Time
  notAfter : Der.Time
  deriving DecidableEq, Repr

def Validity.encode (v : Validity) : Bytes := Der.sequence [v.notBefore.encode, v.notAfter.encode]

def Validity.reader : Der.Reader Validity :=
  Der.within Der.sequenceTag do
    let notBefore ← Der.time
    let notAfter ← Der.time
    pure ⟨notBefore, notAfter⟩

/-- The part of a certificate that is signed. The serial number is kept
as the content of its integer. -/
structure CertificateBody where
  version : CertificateVersion
  serial : Bytes
  algorithm : AlgorithmIdentifier
  issuer : Name
  validity : Validity
  subject : Name
  subjectKey : SubjectKey
  issuerId : Option BitString
  subjectId : Option BitString
  extensions : Option (List Extension)
  deriving DecidableEq, Repr

/-- The longest serial number that is read. -/
def maxSerialLength : Nat := 21

namespace CertificateBody

/-- A unique id under its implicit tag. -/
def encodeId (number : Nat) (id : Option BitString) : Bytes :=
  match id with
  | none => []
  | some bits => Der.encode (Der.implicitTag number) bits.content

def encode (b : CertificateBody) : Bytes :=
  Der.sequence
    [if b.version = .v1 then []
      else Der.encode (Der.explicitTag 0) (Der.encodeUnsigned b.version.number),
      Der.encode Der.integerTag b.serial,
      b.algorithm.encode,
      b.issuer.encode,
      b.validity.encode,
      b.subject.encode,
      b.subjectKey.encode,
      encodeId 1 b.issuerId,
      encodeId 2 b.subjectId,
      match b.extensions with
      | none => []
      | some extensions =>
        Der.encode (Der.explicitTag 3) (Der.sequence (extensions.map Extension.encode))]

def reader : Der.Reader CertificateBody :=
  Der.within Der.sequenceTag do
    let version ← Der.explicit? 0 CertificateVersion.reader
    let serial ← Der.tagged Der.integerTag
    if !Der.isShortestInteger serial || maxSerialLength < serial.length then failure
    let algorithm ← AlgorithmIdentifier.reader
    let issuer ← Name.reader
    let validity ← Validity.reader
    let subject ← Name.reader
    let subjectKey ← SubjectKey.reader
    let issuerId ← Der.implicitBits? 1
    let subjectId ← Der.implicitBits? 2
    let extensions ← Der.explicit? 3 (Der.within Der.sequenceTag (Der.many Extension.reader))
    pure
      { version := version.getD .v1, serial, algorithm, issuer, validity, subject, subjectKey,
        issuerId, subjectId, extensions }

end CertificateBody

-- ===================================================== certificates

/-- A certificate. -/
structure Certificate where
  body : CertificateBody
  algorithm : AlgorithmIdentifier
  signature : BitString
  deriving DecidableEq, Repr

namespace Certificate

def encode (c : Certificate) : Bytes :=
  Der.sequence [c.body.encode, c.algorithm.encode, c.signature.encode]

/-- Read a certificate from all of the given bytes. -/
def decode? (bytes : Bytes) : Option Certificate :=
  Der.whole (Der.within Der.sequenceTag do
    let body ← CertificateBody.reader
    let algorithm ← AlgorithmIdentifier.reader
    let signature ← Der.bitString
    pure ⟨body, algorithm, signature⟩) bytes

/-- The public key of the subject. -/
def publicKey (c : Certificate) : Except Failure PublicKey :=
  c.body.subjectKey.publicKey.mapError Failure.malformedCertificate

end Certificate

end RouterSeed

/-
The su3 container: a fixed header of 40 bytes, then version, signer id,
content and signature.

    0   6  magic              16  8  content length
    7   1  format             25  1  file type
    8   2  signature type     27  1  content type
    10  2  signature length   40  .. version, signer id, content,
    13  1  version length            signature
    15  1  signer id length

Bytes not listed are unused and written as zero; numbers are big-endian.
The version is padded with zero bytes to at least 16 when it is written,
and never cut.

Everything before the signature is signed, the header with the length of
the signature included; `body` is that part.
-/
import RouterSeed.Failure
import RouterSeed.Su3.Codes
import RouterSeed.Su3.Lengths
import RouterSeed.Text.Utf8

namespace RouterSeed.Su3

/-- The contents of a container. -/
structure File where
  format : UInt8
  signatureType : SignatureType
  fileType : FileType
  contentType : ContentType
  version : Bytes
  signerId : Bytes
  content : Bytes
  signature : Bytes
  deriving DecidableEq, Repr

/-- The size of the header. -/
def headerSize : Nat := 40

/-- The first bytes of every container. -/
def magic : Bytes := [0x49, 0x32, 0x50, 0x73, 0x75, 0x33]

/-- The shortest version that is written. -/
def minVersionLength : Nat := 16

namespace File

/-- An empty container stamped with a version, announcing the signature
type that new containers have. -/
def empty (version : Bytes) : File where
  format := 0
  signatureType := .rsaSha512
  fileType := .zip
  contentType := .unspecified
  version
  signerId := []
  content := []
  signature := []

/-- The container with its version as it will be written. -/
def padVersion (f : File) : File := { f with version := f.version.padTo minVersionLength }

-- ========================================================== writing

/-- The length of the version as it will be written. -/
def versionLength (f : File) : Nat := max f.version.length minVersionLength

/-- The variable lengths fit the header fields that announce them. -/
def Fits (f : File) : Prop :=
  f.versionLength ≤ 255 ∧ f.signerId.length ≤ 255 ∧ f.signature.length ≤ 65535

instance (f : File) : Decidable f.Fits := by unfold Fits; infer_instance

/-- The header, with every length taken modulo the width of its field. -/
def header (f : File) : Bytes :=
  magic
    ++ [0, f.format]
    ++ Bytes.ofNat 2 f.signatureType.code.toNat
    ++ Bytes.ofNat 2 f.signature.length
    ++ [0, UInt8.ofNat f.versionLength, 0, UInt8.ofNat f.signerId.length]
    ++ Bytes.ofNat 8 f.content.length
    ++ [0, f.fileType.code, 0, f.contentType.code]
    ++ List.replicate 12 0

/-- Everything the signature covers. -/
def body (f : File) : Except Failure Bytes :=
  if f.Fits then
    .ok (f.header ++ f.version.padTo minVersionLength ++ f.signerId ++ f.content)
  else .error .fieldTooLong

/-- The whole container. -/
def encode (f : File) : Except Failure Bytes := do
  let body ← f.body
  .ok (body ++ f.signature)

-- ========================================================== reading

/-- The header byte at a position. -/
def byteAt (data : Bytes) (position : Nat) : UInt8 := data.getD position 0

/-- The number in a header field. -/
def field (data : Bytes) (position width : Nat) : Nat :=
  Bytes.toNat (Bytes.slice position width data)

/-- The lengths of the four variable fields that a header declares. -/
def declaredLengths (data : Bytes) : Lengths where
  version := .ofNat (field data 13 1)
  signerId := .ofNat (field data 15 1)
  content := .ofNat (field data 16 8)
  signature := .ofNat (field data 10 2)

/-- Read a container. Lengths and sizes are 64 bit numbers, and a sum of
lengths beyond that is refused before it is compared with anything. -/
def decode (data : Bytes) : Except Failure File :=
  if data.length < headerSize then
    .error (.malformedContainer (.shorterThanHeader data.length))
  else if data.take 6 ≠ magic then .error (.malformedContainer .wrongMagic)
  else
    let lengths := declaredLengths data
    let remaining := UInt64.ofNat (data.length - headerSize)
    match lengths.total? with
    | none => .error (.malformedContainer .lengthsOverflow)
    | some declared =>
      if remaining < declared then
        .error (.malformedContainer (.fieldsMissing declared.toNat remaining.toNat))
      else if declared < remaining then
        .error (.malformedContainer (.trailing (remaining - declared).toNat))
      else
        match lengths.cut? (data.drop headerSize) with
        -- lengths that add up to what remains never ask for more
        | none => .error (.malformedContainer (.fieldsMissing declared.toNat remaining.toNat))
        | some (version, signerId, content, signature) =>
          .ok
            { format := byteAt data 7
              signatureType := .ofCode (UInt16.ofNat (field data 8 2))
              fileType := .ofCode (byteAt data 25)
              contentType := .ofCode (byteAt data 27)
              version
              signerId
              content
              signature }

-- ========================================================== showing

/-- The signer id as text. -/
def signerText (f : File) : String := Text.decodeLossy f.signerId

/-- The version without its padding, as text. -/
def versionText (f : File) : String :=
  Text.decodeLossy (f.version.reverse.dropWhile (· = 0)).reverse

/-- The line above and below the header dump. -/
def rule : String := "---------------------------"

/-- The header dump: one line for each field that people ask about. -/
def display (f : File) : String :=
  "\n".intercalate
    [rule,
      "Format: " ++ toString f.format.toNat,
      "SignatureType: " ++ f.signatureType.display,
      "FileType: " ++ f.fileType.display,
      "ContentType: " ++ f.contentType.display,
      "Version: " ++ f.versionText,
      "SignerId: " ++ f.signerText,
      rule]

end File

end RouterSeed.Su3

/-
What can go wrong, and how it is told.

A failure is a cause with the data it speaks of; `Failure.message` is
the one place that puts it into words. A caller tells causes apart by
their constructor and never by their text.

None of them is fatal to a running service: a container that does not
decode or verify is reported to the caller, and a failed rebuild leaves
the served bundles as they were.
-/
import RouterSeed.Der.Oid

namespace RouterSeed

open Der (Oid)

-- ======================================================= containers

/-- Why bytes are no su3 container. -/
inductive ContainerFault where
  | shorterThanHeader (size : Nat)
  | wrongMagic
  | lengthsOverflow
  | fieldsMissing (declared remaining : Nat)
  | trailing (count : Nat)
  deriving DecidableEq, Repr

def ContainerFault.message : ContainerFault → String
  | .shorterThanHeader size => toString size ++ " bytes is shorter than the 40 byte header"
  | .wrongMagic => "magic bytes mismatch"
  | .lengthsOverflow => "declared lengths overflow"
  | .fieldsMissing declared remaining =>
    "declared fields need " ++ toString declared ++ " bytes, only " ++ toString remaining
      ++ " remain"
  | .trailing count => toString count ++ " trailing bytes after the signature"

-- ========================================================== signing

/-- Why nothing could be signed with a key. -/
inductive SigningFault where
  | lengthNotSettled
  | keyTooSmall
  | keyInconsistent
  | noSignature
  | noKey
  | unwritableKey
  | dateOutOfRange
  | certificateTooLong
  deriving DecidableEq, Repr

def SigningFault.message : SigningFault → String
  | .lengthNotSettled => "signature length did not settle"
  | .keyTooSmall => "the modulus is too small for the digest"
  | .keyInconsistent => "the private key does not belong to the public key"
  | .noSignature => "the random number gives no signature"
  | .noKey => "no key of that size can be generated"
  | .unwritableKey => "the key has no written form"
  | .dateOutOfRange => "the validity ends after the year 9999"
  | .certificateTooLong => "the certificate is too long to be signed"

-- ===================================================== certificates

/-- Why a text holds no PEM block. -/
inductive PemFault where
  | noBlock
  | badTag
  | mismatchedTags
  | notText
  | badHeader
  | badBase64
  deriving DecidableEq, Repr

def PemFault.message : PemFault → String
  | .noBlock => "no PEM block"
  | .badTag => "a PEM block without a tag"
  | .mismatchedTags => "a PEM block ends with another tag than it begins with"
  | .notText => "a PEM block that is not UTF-8 text"
  | .badHeader => "a PEM header without a colon"
  | .badBase64 => "a PEM block that is not base64"

/-- Why there is no certificate or no key in what was read. -/
inductive CertificateFault where
  | notDer
  | notPem (fault : PemFault)
  | notPemAt (path : String) (fault : PemFault)
  | unexpectedBlock (tag : String)
  | unalignedKey
  | invalidRsaKey
  | invalidDsaKey
  | missingCurve
  | invalidPoint
  | unsupportedCurve (curve : Oid)
  | unsupportedKeyAlgorithm (algorithm : Oid)
  | invalidPrivateKey
  | unsupportedPrivateKey
  | tooLong
  deriving DecidableEq, Repr

def CertificateFault.message : CertificateFault → String
  | .notDer => "not the encoding of a certificate"
  | .notPem fault => fault.message
  | .notPemAt path fault => path ++ ": " ++ fault.message
  | .unexpectedBlock tag => "unexpected PEM block " ++ tag
  | .unalignedKey => "public key bit string is not byte aligned"
  | .invalidRsaKey => "invalid RSA public key"
  | .invalidDsaKey => "invalid DSA public key"
  | .missingCurve => "missing named curve"
  | .invalidPoint => "invalid curve point"
  | .unsupportedCurve curve => "unsupported curve " ++ curve.text
  | .unsupportedKeyAlgorithm algorithm => "unsupported public key algorithm " ++ algorithm.text
  | .invalidPrivateKey => "invalid private key: not an RSA private key"
  | .unsupportedPrivateKey => "invalid private key: unsupported PKCS#8 key"
  | .tooLong => "the certificate is too long to be written"

-- ========================================================= archives

/-- Why bytes are no zip archive. -/
inductive ArchiveFault where
  | noDirectory
  | badDirectory
  | badEntry
  | unsupported
  | encrypted
  | badData
  | badChecksum
  deriving DecidableEq, Repr

def ArchiveFault.message : ArchiveFault → String
  | .noDirectory => "no central directory"
  | .badDirectory => "a damaged central directory"
  | .badEntry => "a damaged entry header"
  | .unsupported => "an unsupported kind of archive or entry"
  | .encrypted => "an encrypted entry"
  | .badData => "damaged compressed data"
  | .badChecksum => "an entry with a wrong checksum"

-- ============================================================ files

/-- What the file system answers instead of doing what it was asked, and
the writer of an archive that has no room for an entry. -/
inductive IoFault where
  | notFound
  | permissionDenied
  | notADirectory
  | isADirectory
  | alreadyExists
  | nameTooLong
  | tooManyLinks
  | nulInPath
  | notText
  | rootless
  | oversizedEntry
  deriving DecidableEq, Repr

def IoFault.message : IoFault → String
  | .notFound => "No such file or directory (os error 2)"
  | .permissionDenied => "Permission denied (os error 13)"
  | .alreadyExists => "File exists (os error 17)"
  | .notADirectory => "Not a directory (os error 20)"
  | .isADirectory => "Is a directory (os error 21)"
  | .nameTooLong => "File name too long (os error 36)"
  | .tooManyLinks => "Too many levels of symbolic links (os error 40)"
  | .nulInPath => "file name contained an unexpected NUL byte"
  | .notText => "stream did not contain valid UTF-8"
  | .rootless => "failed to create whole tree"
  | .oversizedEntry => "Large file option has not been set"

-- ==================================================== configuration

/-- Why a text is no configuration, or a configuration has no text. -/
inductive TomlFault where
  | malformed
  | wrongType (key : String)
  | outOfRange (key : String)
  deriving DecidableEq, Repr

def TomlFault.message : TomlFault → String
  | .malformed => "TOML parse error"
  | .wrongType key => "TOML value of another type than " ++ key ++ " has"
  | .outOfRange key => "TOML value out of range for " ++ key

-- ========================================================= rebuilds

/-- Why a rebuild gave no new bundles. -/
inductive RebuildFault where
  | alreadyRunning
  | unreadableNetDb (path : String) (fault : IoFault)
  | emptyGeneration
  | badBundle (message : String)
  deriving DecidableEq, Repr

def RebuildFault.message : RebuildFault → String
  | .alreadyRunning => "another rebuild is running"
  | .unreadableNetDb path fault => "reading netDb " ++ path ++ ": " ++ fault.message
  | .emptyGeneration => "refusing to install an empty generation"
  | .badBundle message => message

-- ========================================================= failures

/-- Everything that can go wrong. -/
inductive Failure where
  | malformedContainer (fault : ContainerFault)
  | fieldTooLong
  | unsupportedAlgorithm (code : UInt16)
  | invalidSignature
  | malformedSignature
  | keyTypeMismatch
  | signingFailed (fault : SigningFault)
  | certificateNotFound (path : String)
  | malformedCertificate (fault : CertificateFault)
  | missingSigningKey
  | malformedArchive (fault : ArchiveFault)
  | cacheNotReady
  | rebuildFailed (fault : RebuildFault)
  | rebuildCancelled
  | io (fault : IoFault)
  | toml (fault : TomlFault)
  deriving DecidableEq, Repr

namespace Failure

/-- The failure in words. -/
def message : Failure → String
  | .malformedContainer fault => "Malformed su3 container: " ++ fault.message
  | .fieldTooLong => "su3 field does not fit its header length field"
  | .unsupportedAlgorithm code => "Unsupported signature type " ++ toString code.toNat
  | .invalidSignature => "Signature does not match the signed content"
  | .malformedSignature => "Signature is not a valid DER encoded (r, s) pair"
  | .keyTypeMismatch => "Key type does not match the signature type"
  | .signingFailed fault => "Signing failed: " ++ fault.message
  | .certificateNotFound path => "Certificate not found at " ++ path
  | .malformedCertificate fault => "Malformed certificate: " ++ fault.message
  | .missingSigningKey => "No signing key available"
  | .malformedArchive fault => "Malformed zip archive: " ++ fault.message
  | .cacheNotReady => "Bundle cache is not ready"
  | .rebuildFailed fault => "Rebuild failed: " ++ fault.message
  | .rebuildCancelled => "Rebuild cancelled"
  | .io fault => fault.message
  | .toml fault => fault.message

end Failure

-- ======================================================= sequencing

section

variable {α β : Type} {first : Except Failure α} {next : α → Except Failure β}

/-- Two steps one after the other succeed if both do. -/
theorem bind_eq_ok_iff {b : β} :
    (first >>= next) = .ok b ↔ ∃ a, first = .ok a ∧ next a = .ok b := by
  cases first with
  | error failure =>
    constructor
    · intro h
      cases h
    · rintro ⟨a, h, -⟩
      cases h
  | ok a =>
    constructor
    · intro h
      exact ⟨a, rfl, h⟩
    · rintro ⟨_, hsame, h⟩
      cases hsame
      exact h

/-- They fail with the failure of the one that fails first. -/
theorem bind_eq_error_iff {failure : Failure} :
    (first >>= next) = .error failure
      ↔ first = .error failure ∨ ∃ a, first = .ok a ∧ next a = .error failure := by
  cases first with
  | error other =>
    constructor
    · intro h
      cases h
      exact .inl rfl
    · rintro (h | ⟨a, h, -⟩)
      · cases h
        rfl
      · cases h
  | ok a =>
    constructor
    · intro h
      exact .inr ⟨a, rfl, h⟩
    · rintro (h | ⟨_, hsame, h⟩)
      · cases h
      · cases hsame
        exact h

end

end RouterSeed

/-
Certificates in PEM: the form in which keystores and key files hold them.

The block of a certificate has one tag; a block of another tag is
refused by that tag, whatever it contains.
-/
import RouterSeed.Certificate.Basic
import RouterSeed.Pem.Block

namespace RouterSeed.Certificate

/-- The tag of a certificate's block. -/
def pemTag : String := "CERTIFICATE"

/-- The certificate that a block holds. -/
def ofBlock (block : Pem.Block) : Except Failure Certificate :=
  if block.tag ≠ pemTag then .error (.malformedCertificate (.unexpectedBlock block.tag))
  else
    match decode? block.contents with
    | some certificate => .ok certificate
    | none => .error (.malformedCertificate .notDer)

/-- The block that holds a certificate. -/
def toBlock (c : Certificate) : Pem.Block := ⟨pemTag, c.encode⟩

/-- A certificate as a PEM text. -/
def toPem (c : Certificate) : Bytes := Pem.encode c.toBlock

end RouterSeed.Certificate

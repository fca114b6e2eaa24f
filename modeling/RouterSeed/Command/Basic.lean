/-
What an operator can ask for.

    keygen   a new key and its certificate
    verify   check a container against a directory of certificates
    build    one generation of bundles, as files
    run      keep a cache of bundles fresh until stopped
-/
import RouterSeed.Config
import RouterSeed.Identity.Keystore

namespace RouterSeed

/-- A command with everything that it needs to know. -/
inductive Command where
  | keygen (signer out : String) (bits : Nat)
  | verify (file : String) (signer : Option String) (keystore purpose : String)
      (extract : Option String)
  | build (config out : String)
  | run (config : String)
  deriving DecidableEq, Repr

namespace Command

/-- The size of a key if none is chosen. -/
def defaultBits : Nat := 4096

/-- Where keys go if no place is chosen. -/
def defaultKeyDirectory : String := "."

/-- Where bundles go if no place is chosen. -/
def defaultBundleDirectory : String := "su3"

/-- Where certificates are looked up if no place is chosen. -/
def defaultKeystore : String := "certificates"

end Command

end RouterSeed

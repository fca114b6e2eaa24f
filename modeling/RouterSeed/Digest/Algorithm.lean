/-
The digests that signatures are made over, by name, with the object
identifiers that name them inside an RSA signature.
-/
import RouterSeed.Der.Oid
import RouterSeed.Digest.Sha1

namespace RouterSeed.Digest

/-- A digest algorithm. -/
inductive Algorithm where
  | sha1
  | sha256
  | sha384
  | sha512
  deriving DecidableEq, Repr

namespace Algorithm

/-- The digest of a message. -/
def digest : Algorithm → Bytes → Bytes
  | .sha1 => Digest.sha1
  | .sha256 => Digest.sha256
  | .sha384 => Digest.sha384
  | .sha512 => Digest.sha512

/-- The identifier of the algorithm. -/
def oid : Algorithm → Der.Oid
  | .sha1 => Der.Oid.ofArcs [1, 3, 14, 3, 2, 26]
  | .sha256 => Der.Oid.ofArcs [2, 16, 840, 1, 101, 3, 4, 2, 1]
  | .sha384 => Der.Oid.ofArcs [2, 16, 840, 1, 101, 3, 4, 2, 2]
  | .sha512 => Der.Oid.ofArcs [2, 16, 840, 1, 101, 3, 4, 2, 3]

end Algorithm

end RouterSeed.Digest

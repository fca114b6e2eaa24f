/-
Writing the deflate format in stored blocks.

Descriptors are keys and signatures for the most part and do not get
smaller, so they are stored as they are: five bytes of overhead for
every 65535 bytes of data. `inflate?` reads them back.
-/
import RouterSeed.Deflate.Inflate

namespace RouterSeed.Deflate

/-- The most bytes that fit into one stored block. -/
def maxStored : Nat := 65535

/-- One stored block. -/
def storedBlock (last : Bool) (data : Bytes) : Bytes :=
  (if last then 1 else 0) :: Bytes.ofNatLE 2 data.length
    ++ Bytes.ofNatLE 2 (65535 - data.length) ++ data

/-- The compressed form of a byte string; the empty one is an empty block. -/
def deflate (data : Bytes) : Bytes :=
  if data.length ≤ maxStored then storedBlock true data
  else storedBlock false (data.take maxStored) ++ deflate (data.drop maxStored)
termination_by data.length
decreasing_by simp only [List.length_drop, maxStored] at *; omega

end RouterSeed.Deflate

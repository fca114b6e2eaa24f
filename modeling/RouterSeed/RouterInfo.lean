/-
Router descriptors: what a bundle carries and a netDb holds, one file
for each known router.
-/
import RouterSeed.Bytes
import RouterSeed.Calendar

namespace RouterSeed

/-- A router descriptor: its file name, when the file was last changed,
and its contents. -/
structure RouterInfo where
  name : String
  modified : Instant
  data : Bytes
  deriving DecidableEq, Repr

end RouterSeed

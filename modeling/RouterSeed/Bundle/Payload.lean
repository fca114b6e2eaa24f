/-
The payload of a bundle: a random sample of descriptors in a zip archive.

A sample is made by drawing positions one after the other from those
that are left, so that no position comes twice and a sample as large as
the whole is a rearrangement of it. Every draw is a number from outside.

Names and contents survive the archive; times come back rounded as zip
archives keep them.
-/
import RouterSeed.RouterInfo
import RouterSeed.Zip.Reader
import RouterSeed.Zip.Writer

namespace RouterSeed

-- ========================================================= archives

/-- The archive entry of a descriptor. -/
def RouterInfo.toEntry (r : RouterInfo) : Zip.Entry := ⟨r.name, .ofInstant r.modified, r.data⟩

/-- The descriptor in an archive entry. -/
def RouterInfo.ofEntry (e : Zip.Entry) : RouterInfo := ⟨e.name, e.modified.toInstant, e.data⟩

/-- The archive of the given descriptors, compressed with the given
compressor. -/
def zipSeedsWith (compress : Bytes → Bytes) (infos : List RouterInfo) : Except Failure Bytes :=
  Zip.writeWith compress (infos.map RouterInfo.toEntry)

/-- The archive of the given descriptors. -/
def zipSeeds (infos : List RouterInfo) : Except Failure Bytes :=
  zipSeedsWith Deflate.deflate infos

/-- The descriptors in an archive. -/
def unzipSeeds (archive : Bytes) : Except Failure (List RouterInfo) :=
  match Zip.read archive with
  | .ok entries => .ok (entries.map RouterInfo.ofEntry)
  | .error fault => .error (.malformedArchive fault)

-- ========================================================= sampling

/-- Draw up to `count` elements, each from those that are left. -/
def drawSample {α : Type} (draws : Nat → Nat) : (count : Nat) → (left : Array α) → List α
  | 0, _ => []
  | count + 1, left =>
    if h : 0 < left.size then
      let i := draws count % left.size
      have : i < left.size := Nat.mod_lt _ h
      let drawn := left[i]
      drawn :: drawSample draws count ((left.swap i (left.size - 1)).pop)
    else []

/-- A sample of up to `size` descriptors at different positions. -/
def sampleSeeds (infos : List RouterInfo) (size : Nat) (draws : Nat → Nat) : List RouterInfo :=
  drawSample draws (min size infos.length) infos.toArray

/-- The archive of a sample. -/
def buildPayload (infos : List RouterInfo) (size : Nat) (draws : Nat → Nat) :
    Except Failure Bytes :=
  zipSeeds (sampleSeeds infos size draws)

end RouterSeed

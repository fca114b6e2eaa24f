/-
The lengths that an su3 header declares for its four variable fields.

They come from whoever wrote the header, and the length of the content
may be any 64 bit number. So they are added with a check at every step,
and the fields are cut one after the other with a check at every cut.
Both checks are exact: `total?` is the sum without bound whenever that
fits 64 bits, and `cut?` succeeds as soon as the sum is there to be cut.
-/
import RouterSeed.Bytes

namespace RouterSeed.Su3

-- ============================================================= sums

/-- The sum of two 64 bit numbers, if it fits 64 bits; one that does not
comes out below its parts. -/
def sumOf? (a b : UInt64) : Option UInt64 :=
  let sum := a + b
  if sum < a then none else some sum

theorem sumOf?_eq_some_iff {a b n : UInt64} :
    sumOf? a b = some n ↔ a.toNat + b.toNat = n.toNat := by
  have ha := a.toNat_lt
  have hb := b.toNat_lt
  have hn := n.toNat_lt
  have hsum : (a + b).toNat = (a.toNat + b.toNat) % 2 ^ 64 := UInt64.toNat_add a b
  unfold sumOf?
  simp only [UInt64.lt_iff_toNat_lt, Option.ite_none_left_eq_some, Option.some.injEq,
    ← UInt64.toNat_inj, hsum]
  omega

-- ========================================================== lengths

/-- The lengths of the four variable fields. -/
structure Lengths where
  version : UInt64
  signerId : UInt64
  content : UInt64
  signature : UInt64
  deriving DecidableEq, Repr

namespace Lengths

/-- All lengths together, if they fit 64 bits. -/
def total? (l : Lengths) : Option UInt64 := do
  let total ← sumOf? l.version l.signerId
  let total ← sumOf? total l.content
  sumOf? total l.signature

/-- All lengths together, without bound. -/
def total (l : Lengths) : Nat :=
  l.version.toNat + l.signerId.toNat + l.content.toNat + l.signature.toNat

/-- A sum that wraps round on the way is never taken for a small one. -/
theorem total?_eq_some_iff {l : Lengths} {n : UInt64} :
    l.total? = some n ↔ l.total = n.toNat := by
  have hn := n.toNat_lt
  unfold total? total
  simp only [Option.bind_eq_bind, Option.bind_eq_some_iff, sumOf?_eq_some_iff]
  constructor
  · rintro ⟨two, htwo, three, hthree, hfour⟩
    omega
  · intro h
    refine ⟨.ofNat (l.version.toNat + l.signerId.toNat), ?_,
      .ofNat (l.version.toNat + l.signerId.toNat + l.content.toNat), ?_, ?_⟩
    all_goals
      simp only [UInt64.toNat_ofNat']
      omega

-- ============================================================= cuts

/-- Cut version, signer id, content and signature out of what follows the
header, each from where the one before it ends. -/
def cut? (l : Lengths) (data : Bytes) : Option (Bytes × Bytes × Bytes × Bytes) := do
  let (version, data) ← Bytes.split? l.version.toNat data
  let (signerId, data) ← Bytes.split? l.signerId.toNat data
  let (content, data) ← Bytes.split? l.content.toNat data
  let (signature, _) ← Bytes.split? l.signature.toNat data
  some (version, signerId, content, signature)

/-- No cut runs over the end of data that is as long as all lengths
together. -/
theorem cut?_of_total_le {l : Lengths} {data : Bytes} (h : l.total ≤ data.length) :
    l.cut? data = some
      (data.take l.version.toNat,
        (data.drop l.version.toNat).take l.signerId.toNat,
        (data.drop (l.version.toNat + l.signerId.toNat)).take l.content.toNat,
        (data.drop (l.version.toNat + l.signerId.toNat + l.content.toNat)).take
          l.signature.toNat) := by
  unfold total at h
  unfold cut?
  rw [Bytes.split?_of_le (by omega)]
  simp only [Option.bind_eq_bind, Option.bind_some]
  rw [Bytes.split?_of_le (by rw [List.length_drop]; omega)]
  simp only [Option.bind_some, List.drop_drop]
  rw [Bytes.split?_of_le (by rw [List.length_drop]; omega)]
  simp only [Option.bind_some, List.drop_drop]
  rw [Bytes.split?_of_le (by rw [List.length_drop]; omega)]
  rfl

end Lengths

end RouterSeed.Su3

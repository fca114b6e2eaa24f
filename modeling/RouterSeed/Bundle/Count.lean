/-
How many bundles a generation has when the operator does not say: the
more descriptors there are, the more different samples are worth making.
-/

namespace RouterSeed

/-- Bundle counts with the number of descriptors they need more than, the
largest first. -/
def bundleCountTiers : List (Nat × Nat) := [(4000, 300), (3000, 200), (2000, 100), (1000, 75)]

/-- The bundle count below all tiers. -/
def fewestBundles : Nat := 50

/-- The bundle count for a number of descriptors. -/
def autoBundleCount (descriptors : Nat) : Nat :=
  match bundleCountTiers.find? fun tier => tier.1 < descriptors with
  | some tier => tier.2
  | none => fewestBundles

theorem autoBundleCount_pos (descriptors : Nat) : 0 < autoBundleCount descriptors := by
  unfold autoBundleCount
  split
  · rename_i tier found
    have := List.mem_of_find?_eq_some found
    simp only [bundleCountTiers, List.mem_cons, List.not_mem_nil, or_false] at this
    rcases this with rfl | rfl | rfl | rfl <;> decide
  · decide

end RouterSeed

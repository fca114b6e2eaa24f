/-
What a sample is made of.

A draw takes one element and leaves all others (`perm_drawn`), so what
is drawn and what is left are the whole, rearranged
(`drawSample_perm`). And drawing does not look at what it draws
(`drawSample_map`), so a sample of descriptors is a sample of their
positions: as many as asked for or as there are, no position twice
(`sampleSeeds_positions`).

Two descriptors may be equal, so that no position comes twice cannot be
said of the descriptors themselves.

Consumed by Signed, for the contents of a bundle.
-/
import RouterSeed.Bundle.Payload

namespace RouterSeed

variable {α β : Type}

-- ============================================================ one draw

/-- The element that is drawn and the ones that are left are all that
were there. -/
theorem perm_drawn {left : Array α} {i : Nat} (h : i < left.size) :
    (left[i] :: (left.swap i (left.size - 1)).pop.toList).Perm left.toList := by
  have hlast : left.size - 1 < left.size := by omega
  have hswap : (left.swap i (left.size - 1)).toList.Perm left.toList :=
    Array.perm_iff_toList_perm.mp (Array.swap_perm h hlast)
  -- the drawn element went to the end, where it is taken off
  have hnonempty : (left.swap i (left.size - 1)).size ≠ 0 := by
    rw [Array.size_swap]
    omega
  obtain ⟨kept, last, hkept⟩ := Array.eq_push_of_size_ne_zero hnonempty
  have hsize : kept.size = left.size - 1 := by
    have := congrArg Array.size hkept
    rw [Array.size_swap, Array.size_push] at this
    omega
  have hdrawn : last = left[i] := by
    have hat : (left.swap i (left.size - 1))[left.size - 1]? = some left[i] := by
      rw [Array.getElem?_eq_getElem (by rwa [Array.size_swap]), Array.getElem_swap_right]
    rw [hkept, ← hsize, Array.getElem?_push_size] at hat
    exact Option.some.inj hat
  rw [hkept, Array.pop_push, ← hdrawn]
  rw [hkept, Array.toList_push] at hswap
  exact (List.perm_append_singleton last kept.toList).symm.trans hswap

/-- A swap does not look at what it swaps. -/
private theorem swap_map (f : α → β) (left : Array α) {i j : Nat} (hi : i < left.size)
    (hj : j < left.size) :
    (left.map f).swap i j (by rwa [Array.size_map]) (by rwa [Array.size_map])
      = (left.swap i j).map f := by
  apply Array.ext
  · simp only [Array.size_swap, Array.size_map]
  · intro k _ _
    simp only [Array.getElem_swap, Array.getElem_map]
    split
    · rfl
    split
    · rfl
    · rfl

-- ============================================================ samples

/-- A sample with what is left of the whole is the whole. -/
theorem drawSample_perm (draws : Nat → Nat) (count : Nat) (left : Array α) :
    ∃ rest, (drawSample draws count left ++ rest).Perm left.toList := by
  induction count generalizing left with
  | zero => exact ⟨left.toList, List.Perm.refl _⟩
  | succ count ih =>
    rw [drawSample]
    split
    next h =>
      have hdraw : draws count % left.size < left.size := Nat.mod_lt _ h
      obtain ⟨rest, hrest⟩ := ih (left.swap (draws count % left.size) (left.size - 1)).pop
      exact ⟨rest, (hrest.cons _).trans (perm_drawn hdraw)⟩
    next => exact ⟨left.toList, List.Perm.refl _⟩

/-- A sample is as large as asked for, or the whole. -/
theorem length_drawSample (draws : Nat → Nat) (count : Nat) (left : Array α) :
    (drawSample draws count left).length = min count left.size := by
  induction count generalizing left with
  | zero => rw [drawSample, List.length_nil, Nat.zero_min]
  | succ count ih =>
    rw [drawSample]
    split
    next h =>
      simp only [List.length_cons, ih, Array.size_pop, Array.size_swap]
      omega
    next h =>
      rw [List.length_nil]
      omega

/-- A sample is drawn the same way whatever the elements are. -/
theorem drawSample_map (f : α → β) (draws : Nat → Nat) (count : Nat) (left : Array α) :
    drawSample draws count (left.map f) = (drawSample draws count left).map f := by
  induction count generalizing left with
  | zero => rfl
  | succ count ih =>
    rw [drawSample, drawSample]
    simp only [Array.size_map]
    split
    next h =>
      have hdraw : draws count % left.size < left.size := Nat.mod_lt _ h
      have hlast : left.size - 1 < left.size := by omega
      rw [List.map_cons, ← ih, Array.map_pop, ← swap_map f left hdraw hlast, Array.getElem_map]
    next => rfl

-- =========================================================== positions

/-- A list as what stands at its positions. -/
private theorem map_finRange_toArray (infos : List α) :
    (List.finRange infos.length).toArray.map infos.get = infos.toArray := by
  rw [List.map_toArray]
  congr 1
  apply List.ext_getElem
  · rw [List.length_map, List.length_finRange]
  · intro i _ _
    simp only [List.getElem_map, List.getElem_finRange, List.get_eq_getElem, Fin.val_cast]

/-- A sample of descriptors is what stands at different positions, as
many of them as asked for or as there are. -/
theorem sampleSeeds_positions (infos : List RouterInfo) (size : Nat) (draws : Nat → Nat) :
    ∃ positions : List (Fin infos.length), positions.Nodup
      ∧ positions.length = min size infos.length
      ∧ sampleSeeds infos size draws = positions.map infos.get := by
  let whole := (List.finRange infos.length).toArray
  refine ⟨drawSample draws (min size infos.length) whole, ?_, ?_, ?_⟩
  · obtain ⟨rest, hrest⟩ := drawSample_perm draws (min size infos.length) whole
    have hall : (drawSample draws (min size infos.length) whole ++ rest).Nodup :=
      hrest.nodup_iff.mpr (List.nodup_finRange infos.length)
    exact (List.nodup_append.mp hall).1
  · have hwhole : whole.size = infos.length := by
      rw [List.size_toArray, List.length_finRange]
    rw [length_drawSample, hwhole]
    omega
  · unfold sampleSeeds
    rw [← map_finRange_toArray infos, drawSample_map]

end RouterSeed

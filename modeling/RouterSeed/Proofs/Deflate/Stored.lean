/-
What was put into stored blocks is inflated again (`inflate?_deflate`).

A stored block begins on a whole byte and ends on one, so the blocks of
`deflate` are read one after the other, each from an input with no bits
left over. The fuel of `blocks?` is the number of bits of the input; a
block takes five bytes at least, so one for each byte is enough.
-/
import RouterSeed.Deflate.Stored

namespace RouterSeed.Deflate

variable {data rest : Bytes} {output : Array UInt8}

-- =========================================================== one block

/-- The first byte of a stored block says whether it is the last one, and
that it is stored. -/
private theorem next?_storedHead (last : Bool) (rest : Bytes) : ∃ b,
    Bits.next? ⟨[], (if last then 1 else 0) :: rest⟩ = some (last, b)
      ∧ b.number? 2 = some (0, ⟨List.replicate 5 false, rest⟩) := by
  cases last with
  | false => exact ⟨_, rfl, rfl⟩
  | true => exact ⟨_, rfl, rfl⟩

/-- The bits left of the byte before are skipped. -/
private theorem stored?_append (h : data.length ≤ maxStored) (current : List Bool) :
    stored? ⟨current, Bytes.ofNatLE 2 data.length ++ Bytes.ofNatLE 2 (65535 - data.length)
        ++ (data ++ rest)⟩ output
      = some (output ++ data.toArray, ⟨[], rest⟩) := by
  have hlengths : (Bytes.ofNatLE 2 data.length ++ Bytes.ofNatLE 2 (65535 - data.length)).length = 4 := by
    rw [List.length_append, Bytes.length_ofNatLE, Bytes.length_ofNatLE]
  have hlength := Bytes.toNatLE_ofNatLE 2 data.length
  have hcomplement := Bytes.toNatLE_ofNatLE 2 (65535 - data.length)
  have hfour : ¬(Bytes.ofNatLE 2 data.length ++ Bytes.ofNatLE 2 (65535 - data.length)
      ++ (data ++ rest)).length < 4 := by
    rw [List.length_append, hlengths]
    omega
  have hdata : ¬(data ++ rest).length < data.length := by
    rw [List.length_append]
    omega
  -- two bytes hold the length of a stored block, and its complement
  unfold maxStored at h
  rw [Nat.mod_eq_of_lt (by omega)] at hlength hcomplement
  unfold stored? Bits.bytes?
  dsimp only
  rw [if_neg hfour, List.take_left' hlengths, List.drop_left' hlengths, Option.bind_eq_bind,
    Option.bind_some]
  dsimp only
  rw [List.take_left' (Bytes.length_ofNatLE _ _), List.drop_left' (Bytes.length_ofNatLE _ _),
    hlength, hcomplement, if_neg (by omega), if_neg hdata, List.take_left, List.drop_left]
  rfl

/-- A stored block adds its data to the output. -/
private theorem blocks?_storedBlock (h : data.length ≤ maxStored) (last : Bool) (fuel : Nat) :
    blocks? (fuel + 1) (Bits.ofBytes (storedBlock last data ++ rest)) output
      = if last then some (output ++ data.toArray)
        else blocks? fuel (Bits.ofBytes rest) (output ++ data.toArray) := by
  obtain ⟨b, hnext, hkind⟩ := next?_storedHead last
    (Bytes.ofNatLE 2 data.length ++ Bytes.ofNatLE 2 (65535 - data.length) ++ (data ++ rest))
  have hbytes : storedBlock last data ++ rest = (if last then 1 else 0) ::
      (Bytes.ofNatLE 2 data.length ++ Bytes.ofNatLE 2 (65535 - data.length) ++ (data ++ rest)) := by
    unfold storedBlock
    simp only [List.cons_append, List.append_assoc]
  unfold Bits.ofBytes
  rw [hbytes, blocks?, hnext, Option.bind_eq_bind, Option.bind_some]
  dsimp only
  rw [hkind, Option.bind_eq_bind, Option.bind_some]
  dsimp only
  rw [stored?_append h]
  rfl

-- ============================================================= a series

/-- Five bytes come before the data of a block. -/
private theorem length_storedBlock (last : Bool) (data : Bytes) :
    (storedBlock last data).length = data.length + 5 := by
  unfold storedBlock
  simp only [List.length_cons, List.length_append, Bytes.length_ofNatLE]
  omega

/-- Block after block is read, each adding what it holds to the output. A
byte of input for each block is fuel enough. -/
theorem blocks?_deflate (data : Bytes) {fuel : Nat} (hfuel : (deflate data).length ≤ fuel)
    (output : Array UInt8) :
    blocks? fuel (Bits.ofBytes (deflate data)) output = some (output ++ data.toArray) := by
  induction data using deflate.induct generalizing fuel output with
  | case1 data hshort =>
    rw [deflate, if_pos hshort] at hfuel ⊢
    rw [length_storedBlock] at hfuel
    obtain ⟨fuel, rfl⟩ : ∃ left, fuel = left + 1 := Nat.exists_eq_add_one.mpr (by omega)
    have hblock : blocks? (fuel + 1) (Bits.ofBytes (storedBlock true data ++ [])) output
        = some (output ++ data.toArray) := blocks?_storedBlock hshort true fuel
    rwa [List.append_nil] at hblock
  | case2 data hlong ih =>
    rw [deflate, if_neg hlong] at hfuel ⊢
    rw [List.length_append, length_storedBlock] at hfuel
    obtain ⟨fuel, rfl⟩ : ∃ left, fuel = left + 1 := Nat.exists_eq_add_one.mpr (by omega)
    have htake : (data.take maxStored).length ≤ maxStored := List.length_take_le _ _
    have hwhole : (data.take maxStored).toArray ++ (data.drop maxStored).toArray = data.toArray := by
      rw [List.append_toArray, List.take_append_drop]
    rw [blocks?_storedBlock htake, ih (by omega), Array.append_assoc, hwhole]
    rfl

/-- What stands in a block: its head, the length twice, and the data. -/
theorem mem_storedBlock {last : Bool} {b : UInt8} :
    b ∈ storedBlock last data ↔ b = (if last then 1 else 0)
      ∨ b ∈ Bytes.ofNatLE 2 data.length ++ Bytes.ofNatLE 2 (65535 - data.length) ∨ b ∈ data := by
  unfold storedBlock
  rw [List.append_assoc, List.cons_append, List.mem_cons, ← List.append_assoc, List.mem_append]

/-- How many bytes there are when the data have been put into blocks. -/
theorem length_deflate (data : Bytes) :
    (deflate data).length = data.length + 5 * (max 1 ((data.length + 65534) / 65535)) := by
  induction data using deflate.induct with
  | case1 data hshort =>
    rw [deflate, if_pos hshort, length_storedBlock]
    unfold maxStored at hshort
    omega
  | case2 data hlong ih =>
    rw [deflate, if_neg hlong, List.length_append, length_storedBlock, ih, List.length_drop,
      List.length_take]
    unfold maxStored at hlong ⊢
    omega

/-- Deflated data have no byte that is neither in the data nor in the
lengths of the blocks. The last block is as long as what is left when
full ones have been cut off. -/
theorem mem_deflate {b : UInt8} (h : b ∈ deflate data) :
    b ∈ data ∨ b ∈ [0, 1, 255] ∨ ∃ n ≤ 65535, n % 65535 = data.length % 65535
      ∧ b ∈ Bytes.ofNatLE 2 n ++ Bytes.ofNatLE 2 (65535 - n) := by
  induction data using deflate.induct with
  | case1 data hshort =>
    rw [deflate, if_pos hshort, mem_storedBlock] at h
    rcases h with rfl | hlengths | hdata
    · exact .inr (.inl (by decide))
    · exact .inr (.inr ⟨data.length, hshort, rfl, hlengths⟩)
    · exact .inl hdata
  | case2 data hlong ih =>
    rw [deflate, if_neg hlong, List.mem_append] at h
    rcases h with hblock | hrest
    · have hfull : (data.take maxStored).length = maxStored :=
        List.length_take_of_le (Nat.le_of_not_le hlong)
      rw [mem_storedBlock, hfull] at hblock
      rcases hblock with rfl | hlengths | hdata
      · exact .inr (.inl (by decide))
      -- a full block has the lengths ff ff and 00 00
      · have hlengthsOf : ∀ c ∈ Bytes.ofNatLE 2 maxStored ++ Bytes.ofNatLE 2 (65535 - maxStored),
            c ∈ [(0 : UInt8), 1, 255] := by decide +kernel
        exact .inr (.inl (hlengthsOf b hlengths))
      · exact .inl (List.mem_of_mem_take hdata)
    · rcases ih hrest with hdata | hother | ⟨n, hn, hmod, hlengths⟩
      · exact .inl (List.mem_of_mem_drop hdata)
      · exact .inr (.inl hother)
      · refine .inr (.inr ⟨n, hn, ?_, hlengths⟩)
        rw [hmod, List.length_drop]
        unfold maxStored at hlong ⊢
        omega

/-- What was deflated is inflated again. -/
theorem inflate?_deflate (data : Bytes) : inflate? (deflate data) = some data := by
  unfold inflate?
  rw [blocks?_deflate data (by omega), Array.empty_append]
  rfl

end RouterSeed.Deflate

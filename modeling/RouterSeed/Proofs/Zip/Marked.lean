/-
Entries that get lost because of their size.

The largest size that fits into a header is also the value that refers to
an extra field. An entry of just that size that starts so far into the
file that its offset is in an extra field has the offset taken for the
size (`fullRecordAt_of_marked`): it is looked for where four bytes of
offset end. Unless a local header happens to stand there, the archive is
refused (`read_archive_of_marked`).

What stands there is a matter of the entry that reaches across that
position. Stored blocks of zeros have nothing in them that looks like a
header (`not_header_of_zeros`).

Consumed by Unzipped.
-/
import Mathlib.Algebra.GroupWithZero.Nat
import RouterSeed.Proofs.Deflate.Stored
import RouterSeed.Proofs.Zip.RoundTrip

namespace RouterSeed.Zip

variable {compress : Bytes → Bytes} {entries : List Entry} {image : Image} {position : Nat}
  {part more : Bytes}

-- ============================================================= records

/-- The directory is read to its end. For a marked entry it says that the
entry is where four bytes of offset end. -/
private theorem records_directoryPart_of_marked {placed : List (Packed × Nat)}
    (hplaced : ∀ x ∈ placed, x.1.Fits ∧ x.2 < 2 ^ 64)
    (h : image.Has position (directoryPart placed ++ more)) :
    ∃ found, records image 0 placed.length position = .ok found
      ∧ ∀ x ∈ placed, ¬x.1.IsUnmarked x.2 → ∃ r ∈ found, r.offset = maxShort := by
  induction placed generalizing position with
  | nil => exact ⟨[], rfl, nofun⟩
  | cons x placed ih =>
    obtain ⟨hfits, hoffset⟩ := hplaced x List.mem_cons_self
    unfold directoryPart at h
    rw [List.map_cons, List.flatten_cons, List.append_assoc] at h
    obtain ⟨hfirst, hrest⟩ := h.split
    obtain ⟨found, hfound, hmarked⟩ := ih (fun y hy => hplaced y (List.mem_cons_of_mem _ hy)) hrest
    -- a marked entry is given the marker for its offset, and any other its own
    have hrecord : ∃ r, fullRecordAt image position 0 = .ok (r, (x.1.directoryRecord x.2).length)
        ∧ (¬x.1.IsUnmarked x.2 → r.offset = maxShort) := by
      by_cases hunmarked : x.1.IsUnmarked x.2
      · exact ⟨_, Packed.fullRecordAt_directoryRecord hfits hoffset hunmarked hfirst,
          fun hno => absurd hunmarked hno⟩
      · obtain ⟨r, hr, hplace⟩ := Packed.fullRecordAt_of_marked hfits hoffset hunmarked hfirst
        exact ⟨r, hr, fun _ => hplace⟩
    obtain ⟨r, hr, hplace⟩ := hrecord
    refine ⟨r :: found, ?_, ?_⟩
    · rw [List.length_cons, records, hr]
      dsimp only [bind, Except.bind]
      rw [hfound]
    · intro y hy hno
      rcases List.mem_cons.mp hy with rfl | hy
      · exact ⟨r, List.mem_cons_self, hplace hno⟩
      · obtain ⟨r', hr', hplace'⟩ := hmarked y hy hno
        exact ⟨r', List.mem_cons_of_mem _ hr', hplace'⟩

/-- An entry is not read where no local header stands. -/
private theorem Record.entry_of_no_header {r : Record}
    (h : image.slice? r.offset 4 ≠ some localSignature) :
    ∃ fault, r.entry image = .error fault := by
  have hstart : dataStart? image r.offset = none := by
    unfold dataStart?
    cases hslice : image.slice? r.offset 4 with
    | none => rfl
    | some signature =>
      refine bind_of_eq_some rfl (if_pos ?_)
      rintro rfl
      exact h hslice
  unfold Record.entry
  split
  · exact ⟨_, rfl⟩
  · rw [hstart]
    exact ⟨_, rfl⟩

/-- One entry that is not read is enough for the archive to be refused. -/
private theorem mapM_entry_eq_error {found : List Record} {r : Record} (hr : r ∈ found)
    (h : ∃ fault, r.entry image = .error fault) :
    ∃ fault, found.mapM (fun r => r.entry image) = .error fault := by
  induction found with
  | nil => exact absurd hr List.not_mem_nil
  | cons first found ih =>
    rw [List.mapM_cons]
    cases hfirst : first.entry image with
    | error fault => exact ⟨fault, rfl⟩
    | ok e =>
      rcases List.mem_cons.mp hr with rfl | hr
      · obtain ⟨fault, hfault⟩ := h
        rw [hfirst] at hfault
        cases hfault
      · obtain ⟨fault, hfault⟩ := ih hr
        rw [hfault]
        exact ⟨fault, rfl⟩

/-- An archive with a marked entry is refused, unless a local header happens
to stand where four bytes of offset end. -/
theorem read_archive_of_marked (h : Fits compress entries) (marked : ¬Unmarked compress entries)
    (header : Image.slice? (archive compress entries).toArray maxShort 4 ≠ some localSignature) :
    ∃ fault, read (archive compress entries) = .error fault := by
  obtain ⟨hfound, ⟨more, hrecords⟩, hentries⟩ := isArchiveOf h
  obtain ⟨found, hall, hmarked⟩ := records_directoryPart_of_marked
    (fun x hx => ⟨(hentries x hx).1, (hentries x hx).2.1⟩) hrecords
  obtain ⟨x, hx⟩ := Classical.not_forall.mp marked
  obtain ⟨hx, hno⟩ := Classical.not_imp.mp hx
  obtain ⟨r, hr, hplace⟩ := hmarked x hx hno
  rw [length_placed] at hall
  unfold read
  dsimp only
  rw [hfound]
  dsimp only [bind, Except.bind]
  rw [hall]
  dsimp only
  exact mapM_entry_eq_error hr (Record.entry_of_no_header (hplace ▸ header))

-- =============================================================== lengths

theorem length_localParts (start : Nat) (packed : List Packed) :
    (localParts (place start packed)).length = (packed.map Packed.length).sum := by
  induction packed generalizing start with
  | nil => rfl
  | cons p packed ih =>
    unfold localParts at ih ⊢
    rw [place, List.map_cons, List.flatten_cons, List.length_append, Packed.length_localPart, ih,
      List.map_cons, List.sum_cons]

/-- A record takes 58 bytes more than its entry at most. -/
private theorem length_directoryPart_le (start : Nat) (packed : List Packed) :
    (directoryPart (place start packed)).length ≤ (packed.map fun p => p.length + 58).sum := by
  induction packed generalizing start with
  | nil => exact Nat.zero_le _
  | cons p packed ih =>
    have hrest := ih (start + p.length)
    have hextra := Packed.length_extra_le start
    have hp : p.length = 30 + p.name.length + p.contents.length := rfl
    unfold directoryPart at hrest ⊢
    rw [place, List.map_cons, List.flatten_cons, List.length_append, Packed.length_directoryRecord,
      List.map_cons, List.sum_cons]
    unfold directoryRecordSize
    dsimp only
    omega

/-- An archive is not much longer than what its entries take twice. -/
theorem length_archive_le (compress : Bytes → Bytes) (entries : List Entry) :
    (archive compress entries).length
      ≤ ((entries.map (Entry.packWith compress)).map Packed.length).sum
        + ((entries.map (Entry.packWith compress)).map fun p => p.length + 58).sum + 98 := by
  have hlocals := length_localParts 0 (entries.map (Entry.packWith compress))
  have hdirectory := length_directoryPart_le 0 (entries.map (Entry.packWith compress))
  rw [archive_eq, List.length_append, List.length_append, List.length_append, length_shortEnd]
  unfold placed endRecordSize
  rw [hlocals]
  split
  · rw [length_longEnd]
    unfold longEndRecordSize locatorSize
    omega
  · rw [List.length_nil]
    omega

-- ================================================================ zeros

/-- So many zeros that stored blocks make the marked size of them. -/
def markedZeros : Nat := 4294639630

variable {data : Bytes}

/-- Stored blocks of this many zeros are as long as the marker. -/
theorem length_deflate_of_zeros (hlength : data.length = markedZeros) :
    (Deflate.deflate data).length = maxShort := by
  rw [Deflate.length_deflate, hlength]
  decide

/-- There is no `P` in them, which headers begin with: neither in the data
nor in the lengths of the blocks, the last of which holds ten bytes. -/
private theorem ne_of_mem_deflate_of_zeros (hlength : data.length = markedZeros)
    (hzeros : ∀ b ∈ data, b = 0) {b : UInt8} (hb : b ∈ Deflate.deflate data) : b ≠ 0x50 := by
  rcases Deflate.mem_deflate hb with hdata | hother | ⟨n, hn, hmod, hlengths⟩
  · rw [hzeros b hdata]
    decide
  · rintro rfl
    revert hother
    decide
  · obtain rfl : n = 10 := by
      rw [hlength] at hmod
      have hten : markedZeros % 65535 = 10 := by decide
      omega
    rintro rfl
    revert hlengths
    decide

/-- What stands in the data of an entry, four bytes at a time. -/
private theorem slice?_contents {p : Packed} {offset : Nat}
    (h : image.Has offset (p.localPart offset))
    (hbegin : offset + localHeaderSize + p.name.length ≤ position)
    (hend : position + 4 ≤ offset + p.length) :
    ∃ four, image.slice? position 4 = some four ∧ ∀ b ∈ four, b ∈ p.contents := by
  have hhead : (localSignature ++ p.shared offset 0 ++ p.name).length
      = localHeaderSize + p.name.length := by
    rw [List.length_append, List.length_append, Packed.length_shared]
    rfl
  unfold Packed.length at hend
  obtain ⟨skip, hskip⟩ : ∃ skip, position = offset + (localHeaderSize + p.name.length) + skip :=
    ⟨position - (offset + (localHeaderSize + p.name.length)), by omega⟩
  have hfour : ((p.contents.drop skip).take 4).length = 4 := by
    rw [List.length_take, List.length_drop]
    omega
  -- what is read lies within the contents, behind the header and the name
  rw [Packed.localPart, ← List.take_append_drop skip p.contents,
    ← List.take_append_drop 4 (p.contents.drop skip)] at h
  have hat := h.split.2.split.2.split.1
  rw [hhead, List.length_take_of_le (by omega), ← hskip] at hat
  have hslice := hat.slice?
  rw [hfour] at hslice
  exact ⟨_, hslice, fun b hb => List.mem_of_mem_drop (List.mem_of_mem_take hb)⟩

/-- Where the zeros of an entry reach across the end of four bytes of
offset, no local header stands there. -/
theorem not_header_of_zeros {e : Entry} (hlength : e.data.length = markedZeros)
    (hzeros : ∀ b ∈ e.data, b = 0) (hname : (Bytes.ofString e.name).length ≤ 65535)
    (h : image.Has 0 ((e.packWith Deflate.deflate).localPart 0)) :
    image.slice? maxShort 4 ≠ some localSignature := by
  have hcontents : (e.packWith Deflate.deflate).contents.length = maxShort :=
    length_deflate_of_zeros hlength
  have hbegin : 0 + localHeaderSize + (e.packWith Deflate.deflate).name.length ≤ maxShort := by
    show 0 + 30 + (Bytes.ofString e.name).length ≤ 4294967295
    omega
  have hend : maxShort + 4 ≤ 0 + (e.packWith Deflate.deflate).length := by
    unfold Packed.length localHeaderSize
    omega
  obtain ⟨four, hslice, hmem⟩ := slice?_contents h hbegin hend
  rw [hslice]
  intro hsame
  -- a header begins with a byte that is not in the contents
  have hp : (0x50 : UInt8) ∈ four := by
    rw [Option.some.inj hsame]
    decide
  exact ne_of_mem_deflate_of_zeros hlength hzeros (hmem _ hp) rfl

end RouterSeed.Zip

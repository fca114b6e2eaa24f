/-
Blocks that are written are the blocks that are read.

The base 64 of the contents has neither dashes nor blanks, so the marks
around it are found where they were put, the line ends fall out again,
and no empty line turns the first lines into headers. A block is read
whole and what follows it is left for the next (`capture?_encode`), so a
text of several blocks gives them back in order (`decodeAll_encode`), and
the first of them whatever comes after (`decodeFirst_encode`).

Consumed by the proofs about stored identities.
-/
import RouterSeed.Pem.Block
import RouterSeed.Proofs.Text.Utf8

namespace RouterSeed

-- ============================================================ base 64

namespace Base64

private theorem value?_digit : ∀ n < 64, value? (digit n) = some n := by
  decide

private theorem digit_ne_padding : ∀ n < 64, digit n ≠ padding := by
  decide

private theorem toNat_ofNat_mod (n : Nat) : (UInt8.ofNat n).toNat = n % 256 := UInt8.toNat_ofNat'

/-- Three bytes of a number come back from its four digits, whatever
follows. -/
private theorem decode?_group {n : Nat} (hn : n < 16777216) (rest : Bytes) :
    decode? (digit (n / 262144) :: digit (n / 4096 % 64) :: digit (n / 64 % 64) :: digit (n % 64)
        :: rest)
      = (decode? rest).map fun more =>
          UInt8.ofNat (n / 65536) :: UInt8.ofNat (n / 256) :: UInt8.ofNat n :: more := by
  have hfirst := value?_digit (n / 262144) (by omega)
  have hsecond := value?_digit (n / 4096 % 64) (by omega)
  have hthird := value?_digit (n / 64 % 64) (by omega)
  have hfourth := value?_digit (n % 64) (by omega)
  have hsum : n / 262144 * 262144 + n / 4096 % 64 * 4096 + n / 64 % 64 * 64 + n % 64 = n := by
    omega
  -- the last group may hold padding, so an empty rest is a case of its own
  cases rest with
  | nil =>
    have hpadding : digit (n % 64) ≠ padding := digit_ne_padding _ (by omega)
    show (if digit (n % 64) = padding then _ else _) = _
    rw [if_neg hpadding, hfirst, hsecond, hthird, hfourth]
    show some [UInt8.ofNat (_ / 65536), UInt8.ofNat (_ / 256), UInt8.ofNat _] = _
    rw [hsum]
    rfl
  | cons next rest =>
    rw [decode?, hfirst, hsecond, hthird, hfourth]
    · show (do
        let more ← decode? (next :: rest)
        some (UInt8.ofNat (_ / 65536) :: UInt8.ofNat (_ / 256) :: UInt8.ofNat _ :: more)) = _
      rw [hsum]
      cases decode? (next :: rest) <;> rfl
    · exact List.cons_ne_nil _ _

/-- Every byte string comes back from its digits. -/
theorem decode?_encode (bytes : Bytes) : decode? (encode bytes) = some bytes := by
  induction bytes using encode.induct with
  | case1 => rfl
  -- one byte left: two digits, the second of which has four bits to spare
  | case2 a =>
    have ha := a.toNat_lt
    have hsum : a.toNat * 65536 / 262144 * 64 + a.toNat * 65536 / 4096 % 64 = a.toNat * 16 := by
      omega
    rw [encode, decode?, if_pos rfl, if_pos rfl]
    unfold lastOne
    rw [value?_digit _ (by omega), value?_digit _ (by omega)]
    show (if (_ : Nat) % 16 = 0 then some [UInt8.ofNat _] else none) = _
    rw [hsum, if_pos (by omega), Nat.mul_div_cancel _ (by decide), UInt8.ofNat_toNat]
  -- two bytes left: three digits, and two bits to spare
  | case3 a b =>
    have ha := a.toNat_lt
    have hb := b.toNat_lt
    rw [encode, decode?, if_pos rfl, if_neg (digit_ne_padding _ (by omega))]
    unfold lastTwo
    rw [value?_digit _ (by omega), value?_digit _ (by omega), value?_digit _ (by omega)]
    have hsum : (a.toNat * 65536 + b.toNat * 256) / 262144 * 4096
        + (a.toNat * 65536 + b.toNat * 256) / 4096 % 64 * 64
        + (a.toNat * 65536 + b.toNat * 256) / 64 % 64 = (a.toNat * 256 + b.toNat) * 4 := by
      omega
    show (if (_ : Nat) % 4 = 0 then some [UInt8.ofNat (_ / 1024), UInt8.ofNat _] else none) = _
    rw [hsum, if_pos (by omega), Nat.mul_div_cancel _ (by decide)]
    have hfirst : (a.toNat * 256 + b.toNat) * 4 / 1024 = a.toNat := by omega
    have hsecond : UInt8.ofNat (a.toNat * 256 + b.toNat) = b := by
      rw [← UInt8.toNat_inj, toNat_ofNat_mod]
      omega
    rw [hfirst, hsecond, UInt8.ofNat_toNat]
  | case4 a b c rest ih =>
    have ha := a.toNat_lt
    have hb := b.toNat_lt
    have hc := c.toNat_lt
    rw [encode, decode?_group (by omega), ih]
    have hfirst : (a.toNat * 65536 + b.toNat * 256 + c.toNat) / 65536 = a.toNat := by omega
    have hsecond : UInt8.ofNat ((a.toNat * 65536 + b.toNat * 256 + c.toNat) / 256) = b := by
      rw [← UInt8.toNat_inj, toNat_ofNat_mod]
      omega
    have hthird : UInt8.ofNat (a.toNat * 65536 + b.toNat * 256 + c.toNat) = c := by
      rw [← UInt8.toNat_inj, toNat_ofNat_mod]
      omega
    rw [hfirst, hsecond, hthird, UInt8.ofNat_toNat]
    rfl

/-- A byte that can stand in base 64: a printing character other than the
dash. -/
def IsDigit (b : UInt8) : Prop := b ≠ 45 ∧ 32 < b ∧ b < 0x80

instance (b : UInt8) : Decidable (IsDigit b) := by unfold IsDigit; infer_instance

/-- What is written as a digit is one. -/
private theorem isDigit_digit : ∀ n < 64, IsDigit (digit n) := by
  decide

/-- An encoding is made of digits and padding. -/
theorem isDigit_of_mem_encode {bytes : Bytes} : ∀ d ∈ encode bytes, IsDigit d := by
  have hpadding : IsDigit padding := by decide
  induction bytes using encode.induct with
  | case1 => exact nofun
  | case2 a =>
    have ha := a.toNat_lt
    simp only [encode, List.forall_mem_cons]
    refine ⟨isDigit_digit _ (by omega), isDigit_digit _ (by omega), hpadding, hpadding, nofun⟩
  | case3 a b =>
    have ha := a.toNat_lt
    have hb := b.toNat_lt
    simp only [encode, List.forall_mem_cons]
    refine ⟨isDigit_digit _ (by omega), isDigit_digit _ (by omega), isDigit_digit _ (by omega),
      hpadding, nofun⟩
  | case4 a b c rest ih =>
    have ha := a.toNat_lt
    have hb := b.toNat_lt
    have hc := c.toNat_lt
    simp only [encode, List.forall_mem_cons]
    refine ⟨isDigit_digit _ (by omega), isDigit_digit _ (by omega), isDigit_digit _ (by omega),
      isDigit_digit _ (by omega), ih⟩

end Base64

namespace Pem

open Base64 (IsDigit)

-- =============================================================== marks

/-- A mark that stands in front is found, and what was passed before it is
given back. -/
theorem scan_mark (mark pending before rest : Bytes) :
    scan mark (pending ++ rest) pending before
      = some (((pending.reverse ++ before).drop mark.length).reverse, rest) := by
  induction pending generalizing before with
  | nil =>
    rw [List.nil_append, scan]
    rfl
  | cons m pending ih =>
    rw [List.cons_append, scan, if_pos rfl, ih]
    simp

/-- Bytes that cannot begin the mark are passed. -/
private theorem scan_skip {m : UInt8} {mark skipped : Bytes} (h : m ∉ skipped)
    (before rest : Bytes) :
    scan (m :: mark) (skipped ++ rest) (m :: mark) before
      = scan (m :: mark) rest (m :: mark) (skipped.reverse ++ before) := by
  induction skipped generalizing before with
  | nil => rfl
  | cons b skipped ih =>
    have hb : b ≠ m := fun hsame => h (hsame ▸ List.mem_cons_self)
    rw [List.cons_append, scan, if_neg hb, ih fun hmem => h (List.mem_cons_of_mem b hmem)]
    simp

/-- What is in front of a mark is read up to it, if the mark cannot begin
there. -/
theorem readUntil_append {m : UInt8} {mark skipped : Bytes} (h : m ∉ skipped) (rest : Bytes) :
    readUntil (m :: mark) (skipped ++ (m :: mark ++ rest)) = some (skipped, rest) := by
  unfold readUntil
  rw [scan_skip h, scan_mark]
  congr 2
  rw [List.append_nil, List.drop_left' (by simp), List.reverse_reverse]

/-- The dash, which begins every mark. -/
def dash : UInt8 := 45

-- ========================================================== line ends

/-- Wrapping adds nothing but line ends. -/
private theorem mem_wrap {digits : Bytes} {b : UInt8} (h : b ∈ wrap digits) :
    b ∈ digits ∨ b = 13 ∨ b = 10 := by
  induction digits using wrap.induct with
  | case1 =>
    rw [wrap, if_pos rfl] at h
    cases h
  | case2 digits hne ih =>
    rw [wrap, if_neg hne, List.mem_append, List.mem_append] at h
    rcases h with (h | h) | h
    · exact .inl (List.mem_of_mem_take h)
    · simp only [lineEnd, List.mem_cons, List.not_mem_nil, or_false] at h
      exact .inr h
    · rcases ih h with hmem | hend
      · exact .inl (List.mem_of_mem_drop hmem)
      · exact .inr hend

/-- Taking the line ends out again leaves the digits. -/
theorem filter_wrap {digits : Bytes} (p : UInt8 → Bool) (hkept : ∀ b ∈ digits, p b = true)
    (hreturn : p 13 = false) (hfeed : p 10 = false) : (wrap digits).filter p = digits := by
  induction digits using wrap.induct with
  | case1 =>
    rw [wrap, if_pos rfl]
    rfl
  | case2 digits hne ih =>
    have htake : (digits.take 64).filter p = digits.take 64 :=
      List.filter_eq_self.mpr fun b hb => hkept b (List.mem_of_mem_take hb)
    have hend : lineEnd.filter p = [] := by simp [lineEnd, hreturn, hfeed]
    rw [wrap, if_neg hne, List.filter_append, List.filter_append, htake, hend, List.append_nil,
      ih fun b hb => hkept b (List.mem_of_mem_drop hb), List.take_append_drop]

/-- A byte that does not go on with the mark starts the search anew behind
it. -/
theorem scan_mismatch {mark pending : Bytes} {b p : UInt8} (h : b ≠ p) (before rest : Bytes) :
    scan mark (b :: rest) (p :: pending) before = scan mark rest mark (b :: before) := by
  rw [scan, if_neg h]

/-- No line is empty, so two line ends never meet. `half` is what is
still to be met of the mark after one of them. -/
private theorem scan_wrap {mark half : Bytes} {digits : Bytes} (hdigits : ∀ b ∈ digits, IsDigit b)
    (hmark : (mark, half) = ([10, 10], [10]) ∨ (mark, half) = ([13, 10, 13, 10], [13, 10]))
    {pending : Bytes} (hpending : pending = mark ∨ pending = half) (before : Bytes) :
    scan mark (wrap digits) pending before = none := by
  obtain ⟨first, others, hfirst, hpendingCons⟩ :
      ∃ first others, ¬IsDigit first ∧ pending = first :: others := by
    rcases hmark with hmark | hmark <;> cases hmark <;> rcases hpending with rfl | rfl
    · exact ⟨10, _, by decide, rfl⟩
    · exact ⟨10, _, by decide, rfl⟩
    · exact ⟨13, _, by decide, rfl⟩
    · exact ⟨13, _, by decide, rfl⟩
  induction digits using wrap.induct generalizing pending first others before with
  | case1 =>
    rw [wrap, if_pos rfl, hpendingCons, scan]
  | case2 digits hne ih =>
    obtain ⟨d, line, hline⟩ := List.exists_cons_of_ne_nil (l := digits.take 64) (by simpa using hne)
    have hlineDigits : ∀ b ∈ d :: line, IsDigit b := by
      intro b hb
      rw [← hline] at hb
      exact hdigits b (List.mem_of_mem_take hb)
    have hd : d ≠ first := by
      rintro rfl
      exact hfirst (hlineDigits d List.mem_cons_self)
    have hrest : ∀ b ∈ digits.drop 64, IsDigit b := fun b hb => hdigits b (List.mem_of_mem_drop hb)
    have hskip : ∀ b : UInt8, ¬IsDigit b → b ∉ line := by
      intro b hb hmem
      exact hb (hlineDigits b (List.mem_cons_of_mem d hmem))
    rw [wrap, if_neg hne, hline, hpendingCons, List.cons_append, List.cons_append,
      scan_mismatch hd, List.append_assoc]
    -- the line leaves the whole mark to be met, the line end half of it
    rcases hmark with hmark | hmark <;> cases hmark
    · rw [scan_skip (hskip 10 (by decide))]
      exact ih hrest (.inr rfl) _ 10 [] (by decide) rfl
    · rw [scan_skip (hskip 13 (by decide))]
      exact ih hrest (.inr rfl) _ 13 [10] (by decide) rfl

/-- Wrapped digits have no headers. -/
private theorem splitHeaders_wrap {digits : Bytes} (hdigits : ∀ b ∈ digits, IsDigit b) :
    splitHeaders (wrap digits) = ([], wrap digits) := by
  unfold splitHeaders readUntil
  rw [scan_wrap hdigits (.inl rfl) (.inl rfl)]
  dsimp only
  rw [scan_wrap hdigits (.inr rfl) (.inl rfl)]

-- ============================================================== blocks

/-- The tag of the block can stand between two marks. -/
structure Block.Printable (b : Block) : Prop where
  named : b.tag ≠ ""
  dashless : dash ∉ Bytes.ofString b.tag

/-- The capture of a block that was written. -/
def Block.capture (b : Block) : Capture :=
  ⟨Bytes.ofString b.tag, [], wrap (Base64.encode b.contents), Bytes.ofString b.tag⟩

theorem skipBlanks_lineEnd (rest : Bytes) : skipBlanks (lineEnd ++ rest) = skipBlanks rest := rfl

private theorem skipBlanks_cons {b : UInt8} (h : 32 < b) (rest : Bytes) :
    skipBlanks (b :: rest) = b :: rest := by
  apply List.dropWhile_cons_of_neg
  have hvalue := UInt8.lt_iff_toNat_lt.mp h
  simp only [Bool.or_eq_true, decide_eq_true_eq, ← UInt8.toNat_inj]
  show ¬(((_ = 32 ∨ _ = 9) ∨ _ = 10) ∨ _ = 13)
  change 32 < _ at hvalue
  omega

/-- The contents of a block begin with a digit, or with its end mark. -/
private theorem skipBlanks_wrap {digits : Bytes} (hdigits : ∀ b ∈ digits, IsDigit b)
    (rest : Bytes) :
    skipBlanks (wrap digits ++ (endMark ++ rest)) = wrap digits ++ (endMark ++ rest) := by
  by_cases hnil : digits = []
  · rw [hnil, wrap, if_pos rfl]
    exact skipBlanks_cons (by decide) _
  · obtain ⟨d, line, hline⟩ :=
      List.exists_cons_of_ne_nil (l := digits.take 64) (by simpa using hnil)
    have hd : IsDigit d := by
      apply hdigits d
      apply List.mem_of_mem_take (i := 64)
      rw [hline]
      exact List.mem_cons_self
    rw [wrap, if_neg hnil, hline]
    exact skipBlanks_cons hd.2.1 _

/-- There is no dash among wrapped digits, so no mark begins in them. -/
private theorem dash_not_mem_wrap {digits : Bytes} (hdigits : ∀ b ∈ digits, IsDigit b) :
    dash ∉ wrap digits := by
  intro hmem
  rcases mem_wrap hmem with hmem | hreturn | hfeed
  · exact (hdigits dash hmem).1 rfl
  · cases hreturn
  · cases hfeed

/-- The parts of a block that was written are found: its tag twice, no
headers, and its lines. -/
private theorem capture?_encode {b : Block} (h : b.Printable) (rest : Bytes) :
    capture? (encode b ++ rest) = some (b.capture, skipBlanks rest) := by
  have hdigits : ∀ d ∈ Base64.encode b.contents, IsDigit d := Base64.isDigit_of_mem_encode
  have htag := h.dashless
  have hnone : dash ∉ ([] : Bytes) := List.not_mem_nil
  have hbegin : ∀ input, readUntil beginMark (beginMark ++ input) = some ([], input) := fun input =>
    readUntil_append hnone input
  have hopening : ∀ input, readUntil dashes (Bytes.ofString b.tag ++ (dashes ++ input))
      = some (Bytes.ofString b.tag, input) := fun input => readUntil_append htag input
  have hbody : ∀ input, readUntil endMark (wrap (Base64.encode b.contents) ++ (endMark ++ input))
      = some (wrap (Base64.encode b.contents), input) := fun input =>
    readUntil_append (dash_not_mem_wrap hdigits) input
  -- Each read takes what stands in front of the next mark.
  unfold capture? encode
  simp only [List.append_assoc]
  rw [hbegin, Option.bind_eq_bind, Option.bind_some]
  dsimp only [Option.bind_eq_bind]
  rw [hopening, Option.bind_some]
  dsimp only
  rw [skipBlanks_lineEnd, skipBlanks_wrap hdigits, hbody, Option.bind_some]
  dsimp only
  rw [hopening, splitHeaders_wrap hdigits]
  rfl

theorem isBlank_ofNat : ∀ n < 0x80, 32 < n → Text.isBlank (Char.ofNat n) = false := by
  decide +kernel

/-- Without the line ends the data are the digits again. -/
private theorem digits_of_wrap {digits : Bytes} (hdigits : ∀ b ∈ digits, IsDigit b) :
    Bytes.ofString (String.ofList ((Text.ofAscii (wrap digits)).toList.filter
      fun ch => !Text.isBlank ch)) = digits := by
  have hkept : ∀ b ∈ digits, (!Text.isBlank (Char.ofNat b.toNat)) = true := by
    intro b hb
    obtain ⟨-, hlow, hhigh⟩ := hdigits b hb
    rw [isBlank_ofNat _ (UInt8.lt_iff_toNat_lt.mp hhigh) (UInt8.lt_iff_toNat_lt.mp hlow)]
    rfl
  unfold Text.ofAscii
  rw [String.toList_ofList, List.filter_map]
  show Bytes.ofString (String.ofList (((wrap digits).filter
    fun b => !Text.isBlank (Char.ofNat b.toNat)).map _)) = _
  rw [filter_wrap _ hkept (by decide) (by decide)]
  exact Text.ofString_ofAscii fun b hb => (hdigits b hb).2.2

/-- Wrapped digits are text. -/
private theorem decode?_wrap {digits : Bytes} (hdigits : ∀ b ∈ digits, IsDigit b) :
    Text.decode? (wrap digits) = some (Text.ofAscii (wrap digits)) := by
  have hascii : ∀ b ∈ wrap digits, b < 0x80 := by
    intro b hb
    rcases mem_wrap hb with hmem | rfl | rfl
    · exact (hdigits b hmem).2.2
    · decide
    · decide
  have hbytes := Text.ofString_ofAscii hascii
  have hdecode := Text.decode?_ofString (Text.ofAscii (wrap digits))
  rwa [hbytes] at hdecode

private theorem splitOn_empty : "".splitOn "\n" = [""] := by
  have hend : String.Pos.Raw.atEnd "" 0 = true := rfl
  unfold String.splitOn
  rw [if_neg (by decide), String.splitOnAux, if_pos hend]
  rfl

theorem headersAreValid_empty : headersAreValid "" = true := by
  unfold headersAreValid
  rw [splitOn_empty]
  rfl

/-- A capture whose parts are text, whose tags agree and whose data are
digits is a block. -/
theorem block_eq_ok {c : Capture} {tag data headers : String} {contents : Bytes}
    (hopening : Text.decode? c.opening = some tag) (hclosing : Text.decode? c.closing = some tag)
    (hnamed : tag ≠ "") (hdata : Text.decode? c.data = some data)
    (hheaders : Text.decode? c.headers = some headers)
    (hcontents : Base64.decode? (Bytes.ofString (String.ofList (data.toList.filter
      fun ch => !Text.isBlank ch))) = some contents)
    (hvalid : headersAreValid headers = true) : c.block = .ok ⟨tag, contents⟩ := by
  unfold Capture.block
  simp only [hopening, hclosing, hdata, hheaders]
  simp [hnamed, hcontents, hvalid, bind, Except.bind]

/-- The capture of a block that can be printed is the block. -/
private theorem block_capture {b : Block} (h : b.Printable) : b.capture.block = .ok b := by
  have hdigits : ∀ d ∈ Base64.encode b.contents, IsDigit d := Base64.isDigit_of_mem_encode
  have hcontents := Base64.decode?_encode b.contents
  rw [← digits_of_wrap hdigits] at hcontents
  exact block_eq_ok (Text.decode?_ofString b.tag) (Text.decode?_ofString b.tag) h.named
    (decode?_wrap hdigits) (Text.decode?_ofString "") hcontents headersAreValid_empty

-- =============================================================== texts

/-- The first block of a text is the one written first. -/
theorem decodeFirst_encode {b : Block} (h : b.Printable) (rest : Bytes) :
    decodeFirst (encode b ++ rest) = .ok b := by
  unfold decodeFirst
  rw [capture?_encode h]
  exact block_capture h

/-- A row of blocks begins with no blank. -/
private theorem skipBlanks_flatten_encode (blocks : List Block) :
    skipBlanks (blocks.map encode).flatten = (blocks.map encode).flatten := by
  cases blocks with
  | nil => rfl
  | cons b blocks => exact skipBlanks_cons (by decide) _

/-- Every block of a row is found, in its order. -/
private theorem captures_encode {blocks : List Block} (h : ∀ b ∈ blocks, b.Printable) :
    captures (blocks.map encode).flatten = blocks.map Block.capture := by
  -- any fuel will do that is no less than the number of blocks
  have hup : ∀ fuel, blocks.length ≤ fuel →
      capturesUpTo fuel (blocks.map encode).flatten = blocks.map Block.capture := by
    induction blocks with
    | nil =>
      intro fuel _
      cases fuel with
      | zero => rfl
      | succ fuel => rfl
    | cons b blocks ih =>
      intro fuel hfuel
      cases fuel with
      | zero => cases hfuel
      | succ fuel =>
        rw [List.map_cons, List.flatten_cons, capturesUpTo,
          capture?_encode (h b List.mem_cons_self), skipBlanks_flatten_encode]
        dsimp only
        rw [ih (fun b hb => h b (List.mem_cons_of_mem _ hb)) fuel (Nat.le_of_succ_le_succ hfuel)]
        rfl
  -- every block has a byte at least, and the fuel is the number of bytes
  apply hup
  rw [← List.length_map (f := encode)]
  apply Bytes.length_le_length_flatten
  intro part hpart
  obtain ⟨b, -, rfl⟩ := List.mem_map.mp hpart
  exact List.cons_ne_nil _ _

/-- A text of blocks gives them back. -/
theorem decodeAll_encode {blocks : List Block} (h : ∀ b ∈ blocks, b.Printable) :
    decodeAll (blocks.map encode).flatten = .ok blocks := by
  unfold decodeAll
  rw [captures_encode h]
  induction blocks with
  | nil => rfl
  | cons b blocks ih =>
    rw [List.map_cons, List.mapM_cons, block_capture (h b List.mem_cons_self),
      ih fun b hb => h b (List.mem_cons_of_mem _ hb)]
    rfl

end Pem

end RouterSeed

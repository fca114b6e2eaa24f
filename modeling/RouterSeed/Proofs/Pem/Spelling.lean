/-
Every way to write blocks down gives them back.

`Spells` says what a text of blocks is without the reader: anything that
has no dashes may stand before, between and after the blocks; a tag is
any text that does not end its own line too early; and the digits of the
contents may be broken into lines and indented at will, as long as no
line is empty, because what stands above an empty line is a header. The
reader finds exactly these blocks, in order (`decodeAll_of_spells`), and
the writer's own form is one of the spellings (`spells_encode`).

The one thing to see is that marks are found where they were put. A mark
begins with five dashes, and a tag may have dashes too: the search starts
anew after each of them, and is back at the whole mark when the tag ends
(`scan_tag`).

Consumed by the proofs about key files.
-/
import Mathlib.Data.List.Chain
import RouterSeed.Proofs.Pem

namespace RouterSeed

/-- Plain ASCII is read as itself. -/
private theorem Text.decode?_of_ascii {bytes : Bytes} (h : ∀ b ∈ bytes, b < 0x80) :
    decode? bytes = some (ofAscii bytes) := by
  have hdecode := decode?_ofString (ofAscii bytes)
  rwa [ofString_ofAscii h] at hdecode

namespace Pem

open Base64 (IsDigit)

-- ============================================================ spellings

/-- A byte that stands between digits for the eye only. -/
def isGap (b : UInt8) : Bool := b = 32 || b = 9 || b = 10 || b = 13

/-- A tag that does not end before its mark does. -/
structure IsTag (tag : String) : Prop where
  named : tag ≠ ""
  unbroken : ¬dashes <:+: Bytes.ofString tag
  closed : (Bytes.ofString tag).getLast? ≠ some dash

/-- The digits of the contents, broken and indented at will. After the
first digit no line is empty. -/
structure Armors (body contents : Bytes) : Prop where
  digits : (body.filter fun b => !isGap b) = Base64.encode contents
  lines : (skipBlanks body).IsChain fun a b => a = 10 → b ≠ 10 ∧ b ≠ 13

/-- The marks of a block around a body, and what follows it. -/
def written (tag : String) (body rest : Bytes) : Bytes :=
  beginMark ++ (Bytes.ofString tag ++ (dashes ++ (body ++ (endMark ++ (Bytes.ofString tag
    ++ (dashes ++ rest))))))

/-- The text consists of these blocks, in this order. -/
inductive Spells : List Block → Bytes → Prop
  | nil {trail : Bytes} (silent : dash ∉ trail) : Spells [] trail
  | cons {b : Block} {blocks : List Block} {lead body rest : Bytes} (silent : dash ∉ lead)
      (tag : IsTag b.tag) (armor : Armors body b.contents) (more : Spells blocks rest) :
      Spells (b :: blocks) (lead ++ written b.tag body rest)

variable {b : Block} {blocks : List Block} {tag : String} {body contents text rest : Bytes}

-- ================================================================ tags

/-- In a run of dashes that is too short for the mark, and then in a tag
that goes on. -/
private theorem scan_tag {run : Nat} {name before : Bytes} (short : run < 5)
    (unbroken : ¬dashes <:+: List.replicate run dash ++ name)
    (closed : name.getLast? ≠ some dash) (begun : name = [] → run = 0) (rest : Bytes) :
    scan dashes (name ++ rest) (List.replicate (5 - run) dash) before
      = scan dashes rest dashes (name.reverse ++ before) := by
  induction name generalizing run before with
  | nil =>
    rw [begun rfl]
    rfl
  | cons b name ih =>
    have hpending : List.replicate (5 - run) dash = dash :: List.replicate (5 - (run + 1)) dash := by
      rw [← List.replicate_succ]
      congr 1
      omega
    have hlast : name ≠ [] → name.getLast? ≠ some dash := by
      intro hne hlast
      exact closed (by rw [List.getLast?_cons_of_ne_nil hne, hlast])
    -- A dash goes on with the run, unless the run would be the mark; any other byte ends
    -- it.
    by_cases hb : b = dash
    · subst hb
      have hrun : List.replicate run dash ++ dash :: name
          = List.replicate (run + 1) dash ++ name := by
        rw [List.replicate_succ', List.append_assoc]
        rfl
      rw [hrun] at unbroken
      -- a fifth dash would close the mark inside the tag
      have hfour : run ≠ 4 := by
        rintro rfl
        exact unbroken (List.prefix_append _ name).isInfix
      have hne : name ≠ [] := by
        rintro rfl
        exact closed rfl
      rw [List.cons_append, hpending, scan, if_pos rfl,
        ih (by omega) unbroken (hlast hne) fun hnil => absurd hnil hne]
      simp
    · have hrest : ¬dashes <:+: List.replicate 0 dash ++ name := by
        intro hfound
        exact unbroken (hfound.trans ⟨List.replicate run dash ++ [b], [], by simp⟩)
      have hclosed : name.getLast? ≠ some dash := by
        cases name with
        | nil =>
          intro hlast
          cases hlast
        | cons c name => exact hlast (List.cons_ne_nil c name)
      have hanew : scan dashes (name ++ rest) dashes (b :: before)
          = scan dashes rest dashes (name.reverse ++ b :: before) :=
        ih (show 0 < 5 by decide) hrest hclosed fun _ => rfl
      rw [List.cons_append, hpending, scan_mismatch hb, hanew]
      simp

/-- A tag is read up to the dashes behind it. -/
private theorem readUntil_tag (h : IsTag tag) (rest : Bytes) :
    readUntil dashes (Bytes.ofString tag ++ (dashes ++ rest)) = some (Bytes.ofString tag, rest) := by
  have hskip : scan dashes (Bytes.ofString tag ++ (dashes ++ rest)) dashes []
      = scan dashes (dashes ++ rest) dashes ((Bytes.ofString tag).reverse ++ []) :=
    scan_tag (show 0 < 5 by decide) h.unbroken h.closed (fun _ => rfl) _
  unfold readUntil
  rw [hskip, scan_mark, List.append_nil, List.drop_left' (by simp), List.reverse_reverse]

-- ======================================================= nothing found

/-- What is found is there. `met` is the part of the mark that has just
been met. -/
private theorem infix_of_scan {mark input pending before met : Bytes} {found : Bytes × Bytes}
    (h : scan mark input pending before = some found) (hmark : mark = met ++ pending)
    (hmet : met.reverse <+: before) : mark <:+: before.reverse ++ input := by
  induction input generalizing pending before met with
  | nil =>
    cases pending with
    | nil =>
      obtain ⟨older, rfl⟩ := hmet
      exact ⟨older.reverse, [], by simp [hmark]⟩
    | cons m pending => cases h
  | cons b rest ih =>
    cases pending with
    | nil =>
      obtain ⟨older, rfl⟩ := hmet
      exact ⟨older.reverse, b :: rest, by simp [hmark]⟩
    | cons m pending =>
      have hshift : (b :: before).reverse ++ rest = before.reverse ++ b :: rest := by simp
      rw [← hshift]
      rw [scan] at h
      -- what was met of the mark grows by a byte, or the search starts anew
      split at h
      next hsame =>
        subst hsame
        refine ih h (show mark = met ++ [b] ++ pending by rw [hmark]; simp) ?_
        rw [List.reverse_append]
        exact List.cons_prefix_cons.mpr ⟨rfl, hmet⟩
      next => exact ih h (show mark = [] ++ mark from rfl) List.nil_prefix

private theorem readUntil_eq_none {mark input : Bytes} (h : ¬mark <:+: input) :
    readUntil mark input = none := by
  cases hfound : readUntil mark input with
  | none => rfl
  | some found => exact absurd (infix_of_scan hfound (show mark = [] ++ mark from rfl) List.nil_prefix) h

-- =============================================================== bodies

/-- What begins with a dash ends the blanks in front of it. -/
private theorem skipBlanks_append_dash (lead rest : Bytes) :
    skipBlanks (lead ++ dash :: rest) = skipBlanks lead ++ dash :: rest := by
  show (lead ++ dash :: rest).dropWhile isGap = lead.dropWhile isGap ++ dash :: rest
  rw [List.dropWhile_append]
  split
  next hempty =>
    rw [List.isEmpty_iff.mp hempty]
    rfl
  next => rfl

private theorem mem_skipBlanks {c : UInt8} (h : c ∈ skipBlanks body) : c ∈ body :=
  (List.dropWhile_suffix isGap).mem h

/-- Skipping the blanks in front takes away none of the digits. -/
theorem filter_skipBlanks (body : Bytes) :
    (skipBlanks body).filter (fun b => !isGap b) = body.filter fun b => !isGap b := by
  show (body.dropWhile isGap).filter _ = _
  induction body with
  | nil => rfl
  | cons b body ih =>
    cases hb : isGap b with
    | true =>
      rw [List.dropWhile_cons_of_pos hb, ih, List.filter_cons_of_neg (by simp [hb])]
    | false => rw [List.dropWhile_cons_of_neg (by simp [hb])]

namespace Armors

variable (h : Armors body contents)

include h

/-- Every byte is a digit or a gap. -/
theorem isDigit_or_isGap {c : UInt8} (hc : c ∈ body) : IsDigit c ∨ isGap c = true := by
  cases hgap : isGap c with
  | true => exact .inr rfl
  | false =>
    have hmem : c ∈ body.filter fun b => !isGap b :=
      List.mem_filter.mpr ⟨hc, by rw [hgap]; rfl⟩
    rw [h.digits] at hmem
    exact .inl (Base64.isDigit_of_mem_encode c hmem)

/-- No mark begins in armored data. -/
theorem dash_not_mem : dash ∉ skipBlanks body := by
  intro hmem
  rcases h.isDigit_or_isGap (mem_skipBlanks hmem) with hdigit | hgap
  · exact hdigit.1 rfl
  · cases hgap

theorem ascii : ∀ c ∈ skipBlanks body, c < 0x80 := by
  intro c hc
  rcases h.isDigit_or_isGap (mem_skipBlanks hc) with hdigit | hgap
  · exact hdigit.2.2
  · simp only [isGap, Bool.or_eq_true, decide_eq_true_eq] at hgap
    rcases hgap with ((rfl | rfl) | rfl) | rfl <;> decide

/-- Nothing in armored data is taken for headers. -/
theorem splitHeaders_eq : splitHeaders (skipBlanks body) = ([], skipBlanks body) := by
  have hfeeds : ¬[10, 10] <:+: skipBlanks body := by
    intro hfound
    have hpart := List.IsChain.infix h.lines hfound
    exact (hpart.rel rfl).1 rfl
  have hreturns : ¬[13, 10, 13, 10] <:+: skipBlanks body := by
    intro hfound
    have hpart := List.IsChain.infix h.lines hfound
    exact (hpart.tail.rel rfl).2 rfl
  unfold splitHeaders
  rw [readUntil_eq_none hfeeds]
  dsimp only
  rw [readUntil_eq_none hreturns]

/-- Without the gaps the data are the digits again. -/
theorem decode?_digits : Base64.decode? (Bytes.ofString (String.ofList
    ((Text.ofAscii (skipBlanks body)).toList.filter fun ch => !Text.isBlank ch)))
      = some contents := by
  -- blanks of the text and gaps of the data are the same bytes here
  have hblank : ∀ c ∈ skipBlanks body, (!Text.isBlank (Char.ofNat c.toNat)) = !isGap c := by
    intro c hc
    cases hgap : isGap c with
    | true =>
      simp only [isGap, Bool.or_eq_true, decide_eq_true_eq] at hgap
      rcases hgap with ((rfl | rfl) | rfl) | rfl <;> decide
    | false =>
      have hdigit : IsDigit c := by
        rcases h.isDigit_or_isGap (mem_skipBlanks hc) with hdigit | htrue
        · exact hdigit
        · rw [hgap] at htrue
          cases htrue
      rw [isBlank_ofNat _ (UInt8.lt_iff_toNat_lt.mp hdigit.2.2)
        (UInt8.lt_iff_toNat_lt.mp hdigit.2.1)]
  have hdigits : ((skipBlanks body).filter fun c => !Text.isBlank (Char.ofNat c.toNat))
      = Base64.encode contents := by
    rw [List.filter_congr hblank, filter_skipBlanks, h.digits]
  unfold Text.ofAscii
  rw [String.toList_ofList, List.filter_map]
  show Base64.decode? (Bytes.ofString (String.ofList (((skipBlanks body).filter
    fun c => !Text.isBlank (Char.ofNat c.toNat)).map _))) = _
  rw [hdigits]
  show Base64.decode? (Bytes.ofString (Text.ofAscii (Base64.encode contents))) = _
  rw [Text.ofString_ofAscii fun c hc => (Base64.isDigit_of_mem_encode c hc).2.2,
    Base64.decode?_encode]

end Armors

-- =============================================================== blocks

/-- A block is found behind any text without a dash. -/
private theorem capture?_written {lead : Bytes} (silent : dash ∉ lead) (htag : IsTag tag)
    (armor : Armors body contents) (rest : Bytes) :
    capture? (lead ++ written tag body rest)
      = some (⟨Bytes.ofString tag, [], skipBlanks body, Bytes.ofString tag⟩, skipBlanks rest) := by
  have hbegin : ∀ input, readUntil beginMark (lead ++ (beginMark ++ input)) = some (lead, input) :=
    fun input => readUntil_append silent input
  have hbody : ∀ input, readUntil endMark (skipBlanks body ++ (endMark ++ input))
      = some (skipBlanks body, input) := fun input => readUntil_append armor.dash_not_mem input
  have hskip : ∀ input, skipBlanks (body ++ (endMark ++ input))
      = skipBlanks body ++ (endMark ++ input) := fun input => skipBlanks_append_dash body _
  unfold capture? written
  rw [hbegin, Option.bind_eq_bind, Option.bind_some]
  dsimp only [Option.bind_eq_bind]
  rw [readUntil_tag htag, Option.bind_some]
  dsimp only
  rw [hskip, hbody, Option.bind_some]
  dsimp only
  rw [readUntil_tag htag, armor.splitHeaders_eq]
  rfl

/-- What is captured of a written block is read as that block. -/
private theorem block_written (htag : IsTag tag) (armor : Armors body contents) :
    Capture.block ⟨Bytes.ofString tag, [], skipBlanks body, Bytes.ofString tag⟩
      = .ok ⟨tag, contents⟩ :=
  block_eq_ok (Text.decode?_ofString tag) (Text.decode?_ofString tag) htag.named
    (Text.decode?_of_ascii armor.ascii) (Text.decode?_ofString "") armor.decode?_digits
    headersAreValid_empty

-- ================================================================ texts

/-- Blanks in front of a text do not matter. -/
theorem Spells.skipBlanks (h : Spells blocks text) : Spells blocks (skipBlanks text) := by
  cases h with
  | nil silent => exact .nil fun hmem => silent (mem_skipBlanks hmem)
  | @cons b blocks lead body rest silent tag armor more =>
    have hkept : skipBlanks (lead ++ written b.tag body rest)
        = skipBlanks lead ++ written b.tag body rest := skipBlanks_append_dash lead _
    rw [hkept]
    exact .cons (fun hmem => silent (mem_skipBlanks hmem)) tag armor more

/-- Text without a dash holds no block. -/
private theorem capture?_of_silent (silent : dash ∉ text) : capture? text = none := by
  have hnone : readUntil beginMark text = none := by
    apply readUntil_eq_none
    intro hfound
    exact silent (hfound.mem (show dash ∈ beginMark by decide))
  unfold capture?
  rw [hnone]
  rfl

/-- However the blocks are spelled, they are read in their order. -/
theorem mapM_block_of_spells (h : Spells blocks text) {fuel : Nat} (enough : text.length ≤ fuel) :
    (capturesUpTo fuel text).mapM Capture.block = .ok blocks := by
  induction blocks generalizing text fuel with
  | nil =>
    cases h with
    | nil silent =>
      cases fuel with
      | zero => rfl
      | succ fuel =>
        rw [capturesUpTo, capture?_of_silent silent]
        rfl
  | cons b blocks ih =>
    cases h with
    | @cons _ _ lead body rest silent tag armor more =>
      -- each block takes the marks at least, so the fuel goes on to be enough
      have hrest : (Pem.skipBlanks rest).length < (lead ++ written b.tag body rest).length := by
        have hshort : (Pem.skipBlanks rest).length ≤ rest.length :=
          (List.dropWhile_suffix isGap).length_le
        have hmark : 0 < beginMark.length := by decide
        simp only [written, List.length_append]
        omega
      cases fuel with
      | zero =>
        exact absurd (Nat.lt_of_lt_of_le hrest enough) (Nat.not_lt_zero _)
      | succ fuel =>
        rw [capturesUpTo, capture?_written silent tag armor]
        dsimp only
        rw [List.mapM_cons, block_written tag armor,
          ih more.skipBlanks (Nat.le_of_lt_succ (Nat.lt_of_lt_of_le hrest enough))]
        rfl

/-- The blocks that a text spells are those that are read. -/
theorem decodeAll_of_spells (h : Spells blocks text) : decodeAll text = .ok blocks :=
  mapM_block_of_spells h (Nat.le_refl _)

-- ======================================================== the writer's

private theorem isGap_of_isDigit {c : UInt8} (h : IsDigit c) : isGap c = false := by
  obtain ⟨-, hlow, -⟩ := h
  have hvalue := UInt8.lt_iff_toNat_lt.mp hlow
  simp only [isGap, Bool.or_eq_false_iff, decide_eq_false_iff_not, ← UInt8.toNat_inj]
  show ((_ ≠ 32 ∧ _ ≠ 9) ∧ _ ≠ 10) ∧ _ ≠ 13
  change 32 < _ at hvalue
  omega

private theorem isDigit_of_head?_wrap {digits : Bytes} (hdigits : ∀ c ∈ digits, IsDigit c)
    {c : UInt8}
    (h : c ∈ (wrap digits).head?) : IsDigit c := by
  by_cases hnil : digits = []
  · rw [hnil, wrap, if_pos rfl] at h
    cases h
  · obtain ⟨d, line, hline⟩ :=
      List.exists_cons_of_ne_nil (l := digits.take 64) (by simpa using hnil)
    rw [wrap, if_neg hnil, hline] at h
    cases h
    apply hdigits
    apply List.mem_of_mem_take (i := 64)
    rw [hline]
    exact List.mem_cons_self

/-- A line feed of the writer stands at the end or in front of a digit. -/
private theorem isChain_wrap {digits : Bytes} (hdigits : ∀ c ∈ digits, IsDigit c) :
    (wrap digits).IsChain fun a b => a = 10 → IsDigit b := by
  induction digits using wrap.induct with
  | case1 =>
    rw [wrap, if_pos rfl]
    exact .nil
  | case2 digits hne ih =>
    have hline : ∀ c ∈ digits.take 64, c ≠ 10 := by
      rintro c hc rfl
      exact absurd (hdigits 10 (List.mem_of_mem_take hc)) (by decide)
    have hnext : ∀ c ∈ digits.drop 64, IsDigit c := fun c hc => hdigits c (List.mem_of_mem_drop hc)
    rw [wrap, if_neg hne]
    -- a line feed stands at the end of a line, and behind it is the next line's first digit
    refine .append (.append ?line ?ends ?joined) (ih hnext) ?next
    case line =>
      exact (List.pairwise_of_forall_mem_list fun a ha _ _ hfeed =>
        absurd hfeed (hline a ha)).isChain
    case ends => simp [lineEnd]
    case joined =>
      rintro c hc _ - rfl
      exact absurd rfl (hline 10 (List.mem_of_getLast? hc))
    case next =>
      intro _ _ c hc _
      exact isDigit_of_head?_wrap hnext hc

/-- The writer's lines of 64 digits. -/
private theorem armors_wrap (contents : Bytes) :
    Armors (lineEnd ++ wrap (Base64.encode contents)) contents := by
  have hdigits : ∀ c ∈ Base64.encode contents, IsDigit c := Base64.isDigit_of_mem_encode
  constructor
  case digits =>
    rw [List.filter_append, filter_wrap _ ?_ rfl rfl]
    · rfl
    · intro c hc
      rw [isGap_of_isDigit (hdigits c hc)]
      rfl
  case lines =>
    have hlines : (wrap (Base64.encode contents)).IsChain fun a b => a = 10 → b ≠ 10 ∧ b ≠ 13 := by
      refine (isChain_wrap hdigits).imp fun a b h hfeed => ?_
      constructor <;> rintro rfl <;> exact absurd (h hfeed) (by decide)
    rw [skipBlanks_lineEnd]
    exact hlines.suffix (List.dropWhile_suffix isGap)

/-- The writer's own spelling of blocks is one of their spellings. -/
theorem spells_encode (h : ∀ b ∈ blocks, IsTag b.tag) {lead : Bytes} (silent : dash ∉ lead) :
    Spells blocks (lead ++ (blocks.map encode).flatten) := by
  induction blocks generalizing lead with
  | nil =>
    rw [List.map_nil, List.flatten_nil, List.append_nil]
    exact .nil silent
  | cons b blocks ih =>
    have hnext := ih (fun b hb => h b (List.mem_cons_of_mem _ hb))
      (show dash ∉ lineEnd by decide)
    have hspelled := Spells.cons silent (h b List.mem_cons_self) (armors_wrap b.contents) hnext
    have hform : encode b ++ (blocks.map encode).flatten
        = written b.tag (lineEnd ++ wrap (Base64.encode b.contents))
          (lineEnd ++ (blocks.map encode).flatten) := by
      simp only [encode, written, List.append_assoc]
    rw [List.map_cons, List.flatten_cons, hform]
    exact hspelled

end Pem

end RouterSeed

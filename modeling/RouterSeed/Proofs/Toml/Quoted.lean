/-
Quoted strings are read back.

`Body` says what may stand between quotes for a text, character by
character: the character itself, an escape that reads as it, or, between
triple quotes, up to two quotes in a row. Whatever form is chosen, what
is written is a body of the text (`body_basicBody`, `body_literal`), and
a body is read as its text, with a single closing quote
(`lineBody_of_body`) or with three (`longBody_of_body`).

The one delicate place is the end of a string with triple quotes: its
last quotes stand before the closing ones without anything between them.
`Body.quotes_ahead` counts them; either they are the rest of the string,
or there are too few to close it.
-/
import RouterSeed.Proofs.Number.Digits
import RouterSeed.Proofs.Text.Reading
import RouterSeed.Toml.Quoted

namespace RouterSeed.Toml.Quoted

open Text (Reader stopsAt_cons)
open Text.Reader (any_cons bind_of_eq_some hasWord_append hasWord_of_head_ne hasWord_eq_false
  takeWhile_of_stopsAt optional_of_eq_none optional_of_eq_some)

-- ============================================================== escapes

/-- Each short escape has a letter of its own, which is no blank, no line
end and none of the two long forms. -/
private theorem find?_letter : ∀ entry ∈ shortEscapes,
    shortEscapes.find? (fun other => other.2 = entry.2) = some entry
      ∧ entry.2 ≠ 'u' ∧ entry.2 ≠ 'U' ∧ isBlank entry.2 = false
      ∧ entry.2 ≠ '\n' ∧ entry.2 ≠ '\r' := by
  decide

private theorem digitValue?_toUpper :
    ∀ d < 16, Number.digitValue? 16 (Nat.digitChar d).toUpper = some d := by
  decide

/-- Four digits hold a number below 65536. -/
private theorem ofDigits_fourDigits {n : Nat} (h : n < 65536) :
    Number.ofDigits 16 (fourDigits n) = n := by
  unfold fourDigits Number.ofDigits
  simp only [List.map_cons, List.map_nil, List.foldl_cons, List.foldl_nil]
  rw [digitValue?_toUpper _ (Nat.mod_lt _ (by decide)), digitValue?_toUpper _ (Nat.mod_lt _ (by decide)),
    digitValue?_toUpper _ (Nat.mod_lt _ (by decide)), digitValue?_toUpper _ (Nat.mod_lt _ (by decide))]
  simp only [Option.getD_some]
  omega

private theorem isDigit_of_mem_fourDigits {n : Nat} {c : Char} (h : c ∈ fourDigits n) :
    Number.isDigit 16 c = true := by
  obtain ⟨d, hd, rfl⟩ := List.mem_map.mp h
  have hlt : d < 16 := by
    simp only [List.mem_cons, List.not_mem_nil, or_false] at hd
    omega
  unfold Number.isDigit
  rw [digitValue?_toUpper d hlt]
  rfl

/-- A long escape gives the character of its digits. -/
private theorem scalar_append {ds rest : List Char} {c : Char}
    (hall : ∀ d ∈ ds, Number.isDigit 16 d = true) (hvalue : Number.ofDigits 16 ds = c.toNat) :
    scalar ds.length (ds ++ rest) = some (c, rest) := by
  have hdigits : ds.all (Number.isDigit 16) = true := List.all_eq_true.mpr hall
  have hvalid : (Number.ofDigits 16 ds).isValidChar := by
    rw [hvalue]
    exact c.valid
  have hchar : Char.ofNatAux (Number.ofDigits 16 ds) hvalid = c := by
    apply Char.toNat_inj.mp
    exact hvalue
  unfold scalar
  rw [Text.Reader.get_bind]
  dsimp only
  rw [List.take_left, List.drop_left, hdigits, if_neg (by simp), dif_pos hvalid, hchar]
  rfl

/-- The escape of a character reads as the character. -/
structure Escapes (es : List Char) (c : Char) : Prop where
  reads : ∀ rest, escape (es ++ rest) = some (c, rest)
  /-- A backslash in front of it does not escape a line end. -/
  letter : ∃ e more, es = e :: more ∧ isBlank e = false ∧ e ≠ '\n' ∧ e ≠ '\r'

/-- A short escape gives the character of its letter. -/
private theorem escape_cons {letter : Char} {rest : List Char} (hu : letter ≠ 'u')
    (hU : letter ≠ 'U') :
    escape (letter :: rest)
      = (shortEscapes.find? fun entry => entry.2 = letter).map fun entry => (entry.1, rest) := by
  unfold escape
  rw [bind_of_eq_some (any_cons _ _)]
  split
  next => exact absurd rfl hu
  next => exact absurd rfl hU
  next =>
    cases shortEscapes.find? fun entry => entry.2 = letter <;> rfl

/-- A letter of the table escapes its character. -/
private theorem escapes_letter {entry : Char × Char} (h : entry ∈ shortEscapes) :
    Escapes [entry.2] entry.1 := by
  obtain ⟨hfind, hu, hU, hblank, hfeed, hreturn⟩ := find?_letter entry h
  refine ⟨fun rest => ?_, entry.2, [], rfl, hblank, hfeed, hreturn⟩
  rw [List.cons_append, escape_cons hu hU, hfind]
  rfl

/-- Four digits escape any character that they have room for. -/
private theorem escapes_fourDigits {c : Char} (h : c.toNat < 65536) :
    Escapes ('u' :: fourDigits c.toNat) c := by
  refine ⟨fun rest => ?_, 'u', _, rfl, by decide, by decide, by decide⟩
  unfold escape
  rw [List.cons_append, bind_of_eq_some (any_cons _ _)]
  exact scalar_append (fun d => isDigit_of_mem_fourDigits) (ofDigits_fourDigits h)

/-- A character that needs an escape has a code of at most four digits. -/
private theorem toNat_lt_of_needsEscape {c : Char} (h : needsEscape c = true) :
    c.toNat < 65536 := by
  unfold needsEscape isPlain at h
  simp only [Bool.and_eq_true, Bool.not_eq_true', Bool.or_eq_false_iff, decide_eq_false_iff_not,
    Bool.and_eq_false_iff] at h
  omega

/-- Every character that is written as an escape is read from it. -/
private theorem escapes_escaped {c : Char} (h : c.toNat < 65536) :
    ∃ es, escaped c = '\\' :: es ∧ Escapes es c := by
  unfold escaped
  split
  next entry hfind =>
    have hsame := List.find?_some hfind
    rw [decide_eq_true_iff] at hsame
    subst hsame
    exact ⟨_, rfl, escapes_letter (List.mem_of_find?_eq_some hfind)⟩
  next => exact ⟨_, rfl, escapes_fourDigits h⟩

-- =============================================================== bodies

/-- What stands for a character of a text. -/
inductive Shows (quote : Char) (escapes isLong : Bool) : List Char → Char → Prop
  | plain {c : Char} (isPlain : isPlain c = true) (notQuote : c ≠ quote)
      (notEscape : escapes = true → c ≠ '\\') : Shows quote escapes isLong [c] c
  | lineEnd (long : isLong = true) : Shows quote escapes isLong ['\n'] '\n'
  | escape {es : List Char} {c : Char} (allowed : escapes = true) (reads : Escapes es c) :
      Shows quote escapes isLong ('\\' :: es) c

/-- How many quotes may stand in a row. -/
def maxRun (isLong : Bool) : Nat := if isLong then 2 else 0

/-- What stands between quotes for a text, `run` quotes standing in front
of it. -/
inductive Body (quote : Char) (escapes isLong : Bool) : (run : Nat) → (body text : List Char) → Prop
  | stop {run : Nat} : Body quote escapes isLong run [] []
  | quote {run : Nat} {body text : List Char} (room : run < maxRun isLong)
      (more : Body quote escapes isLong (run + 1) body text) :
      Body quote escapes isLong run (quote :: body) (quote :: text)
  | char {run : Nat} {shown body text : List Char} {c : Char}
      (shows : Shows quote escapes isLong shown c) (more : Body quote escapes isLong 0 body text) :
      Body quote escapes isLong run (shown ++ body) (c :: text)

/-- The two kinds of quotes. -/
def IsQuote (c : Char) : Prop := c = '"' ∨ c = '\''

section

variable {quote c : Char} {escapes isLong : Bool} {run fuel : Nat}
  {body text shown seen rest : List Char}

theorem IsQuote.isPlain (h : IsQuote quote) : isPlain quote = true := by
  rcases h with rfl | rfl <;> decide

private theorem IsQuote.ne_backslash (h : IsQuote quote) : quote ≠ '\\' := by
  rcases h with rfl | rfl <;> decide

private theorem IsQuote.ne_lineEnd (h : IsQuote quote) : quote ≠ '\n' ∧ quote ≠ '\r' := by
  rcases h with rfl | rfl <;> decide

private theorem ne_return_of_isPlain (h : isPlain c = true) : c ≠ '\r' := by
  rintro rfl
  exact absurd h (by decide)

/-- What stands for a character begins with no quote, and with no line
end unless it is one. -/
theorem Shows.head (h : Shows quote escapes isLong shown c) (hquote : IsQuote quote) :
    ∃ d more, shown = d :: more ∧ d ≠ quote ∧ d ≠ '\r' ∧ (d = '\n' → c = '\n') := by
  cases h with
  | plain hplain hne _ =>
    exact ⟨c, [], rfl, hne, ne_return_of_isPlain hplain, id⟩
  | lineEnd => exact ⟨'\n', [], rfl, hquote.ne_lineEnd.1.symm, by decide, id⟩
  | @escape es => exact ⟨'\\', es, rfl, hquote.ne_backslash.symm, by decide, fun h => by cases h⟩

/-- A body is no shorter than its text. -/
theorem Body.length_le (h : Body quote escapes isLong run body text) (hquote : IsQuote quote) :
    text.length ≤ body.length := by
  induction h with
  | stop => exact Nat.le_refl 0
  | quote room more ih => exact Nat.succ_le_succ ih
  | char shows more ih =>
    obtain ⟨d, others, rfl, -⟩ := shows.head hquote
    rw [List.length_append, List.length_cons, List.length_cons]
    omega

-- ============================================================= one line

/-- A body on one line is read up to its quote. -/
private theorem lineBody_of_body (hquote : IsQuote quote)
    (h : Body quote escapes false run body text)
    (hfuel : text.length < fuel) :
    lineBody quote escapes fuel seen (body ++ quote :: rest) = some (seen.reverse ++ text, rest) := by
  induction h generalizing fuel seen with
  | stop =>
    obtain ⟨fuel, rfl⟩ := Nat.exists_eq_add_one_of_ne_zero (Nat.ne_of_gt hfuel)
    unfold lineBody
    rw [List.nil_append, bind_of_eq_some (any_cons _ _), if_pos rfl, List.append_nil]
    rfl
  | quote room more ih => exact absurd room (Nat.not_lt_zero _)
  | @char _ shown body text c shows more ih =>
    obtain ⟨fuel, rfl⟩ := Nat.exists_eq_add_one_of_ne_zero (Nat.ne_of_gt (Nat.zero_lt_of_lt hfuel))
    have hnext : lineBody quote escapes fuel (c :: seen) (body ++ quote :: rest)
        = some (seen.reverse ++ c :: text, rest) := by
      rw [ih (Nat.lt_of_succ_lt_succ hfuel), List.reverse_cons, List.append_assoc,
        List.singleton_append]
    rw [List.append_assoc]
    unfold lineBody
    -- A character stands for itself or behind a backslash; a line end is not allowed on one
    -- line.
    cases shows with
    | plain hplain hne hescape =>
      rw [List.singleton_append, bind_of_eq_some (any_cons _ _), if_neg hne,
        if_neg fun h => hescape h.1 h.2, if_pos hplain]
      exact hnext
    | lineEnd long => cases long
    | @escape es _ allowed reads =>
      rw [List.cons_append, bind_of_eq_some (any_cons _ _), if_neg hquote.ne_backslash.symm,
        if_pos ⟨allowed, rfl⟩, bind_of_eq_some (reads.reads _)]
      exact hnext

-- ======================================================== triple quotes

/-- How many quotes come next. -/
def ahead (quote : Char) (input : List Char) : Nat := (input.takeWhile (· = quote)).length

/-- A quote ahead is counted. -/
private theorem ahead_cons (quote : Char) (input : List Char) :
    ahead quote (quote :: input) = ahead quote input + 1 := by
  simp [ahead]

private theorem ahead_of_head_ne {input : List Char} (h : input.head? ≠ some quote) :
    ahead quote input = 0 := by
  cases input with
  | nil => rfl
  | cons d input =>
    have hd : d ≠ quote := fun hsame => h (congrArg some hsame)
    simp [ahead, hd]

/-- No character is shown with a quote in front. -/
private theorem Shows.ahead_eq (h : Shows quote escapes isLong shown c) (hquote : IsQuote quote)
    (more : List Char) : ahead quote (shown ++ more) = 0 := by
  obtain ⟨d, others, rfl, hd, -⟩ := h.head hquote
  exact ahead_of_head_ne fun hsame => hd (Option.some.inj hsame)

/-- The quotes that come next, the closing ones included: they close the
string behind all of its text, or they are too few to close it. -/
theorem Body.quotes_ahead (h : Body quote escapes true run body text) (hquote : IsQuote quote)
    (hrun : run ≤ 2) (hrest : rest.head? ≠ some quote) :
    (∃ k, text = List.replicate k quote ∧ body = List.replicate k quote ∧ run + k ≤ 2
        ∧ ahead quote (body ++ quote :: quote :: quote :: rest) = k + 3)
      ∨ ahead quote (body ++ quote :: quote :: quote :: rest) + run ≤ 2 := by
  induction h with
  | stop =>
    refine .inl ⟨0, rfl, rfl, hrun, ?_⟩
    rw [List.nil_append, ahead_cons, ahead_cons, ahead_cons, ahead_of_head_ne hrest]
  | @quote run body text room more ih =>
    rw [List.cons_append, ahead_cons]
    rcases ih room with ⟨k, rfl, rfl, hk, hcount⟩ | hcount
    · exact .inl ⟨k + 1, rfl, rfl, by omega, by omega⟩
    · exact .inr (by omega)
  | char shows more ih =>
    rw [List.append_assoc, shows.ahead_eq hquote]
    exact .inr (by omega)

/-- A closing triple quote, with the last quotes of the string in front
of it. -/
private theorem longBody_close {k : Nat} (hk : k ≤ 2)
    (hcount : ahead quote (List.replicate k quote ++ quote :: quote :: quote :: rest) = k + 3) :
    longBody quote escapes (fuel + 1) seen
        (List.replicate k quote ++ quote :: quote :: quote :: rest)
      = some (seen.reverse ++ List.replicate k quote, rest) := by
  have hdrop : (List.replicate k quote ++ quote :: quote :: quote :: rest).drop (k + 3) = rest := by
    rw [List.drop_append, List.length_replicate, List.drop_of_length_le (by simp)]
    simp
  unfold ahead at hcount
  unfold longBody
  rw [Text.Reader.get_bind]
  dsimp only
  rw [hcount, if_pos (by omega), show min (k + 3 - 3) 2 = k by omega]
  show some (seen.reverse ++ List.replicate k quote, List.drop (k + 3) _) = _
  rw [hdrop]

/-- What is read of a string with triple quotes that does not end here. -/
private theorem longBody_step {d : Char} {more : List Char} (hcount : ahead quote (d :: more) ≤ 2)
    (hreturn : d ≠ '\r') :
    longBody quote escapes (fuel + 1) seen (d :: more)
      = (if escapes ∧ d = '\\' then do
          match ← longEscape with
          | some e => longBody quote escapes fuel (e :: seen)
          | none => longBody quote escapes fuel seen
        else if isPlain d ∨ d = '\n' then longBody quote escapes fuel (d :: seen)
        else failure : Reader (List Char)) more := by
  have hhead : (d :: more).head? ≠ some '\r' := fun h => hreturn (Option.some.inj h)
  unfold ahead at hcount
  conv => lhs; unfold longBody
  rw [Text.Reader.get_bind]
  dsimp only
  rw [if_neg (by omega), bind_of_eq_some (hasWord_of_head_ne hhead), if_neg Bool.false_ne_true]
  exact bind_of_eq_some (any_cons _ _)

/-- A line ends with a line feed or a carriage return, and with nothing
else. -/
private theorem lineEnd_eq_none {d : Char} {more : List Char} (hfeed : d ≠ '\n')
    (hreturn : d ≠ '\r') :
    lineEnd (d :: more) = none := by
  unfold lineEnd
  rw [bind_of_eq_some (any_cons _ _)]
  split
  next => exact absurd rfl hfeed
  next => exact absurd rfl hreturn
  next => rfl

/-- An escape is read in a long text as in a short one. -/
private theorem longEscape_append {es : List Char} (h : Escapes es c) :
    longEscape (es ++ rest) = some (some c, rest) := by
  obtain ⟨e, more, rfl, hblank, hfeed, hreturn⟩ := h.letter
  have hnone : (do let _ ← Text.Reader.takeWhile isBlank; lineEnd : Reader Unit)
      (e :: more ++ rest) = none := by
    rw [List.cons_append, bind_of_eq_some (takeWhile_of_stopsAt (stopsAt_cons.mpr hblank)),
      lineEnd_eq_none hfeed hreturn]
  unfold longEscape
  rw [bind_of_eq_some (optional_of_eq_none hnone)]
  exact Text.Reader.map_eq_some_iff.mpr ⟨c, h.reads rest, rfl⟩

/-- A long body is read up to its three quotes. -/
private theorem longBody_of_body (hquote : IsQuote quote)
    (h : Body quote escapes true run body text)
    (hrun : run ≤ 2) (hrest : rest.head? ≠ some quote) (hfuel : text.length < fuel) :
    longBody quote escapes fuel seen (body ++ quote :: quote :: quote :: rest)
      = some (seen.reverse ++ text, rest) := by
  induction h generalizing fuel seen with
  | stop =>
    obtain ⟨fuel, rfl⟩ := Nat.exists_eq_add_one_of_ne_zero (Nat.ne_of_gt hfuel)
    refine longBody_close (Nat.zero_le 2) ?_
    rw [List.replicate_zero, List.nil_append, ahead_cons, ahead_cons, ahead_cons,
      ahead_of_head_ne hrest]
  | @quote run body text room more ih =>
    obtain ⟨fuel, rfl⟩ := Nat.exists_eq_add_one_of_ne_zero (Nat.ne_of_gt (Nat.zero_lt_of_lt hfuel))
    -- a quote is either among those that close the text or one of its own, and the count
    -- ahead tells which
    obtain ⟨k, htext, hbody, hk, hcount⟩ | hcount :=
      (Body.quote room more).quotes_ahead hquote hrun hrest
    · rw [hbody] at hcount ⊢
      rw [htext]
      exact longBody_close (by omega) hcount
    · rw [List.cons_append] at hcount ⊢
      rw [longBody_step (by omega) hquote.ne_lineEnd.2,
        if_neg fun h => hquote.ne_backslash h.2, if_pos (.inl hquote.isPlain),
        ih room (Nat.lt_of_succ_lt_succ hfuel), List.reverse_cons, List.append_assoc,
        List.singleton_append]
  | @char run shown body text c shows more ih =>
    obtain ⟨fuel, rfl⟩ := Nat.exists_eq_add_one_of_ne_zero (Nat.ne_of_gt (Nat.zero_lt_of_lt hfuel))
    have hnext : longBody quote escapes fuel (c :: seen) (body ++ quote :: quote :: quote :: rest)
        = some (seen.reverse ++ c :: text, rest) := by
      rw [ih (Nat.zero_le 2) (Nat.lt_of_succ_lt_succ hfuel), List.reverse_cons, List.append_assoc,
        List.singleton_append]
    have hcount := shows.ahead_eq hquote (body ++ quote :: quote :: quote :: rest)
    rw [List.append_assoc]
    cases shows with
    | plain hplain hne hescape =>
      rw [List.singleton_append] at hcount ⊢
      rw [longBody_step (by omega) (ne_return_of_isPlain hplain), if_neg fun h => hescape h.1 h.2,
        if_pos (.inl hplain)]
      exact hnext
    | lineEnd =>
      rw [List.singleton_append] at hcount ⊢
      rw [longBody_step (by omega) (by decide), if_neg fun h => absurd h.2 (by decide),
        if_pos (.inr rfl)]
      exact hnext
    | @escape es _ allowed reads =>
      rw [List.cons_append] at hcount ⊢
      rw [longBody_step (by omega) (by decide), if_pos ⟨allowed, rfl⟩,
        bind_of_eq_some (longEscape_append reads)]
      exact hnext

-- ================================================================ quotes

/-- A text in single quotes is read. -/
private theorem ofQuote_line (hquote : IsQuote quote) (h : Body quote escapes false 0 body text)
    (hrest : rest.head? ≠ some quote) :
    ofQuote quote escapes (quote :: (body ++ quote :: rest)) = some (String.ofList text, rest) := by
  -- what follows the quote is not two quotes more, so the text is a short one
  have hword : ¬ [quote, quote, quote] <+: quote :: (body ++ quote :: rest) := by
    rw [List.cons_prefix_cons]
    rintro ⟨-, hmore⟩
    cases h with
    | stop =>
      obtain ⟨-, hmore⟩ := List.cons_prefix_cons.mp hmore
      obtain ⟨others, rfl⟩ := hmore
      exact hrest rfl
    | quote room => exact absurd room (Nat.not_lt_zero _)
    | char shows =>
      obtain ⟨d, others, rfl, hd, -⟩ := shows.head hquote
      exact hd (List.cons_prefix_cons.mp hmore).1.symm
  have hfuel : text.length < (body ++ quote :: rest).length + 1 := by
    have := h.length_le hquote
    rw [List.length_append]
    omega
  unfold ofQuote line
  rw [bind_of_eq_some (hasWord_eq_false hword), if_neg Bool.false_ne_true,
    bind_of_eq_some (Text.Reader.char_cons quote _), Text.Reader.get_bind]
  exact Text.Reader.map_eq_some_iff.mpr ⟨text, lineBody_of_body hquote h hfuel, rfl⟩

/-- A string with triple quotes does not begin with a line end, unless its
text does. -/
theorem Body.lineEnd_eq_none (h : Body quote escapes true 0 body text) (hquote : IsQuote quote)
    (hone : '\n' ∉ text) : lineEnd (body ++ quote :: rest) = none := by
  cases h with
  | stop => exact Quoted.lineEnd_eq_none hquote.ne_lineEnd.1 hquote.ne_lineEnd.2
  | quote => exact Quoted.lineEnd_eq_none hquote.ne_lineEnd.1 hquote.ne_lineEnd.2
  | @char _ _ _ _ c shows =>
    obtain ⟨d, others, rfl, -, hreturn, hfeed⟩ := shows.head hquote
    refine Quoted.lineEnd_eq_none (fun hd => hone ?_) hreturn
    rw [← hfeed hd]
    exact List.mem_cons_self

private theorem ofQuote_long (hquote : IsQuote quote) (h : Body quote escapes true 0 body text)
    (hrest : rest.head? ≠ some quote) :
    ofQuote quote escapes
        ([quote, quote, quote] ++ (opening text ++ (body ++ quote :: quote :: quote :: rest)))
      = some (String.ofList text, rest) := by
  have hfuel : text.length < (body ++ quote :: quote :: quote :: rest).length + 1 := by
    have := h.length_le hquote
    rw [List.length_append]
    omega
  -- a line feed behind the opening quotes is put there for a text of several lines, and
  -- only for one
  have hopening : (optional lineEnd) (opening text ++ (body ++ quote :: quote :: quote :: rest))
      = some (if '\n' ∈ text then some () else none, body ++ quote :: quote :: quote :: rest) := by
    unfold opening
    by_cases hone : '\n' ∈ text
    · rw [if_pos (by simpa using hone), if_pos hone]
      exact optional_of_eq_some rfl
    · rw [if_neg (by simpa using hone), if_neg hone, List.nil_append]
      exact optional_of_eq_none (h.lineEnd_eq_none hquote hone)
  unfold ofQuote long
  rw [bind_of_eq_some (hasWord_append _ _), if_pos rfl, bind_of_eq_some hopening,
    Text.Reader.get_bind]
  exact Text.Reader.map_eq_some_iff.mpr
    ⟨text, longBody_of_body hquote h (Nat.zero_le 2) hrest hfuel, rfl⟩

end

-- =============================================================== writing

/-- What needs no escape is plain, or a line feed. -/
private theorem isPlain_or_of_not_needsEscape {c : Char} (h : ¬ needsEscape c = true) :
    isPlain c = true ∨ c = '\n' := by
  unfold needsEscape at h
  cases hplain : isPlain c with
  | true => exact .inl rfl
  | false => exact .inr (by simpa [hplain] using h)

/-- A text with its escapes. -/
private theorem body_basicBody (isLong : Bool) (run : Nat) (text : List Char) :
    Body '"' true isLong run (basicBody isLong run text) text := by
  fun_induction basicBody isLong run text with
  | case1 run => exact .stop
  | case2 run rest hroom ih =>
    obtain ⟨rfl, hroom⟩ := hroom
    exact .quote hroom ih
  | case3 run rest hroom ih =>
    have hreads : Escapes ['"'] '"' := escapes_letter (show ('"', '"') ∈ shortEscapes by decide)
    exact .char (.escape rfl hreads) ih
  | case4 run c rest hquote shown ih =>
    refine .char ?_ ih
    unfold shown
    split
    next hform =>
      have hsmall : c.toNat < 65536 := by
        rcases hform with rfl | rfl | hneeds | ⟨rfl, -⟩
        · decide
        · decide
        · exact toNat_lt_of_needsEscape hneeds
        · decide
      obtain ⟨es, hes, hreads⟩ := escapes_escaped hsmall
      rw [hes]
      exact .escape rfl hreads
    next hform =>
      simp only [not_or, not_and] at hform
      obtain ⟨-, hslash, hneeds, hone⟩ := hform
      rcases isPlain_or_of_not_needsEscape hneeds with hplain | rfl
      · exact .plain hplain hquote fun _ => hslash
      · exact .lineEnd (by simpa using hone rfl)

/-- The longest series of quotes and the last one of a text, `best` and
`run` being those of what stands in front of it. -/
def runs (quote : Char) (best run : Nat) (text : List Char) : Nat × Nat :=
  text.foldl (fun (best, run) c => if c = quote then (max best (run + 1), run + 1) else (best, 0))
    (best, run)

/-- A run goes on with each quote, and anything else ends it. -/
private theorem runs_cons (quote : Char) (best run : Nat) (c : Char) (text : List Char) :
    runs quote best run (c :: text)
      = if c = quote then runs quote (max best (run + 1)) (run + 1) text
        else runs quote best 0 text := by
  unfold runs
  rw [List.foldl_cons]
  dsimp only
  split <;> rfl

private theorem le_runs (quote : Char) (best run : Nat) (text : List Char) :
    best ≤ (runs quote best run text).1 := by
  induction text generalizing best run with
  | nil => exact Nat.le_refl _
  | cons c text ih =>
    rw [runs_cons]
    split
    · exact Nat.le_trans (Nat.le_max_left _ _) (ih _ _)
    · exact ih _ _

/-- A text as it is. -/
private theorem body_literal {isLong : Bool} {text : List Char} {best run : Nat}
    (hcontrol : ∀ c ∈ text, ¬ needsEscape c = true) (hone : '\n' ∈ text → isLong = true)
    (hruns : (runs '\'' best run text).1 ≤ maxRun isLong) :
    Body '\'' false isLong run text text := by
  induction text generalizing best run with
  | nil => exact .stop
  | cons c text ih =>
    have hmore : ∀ {best run}, (runs '\'' best run text).1 ≤ maxRun isLong →
        Body '\'' false isLong run text text :=
      ih (fun d hd => hcontrol d (List.mem_cons_of_mem c hd))
        fun hd => hone (List.mem_cons_of_mem c hd)
    -- the runs stay short enough, and so no quotes of the text close it
    rw [runs_cons] at hruns
    split at hruns
    next hquote =>
      subst hquote
      have hroom := Nat.le_trans (le_runs _ _ _ _) hruns
      exact .quote (by omega) (hmore hruns)
    next hquote =>
      have hshows : Shows '\'' false isLong [c] c := by
        rcases isPlain_or_of_not_needsEscape (hcontrol c List.mem_cons_self) with hplain | rfl
        · exact .plain hplain hquote nofun
        · exact .lineEnd (hone List.mem_cons_self)
      exact .char hshows (hmore hruns)

-- ================================================================= forms

/-- A form without escapes is only taken for a text that needs none. -/
private theorem formOf_literal {text : List Char} (h : formOf text = .literal) :
    (∀ c ∈ text, ¬ needsEscape c = true) ∧ '\n' ∉ text ∧ longestRun '\'' text = 0 := by
  unfold formOf at h
  dsimp only at h
  split at h
  · cases h
  split at h
  next hliteral =>
    simp only [Bool.and_eq_true, Bool.not_eq_true', List.any_eq_false, List.contains_eq_mem,
      decide_eq_false_iff_not, decide_eq_true_eq] at hliteral
    exact ⟨hliteral.1.1, hliteral.1.2, hliteral.2⟩
  split at h
  · cases h
  split at h
  · cases h
  split at h <;> cases h

/-- A long literal was chosen for a text without escapes and without three
quotes in a row. -/
private theorem formOf_longLiteral {text : List Char} (h : formOf text = .longLiteral) :
    (∀ c ∈ text, ¬ needsEscape c = true) ∧ longestRun '\'' text ≤ 2 := by
  unfold formOf at h
  dsimp only at h
  split at h
  · cases h
  split at h
  · cases h
  split at h
  · cases h
  split at h
  next hliteral =>
    simp only [Bool.and_eq_true, Bool.not_eq_true', List.any_eq_false, decide_eq_true_eq] at hliteral
    exact hliteral
  split at h <;> cases h

/-- The first quote tells how a string is written. -/
private theorem string_double (input : List Char) :
    string ('"' :: input) = ofQuote '"' true ('"' :: input) := rfl

private theorem string_single (input : List Char) :
    string ('\'' :: input) = ofQuote '\'' false ('\'' :: input) := rfl

/-- A string is read from what is written for it, if no quote follows. -/
theorem string_write (text : String) {rest : List Char}
    (hrest : ∀ quote, IsQuote quote → rest.head? ≠ some quote) :
    string ((write text).toList ++ rest) = some (text, rest) := by
  have hdouble : IsQuote '"' := .inl rfl
  have hsingle : IsQuote '\'' := .inr rfl
  have hwhole : String.ofList text.toList = text := String.ofList_toList
  unfold write
  dsimp only
  rw [String.toList_ofList]
  -- Each of the four forms is chosen for texts that it can hold.
  cases hform : formOf text.toList with
  | basic =>
    have hread := ofQuote_line hdouble (body_basicBody false 0 text.toList) (hrest _ hdouble)
    simpa [hwhole] using (string_double _).trans hread
  | literal =>
    obtain ⟨hcontrol, hone, hruns⟩ := formOf_literal hform
    have hbody : Body '\'' false false 0 text.toList text.toList :=
      body_literal hcontrol (fun h => absurd h hone) (Nat.le_of_eq hruns)
    have hread := ofQuote_line hsingle hbody (hrest _ hsingle)
    simpa [hwhole] using (string_single _).trans hread
  | longBasic =>
    have hread := ofQuote_long hdouble (body_basicBody true 0 text.toList) (hrest _ hdouble)
    simpa [hwhole] using (string_double _).trans hread
  | longLiteral =>
    obtain ⟨hcontrol, hruns⟩ := formOf_longLiteral hform
    have hbody : Body '\'' false true 0 text.toList text.toList :=
      body_literal hcontrol (fun _ => rfl) hruns
    have hread := ofQuote_long hsingle hbody (hrest _ hsingle)
    simpa [hwhole] using (string_single _).trans hread

/-- What is written begins with a quote. -/
theorem head?_write (text : String) : ∃ quote, IsQuote quote ∧ (write text).toList.head? = some quote := by
  unfold write
  dsimp only
  rw [String.toList_ofList]
  cases formOf text.toList with
  | basic => exact ⟨'"', .inl rfl, rfl⟩
  | literal => exact ⟨'\'', .inr rfl, rfl⟩
  | longBasic => exact ⟨'"', .inl rfl, rfl⟩
  | longLiteral => exact ⟨'\'', .inr rfl, rfl⟩

end RouterSeed.Toml.Quoted

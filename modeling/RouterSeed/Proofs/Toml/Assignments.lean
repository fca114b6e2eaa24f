/-
Documents that are lines of keys with strings and numbers.

Such a document is read line by line (`linesUpTo_line`), and if no
key comes twice, its items are the settings at their keys
(`parse?_document`). A number needs the most care: a date, a float and a
time begin with digits as well, and all of them are tried first. None of
them is the end of a line behind its digits, and the number is.
-/
import RouterSeed.Proofs.Toml.Quoted
import RouterSeed.Toml.Document

namespace RouterSeed.Toml

open Text (Reader StopsAt stopsAt_cons)
open Text.Reader (word bind_of_eq_some bind_of_eq_none bind_eq_some_iff peek?_bind char
  char_cons char_of_ne char_eq_some_iff hasWord hasWord_of_head_ne hasWord_eq_false
  takeWhile_append takeWhile_of_stopsAt optional_of_eq_none orElse_of_eq_none
  orElse_of_eq_some pure_eq_some_iff)

variable {rest ds : List Char} {n : Nat}

-- ============================================================== numbers

/-- Digits and the end of their line. -/
structure Numeral (ds : List Char) : Prop where
  nonempty : ds ≠ []
  digits : ∀ c ∈ ds, Number.isDigit 10 c = true

/-- The digits of a number are a numeral. -/
private theorem numeral_digits (n : Nat) : Numeral (Number.digits 10 n) where
  nonempty := Number.digits_ne_nil (by decide) n
  digits := Number.isDigit_of_mem_digits (by decide) (by decide) n

/-- A numeral begins with a digit, whatever follows. -/
theorem Numeral.head (h : Numeral ds) :
    ∃ d, (∀ more, (ds ++ more).head? = some d) ∧ ds.head? = some d ∧ Number.isDigit 10 d = true := by
  obtain ⟨d, ds, rfl⟩ := List.exists_cons_of_ne_nil h.nonempty
  exact ⟨d, fun _ => rfl, rfl, h.digits d List.mem_cons_self⟩

private theorem Numeral.head_ne (h : Numeral ds) {c : Char} (hc : Number.isDigit 10 c = false)
    (more : List Char) : (ds ++ more).head? ≠ some c := by
  obtain ⟨d, hd, -, hdigit⟩ := h.head
  rw [hd]
  rintro ⟨⟩
  rw [hdigit] at hc
  cases hc

/-- A numeral is one run of digits up to the end of the line. -/
private theorem Numeral.takeWhile_eq (h : Numeral ds) (rest : List Char) :
    Reader.takeWhile (Number.isDigit 10) (ds ++ '\n' :: rest) = some (ds, '\n' :: rest) :=
  takeWhile_append h.digits (stopsAt_cons.mpr (by decide))

/-- The digits of a line end where the line ends. -/
private theorem Numeral.eq_lineEnd (h : Numeral ds) {es more : List Char} {c : Char}
    (hsame : ds ++ '\n' :: rest = es ++ c :: more) (hes : ∀ d ∈ es, Number.isDigit 10 d = true)
    (hc : Number.isDigit 10 c = false) : c = '\n' := by
  have hfirst := h.takeWhile_eq rest
  rw [hsame, takeWhile_append hes (stopsAt_cons.mpr hc)] at hfirst
  exact (List.cons.inj (Prod.mk.inj (Option.some.inj hfirst)).2).1

/-- A fixed number of digits is made of digits. -/
private theorem fixed_eq_some {count : Nat} {input : List Char}
    (h : fixed count input = some (n, rest)) :
    ∃ ds, input = ds ++ rest ∧ ∀ c ∈ ds, Number.isDigit 10 c = true := by
  unfold fixed at h
  rw [Text.Reader.get_bind] at h
  dsimp only at h
  split at h
  · cases h
  next hform =>
    rw [Text.Reader.set_bind] at h
    obtain ⟨-, rfl⟩ := pure_eq_some_iff.mp h
    simp only [not_or, Bool.not_eq_true', Bool.not_eq_false, ne_eq, Decidable.not_not] at hform
    exact ⟨input.take count, (List.take_append_drop count input).symm,
      List.all_eq_true.mp hform.2⟩

/-- No date and no time begins with digits and the end of a line. -/
private theorem Numeral.fixed_char_eq_none {β : Type} {count : Nat} {c : Char}
    {next : Nat → Reader β}
    (h : Numeral ds) (hdigit : Number.isDigit 10 c = false) (hc : c ≠ '\n') (rest : List Char) :
    (do let n ← fixed count; char c; next n : Reader β) (ds ++ '\n' :: rest) = none := by
  rw [Option.eq_none_iff_forall_ne_some]
  rintro ⟨b, left⟩ hread
  obtain ⟨n, more, hfixed, hread⟩ := bind_eq_some_iff.mp hread
  obtain ⟨_, behind, hchar, -⟩ := bind_eq_some_iff.mp hread
  obtain ⟨es, hinput, hes⟩ := fixed_eq_some hfixed
  rw [char_eq_some_iff.mp hchar] at hinput
  exact hc (h.eq_lineEnd hinput hes hdigit)

/-- A numeral is no date. -/
private theorem Numeral.dateTime_eq_none (h : Numeral ds) (rest : List Char) :
    dateTime (ds ++ '\n' :: rest) = none := by
  have hdate : date (ds ++ '\n' :: rest) = none :=
    h.fixed_char_eq_none (by decide) (by decide) rest
  have htime : time (ds ++ '\n' :: rest) = none :=
    bind_of_eq_none (h.fixed_char_eq_none (by decide) (by decide) rest)
  unfold dateTime
  rw [bind_of_eq_some (optional_of_eq_none hdate)]
  exact bind_of_eq_none htime

private theorem Numeral.sign_eq (h : Numeral ds) (rest : List Char) :
    sign (ds ++ rest) = some (false, ds ++ rest) := by
  unfold sign
  rw [bind_of_eq_some (hasWord_of_head_ne (h.head_ne (by decide) rest)), if_neg Bool.false_ne_true,
    bind_of_eq_some (hasWord_of_head_ne (h.head_ne (by decide) rest))]
  rfl

private theorem Numeral.grouped_eq (h : Numeral ds) (rest : List Char) :
    grouped 10 (ds ++ '\n' :: rest) = some (ds, '\n' :: rest) := by
  have hend : ('\n' :: rest).head? ≠ some '_' := nofun
  unfold grouped
  rw [Text.Reader.get_bind]
  unfold groupedUpTo
  rw [bind_of_eq_some (h.takeWhile_eq rest), if_neg h.nonempty]
  dsimp only
  rw [bind_of_eq_some (hasWord_of_head_ne hend)]
  rfl

/-- A decimal that begins with no zero is a group of digits. -/
private theorem decimal_of_head_ne {input : List Char} (h : input.head? ≠ some '0') :
    decimal input = grouped 10 input := by
  unfold decimal
  rw [peek?_bind]
  generalize input.head? = c at h
  split
  next => exact absurd rfl h
  next => rfl

/-- A decimal that was written is read in full. -/
private theorem decimal_digits (n : Nat) (rest : List Char) :
    decimal (Number.digits 10 n ++ '\n' :: rest) = some (Number.digits 10 n, '\n' :: rest) := by
  by_cases hzero : n = 0
  · subst hzero
    rw [Number.digits_of_lt (by decide)]
    rfl
  · obtain ⟨d, hd, hhead, -⟩ := (numeral_digits n).head
    rw [decimal_of_head_ne, (numeral_digits n).grouped_eq]
    rw [hd, ← hhead]
    exact fun h => hzero (Number.eq_zero_of_head?_digits (by decide) (by decide) h)

/-- Digits alone are no float. -/
private theorem pointed_digits (n : Nat) (rest : List Char) :
    pointed (Number.digits 10 n ++ '\n' :: rest) = none := by
  have hpoint : ('\n' :: rest).head? ≠ some '.' := nofun
  have hletter : ('\n' :: rest).head? ≠ some 'e' := nofun
  have hpower : exponent ('\n' :: rest) = none := by
    unfold exponent
    rw [bind_of_eq_some (hasWord_of_head_ne hletter)]
    exact bind_of_eq_none (char_of_ne (by decide) rest)
  have hnone : (some <$> exponent : Reader (Option Int)) ('\n' :: rest) = none := by
    show (do let e ← exponent; pure (some e) : Reader (Option Int)) ('\n' :: rest) = none
    exact bind_of_eq_none hpower
  unfold pointed
  rw [bind_of_eq_some ((numeral_digits n).sign_eq _), bind_of_eq_some (decimal_digits n rest),
    bind_of_eq_some (hasWord_of_head_ne hpoint), if_neg Bool.false_ne_true, pure_bind]
  exact bind_of_eq_none hnone

private theorem Numeral.special_eq_none (h : Numeral ds) (rest : List Char) :
    special (ds ++ rest) = none := by
  have hword : word "nan".toList (ds ++ rest) = none := by
    obtain ⟨d, hd, -, hdigit⟩ := h.head
    rw [Option.eq_none_iff_forall_ne_some]
    rintro ⟨u, left⟩ hread
    rw [Text.Reader.word_eq_some_iff] at hread
    have hn := hd rest
    rw [hread] at hn
    cases hn
    exact absurd hdigit (by decide)
  unfold special
  rw [bind_of_eq_some (h.sign_eq rest),
    bind_of_eq_some (hasWord_of_head_ne (h.head_ne (by decide) rest))]
  exact bind_of_eq_none hword

/-- Digits alone are no number in another radix. -/
private theorem Numeral.hasWord_radix (h : Numeral ds) {c : Char} (hc : Number.isDigit 10 c = false)
    (hend : c ≠ '\n') (rest : List Char) :
    hasWord ['0', c] (ds ++ '\n' :: rest) = some (false, ds ++ '\n' :: rest) := by
  apply hasWord_eq_false
  rintro ⟨more, hmore⟩
  have hsame : ds ++ '\n' :: rest = ['0'] ++ c :: more := hmore.symm
  exact hend (h.eq_lineEnd hsame (List.forall_mem_singleton.mpr rfl) hc)

/-- The digits of a number have no radix in front, so they are read as a
decimal. -/
private theorem prefixed_digits (n : Nat) (rest : List Char) :
    prefixed (Number.digits 10 n ++ '\n' :: rest) = some ((n : Int), '\n' :: rest) := by
  have h := numeral_digits n
  have hx := h.hasWord_radix (c := 'x') (by decide) (by decide) rest
  have ho := h.hasWord_radix (c := 'o') (by decide) (by decide) rest
  have hb := h.hasWord_radix (c := 'b') (by decide) (by decide) rest
  unfold prefixed
  rw [bind_of_eq_some hx, if_neg Bool.false_ne_true, bind_of_eq_some ho, if_neg Bool.false_ne_true,
    bind_of_eq_some hb, if_neg Bool.false_ne_true, bind_of_eq_some (h.sign_eq _),
    bind_of_eq_some (decimal_digits n rest), Number.ofDigits_digits (by decide) (by decide)]
  rfl

/-- Digits are read as an integer. -/
private theorem integer_digits {n : Nat} (hn : n < integerLimit) (rest : List Char) :
    integer (Number.digits 10 n ++ '\n' :: rest) = some (.integer n, '\n' :: rest) := by
  have hfits : fitsInteger (n : Int) = true := by
    unfold fitsInteger
    simp only [Bool.and_eq_true, decide_eq_true_eq]
    omega
  unfold integer
  rw [bind_of_eq_some (prefixed_digits n rest), if_pos hfits]
  rfl

/-- A number is read from its digits. -/
private theorem scalar_digits {n : Nat} (hn : n < integerLimit) (rest : List Char) :
    scalar (Number.digits 10 n ++ '\n' :: rest) = some (.integer n, '\n' :: rest) := by
  have h := numeral_digits n
  unfold scalar
  rw [orElse_of_eq_none (h.dateTime_eq_none rest), orElse_of_eq_none (pointed_digits n rest),
    orElse_of_eq_none (h.special_eq_none _), orElse_of_eq_some (integer_digits hn rest)]

-- ============================================================== scalars

/-- A string, or a number that is not negative: what settings are written
as. -/
inductive Scalar where
  | text (text : String)
  | number (number : Nat)
  deriving DecidableEq, Repr

namespace Scalar

/-- What a setting is in a document. -/
def value : Scalar → Value
  | .text t => .string t
  | .number n => .integer n

/-- The written form of a setting. -/
def written : Scalar → List Char
  | .text t => (Quoted.write t).toList
  | .number n => Number.digits 10 n

/-- A TOML file can hold the setting. -/
def Fits : Scalar → Prop
  | .text _ => True
  | .number n => n < integerLimit

end Scalar

/-- A value that begins with a quote is a text. -/
private theorem valueWith_quote {inner : Option (Reader Value)} {input : List Char} {quote : Char}
    (hquote : Quoted.IsQuote quote) (h : input.head? = some quote) :
    valueWith inner input = (Value.string <$> Quoted.string) input := by
  unfold valueWith
  rw [peek?_bind, h]
  rcases hquote with rfl | rfl <;> rfl

/-- A value that begins with a digit is a number or a date. -/
private theorem valueWith_digit {inner : Option (Reader Value)} {input : List Char} {d : Char}
    (hdigit : Number.isDigit 10 d = true) (h : input.head? = some d) :
    valueWith inner input = scalar input := by
  -- none of the four openings is a digit
  have hne : ∀ c, Number.isDigit 10 c = false → input.head? ≠ some c := by
    rintro c hc hsame
    rw [h] at hsame
    cases hsame
    rw [hdigit] at hc
    cases hc
  unfold valueWith
  rw [peek?_bind]
  generalize input.head? = head at hne
  split
  next => exact absurd rfl (hne '"' (by decide))
  next => exact absurd rfl (hne '\'' (by decide))
  next => exact absurd rfl (hne '[' (by decide))
  next => exact absurd rfl (hne '{' (by decide))
  next => rfl

/-- What is written of a setting begins with no blank. -/
private theorem Scalar.stopsAt_written (s : Scalar) (rest : List Char) :
    StopsAt Quoted.isBlank (s.written ++ rest) := by
  have hhead : ∃ c, s.written.head? = some c ∧ Quoted.isBlank c = false := by
    -- a text begins with its quote, and a number with a digit
    cases s with
    | text text =>
      obtain ⟨quote, hquote, hhead⟩ := Quoted.head?_write text
      refine ⟨quote, hhead, ?_⟩
      rcases hquote with rfl | rfl <;> decide
    | number n =>
      obtain ⟨d, -, hhead, hdigit⟩ := (numeral_digits n).head
      refine ⟨d, hhead, ?_⟩
      rw [Bool.eq_false_iff]
      intro hblank
      unfold Quoted.isBlank at hblank
      simp only [Bool.or_eq_true, decide_eq_true_eq] at hblank
      rcases hblank with rfl | rfl <;> exact absurd hdigit (by decide)
  obtain ⟨c, hc, hblank⟩ := hhead
  intro d hd
  rw [List.head?_append, hc] at hd
  cases hd
  exact hblank

/-- A setting is read from its written form at the end of a line. -/
private theorem Scalar.value_written {s : Scalar} (h : s.Fits) (rest : List Char) :
    Toml.value maxDepth (s.written ++ '\n' :: rest) = some (s.value, '\n' :: rest) := by
  show valueWith (some (Toml.value 78)) _ = _
  cases s with
  | text text =>
    obtain ⟨quote, hquote, hhead⟩ := Quoted.head?_write text
    have hfollows : ∀ quote, Quoted.IsQuote quote → ('\n' :: rest).head? ≠ some quote := by
      rintro _ (rfl | rfl) ⟨⟩
    have hinput : ((Quoted.write text).toList ++ '\n' :: rest).head? = some quote := by
      rw [List.head?_append, hhead]
      rfl
    rw [Scalar.written, valueWith_quote hquote hinput]
    exact Text.Reader.map_eq_some_iff.mpr ⟨text, Quoted.string_write text hfollows, rfl⟩
  | number n =>
    obtain ⟨d, hhead, -, hdigit⟩ := (numeral_digits n).head
    rw [Scalar.written, valueWith_digit hdigit (hhead _)]
    exact scalar_digits h rest

-- ================================================================= keys

/-- The key needs no quotes. -/
def IsBareKey (key : String) : Prop := key.toList ≠ [] ∧ ∀ c ∈ key.toList, isBare c = true

instance (key : String) : Decidable (IsBareKey key) :=
  decidable_of_iff (key.toList ≠ [] ∧ key.toList.all isBare = true)
    (and_congr_right fun _ => List.all_eq_true)

/-- There need not be blanks. -/
private theorem blanks_of_stopsAt {input : List Char} (h : StopsAt Quoted.isBlank input) :
    blanks input = some ((), input) := by
  unfold blanks
  rw [bind_of_eq_some (takeWhile_of_stopsAt h)]
  rfl

private theorem blanks_space (h : StopsAt Quoted.isBlank rest) : blanks (' ' :: rest) = some
    ((), rest) := by
  have htake : Reader.takeWhile Quoted.isBlank ([' '] ++ rest) = some ([' '], rest) :=
    takeWhile_append (List.forall_mem_singleton.mpr rfl) h
  rw [List.singleton_append] at htake
  unfold blanks
  rw [bind_of_eq_some htake]
  rfl

/-- A bare key begins with one of its characters. -/
theorem IsBareKey.head {key : String} (h : IsBareKey key) :
    ∃ c, (∀ more, (key.toList ++ more).head? = some c) ∧ isBare c = true := by
  obtain ⟨c, cs, hcs⟩ := List.exists_cons_of_ne_nil h.1
  refine ⟨c, fun more => ?_, h.2 c ?_⟩
  · rw [hcs]
    rfl
  · rw [hcs]
    exact List.mem_cons_self

theorem IsBareKey.stopsAt {key : String} (h : IsBareKey key) (more : List Char) :
    StopsAt Quoted.isBlank (key.toList ++ more) := by
  obtain ⟨c, hc, hbare⟩ := h.head
  intro d hd
  rw [hc] at hd
  cases hd
  rw [Bool.eq_false_iff]
  intro hblank
  unfold Quoted.isBlank at hblank
  simp only [Bool.or_eq_true, decide_eq_true_eq] at hblank
  rcases hblank with rfl | rfl <;> exact absurd hbare (by decide)

/-- A bare key is read as a name. -/
private theorem name_bare {key : String} (h : IsBareKey key) (rest : List Char) :
    name (key.toList ++ ' ' :: rest) = some (key, ' ' :: rest) := by
  obtain ⟨c, hc, hbare⟩ := h.head
  -- a bare character is no quote, so the name is not a quoted one
  have hne : ∀ quote, Quoted.IsQuote quote → (key.toList ++ ' ' :: rest).head? ≠ some quote := by
    rintro quote hquote hsame
    rw [hc] at hsame
    cases hsame
    rcases hquote with rfl | rfl <;> exact absurd hbare (by decide)
  have htake : Reader.takeWhile isBare (key.toList ++ ' ' :: rest) = some (key.toList, ' ' :: rest) :=
    takeWhile_append h.2 (stopsAt_cons.mpr (by decide))
  unfold name
  rw [peek?_bind]
  generalize (key.toList ++ ' ' :: rest).head? = head at hne
  split
  next => exact absurd rfl (hne _ (.inl rfl))
  next => exact absurd rfl (hne _ (.inr rfl))
  next =>
    rw [bind_of_eq_some htake, if_neg h.1, String.ofList_toList]
    rfl

/-- A name with no dot behind it is the whole key. -/
private theorem key_bare {k : String} (h : IsBareKey k) (rest : List Char) :
    key (k.toList ++ ' ' :: '=' :: rest) = some ([k], '=' :: rest) := by
  have hitem : (do blanks; let n ← name; blanks; pure n : Reader String)
      (k.toList ++ ' ' :: '=' :: rest) = some (k, '=' :: rest) := by
    rw [bind_of_eq_some (blanks_of_stopsAt (h.stopsAt _)), bind_of_eq_some (name_bare h _),
      bind_of_eq_some (blanks_space (stopsAt_cons.mpr (by decide)))]
    rfl
  -- the equals sign is no dot, so there is no further part
  have hnone : ∀ more : Reader (List String),
      (do char '.'; more : Reader (List String)) ('=' :: rest) = none :=
    fun more => bind_of_eq_none (char_of_ne (by decide) rest)
  unfold key
  rw [Text.Reader.get_bind]
  unfold Text.Reader.separatedUpTo
  dsimp only
  rw [bind_eq_some_iff]
  refine ⟨[k], '=' :: rest, ?_, rfl⟩
  rw [bind_of_eq_some hitem, bind_of_eq_some (optional_of_eq_none (hnone _))]
  rfl

-- ================================================================ lines

/-- The line of a key with its setting. -/
def assignmentLine (entry : String × Scalar) : List Char :=
  entry.1.toList ++ " = ".toList ++ entry.2.written ++ ['\n']

/-- A key that needs no quotes, with a setting that a file can hold. -/
structure IsEntry (entry : String × Scalar) : Prop where
  bare : IsBareKey entry.1
  fits : entry.2.Fits

section

variable {entry : String × Scalar}

/-- A line is a key, an equals sign and a value. -/
private theorem assignmentLine_append (entry : String × Scalar) (rest : List Char) :
    assignmentLine entry ++ rest
      = entry.1.toList ++ ' ' :: '=' :: ' ' :: (entry.2.written ++ '\n' :: rest) := by
  unfold assignmentLine
  simp

/-- A line that was written is read as its assignment. -/
private theorem assignment_line (h : IsEntry entry) (rest : List Char) :
    assignment (assignmentLine entry ++ rest)
      = some (.assignment [entry.1] entry.2.value, '\n' :: rest) := by
  have hblanks := blanks_space (entry.2.stopsAt_written ('\n' :: rest))
  rw [assignmentLine_append]
  unfold assignment
  rw [bind_of_eq_some (key_bare h.bare _), bind_of_eq_some (char_cons '=' _),
    bind_of_eq_some hblanks, bind_of_eq_some (Scalar.value_written h.fits rest)]
  rfl

private theorem lineRest_lineEnd (rest : List Char) : lineRest ('\n' :: rest) = some
    ((), rest) := by
  have hcomment : comment ('\n' :: rest) = none := bind_of_eq_none (char_of_ne (by decide) rest)
  unfold lineRest
  rw [bind_of_eq_some (blanks_of_stopsAt (stopsAt_cons.mpr (by decide))),
    bind_of_eq_some (optional_of_eq_none hcomment), peek?_bind]
  rfl

/-- What a line of a key is read for. -/
def lineOf (entry : String × Scalar) : Line := .assignment [entry.1] entry.2.value

/-- One line is read, and the rest is left. -/
private theorem linesUpTo_line (h : IsEntry entry) (fuel : Nat) (seen : List Line)
    (rest : List Char) :
    linesUpTo (fuel + 1) seen (assignmentLine entry ++ rest)
      = linesUpTo fuel (lineOf entry :: seen) rest := by
  obtain ⟨c, hhead, hbare⟩ := h.bare.head
  have hread : (do
      let line ← assignment
      lineRest
      linesUpTo fuel (line :: seen) : Reader (List Line)) (assignmentLine entry ++ rest)
      = linesUpTo fuel (lineOf entry :: seen) rest := by
    rw [bind_of_eq_some (assignment_line h rest), bind_of_eq_some (lineRest_lineEnd rest)]
    rfl
  have hblanks : blanks (assignmentLine entry ++ rest) = some ((), assignmentLine entry ++ rest) := by
    rw [assignmentLine_append]
    exact blanks_of_stopsAt (h.bare.stopsAt _)
  -- the line is no comment, no table and not empty
  have hother : ∀ d, isBare d = false → (assignmentLine entry ++ rest).head? ≠ some d := by
    intro d hd hsame
    rw [assignmentLine_append, hhead] at hsame
    cases hsame
    rw [hbare] at hd
    cases hd
  have hsome : (assignmentLine entry ++ rest).head? ≠ none := by
    rw [assignmentLine_append, hhead]
    exact Option.some_ne_none c
  conv => lhs; unfold linesUpTo
  rw [bind_of_eq_some hblanks, peek?_bind]
  generalize (assignmentLine entry ++ rest).head? = head at hother hsome
  split
  next => exact absurd rfl hsome
  next => exact absurd rfl (hother '#' (by decide))
  next => exact absurd rfl (hother '\n' (by decide))
  next => exact absurd rfl (hother '\r' (by decide))
  next => exact absurd rfl (hother '[' (by decide))
  next => exact hread

private theorem linesUpTo_nil (fuel : Nat) (seen : List Line) :
    linesUpTo (fuel + 1) seen [] = some (seen.reverse, []) := by
  unfold linesUpTo
  rw [bind_of_eq_some (blanks_of_stopsAt (Text.stopsAt_nil _)), peek?_bind]
  rfl

/-- The lines are read in their order, with fuel enough for one step each. -/
private theorem linesUpTo_lines {entries : List (String × Scalar)}
    (h : ∀ entry ∈ entries, IsEntry entry)
    {fuel : Nat} (hfuel : entries.length < fuel) (seen : List Line) :
    linesUpTo fuel seen (entries.flatMap assignmentLine)
      = some (seen.reverse ++ entries.map lineOf, []) := by
  induction entries generalizing fuel seen with
  | nil =>
    obtain ⟨fuel, rfl⟩ := Nat.exists_eq_add_one_of_ne_zero (Nat.ne_of_gt hfuel)
    rw [List.flatMap_nil, linesUpTo_nil, List.map_nil, List.append_nil]
  | cons entry entries ih =>
    obtain ⟨fuel, rfl⟩ := Nat.exists_eq_add_one_of_ne_zero (Nat.ne_of_gt (Nat.zero_lt_of_lt hfuel))
    rw [List.flatMap_cons, linesUpTo_line (h entry List.mem_cons_self),
      ih (fun e he => h e (List.mem_cons_of_mem entry he)) (Nat.lt_of_succ_lt_succ hfuel),
      List.reverse_cons, List.append_assoc, List.singleton_append, List.map_cons]

private theorem length_le_document (entries : List (String × Scalar)) :
    entries.length ≤ (entries.flatMap assignmentLine).length := by
  induction entries with
  | nil => exact Nat.le_refl 0
  | cons entry entries ih =>
    have hline : 0 < (assignmentLine entry).length := by
      unfold assignmentLine
      rw [List.length_append]
      exact Nat.succ_pos _
    rw [List.flatMap_cons, List.length_append, List.length_cons]
    omega

/-- A document is read as its lines. -/
private theorem lines_document {entries : List (String × Scalar)}
    (h : ∀ entry ∈ entries, IsEntry entry) :
    lines (entries.flatMap assignmentLine) = some (entries.map lineOf, []) := by
  have hhead : (entries.flatMap assignmentLine).head? ≠ some '\uFEFF' := by
    cases entries with
    | nil => nofun
    | cons entry entries =>
      obtain ⟨c, hc, hbare⟩ := (h entry List.mem_cons_self).bare.head
      rw [List.flatMap_cons, assignmentLine_append, hc]
      rintro ⟨⟩
      exact absurd hbare (by decide)
  unfold lines
  rw [bind_of_eq_some (hasWord_of_head_ne hhead), Text.Reader.get_bind,
    linesUpTo_lines h (Nat.lt_succ_of_le (length_le_document entries))]
  rfl

end

-- ================================================================ items

/-- The item of a setting at its key. -/
def itemOf (entry : String × Scalar) : Place × Item := ([⟨entry.1, 0⟩], .value entry.2.value)

/-- Below the top, an entry is found under its key. -/
theorem at?_itemOf (entries : List (String × Scalar)) (key : String) :
    Items.at? (entries.map itemOf) [⟨key, 0⟩]
      = (entries.lookup key).map fun s => .value s.value := by
  unfold Items.at?
  induction entries with
  | nil => rfl
  | cons entry entries ih =>
    obtain ⟨name, s⟩ := entry
    rw [List.map_cons, itemOf, List.lookup_cons, List.lookup_cons]
    by_cases hsame : key = name
    · subst hsame
      rw [beq_self_eq_true, beq_self_eq_true]
      rfl
    · have hplaces : ([⟨key, 0⟩] : Place) ≠ [⟨name, 0⟩] := by
        rintro ⟨⟩
        exact hsame rfl
      rw [beq_false_of_ne hsame, beq_false_of_ne hplaces]
      exact ih

private theorem at?_top (entries : List (String × Scalar)) : Items.at? (entries.map itemOf)
    [] = none := by
  unfold Items.at?
  rw [List.lookup_eq_none_iff]
  intro item hitem
  obtain ⟨entry, -, rfl⟩ := List.mem_map.mp hitem
  rfl

/-- A key that is new is defined behind the others. -/
private theorem define_itemOf {entries : List (String × Scalar)} {entry : String × Scalar}
    (hnew : entries.lookup entry.1 = none) :
    Items.define (entries.map itemOf) [] [entry.1] entry.2.value
      = some ((entries ++ [entry]).map itemOf) := by
  have hplace : Items.at? (entries.map itemOf) (Items.inside [] entry.1) = none := by
    show Items.at? (entries.map itemOf) [⟨entry.1, 0⟩] = none
    rw [at?_itemOf, hnew]
    rfl
  have hdotted : Items.isDotted (entries.map itemOf) [] = false := by
    unfold Items.isDotted
    rw [at?_top]
  have hset : Items.set (entries.map itemOf) (Items.inside [] entry.1) (.value entry.2.value)
      = (entries ++ [entry]).map itemOf := by
    unfold Items.set
    rw [hplace, List.map_append]
    rfl
  unfold Items.define
  rw [List.getLast?_singleton, List.dropLast_singleton]
  dsimp only [bind, Option.bind, Items.descend]
  rw [hdotted, hplace, hset]
  rfl

/-- Entries with different keys are added one after the other. -/
private theorem foldlM_addLine {before entries : List (String × Scalar)}
    (distinct : ((before ++ entries).map Prod.fst).Nodup) :
    (entries.map lineOf).foldlM
        (fun (p : Items × Place) line => addLine p.1 p.2 line) (before.map itemOf, [])
      = some ((before ++ entries).map itemOf, []) := by
  induction entries generalizing before with
  | nil =>
    rw [List.append_nil]
    rfl
  | cons entry entries ih =>
    -- the key of the next entry is new, so it is defined and not redefined
    have hnew : before.lookup entry.1 = none := by
      rw [List.lookup_eq_none_iff]
      intro other hother
      rw [List.map_append, List.map_cons] at distinct
      have hne : other.1 ≠ entry.1 := (List.nodup_append.mp distinct).2.2 _
        (List.mem_map_of_mem hother) _ List.mem_cons_self
      exact bne_iff_ne.mpr hne.symm
    have hadd : addLine (before.map itemOf) [] (lineOf entry)
        = some ((before ++ [entry]).map itemOf, []) := by
      unfold addLine lineOf
      dsimp only
      rw [define_itemOf hnew]
      rfl
    -- the entry moves over to those that have been added
    rw [List.append_cons] at distinct ⊢
    rw [List.map_cons, List.foldlM_cons, hadd]
    exact ih distinct

/-- The items of a document are the settings at their keys. -/
theorem parse?_document {entries : List (String × Scalar)} (h : ∀ entry ∈ entries, IsEntry entry)
    (distinct : (entries.map Prod.fst).Nodup) :
    parse? (String.ofList (entries.flatMap assignmentLine)) = some (entries.map itemOf) := by
  have hlines : Reader.whole? lines (String.ofList (entries.flatMap assignmentLine)).toList
      = some (entries.map lineOf) := by
    rw [String.toList_ofList, Text.Reader.whole?_eq_some_iff]
    exact lines_document h
  have hitems := @foldlM_addLine [] entries distinct
  unfold parse?
  rw [hlines]
  exact Option.bind_eq_some_iff.mpr ⟨_, rfl, Option.bind_eq_some_iff.mpr ⟨_, hitems, rfl⟩⟩

end RouterSeed.Toml

/-
What readers take from the front of a text.

A reader either fails or gives a value and what is left. Each lemma here
says for one reader of which inputs it gives which value, so that a
format made of readers is taken apart, or put together, one reader at a
time. Readers that take as much as they can leave something that does
not go on in the same way (`StopsAt`).

Consumed by the texts of addresses and by the TOML proofs.
-/
import RouterSeed.Text.Reader

namespace RouterSeed.Text

/-- The text does not begin with a character that satisfies `p`. -/
def StopsAt (p : Char → Bool) (text : List Char) : Prop :=
  ∀ c, text.head? = some c → p c = false

theorem stopsAt_nil (p : Char → Bool) : StopsAt p [] := by
  intro c h
  cases h

/-- Elsewhere it stops at a character that is not in it. -/
theorem stopsAt_cons {p : Char → Bool} {c : Char} {text : List Char} :
    StopsAt p (c :: text) ↔ p c = false := by
  constructor
  · intro h
    exact h c rfl
  · rintro h _ ⟨⟩
    exact h

namespace Reader

variable {α β : Type} {r : Reader α} {next : α → Reader β} {p : Char → Bool}
  {input rest : List Char}

-- ============================================================ sequencing

/-- Two readers in a row succeed when the second does on what the first has
left. -/
theorem bind_eq_some_iff {b : β} :
    (r >>= next) input = some (b, rest)
      ↔ ∃ a more, r input = some (a, more) ∧ next a more = some (b, rest) := by
  show (r input).bind (fun p => next p.1 p.2) = _ ↔ _
  rw [Option.bind_eq_some_iff]
  constructor
  · rintro ⟨⟨a, more⟩, hfirst, hnext⟩
    exact ⟨a, more, hfirst, hnext⟩
  · rintro ⟨a, more, hfirst, hnext⟩
    exact ⟨⟨a, more⟩, hfirst, hnext⟩

/-- Behind a reader that succeeded, the next goes on. -/
theorem bind_of_eq_some {a : α} {more : List Char} (h : r input = some (a, more)) :
    (r >>= next) input = next a more := by
  show (r input).bind _ = _
  rw [h]
  rfl

theorem bind_of_eq_none (h : r input = none) : (r >>= next) input = none := by
  show (r input).bind _ = _
  rw [h]
  rfl

/-- A reader of nothing takes nothing. -/
theorem pure_eq_some_iff {a b : α} :
    (pure a : Reader α) input = some (b, rest) ↔ b = a ∧ rest = input := by
  show some (a, input) = some (b, rest) ↔ _
  rw [Option.some.injEq, Prod.mk.injEq, eq_comm, @eq_comm _ input]

/-- A function of what was read takes no more of the text. -/
theorem map_eq_some_iff {f : α → β} {b : β} :
    (f <$> r) input = some (b, rest) ↔ ∃ a, r input = some (a, rest) ∧ f a = b := by
  show (r >>= fun a => pure (f a)) input = _ ↔ _
  rw [bind_eq_some_iff]
  constructor
  · rintro ⟨a, more, hread, h⟩
    obtain ⟨rfl, rfl⟩ := pure_eq_some_iff.mp h
    exact ⟨a, hread, rfl⟩
  · rintro ⟨a, hread, rfl⟩
    exact ⟨a, rest, hread, rfl⟩

/-- A whole text is read when nothing is left of it. -/
theorem whole?_eq_some_iff {a : α} : whole? r input = some a ↔ r input = some (a, []) := by
  unfold whole?
  split
  next b hread => rw [hread, Option.some.injEq, Option.some.injEq, Prod.mk.injEq, and_iff_left rfl]
  next hnone =>
    constructor
    · intro h
      cases h
    · intro h
      exact absurd h (hnone a)

/-- A reader can look at what is left. -/
theorem get_bind {next : List Char → Reader β} : (get >>= next) input = next input input := rfl

theorem set_bind : (do set rest; r : Reader α) input = r rest := rfl

/-- A value from elsewhere takes nothing. -/
theorem lift_eq (a? : Option α) : (liftM a? : Reader α) input = a?.map (·, input) := by
  cases a? <;> rfl

-- ============================================================= characters

/-- A character is read where it stands in front. -/
theorem char_eq_some_iff {c : Char} {u : Unit} :
    char c input = some (u, rest) ↔ input = c :: rest := by
  cases input with
  | nil =>
    constructor
    · intro h
      cases h
    · intro h
      cases h
  | cons d input =>
    show (if d ≠ c then failure else pure () : Reader Unit) input = _ ↔ _
    by_cases hsame : d = c
    · subst hsame
      rw [if_neg (not_not_intro rfl)]
      show some ((), input) = some (u, rest) ↔ _
      simp
    · rw [if_pos hsame]
      constructor
      · intro h
        cases h
      · intro h
        exact absurd (List.cons.inj h).1 hsame

theorem char_cons (c : Char) (rest : List Char) : char c (c :: rest) = some ((), rest) :=
  char_eq_some_iff.mpr rfl

theorem char_of_ne {c d : Char} (h : d ≠ c) (input : List Char) : char c (d :: input) = none := by
  show (if d ≠ c then failure else pure () : Reader Unit) input = none
  rw [if_pos h]
  rfl

/-- As many characters as there are, and no more. -/
theorem takeWhile_eq_some_iff {taken : List Char} :
    takeWhile p input = some (taken, rest)
      ↔ input = taken ++ rest ∧ (∀ c ∈ taken, p c = true) ∧ StopsAt p rest := by
  show some (input.takeWhile p, input.dropWhile p) = some (taken, rest) ↔ _
  rw [Option.some.injEq, Prod.mk.injEq]
  constructor
  · rintro ⟨rfl, rfl⟩
    refine ⟨(List.takeWhile_append_dropWhile).symm, fun c hc => ?_, fun c hc => ?_⟩
    · exact List.all_eq_true.mp List.all_takeWhile c hc
    · have hnot := List.head?_dropWhile_not p input
      rw [hc] at hnot
      exact hnot
  · rintro ⟨rfl, hall, hstop⟩
    rw [List.takeWhile_append_of_pos hall, List.dropWhile_append_of_pos hall]
    cases rest with
    | nil => simp
    | cons c rest => simp [stopsAt_cons.mp hstop]

/-- A run is taken up to where it stops. -/
theorem takeWhile_append {taken : List Char} (hall : ∀ c ∈ taken, p c = true)
    (hstop : StopsAt p rest) : takeWhile p (taken ++ rest) = some (taken, rest) :=
  takeWhile_eq_some_iff.mpr ⟨rfl, hall, hstop⟩

/-- Nothing is taken where nothing fits. -/
theorem takeWhile_of_stopsAt (hstop : StopsAt p input) : takeWhile p input = some ([], input) :=
  takeWhile_eq_some_iff.mpr ⟨rfl, List.forall_mem_nil _, hstop⟩

/-- Any character can be taken. -/
theorem any_cons (c : Char) (rest : List Char) : any (c :: rest) = some (c, rest) := rfl

/-- Looking ahead takes nothing. -/
theorem peek?_bind {next : Option Char → Reader β} : (peek? >>= next) input = next input.head? input :=
  rfl

-- ================================================================ choices

/-- The second of two readers has its turn where the first has failed. -/
theorem orElse_of_eq_none {other : Reader α} (h : r input = none) :
    (r <|> other) input = other input := by
  show (r input <|> other input) = _
  rw [h]
  rfl

theorem orElse_of_eq_some {other : Reader α} {a : α} (h : r input = some (a, rest)) :
    (r <|> other) input = some (a, rest) := by
  show (r input <|> other input) = _
  rw [h]
  rfl

/-- What is optional may be missing. -/
theorem optional_of_eq_none (h : r input = none) : optional r input = some (none, input) := by
  unfold optional
  rw [orElse_of_eq_none]
  · rfl
  · show (r input).bind _ = none
    rw [h]
    rfl

theorem optional_of_eq_some {a : α} (h : r input = some (a, rest)) :
    optional r input = some (some a, rest) := by
  unfold optional
  exact orElse_of_eq_some (map_eq_some_iff.mpr ⟨a, h, rfl⟩)

-- ================================================================== words

/-- A word is read where it stands in front. -/
theorem word_eq_some_iff {w : List Char} {u : Unit} :
    word w input = some (u, rest) ↔ input = w ++ rest := by
  induction w generalizing input with
  | nil =>
    unfold word
    rw [pure_eq_some_iff, List.nil_append, and_iff_right rfl, eq_comm]
  | cons c w ih =>
    unfold word
    rw [bind_eq_some_iff]
    constructor
    · rintro ⟨v, more, hchar, hword⟩
      rw [char_eq_some_iff.mp hchar, ih.mp hword, List.cons_append]
    · rintro rfl
      exact ⟨(), w ++ rest, char_cons c _, ih.mpr rfl⟩

/-- A word that is there is taken. -/
theorem hasWord_append (w rest : List Char) : hasWord w (w ++ rest) = some (true, rest) := by
  unfold hasWord
  rw [bind_of_eq_some (optional_of_eq_some (word_eq_some_iff (u := ()).mpr rfl))]
  rfl

theorem hasWord_eq_false {w : List Char} (h : ¬ w <+: input) :
    hasWord w input = some (false, input) := by
  have hnone : word w input = none := by
    rw [Option.eq_none_iff_forall_ne_some]
    rintro ⟨u, rest⟩ hword
    exact h ⟨rest, (word_eq_some_iff.mp hword).symm⟩
  unfold hasWord
  rw [bind_of_eq_some (optional_of_eq_none hnone)]
  rfl

/-- A word is not there if its first character is not. -/
theorem hasWord_of_head_ne {c : Char} {w : List Char} (h : input.head? ≠ some c) :
    hasWord (c :: w) input = some (false, input) := by
  apply hasWord_eq_false
  rintro ⟨rest, rfl⟩
  exact h rfl

end Reader

end RouterSeed.Text

/-
A number and its digits.

The digits of a number stand for it (`ofDigits_digits`), there are no
more of them than its size asks for, and the first one is a zero for
zero only. All three by the recursion that splits the last digit off.

Consumed by the texts of addresses and by the numbers of a settings file.
-/
import RouterSeed.Number.Digits
import RouterSeed.Number.Power

namespace RouterSeed.Number

-- ========================================================== one digit

/-- A digit has its value. -/
private theorem digitValue?_digitChar :
    ∀ radix ≤ 16, ∀ d < radix, digitValue? radix (Nat.digitChar d) = some d := by
  decide

private theorem digitChar_eq_zero_iff : ∀ d < 16, Nat.digitChar d = '0' ↔ d = 0 := by
  decide

/-- Whoever reads in a larger radix knows the digits of the smaller. -/
theorem isDigit_of_le {radix larger : Nat} (h : radix ≤ larger) {c : Char}
    (hc : isDigit radix c = true) : isDigit larger c = true := by
  unfold isDigit digitValue? at hc ⊢
  dsimp only at hc ⊢
  grind

-- ========================================================= all digits

section

variable {radix : Nat}

theorem digits_of_lt {n : Nat} (h : n < radix) : digits radix n = [Nat.digitChar n] := by
  rw [digits, if_pos (.inl h)]

/-- The last digit is the remainder, and the others are those of the
quotient. -/
theorem digits_of_le {n : Nat} (hradix : 2 ≤ radix) (h : radix ≤ n) :
    digits radix n = digits radix (n / radix) ++ [Nat.digitChar (n % radix)] := by
  rw [digits, if_neg]
  omega

/-- A digit behind others counts once, and moves them up by one place. -/
private theorem ofDigits_append (radix : Nat) (cs : List Char) (c : Char) :
    ofDigits radix (cs ++ [c]) = ofDigits radix cs * radix + (digitValue? radix c).getD 0 := by
  unfold ofDigits
  rw [List.foldl_append]
  rfl

/-- A number has one digit, or one more than its quotient by the radix. -/
theorem digits_induction {motive : Nat → Prop} (hlow : 2 ≤ radix)
    (one : ∀ n < radix, motive n) (more : ∀ n, radix ≤ n → motive (n / radix) → motive n)
    (n : Nat) : motive n := by
  induction n using Nat.strongRecOn with
  | ind n ih =>
    by_cases h : n < radix
    · exact one n h
    · exact more n (Nat.le_of_not_lt h) (ih _ (Nat.div_lt_self (by omega) hlow))

variable (hlow : 2 ≤ radix) (hhigh : radix ≤ 16)

include hlow

/-- Every number has a digit. -/
theorem digits_ne_nil (n : Nat) : digits radix n ≠ [] := by
  by_cases h : n < radix
  · rw [digits_of_lt h]
    exact List.cons_ne_nil _ _
  · rw [digits_of_le hlow (Nat.le_of_not_lt h)]
    exact List.append_ne_nil_of_right_ne_nil _ (List.cons_ne_nil _ _)

/-- There are no more digits than the size of the number asks for. -/
theorem length_digits_le {n width : Nat} (hwidth : 0 < width) (h : n < radix ^ width) :
    (digits radix n).length ≤ width := by
  induction width generalizing n with
  | zero => exact absurd hwidth (Nat.lt_irrefl 0)
  | succ width ih =>
    by_cases hsmall : n < radix
    · rw [digits_of_lt hsmall]
      exact Nat.succ_le_succ (Nat.zero_le width)
    · have hle := Nat.le_of_not_lt hsmall
      -- a number of two digits does not fit into one
      have hpos : 0 < width := by
        rcases Nat.eq_zero_or_pos width with rfl | hpos
        · rw [Nat.pow_one] at h
          exact absurd h hsmall
        · exact hpos
      have hquotient : n / radix < radix ^ width := by
        rw [Nat.div_lt_iff_lt_mul (by omega)]
        exact h
      rw [digits_of_le hlow hle, List.length_append]
      exact Nat.succ_le_succ (ih hpos hquotient)

include hhigh

/-- Digits stand for the number they are the digits of. -/
theorem ofDigits_digits (n : Nat) : ofDigits radix (digits radix n) = n := by
  induction n using digits_induction hlow with
  | one n h =>
    rw [digits_of_lt h, ← List.nil_append [_], ofDigits_append,
      digitValue?_digitChar radix hhigh n h]
    show 0 * radix + n = n
    omega
  | more n h ih =>
    have hmod : n % radix < radix := Nat.mod_lt n (by omega)
    rw [digits_of_le hlow h, ofDigits_append, ih, digitValue?_digitChar radix hhigh _ hmod]
    exact Nat.div_add_mod' n radix

/-- There is nothing but digits. -/
theorem isDigit_of_mem_digits (n : Nat) : ∀ c ∈ digits radix n, isDigit radix c = true := by
  have hone : ∀ d < radix, isDigit radix (Nat.digitChar d) = true := by
    intro d hd
    unfold isDigit
    rw [digitValue?_digitChar radix hhigh d hd]
    rfl
  induction n using digits_induction hlow with
  | one n h =>
    rw [digits_of_lt h]
    intro c hc
    rw [List.mem_singleton.mp hc]
    exact hone n h
  | more n h ih =>
    rw [digits_of_le hlow h]
    intro c hc
    rcases List.mem_append.mp hc with hc | hc
    · exact ih c hc
    · rw [List.mem_singleton.mp hc]
      exact hone _ (Nat.mod_lt n (by omega))

/-- A zero stands in front for zero only. -/
theorem eq_zero_of_head?_digits {n : Nat} (h : (digits radix n).head? = some '0') : n = 0 := by
  induction n using digits_induction hlow with
  | one n hsmall =>
    rw [digits_of_lt hsmall] at h
    exact (digitChar_eq_zero_iff n (by omega)).mp (Option.some.inj h)
  | more n hle ih =>
    rw [digits_of_le hlow hle, List.head?_append] at h
    cases hhead : (digits radix (n / radix)).head? with
    | none => exact absurd (List.head?_eq_none_iff.mp hhead) (digits_ne_nil hlow _)
    | some c =>
      rw [hhead] at h
      have hzero := ih (hhead.trans h)
      rw [Nat.div_eq_zero_iff] at hzero
      omega

end

end RouterSeed.Number

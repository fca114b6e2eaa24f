/-
The texts that an internet address can have, and reading them.

An address with a port has many spellings: digits in either case, groups
with zeros in front, a series of zero groups left out or not, the last
two groups as an IPv4 address, a scope. `SocketText` lists them by the
shape of the text alone. The reader tries an IPv4 address wherever two
groups have room, and takes as many groups as it can; that it takes the
spellings, all of them and nothing else, is `ofSocketText?_eq_some_iff`.

The work is in `groups`. What it takes is a series (`Series`), because
each of its steps adds one part in front; and it takes the whole of a
series, because a group is no beginning of an IPv4 address and because
what follows a series (`Ends`) is the beginning of neither.

Consumed by the written form of addresses, which is one of the spellings.
-/
import RouterSeed.Peer.Address
import RouterSeed.Proofs.Number.Digits
import RouterSeed.Proofs.Text.Reading

namespace RouterSeed.IpAddress

open Text (Reader StopsAt stopsAt_cons stopsAt_nil)
open Text.Reader (char bind_eq_some_iff bind_of_eq_some char_eq_some_iff takeWhile_eq_some_iff)

variable {input rest cs : List Char}

-- ============================================================= numbers

/-- The text is a number of a radix that is no larger than the bound. -/
structure NumberText (radix bound : Nat) (cs : List Char) (n : Nat) : Prop where
  nonempty : cs ≠ []
  digits : ∀ c ∈ cs, Number.isDigit radix c = true
  value : Number.ofDigits radix cs = n
  le_bound : n ≤ bound

/-- A number is read as far as there are digits, and refused if it is too
large. -/
private theorem number_eq_some_iff {radix bound n : Nat} :
    number radix bound input = some ((cs, n), rest)
      ↔ input = cs ++ rest ∧ NumberText radix bound cs n ∧ StopsAt (Number.isDigit radix) rest := by
  have hnumber : ∀ taken left, number radix bound input = some ((taken, n), left) ↔
      Reader.takeWhile (Number.isDigit radix) input = some (taken, left)
        ∧ taken ≠ [] ∧ Number.ofDigits radix taken = n ∧ n ≤ bound := by
    intro taken left
    unfold number
    rw [bind_eq_some_iff]
    constructor
    · rintro ⟨found, more, htake, h⟩
      dsimp only at h
      split at h
      · cases h
      next hform =>
        cases h
        exact ⟨htake, fun hnil => hform (.inl hnil), rfl, Nat.le_of_not_lt fun hlt =>
          hform (.inr hlt)⟩
    · rintro ⟨htake, hne, rfl, hle⟩
      refine ⟨taken, left, htake, ?_⟩
      dsimp only
      rw [if_neg]
      · rfl
      · rintro (hnil | hlt)
        · exact hne hnil
        · omega
  rw [hnumber, takeWhile_eq_some_iff]
  constructor
  · rintro ⟨⟨hinput, hdigits, hstop⟩, hne, hvalue, hle⟩
    exact ⟨hinput, ⟨hne, hdigits, hvalue, hle⟩, hstop⟩
  · rintro ⟨hinput, ⟨hne, hdigits, hvalue, hle⟩, hstop⟩
    exact ⟨⟨hinput, hdigits, hstop⟩, hne, hvalue, hle⟩

-- ================================================================ IPv4

/-- A byte in decimal, without superfluous zeros. -/
structure OctetText (cs : List Char) (b : UInt8) : Prop where
  number : NumberText 10 255 cs b.toNat
  length_le : cs.length ≤ 3
  noZero : cs.head? = some '0' → cs.length = 1

/-- An octet is a number of at most three digits without a zero in front. -/
private theorem octet_eq_some_iff {b : UInt8} :
    octet input = some (b, rest)
      ↔ ∃ cs, input = cs ++ rest ∧ OctetText cs b ∧ StopsAt (Number.isDigit 10) rest := by
  unfold octet
  rw [bind_eq_some_iff]
  constructor
  · rintro ⟨⟨cs, n⟩, more, hnumber, h⟩
    dsimp only at h
    split at h
    · cases h
    next hform =>
      cases h
      obtain ⟨hinput, htext, hstop⟩ := number_eq_some_iff.mp hnumber
      -- the number is within bounds, so the octet is the number
      have hvalue : (UInt8.ofNat n).toNat = n := by
        rw [UInt8.toNat_ofNat']
        exact Nat.mod_eq_of_lt (Nat.lt_succ_of_le htext.le_bound)
      have hlength := List.length_pos_iff.mpr htext.nonempty
      refine ⟨cs, hinput, ⟨hvalue.symm ▸ htext, ?_, fun hzero => ?_⟩, hstop⟩
      · omega
      · refine Nat.le_antisymm (Nat.le_of_not_lt fun hlong => ?_) hlength
        exact hform (.inr ⟨hzero, hlong⟩)
  · rintro ⟨cs, hinput, htext, hstop⟩
    refine ⟨⟨cs, b.toNat⟩, rest, number_eq_some_iff.mpr ⟨hinput, htext.number, hstop⟩, ?_⟩
    dsimp only
    rw [if_neg, UInt8.ofNat_toNat]
    · rfl
    · rintro (hlong | ⟨hzero, hlong⟩)
      · exact absurd htext.length_le (Nat.not_le.mpr hlong)
      · exact absurd (htext.noZero hzero) (by omega)

/-- Four bytes with points between them. -/
inductive Ipv4Text : List Char → Ipv4 → Prop
  | mk {as bs cs ds : List Char} {address : Ipv4} (a : OctetText as address.a)
      (b : OctetText bs address.b) (c : OctetText cs address.c) (d : OctetText ds address.d) :
      Ipv4Text (as ++ '.' :: (bs ++ '.' :: (cs ++ '.' :: ds))) address

private theorem not_isDigit_point : Number.isDigit 10 '.' = false := by decide

/-- A byte and the point behind it. -/
private theorem octet_point_eq_some_iff {β : Type} {next : UInt8 → Reader β} {b : β} :
    (do let a ← octet; char '.'; next a : Reader β) input = some (b, rest)
      ↔ ∃ as a more, input = as ++ '.' :: more ∧ OctetText as a
        ∧ next a more = some (b, rest) := by
  rw [bind_eq_some_iff]
  constructor
  · rintro ⟨a, left, hoctet, h⟩
    obtain ⟨as, hinput, has, -⟩ := octet_eq_some_iff.mp hoctet
    obtain ⟨u, more, hpoint, hnext⟩ := bind_eq_some_iff.mp h
    rw [char_eq_some_iff.mp hpoint] at hinput
    exact ⟨as, a, more, hinput, has, hnext⟩
  · rintro ⟨as, a, more, hinput, has, hnext⟩
    refine ⟨a, '.' :: more, octet_eq_some_iff.mpr ⟨as, hinput, has, ?_⟩, ?_⟩
    · exact stopsAt_cons.mpr not_isDigit_point
    · exact bind_eq_some_iff.mpr ⟨(), more, char_eq_some_iff.mpr rfl, hnext⟩

/-- An address of the first kind is four of them, with points between. -/
theorem ipv4_eq_some_iff {address : Ipv4} :
    ipv4 input = some (address, rest)
      ↔ ∃ cs, input = cs ++ rest ∧ Ipv4Text cs address ∧ StopsAt (Number.isDigit 10) rest := by
  unfold ipv4
  simp only [octet_point_eq_some_iff]
  simp only [bind_eq_some_iff, octet_eq_some_iff]
  constructor
  · rintro ⟨as, a, _, rfl, has, bs, b, _, rfl, hbs, cs, c, _, rfl, hcs, d, _, ⟨ds, rfl, hds, hstop⟩,
      ⟨⟩⟩
    refine ⟨_, ?_, .mk has hbs hcs hds, hstop⟩
    simp only [List.append_assoc, List.cons_append]
  · rintro ⟨_, rfl, ⟨has, hbs, hcs, hds⟩, hstop⟩
    exact ⟨_, _, _, by simp only [List.append_assoc, List.cons_append], has, _, _, _, rfl, hbs,
      _, _, _, rfl, hcs, _, rest, ⟨_, rfl, hds, hstop⟩, rfl⟩

-- ============================================================== groups

/-- Up to four hexadecimal digits. -/
structure GroupText (cs : List Char) (g : UInt16) : Prop where
  number : NumberText 16 0xFFFF cs g.toNat
  length_le : cs.length ≤ 4

/-- A group is a hexadecimal number of at most four digits. -/
private theorem group_eq_some_iff {g : UInt16} :
    group input = some (g, rest)
      ↔ ∃ cs, input = cs ++ rest ∧ GroupText cs g ∧ StopsAt (Number.isDigit 16) rest := by
  unfold group
  rw [bind_eq_some_iff]
  constructor
  · rintro ⟨⟨cs, n⟩, more, hnumber, h⟩
    dsimp only at h
    split at h
    · cases h
    next hlength =>
      cases h
      obtain ⟨hinput, htext, hstop⟩ := number_eq_some_iff.mp hnumber
      have hvalue : (UInt16.ofNat n).toNat = n := by
        rw [UInt16.toNat_ofNat']
        exact Nat.mod_eq_of_lt (Nat.lt_succ_of_le htext.le_bound)
      exact ⟨cs, hinput, ⟨hvalue.symm ▸ htext, Nat.le_of_not_lt hlength⟩, hstop⟩
  · rintro ⟨cs, hinput, htext, hstop⟩
    refine ⟨⟨cs, g.toNat⟩, rest, number_eq_some_iff.mpr ⟨hinput, htext.number, hstop⟩, ?_⟩
    dsimp only
    rw [if_neg (Nat.not_lt.mpr htext.length_le), UInt16.ofNat_toNat]
    rfl

-- ============================================================== series

/-- What stands in front of a part of a series. -/
def lead (isFirst : Bool) : List Char := if isFirst then [] else [':']

/-- Groups with colons between them, the last two possibly as an IPv4
address. -/
inductive Series : (isFirst : Bool) → List Char → List UInt16 → (embedded : Bool) → Prop
  | stop {isFirst : Bool} : Series isFirst [] [] false
  | address {isFirst : Bool} {cs : List Char} {address : Ipv4} (text : Ipv4Text cs address) :
      Series isFirst (lead isFirst ++ cs) (groupsOf address) true
  | group {isFirst embedded : Bool} {cs more : List Char} {g : UInt16} {gs : List UInt16}
      (text : GroupText cs g) (others : Series false more gs embedded) :
      Series isFirst (lead isFirst ++ (cs ++ more)) (g :: gs) embedded

/-- In a series, everything but the first has a colon in front. -/
private theorem separated_eq_some_iff {α : Type} {isFirst : Bool} {r : Reader α} {a : α} :
    separated isFirst r input = some (a, rest)
      ↔ ∃ more, input = lead isFirst ++ more ∧ r more = some (a, rest) := by
  cases isFirst with
  | true =>
    show r input = _ ↔ _
    simp [lead]
  | false =>
    show (do char ':'; r : Reader α) input = _ ↔ _
    simp [bind_eq_some_iff, char_eq_some_iff, lead]

/-- That colon is passed over. -/
private theorem separated_lead {α : Type} (isFirst : Bool) (r : Reader α) (more : List Char) :
    separated isFirst r (lead isFirst ++ more) = r more := by
  cases isFirst with
  | true => rfl
  | false => exact bind_of_eq_some (Reader.char_cons ':' more)

theorem length_groupsOf (address : Ipv4) : (groupsOf address).length = 2 := rfl

/-- What is taken for groups is a series. -/
theorem series_of_groups {count : Nat} {isFirst embedded : Bool} {gs : List UInt16}
    (h : groups count isFirst input = ((gs, embedded), rest)) :
    ∃ cs, input = cs ++ rest ∧ Series isFirst cs gs embedded ∧ gs.length ≤ count := by
  induction count generalizing isFirst input gs with
  | zero =>
    cases h
    exact ⟨[], rfl, .stop, Nat.le_refl 0⟩
  | succ count ih =>
    unfold groups at h
    split at h
    next address left hread =>
      cases h
      split at hread
      · cases hread
      next hcount =>
        obtain ⟨more, rfl, haddress⟩ := separated_eq_some_iff.mp hread
        obtain ⟨cs, rfl, htext, -⟩ := ipv4_eq_some_iff.mp haddress
        refine ⟨lead isFirst ++ cs, (List.append_assoc _ _ _).symm, .address htext, ?_⟩
        rw [length_groupsOf]
        omega
    next =>
      split at h
      · cases h
        exact ⟨[], rfl, .stop, Nat.zero_le _⟩
      -- a group, and then the rest of the series with one place less
      next g left hread =>
        obtain ⟨more, rfl, hgroup⟩ := separated_eq_some_iff.mp hread
        obtain ⟨cs, rfl, htext, -⟩ := group_eq_some_iff.mp hgroup
        cases hothers : groups count false left with
        | mk found last =>
          obtain ⟨others, isEmbedded⟩ := found
          rw [hothers] at h
          cases h
          obtain ⟨others, rfl, hseries, hlength⟩ := ih hothers
          refine ⟨lead isFirst ++ (cs ++ others), ?_, .group htext hseries, Nat.succ_le_succ hlength⟩
          simp only [List.append_assoc]

/-- Nothing in it continues a number, and it does not make a group the
first part of an IPv4 address. -/
def Follows (text : List Char) : Prop :=
  ∀ c, text.head? = some c → Number.isDigit 16 c = false ∧ c ≠ '.'

/-- What ends a series: there is no other part of one, even behind a
colon. -/
structure Ends (text : List Char) : Prop where
  follows : Follows text
  colon : ∀ more, text = ':' :: more → StopsAt (Number.isDigit 16) more

theorem Follows.stopsAt {text : List Char} (h : Follows text) :
    StopsAt (Number.isDigit 16) text := fun c hc => (h c hc).1

theorem follows_cons {c : Char} {text : List Char} :
    Follows (c :: text) ↔ Number.isDigit 16 c = false ∧ c ≠ '.' := by
  constructor
  · intro h
    exact h c rfl
  · rintro h _ ⟨⟩
    exact h

/-- Behind a series there is a colon or what comes after all of it, so no
digit and no point. -/
theorem Series.follows {gs : List UInt16} {embedded : Bool} (h : Series false cs gs embedded)
    (hrest : Follows rest) : Follows (cs ++ rest) := by
  have hcolon : ∀ more, Follows (':' :: more) := fun more => follows_cons.mpr (by decide)
  cases h with
  | stop => exact hrest
  | address text => exact hcolon _
  | group text others => exact hcolon _

theorem isDigit_of_isDigit_ten {c : Char} (h : Number.isDigit 10 c = true) :
    Number.isDigit 16 c = true :=
  Number.isDigit_of_le (by decide) h

/-- What is no hexadecimal digit is no decimal one. -/
private theorem Follows.stopsAt_decimal {text : List Char} (h : Follows text) :
    StopsAt (Number.isDigit 10) text := by
  intro c hc
  cases hdigit : Number.isDigit 10 c with
  | false => rfl
  | true =>
    have hnone := h.stopsAt c hc
    rw [isDigit_of_isDigit_ten hdigit] at hnone
    cases hnone

/-- A text without a digit in front is neither an address nor a group. -/
theorem ipv4_eq_none {text : List Char} (h : StopsAt (Number.isDigit 16) text) :
    ipv4 text = none := by
  rw [Option.eq_none_iff_forall_ne_some]
  rintro ⟨address, rest⟩ hread
  obtain ⟨_, rfl, ⟨ha, -, -, -⟩, -⟩ := ipv4_eq_some_iff.mp hread
  obtain ⟨c, as, rfl⟩ := List.exists_cons_of_ne_nil ha.number.nonempty
  have hdigit := isDigit_of_isDigit_ten (ha.number.digits c List.mem_cons_self)
  have hnone := stopsAt_cons.mp h
  rw [hdigit] at hnone
  cases hnone

/-- Without a digit there is no group. -/
private theorem group_eq_none {text : List Char} (h : StopsAt (Number.isDigit 16) text) :
    group text = none := by
  rw [Option.eq_none_iff_forall_ne_some]
  rintro ⟨g, rest⟩ hread
  obtain ⟨cs, rfl, htext, -⟩ := group_eq_some_iff.mp hread
  obtain ⟨c, cs, rfl⟩ := List.exists_cons_of_ne_nil htext.number.nonempty
  have hnone := stopsAt_cons.mp h
  rw [htext.number.digits c List.mem_cons_self] at hnone
  cases hnone

/-- A group is not taken for the beginning of an IPv4 address. -/
theorem ipv4_group_eq_none {g : UInt16} {text : List Char} (hgroup : GroupText cs g)
    (htext : Follows text) : ipv4 (cs ++ text) = none := by
  rw [Option.eq_none_iff_forall_ne_some]
  rintro ⟨address, rest⟩ hread
  obtain ⟨_, hinput, ⟨ha, -, -, -⟩, -⟩ := ipv4_eq_some_iff.mp hread
  rw [List.append_assoc, List.cons_append] at hinput
  -- the first byte and the group are the same digits, so the point would follow the group
  have hsame := congrArg (List.dropWhile (Number.isDigit 16)) hinput
  rw [List.dropWhile_append_of_pos hgroup.number.digits,
    List.dropWhile_append_of_pos fun c hc => isDigit_of_isDigit_ten (ha.number.digits c hc)] at hsame
  cases text with
  | nil => cases hsame
  | cons c text =>
    obtain ⟨hdigit, hpoint⟩ := follows_cons.mp htext
    rw [List.dropWhile_cons_of_neg (by rw [hdigit]; decide),
      List.dropWhile_cons_of_neg (by decide)] at hsame
    exact hpoint (List.cons.inj hsame).1

/-- Where a series ends, neither reader finds anything. -/
private theorem separated_eq_none {α : Type} {isFirst : Bool} {r : Reader α}
    (hr : ∀ text, StopsAt (Number.isDigit 16) text → r text = none) (hrest : Ends rest) :
    separated isFirst r rest = none := by
  rw [Option.eq_none_iff_forall_ne_some]
  rintro ⟨a, left⟩ h
  obtain ⟨more, rfl, hread⟩ := separated_eq_some_iff.mp h
  have hnone : r more = none := by
    cases isFirst with
    | true => exact hr more hrest.follows.stopsAt
    | false => exact hr more (hrest.colon more rfl)
  rw [hnone] at hread
  cases hread

/-- The whole of a series is taken. -/
theorem groups_append {count : Nat} {isFirst embedded : Bool} {gs : List UInt16}
    (series : Series isFirst cs gs embedded) (room : gs.length ≤ count) (ends : Ends rest) :
    groups count isFirst (cs ++ rest) = ((gs, embedded), rest) := by
  induction series generalizing count with
  | @stop isFirst =>
    cases count with
    | zero => rfl
    | succ count =>
      have hnone : (if count = 0 then none else separated isFirst ipv4 rest) = none := by
        rw [separated_eq_none (fun _ => ipv4_eq_none) ends, ite_self]
      rw [List.nil_append, groups, hnone]
      dsimp only
      rw [separated_eq_none (fun _ => group_eq_none) ends]
  | @address isFirst cs address text =>
    cases count with
    | zero => exact absurd room (Nat.not_succ_le_zero 1)
    | succ count =>
      have hcount : count ≠ 0 := by
        rw [length_groupsOf] at room
        omega
      have hread : separated isFirst ipv4 (lead isFirst ++ cs ++ rest) = some (address, rest) := by
        rw [List.append_assoc, separated_lead]
        exact ipv4_eq_some_iff.mpr ⟨cs, rfl, text, ends.follows.stopsAt_decimal⟩
      rw [groups, if_neg hcount, hread]
  -- Behind a group there is no point, so the reader of addresses, which is tried first,
  -- gives up.
  | @group isFirst embedded cs more g gs text others ih =>
    cases count with
    | zero => exact absurd room (Nat.not_succ_le_zero _)
    | succ count =>
      have hfollows := others.follows ends.follows
      have hnone : (if count = 0 then none
          else separated isFirst ipv4 (lead isFirst ++ (cs ++ (more ++ rest)))) = none := by
        rw [separated_lead, ipv4_group_eq_none text hfollows, ite_self]
      have hread : separated isFirst group (lead isFirst ++ (cs ++ (more ++ rest)))
          = some (g, more ++ rest) := by
        rw [separated_lead]
        exact group_eq_some_iff.mpr ⟨cs, rfl, text, hfollows.stopsAt⟩
      rw [List.append_assoc, List.append_assoc, groups, hnone]
      dsimp only
      rw [hread]
      dsimp only
      rw [ih (Nat.le_of_succ_le_succ room)]

-- ================================================================ IPv6

/-- Eight groups, or fewer with a series of zeros left out. -/
inductive Ipv6Text : List Char → Ipv6 → Prop
  | full {cs : List Char} {address : Ipv6} {embedded : Bool}
      (series : Series true cs address.groups embedded) : Ipv6Text cs address
  | short {front back : List Char} {head tail : List UInt16} {address : Ipv6} {embedded : Bool}
      (first : Series true front head false) (last : Series true back tail embedded)
      (room : head.length + tail.length < 8)
      (groups : address.groups
        = head ++ List.replicate (8 - head.length - tail.length) 0 ++ tail) :
      Ipv6Text (front ++ ':' :: ':' :: back) address

/-- Eight groups are an address, and no other number of them is. -/
private theorem ofGroups?_eq_some_iff {gs : List UInt16} {address : Ipv6} :
    Ipv6.ofGroups? gs = some address ↔ address.groups = gs := by
  unfold Ipv6.ofGroups?
  constructor
  · intro h
    split at h
    · cases h
      rfl
    · cases h
  · rintro rfl
    exact dif_pos address.length_groups

private theorem ends_colons (text : List Char) : Ends (':' :: ':' :: text) where
  follows := follows_cons.mpr (by decide)
  colon := by
    rintro _ ⟨⟩
    exact stopsAt_cons.mpr (by decide)

/-- What is read behind the groups in front of a gap. -/
def afterGap (head : List UInt16) : Reader Ipv6 := do
  char ':'
  char ':'
  let ((tail, _), input) := groups (7 - head.length) true (← get)
  set input
  Ipv6.ofGroups? (head ++ List.replicate (8 - head.length - tail.length) 0 ++ tail)

/-- Behind two colons come the last groups, and the gap is filled with
zeros. -/
private theorem afterGap_eq_some_iff {head : List UInt16} {address : Ipv6} :
    afterGap head input = some (address, rest)
      ↔ ∃ more tail embedded, input = ':' :: ':' :: more
        ∧ groups (7 - head.length) true more = ((tail, embedded), rest)
        ∧ address.groups = head ++ List.replicate (8 - head.length - tail.length) 0 ++ tail := by
  have hread : ∀ more, afterGap head (':' :: ':' :: more) = some (address, rest) ↔
      ∃ tail embedded, groups (7 - head.length) true more = ((tail, embedded), rest)
        ∧ address.groups = head ++ List.replicate (8 - head.length - tail.length) 0 ++ tail := by
    intro more
    unfold afterGap
    rw [bind_of_eq_some (Reader.char_cons ':' _), bind_of_eq_some (Reader.char_cons ':' more),
      Reader.get_bind]
    cases hgroups : groups (7 - head.length) true more with
    | mk found left =>
      obtain ⟨tail, embedded⟩ := found
      dsimp only
      rw [Reader.set_bind, Reader.lift_eq, Option.map_eq_some_iff]
      constructor
      · rintro ⟨made, hmade, hsame⟩
        cases hsame
        exact ⟨tail, embedded, rfl, ofGroups?_eq_some_iff.mp hmade⟩
      · rintro ⟨_, _, hsame, haddress⟩
        cases hsame
        exact ⟨address, ofGroups?_eq_some_iff.mpr haddress, rfl⟩
  constructor
  · intro h
    have hcolons := h
    unfold afterGap at hcolons
    obtain ⟨_, _, hfirst, hcolons⟩ := bind_eq_some_iff.mp hcolons
    obtain ⟨_, more, hsecond, -⟩ := bind_eq_some_iff.mp hcolons
    have hinput : input = ':' :: ':' :: more := by
      rw [char_eq_some_iff.mp hfirst, char_eq_some_iff.mp hsecond]
    rw [hinput, hread] at h
    obtain ⟨tail, embedded, h⟩ := h
    exact ⟨more, tail, embedded, hinput, h⟩
  · rintro ⟨more, tail, embedded, rfl, h⟩
    exact (hread more).mpr ⟨tail, embedded, h⟩

/-- What is read behind the first groups: nothing if they are eight, and a
gap unless they end in an IPv4 address. -/
private theorem ipv6_of_groups {head : List UInt16} {embedded : Bool} {left : List Char}
    (h : groups 8 true input = ((head, embedded), left)) :
    ipv6 input = if head.length = 8 then (Ipv6.ofGroups? head).map (·, left)
      else if embedded then none else afterGap head left := by
  unfold ipv6
  rw [Reader.get_bind, h]
  dsimp only
  rw [Reader.set_bind]
  split
  · exact Reader.lift_eq _
  · split <;> rfl

/-- Every spelling of an address is read. -/
theorem ipv6_append {address : Ipv6} (h : Ipv6Text cs address) (ends : Ends rest) :
    ipv6 (cs ++ rest) = some (address, rest) := by
  cases h with
  | full series =>
    have eight := address.length_groups
    rw [ipv6_of_groups (groups_append series (Nat.le_of_eq eight) ends), if_pos eight,
      ofGroups?_eq_some_iff.mpr rfl]
    rfl
  | @short front back head tail _ embedded first last room hgroups =>
    have hfirst : groups 8 true (front ++ ':' :: ':' :: (back ++ rest))
        = ((head, false), ':' :: ':' :: (back ++ rest)) :=
      groups_append first (by omega) (ends_colons _)
    have hlast : groups (7 - head.length) true (back ++ rest) = ((tail, embedded), rest) :=
      groups_append last (by omega) ends
    rw [List.append_assoc, List.cons_append, List.cons_append, ipv6_of_groups hfirst,
      if_neg (by omega), if_neg Bool.false_ne_true]
    exact afterGap_eq_some_iff.mpr ⟨_, tail, embedded, rfl, hlast, hgroups⟩

/-- Only spellings are read as an address. -/
theorem ipv6Text_of_ipv6 {address : Ipv6} (h : ipv6 input = some (address, rest)) :
    ∃ cs, input = cs ++ rest ∧ Ipv6Text cs address := by
  cases hgroups : groups 8 true input with
  | mk found left =>
    obtain ⟨head, embedded⟩ := found
    obtain ⟨front, rfl, first, hlength⟩ := series_of_groups hgroups
    rw [ipv6_of_groups hgroups] at h
    split at h
    next eight =>
      obtain ⟨made, hmade, hsame⟩ := Option.map_eq_some_iff.mp h
      cases hsame
      exact ⟨front, rfl, .full (ofGroups?_eq_some_iff.mp hmade ▸ first)⟩
    -- fewer than eight groups: there has to be a gap, and no address in front of it
    next few =>
      split at h
      · cases h
      next hplain =>
        obtain ⟨more, tail, isEmbedded, rfl, hmore, haddress⟩ := afterGap_eq_some_iff.mp h
        obtain ⟨back, rfl, last, hroom⟩ := series_of_groups hmore
        rw [Bool.not_eq_true] at hplain
        subst hplain
        refine ⟨front ++ ':' :: ':' :: back, ?_, .short first last (by omega) haddress⟩
        simp only [List.append_assoc, List.cons_append]

-- ============================================================ with ports

/-- A scope, or none. -/
def ScopeText (cs : List Char) : Prop := cs = [] ∨ ∃ ds n, cs = '%' :: ds ∧ NumberText 10 0xFFFFFFFF ds n

/-- An IPv4 address with a port, or an IPv6 address in brackets with a
port behind them. -/
inductive SocketText : List Char → IpAddress → Prop
  | v4 {cs ps : List Char} {address : Ipv4} {n : Nat} (text : Ipv4Text cs address)
      (port : NumberText 10 0xFFFF ps n) : SocketText (cs ++ ':' :: ps) (.v4 address)
  | v6 {cs ss ps : List Char} {address : Ipv6} {n : Nat} (text : Ipv6Text cs address)
      (scope : ScopeText ss) (port : NumberText 10 0xFFFF ps n) :
      SocketText ('[' :: (cs ++ (ss ++ ']' :: ':' :: ps))) (.v6 address)

/-- A port is a colon and a number of 16 bits. -/
private theorem port_eq_some_iff {n : Nat} :
    port input = some (n, rest)
      ↔ ∃ ps, input = ':' :: (ps ++ rest) ∧ NumberText 10 0xFFFF ps n
        ∧ StopsAt (Number.isDigit 10) rest := by
  unfold port
  simp only [bind_eq_some_iff, Reader.map_eq_some_iff, char_eq_some_iff]
  constructor
  · rintro ⟨_, _, rfl, ⟨ps, n⟩, hnumber, rfl⟩
    obtain ⟨rfl, htext, hstop⟩ := number_eq_some_iff.mp hnumber
    exact ⟨ps, rfl, htext, hstop⟩
  · rintro ⟨ps, rfl, htext, hstop⟩
    exact ⟨(), ps ++ rest, rfl, (ps, n), number_eq_some_iff.mpr ⟨rfl, htext, hstop⟩, rfl⟩

private theorem scope_percent (more : List Char) :
    scope ('%' :: more) = (do let _ ← number 10 0xFFFFFFFF; pure () : Reader Unit) more := rfl

/-- A scope is a percent sign and a number of 32 bits, or nothing. -/
private theorem scopeText_of_scope {u : Unit} (h : scope input = some (u, rest)) :
    ∃ ss, input = ss ++ rest ∧ ScopeText ss := by
  unfold scope at h
  rw [Reader.get_bind] at h
  split at h
  next more =>
    rw [Reader.set_bind] at h
    obtain ⟨⟨ds, n⟩, left, hnumber, h⟩ := bind_eq_some_iff.mp h
    obtain ⟨-, rfl⟩ := Reader.pure_eq_some_iff.mp h
    obtain ⟨rfl, htext, -⟩ := number_eq_some_iff.mp hnumber
    exact ⟨'%' :: ds, rfl, .inr ⟨ds, n, rfl, htext⟩⟩
  next =>
    obtain ⟨-, rfl⟩ := Reader.pure_eq_some_iff.mp h
    exact ⟨[], rfl, .inl rfl⟩

/-- A scope is read as such in front of the bracket. -/
private theorem scope_append {ss : List Char} (h : ScopeText ss) (more : List Char) :
    scope (ss ++ ']' :: more) = some ((), ']' :: more) := by
  rcases h with rfl | ⟨ds, n, rfl, htext⟩
  · rfl
  · rw [List.cons_append, scope_percent, bind_eq_some_iff]
    exact ⟨(ds, n), ']' :: more,
      number_eq_some_iff.mpr ⟨rfl, htext, stopsAt_cons.mpr (by decide)⟩, rfl⟩

/-- A bracket means the second kind. -/
private theorem withPort_bracket (more : List Char) :
    withPort ('[' :: more)
      = (do
        let address ← ipv6
        scope
        char ']'
        let _ ← port
        pure (IpAddress.v6 address) : Reader IpAddress) more := rfl

/-- A text that begins with no bracket is read as the first kind. -/
private theorem withPort_of_ne (h : ∀ more, input ≠ '[' :: more) :
    withPort input = 
      (do let address ← ipv4; let _ ← port; pure (IpAddress.v4 address) : Reader IpAddress) input := by
  unfold withPort
  rw [Reader.get_bind]
  split
  next more => exact absurd rfl (h more)
  next => rfl

/-- An address of the first kind begins with a digit. -/
theorem head_of_ipv4Text {address : Ipv4} (h : Ipv4Text cs address) :
    ∃ c more, cs = c :: more ∧ Number.isDigit 10 c = true := by
  obtain ⟨ha, -, -, -⟩ := h
  obtain ⟨c, as, rfl⟩ := List.exists_cons_of_ne_nil ha.number.nonempty
  exact ⟨c, _, rfl, ha.number.digits c List.mem_cons_self⟩

private theorem ends_of_bracket (text : List Char) : Ends (']' :: text) where
  follows := follows_cons.mpr (by decide)
  colon := by rintro _ ⟨⟩

/-- A scope and a bracket end a series. -/
private theorem ends_of_scopeText {ss : List Char} (h : ScopeText ss) (more : List Char) :
    Ends (ss ++ ']' :: more) := by
  rcases h with rfl | ⟨ds, n, rfl, -⟩
  · exact ends_of_bracket more
  · refine ⟨follows_cons.mpr (by decide), ?_⟩
    rintro _ ⟨⟩

/-- The texts that are read as an address with a port are its spellings. -/
theorem ofSocketText?_eq_some_iff {text : String} {address : IpAddress} :
    ofSocketText? text = some address ↔ SocketText text.toList address := by
  unfold ofSocketText?
  rw [Reader.whole?_eq_some_iff]
  generalize text.toList = input
  constructor
  · intro h
    -- The bracket decides which of the two kinds is read.
    by_cases hbracket : ∃ more, input = '[' :: more
    · obtain ⟨more, rfl⟩ := hbracket
      rw [withPort_bracket] at h
      obtain ⟨address, left, haddress, h⟩ := bind_eq_some_iff.mp h
      obtain ⟨u, behind, hscope, h⟩ := bind_eq_some_iff.mp h
      obtain ⟨v, after, hclose, h⟩ := bind_eq_some_iff.mp h
      obtain ⟨n, last, hport, h⟩ := bind_eq_some_iff.mp h
      obtain ⟨rfl, rfl⟩ := Reader.pure_eq_some_iff.mp h
      obtain ⟨cs, rfl, htext⟩ := ipv6Text_of_ipv6 haddress
      obtain ⟨ss, rfl, hss⟩ := scopeText_of_scope hscope
      obtain ⟨ps, rfl, hps, -⟩ := port_eq_some_iff.mp hport
      rw [char_eq_some_iff.mp hclose, List.append_nil]
      exact .v6 htext hss hps
    · rw [withPort_of_ne fun more hmore => hbracket ⟨more, hmore⟩] at h
      obtain ⟨address, left, haddress, h⟩ := bind_eq_some_iff.mp h
      obtain ⟨n, last, hport, h⟩ := bind_eq_some_iff.mp h
      obtain ⟨rfl, rfl⟩ := Reader.pure_eq_some_iff.mp h
      obtain ⟨cs, rfl, htext, -⟩ := ipv4_eq_some_iff.mp haddress
      obtain ⟨ps, rfl, hps, -⟩ := port_eq_some_iff.mp hport
      rw [List.append_nil]
      exact .v4 htext hps
  · intro h
    cases h with
    | @v4 cs ps _ _ text port =>
      obtain ⟨c, more, rfl, hdigit⟩ := head_of_ipv4Text text
      have hbracket : ∀ left, c :: more ++ ':' :: ps ≠ '[' :: left := by
        rintro left hsame
        rw [(List.cons.inj hsame).1] at hdigit
        exact absurd hdigit (by decide)
      rw [withPort_of_ne hbracket, bind_eq_some_iff]
      refine ⟨_, _, ipv4_eq_some_iff.mpr ⟨_, rfl, text, stopsAt_cons.mpr (by decide)⟩, ?_⟩
      rw [bind_eq_some_iff]
      exact ⟨_, [], port_eq_some_iff.mpr ⟨_, by rw [List.append_nil], port, stopsAt_nil _⟩, rfl⟩
    | v6 text scope port =>
      rw [withPort_bracket, bind_eq_some_iff]
      refine ⟨_, _, ipv6_append text (ends_of_scopeText scope _), ?_⟩
      rw [bind_eq_some_iff]
      refine ⟨(), _, scope_append scope _, ?_⟩
      rw [bind_of_eq_some (Reader.char_cons ']' _), bind_eq_some_iff]
      exact ⟨_, [], port_eq_some_iff.mpr ⟨_, by rw [List.append_nil], port, stopsAt_nil _⟩, rfl⟩

end RouterSeed.IpAddress

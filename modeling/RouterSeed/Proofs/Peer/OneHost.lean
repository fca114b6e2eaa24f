/-
One host is one peer, and two hosts are two.

A peer is known by the written form of its address. The written form is
itself one of the spellings of the address (`ipv4Text_textOfV4`,
`ipv6Text_textOfV6`), and whoever reads a spelling gets back the address
it spells. So the written form tells addresses apart, without a look at
how it was chosen among the spellings. That the two kinds of addresses
do not mix follows from reading as well: no spelling of an IPv6 address
begins like an IPv4 address (`ipv4_eq_none_of_ipv6Text`).

For the same reason a written form is no address with a port, and a peer
that is asked for by its own text is itself.
-/
import RouterSeed.Cache.Basic
import RouterSeed.Proofs.Peer.Spelling

namespace RouterSeed

open Text (stopsAt_cons stopsAt_nil)

namespace IpAddress

-- ====================================================== numbers, written

/-- The digits of a number are a text for it. -/
private theorem numberText_digits {radix bound n : Nat} (hlow : 2 ≤ radix) (hhigh : radix ≤ 16)
    (h : n ≤ bound) : NumberText radix bound (Number.digits radix n) n where
  nonempty := Number.digits_ne_nil hlow n
  digits := Number.isDigit_of_mem_digits hlow hhigh n
  value := Number.ofDigits_digits hlow hhigh n
  le_bound := h

/-- The digits of an octet are its text: at most three, and no zero in
front. -/
private theorem octetText_digits (b : UInt8) : OctetText (Number.digits 10 b.toNat) b where
  number := numberText_digits (by decide) (by decide) (Nat.le_of_lt_succ b.toNat_lt)
  length_le :=
    Number.length_digits_le (by decide) (by decide) (Nat.lt_trans b.toNat_lt (by decide))
  noZero := by
    intro h
    rw [Number.eq_zero_of_head?_digits (by decide) (by decide) h,
      Number.digits_of_lt (by decide)]
    rfl

/-- The hexadecimal digits of a group are its text. -/
private theorem groupText_digits (g : UInt16) : GroupText (Number.digits 16 g.toNat) g where
  number := numberText_digits (by decide) (by decide) (Nat.le_of_lt_succ g.toNat_lt)
  length_le := Number.length_digits_le (by decide) (by decide) g.toNat_lt

/-- The written form of an IPv4 address spells it. -/
theorem ipv4Text_textOfV4 (address : Ipv4) : Ipv4Text (textOfV4 address) address := by
  have h := Ipv4Text.mk (octetText_digits address.a) (octetText_digits address.b)
    (octetText_digits address.c) (octetText_digits address.d)
  unfold textOfV4
  simpa only [List.append_assoc, List.cons_append] using h

-- ======================================================= groups, written

/-- Groups are written with colons between them. -/
private theorem textOfGroups_cons (g : UInt16) (gs : List UInt16) :
    textOfGroups (g :: gs)
      = Number.digits 16 g.toNat ++ gs.flatMap fun g => ':' :: Number.digits 16 g.toNat := by
  unfold textOfGroups
  induction gs generalizing g with
  | nil => simp
  | cons h gs ih =>
    have hmore := ih h
    rw [List.map_cons] at hmore
    rw [List.map_cons, List.map_cons, List.intercalate_cons_cons, hmore, List.flatMap_cons]
    simp only [List.append_assoc, List.cons_append, List.nil_append]

private theorem series_flatMap (gs : List UInt16) :
    Series false (gs.flatMap fun g => ':' :: Number.digits 16 g.toNat) gs false := by
  induction gs with
  | nil => exact .stop
  | cons g gs ih => exact @Series.group false _ _ _ _ _ (groupText_digits g) ih

/-- What is written for groups is a series of them. -/
private theorem series_textOfGroups (gs : List UInt16) : Series true
    (textOfGroups gs) gs false := by
  cases gs with
  | nil => exact .stop
  | cons g gs =>
    rw [textOfGroups_cons]
    exact @Series.group true _ _ _ _ _ (groupText_digits g) (series_flatMap gs)

/-- The series that is left out is one of zeros. -/
private theorem longestZeros_le (gs : List UInt16) :
    (longestZeros gs).2 ≤ zerosAt gs (longestZeros gs).1 := by
  unfold longestZeros
  refine List.foldlRecOn (motive := fun best : Nat × Nat => best.2 ≤ zerosAt gs best.1) _ _ (Nat.zero_le _) ?_
  intro best hbest i _
  split
  · exact Nat.le_refl _
  · exact hbest

/-- A run of zeros is a run of zeros, and so is every part of it. -/
private theorem zeros_of_le_zerosAt {gs : List UInt16} {start count : Nat}
    (h : count ≤ zerosAt gs start) :
    (gs.drop start).take count = List.replicate count 0 := by
  have hlength : ((gs.drop start).take count).length = count := by
    have := (List.takeWhile_sublist (fun g : UInt16 => g = 0) (l := gs.drop start)).length_le
    unfold zerosAt at h
    rw [List.length_take]
    omega
  rw [List.eq_replicate_iff]
  refine ⟨hlength, fun g hg => ?_⟩
  have hfront : (gs.drop start).take count
      = ((gs.drop start).takeWhile fun g => g = 0).take count := by
    have hsplit := List.takeWhile_append_dropWhile (p := fun g : UInt16 => g = 0) (l := gs.drop start)
    rw [← List.take_append_of_le_length h, hsplit]
  rw [hfront] at hg
  exact of_decide_eq_true (List.all_eq_true.mp List.all_takeWhile g (List.mem_of_mem_take hg))

-- ================================================= IPv4 within IPv6

private theorem halves (g : UInt16) :
    (g / 256).toUInt8.toUInt16 * 256 + g.toUInt8.toUInt16 = g := by
  have hlt := g.toNat_lt
  rw [← UInt16.toNat_inj]
  simp only [UInt16.toNat_add, UInt16.toNat_mul, UInt16.toNat_div, UInt8.toNat_toUInt16,
    UInt16.toNat_toUInt8, UInt16.reduceToNat]
  omega

/-- An embedded address has five groups of zeros and one of ones in front. -/
private theorem groups_of_embeddedV4? {gs : List UInt16} {inner : Ipv4}
    (h : embeddedV4? gs = some inner) :
    gs = List.replicate 5 0 ++ 0xFFFF :: groupsOf inner := by
  unfold embeddedV4? at h
  split at h
  next high low =>
    cases h
    unfold groupsOf
    dsimp only
    rw [halves, halves]
    rfl
  next => cases h

/-- The group of ones. -/
private theorem groupText_mapped : GroupText "ffff".toList 0xFFFF where
  number := {
    nonempty := by decide
    digits := List.all_eq_true.mp (by decide)
    value := by decide
    le_bound := by decide }
  length_le := by decide

-- ============================================================ IPv6, written

/-- The written form of an IPv6 address spells it. -/
theorem ipv6Text_textOfV6 (address : Ipv6) : Ipv6Text (textOfV6 address) address := by
  unfold textOfV6
  split
  next inner hinner =>
    have hback : Series true ("ffff".toList ++ (':' :: textOfV4 inner))
        (0xFFFF :: groupsOf inner) true :=
      @Series.group true _ _ _ _ _ groupText_mapped
        (@Series.address false _ _ (ipv4Text_textOfV4 inner))
    exact .short .stop hback (show 0 + 3 < 8 by decide) (groups_of_embeddedV4? hinner)
  next =>
    cases hzeros : longestZeros address.groups with
    | mk start count =>
      dsimp only
      split
      · exact .full (series_textOfGroups _)
      next hlong =>
        have hle := longestZeros_le address.groups
        rw [hzeros] at hle
        -- the longest run of zeros is what the two colons stand for
        have hgap := zeros_of_le_zerosAt hle
        have eight := address.length_groups
        have hwhole : address.groups
            = address.groups.take start ++ List.replicate count 0
              ++ address.groups.drop (start + count) := by
          rw [← hgap, List.append_assoc, ← List.drop_drop, List.take_append_drop,
            List.take_append_drop]
        have hcount : (address.groups.take start).length + count
            + (address.groups.drop (start + count)).length = 8 := by
          have hlength := congrArg List.length hwhole
          simp only [List.length_append, List.length_replicate] at hlength
          omega
        have hshort : Ipv6Text (textOfGroups (address.groups.take start) ++ ':' :: ':' ::
            textOfGroups (address.groups.drop (start + count))) address := by
          refine .short (series_textOfGroups _) (series_textOfGroups _) (by omega) ?_
          rw [show 8 - (address.groups.take start).length
            - (address.groups.drop (start + count)).length = count by omega]
          exact hwhole
        simpa only [List.append_assoc, List.cons_append, List.nil_append] using hshort

-- ======================================================== telling apart

private theorem follows_nil : Follows [] := by
  intro c h
  cases h

/-- A series begins with a digit, or it is empty. -/
theorem Series.head {cs : List Char} {gs : List UInt16} {embedded : Bool}
    (h : Series true cs gs embedded) :
    cs = [] ∧ gs = [] ∨ ∃ c more, cs = c :: more ∧ Number.isDigit 16 c = true := by
  cases h with
  | stop => exact .inl ⟨rfl, rfl⟩
  | address text =>
    obtain ⟨c, more, rfl, hdigit⟩ := head_of_ipv4Text text
    exact .inr ⟨c, more, rfl, isDigit_of_isDigit_ten hdigit⟩
  | @group _ _ cs more _ _ text others =>
    obtain ⟨c, cs, rfl⟩ := List.exists_cons_of_ne_nil text.number.nonempty
    exact .inr ⟨c, cs ++ more, rfl, text.number.digits c List.mem_cons_self⟩

/-- An address of this kind begins with a digit or a colon, so never with a
bracket. -/
private theorem head_of_ipv6Text {cs : List Char} {address : Ipv6} (h : Ipv6Text cs address) :
    ∃ c more, cs = c :: more ∧ (Number.isDigit 16 c = true ∨ c = ':') := by
  cases h with
  | full series =>
    obtain ⟨-, hnone⟩ | ⟨c, more, rfl, hdigit⟩ := series.head
    · have eight := address.length_groups
      rw [hnone] at eight
      cases eight
    · exact ⟨c, more, rfl, .inl hdigit⟩
  | @short front back _ _ _ _ first last room groups =>
    obtain ⟨rfl, -⟩ | ⟨c, more, rfl, hdigit⟩ := first.head
    · exact ⟨':', ':' :: back, rfl, .inr rfl⟩
    · exact ⟨c, more ++ ':' :: ':' :: back, rfl, .inl hdigit⟩

/-- A series that is not an IPv4 address as a whole does not begin like
one. -/
theorem ipv4_series_eq_none {cs rest : List Char} {gs : List UInt16} {embedded : Bool}
    (h : Series true cs gs embedded) (hplain : embedded = true → gs.length ≠ 2)
    (hrest : Follows rest) : ipv4 (cs ++ rest) = none := by
  cases h with
  | stop => exact ipv4_eq_none hrest.stopsAt
  | address text => exact absurd (length_groupsOf _) (hplain rfl)
  | @group _ _ cs more _ _ text others =>
    rw [lead, if_pos rfl, List.nil_append, List.append_assoc]
    exact ipv4_group_eq_none text (others.follows hrest)

/-- An IPv6 address does not begin like an IPv4 address. -/
theorem ipv4_eq_none_of_ipv6Text {cs : List Char} {address : Ipv6} (h : Ipv6Text cs address) :
    ipv4 cs = none := by
  cases h with
  | full series =>
    rw [← List.append_nil cs]
    refine ipv4_series_eq_none series (fun _ => ?_) follows_nil
    rw [address.length_groups]
    decide
  | short first last room groups =>
    exact ipv4_series_eq_none first (fun h => nomatch h) (follows_cons.mpr (by decide))

private theorem ends_nil : Ends [] where
  follows := follows_nil
  colon := by rintro _ ⟨⟩

/-- The spelling of an address as such, without a port. -/
inductive HostText : List Char → IpAddress → Prop
  | v4 {cs : List Char} {address : Ipv4} (text : Ipv4Text cs address) : HostText cs (.v4 address)
  | v6 {cs : List Char} {address : Ipv6} (text : Ipv6Text cs address) : HostText cs (.v6 address)

/-- A text of the first kind is read to its end. -/
private theorem ipv4_of_ipv4Text {cs : List Char} {address : Ipv4} (h : Ipv4Text cs address) :
    ipv4 cs = some (address, []) :=
  ipv4_eq_some_iff.mpr ⟨cs, (List.append_nil cs).symm, h, stopsAt_nil _⟩

/-- A text of the second kind is read as its address. -/
private theorem ipv6_of_ipv6Text {cs : List Char} {address : Ipv6} (h : Ipv6Text cs address) :
    ipv6 cs = some (address, []) := by
  have hread := ipv6_append h ends_nil
  rwa [List.append_nil] at hread

/-- No text spells two addresses. -/
theorem HostText.unique {cs : List Char} {a b : IpAddress} (ha : HostText cs a)
    (hb : HostText cs b) : a = b := by
  cases ha with
  | v4 ha =>
    -- each text is read by one of the two readers, and read in one way
    have hread := ipv4_of_ipv4Text ha
    cases hb with
    | v4 hb =>
      rw [ipv4_of_ipv4Text hb] at hread
      cases hread
      rfl
    | v6 hb =>
      rw [ipv4_eq_none_of_ipv6Text hb] at hread
      cases hread
  | v6 ha =>
    cases hb with
    | v4 hb =>
      have hread := ipv4_of_ipv4Text hb
      rw [ipv4_eq_none_of_ipv6Text ha] at hread
      cases hread
    | v6 hb =>
      have hread := ipv6_of_ipv6Text ha
      rw [ipv6_of_ipv6Text hb] at hread
      cases hread
      rfl

/-- No address is spelled like an address with a port. -/
theorem HostText.not_socketText {cs : List Char} {a b : IpAddress} (ha : HostText cs a) :
    ¬ SocketText cs b := by
  intro hb
  cases hb with
  -- behind an address without brackets there is a port left
  | @v4 cs ps _ _ text port =>
    have hread : ipv4 (cs ++ ':' :: ps) = some (_, ':' :: ps) :=
      ipv4_eq_some_iff.mpr ⟨cs, rfl, text, stopsAt_cons.mpr (by decide)⟩
    cases ha with
    | v4 ha =>
      rw [ipv4_of_ipv4Text ha] at hread
      cases hread
    | v6 ha =>
      rw [ipv4_eq_none_of_ipv6Text ha] at hread
      cases hread
  | v6 text scope port =>
    cases ha with
    | v4 ha =>
      obtain ⟨c, more, hsame, hdigit⟩ := head_of_ipv4Text ha
      cases hsame
      exact absurd hdigit (by decide)
    | v6 ha =>
      obtain ⟨c, more, hsame, hdigit⟩ := head_of_ipv6Text ha
      cases hsame
      exact absurd hdigit (by decide)

/-- The written form of an address spells it. -/
theorem hostText_text (address : IpAddress) : HostText address.text.toList address := by
  cases address with
  | v4 address =>
    show HostText (String.ofList (textOfV4 address)).toList _
    rw [String.toList_ofList]
    exact .v4 (ipv4Text_textOfV4 address)
  | v6 address =>
    show HostText (String.ofList (textOfV6 address)).toList _
    rw [String.toList_ofList]
    exact .v6 (ipv6Text_textOfV6 address)

/-- Two addresses are told apart by their texts. -/
private theorem text_inj {a b : IpAddress} : a.text = b.text ↔ a = b := by
  refine ⟨fun h => ?_, congrArg text⟩
  have ha := hostText_text a
  rw [h] at ha
  exact ha.unique (hostText_text b)

/-- What stands for an address is not a socket address itself, so taking the
peer of a peer changes nothing. -/
private theorem ofSocketText?_text (address : IpAddress) : ofSocketText? address.text = none := by
  rw [Option.eq_none_iff_forall_ne_some]
  intro b h
  exact (hostText_text address).not_socketText (ofSocketText?_eq_some_iff.mp h)

end IpAddress

namespace Peer

/-- The peer at a spelled address is known by the address. -/
theorem ofRemoteAddress_of_socketText {remote : String} {address : IpAddress}
    (h : IpAddress.SocketText remote.toList address) : ofRemoteAddress remote = ⟨address.text⟩ := by
  unfold ofRemoteAddress
  rw [IpAddress.ofSocketText?_eq_some_iff.mpr h]

/-- A text that is no socket address is kept. -/
theorem ofRemoteAddress_of_not_socketText {remote : String}
    (h : ∀ address, ¬ IpAddress.SocketText remote.toList address) :
    ofRemoteAddress remote = ⟨remote⟩ := by
  unfold ofRemoteAddress
  rw [Option.eq_none_iff_forall_ne_some.mpr fun address hread =>
    h address (IpAddress.ofSocketText?_eq_some_iff.mp hread)]

/-- One host is one peer. The texts that are taken for addresses with
ports are their spellings; two of them are the same peer if and only if
the addresses are the same, and then they have the same bundle of every
generation. A text that is no such spelling is kept, and the text of a
peer stands for that peer. -/
theorem one_host_one_peer (remote : String) :
    (∀ a, IpAddress.ofSocketText? remote = some a ↔ IpAddress.SocketText remote.toList a)
      ∧ (∀ other a b, IpAddress.SocketText remote.toList a →
          IpAddress.SocketText other.toList b →
          (ofRemoteAddress remote = ofRemoteAddress other ↔ a = b)
          ∧ (a = b → ∀ g : Generation,
              g.bundleFor? (ofRemoteAddress remote) = g.bundleFor? (ofRemoteAddress other)))
      ∧ ((∀ a, ¬ IpAddress.SocketText remote.toList a) → ofRemoteAddress remote = ⟨remote⟩)
      ∧ ofRemoteAddress (ofRemoteAddress remote).text = ofRemoteAddress remote := by
  refine ⟨fun a => IpAddress.ofSocketText?_eq_some_iff, fun other a b ha hb => ?_,
    ofRemoteAddress_of_not_socketText, ?_⟩
  · have hsame : ofRemoteAddress remote = ofRemoteAddress other ↔ a = b := by
      rw [ofRemoteAddress_of_socketText ha, ofRemoteAddress_of_socketText hb, Peer.mk.injEq]
      exact IpAddress.text_inj
    refine ⟨hsame, fun h g => ?_⟩
    rw [hsame.mpr h]
  · by_cases h : ∃ a, IpAddress.SocketText remote.toList a
    · obtain ⟨a, ha⟩ := h
      rw [ofRemoteAddress_of_socketText ha]
      unfold ofRemoteAddress
      dsimp only
      rw [IpAddress.ofSocketText?_text]
    · rw [ofRemoteAddress_of_not_socketText fun a ha => h ⟨a, ha⟩]
      exact ofRemoteAddress_of_not_socketText fun a ha => h ⟨a, ha⟩

/-- An IPv4 address in IPv6 is one host in any spelling, and it is not
the host with the IPv4 address; a name is kept. -/
theorem one_host_one_peer_mapped :
    ofRemoteAddress "[::FFFF:1.2.3.4%7]:80" = ofRemoteAddress "[0:0:0:0:0:ffff:0102:0304]:65535"
      ∧ ofRemoteAddress "[::FFFF:1.2.3.4%7]:80" ≠ ofRemoteAddress "1.2.3.4:80"
      ∧ ofRemoteAddress "name.b32.i2p:80" = ⟨"name.b32.i2p:80"⟩ := by
  have hmapped : IpAddress.ofSocketText? "[::FFFF:1.2.3.4%7]:80"
      = some (.v6 ⟨[0, 0, 0, 0, 0, 0xFFFF, 0x102, 0x304], rfl⟩) := by decide +kernel
  have hfull : IpAddress.ofSocketText? "[0:0:0:0:0:ffff:0102:0304]:65535"
      = some (.v6 ⟨[0, 0, 0, 0, 0, 0xFFFF, 0x102, 0x304], rfl⟩) := by decide +kernel
  have hplain : IpAddress.ofSocketText? "1.2.3.4:80" = some (.v4 ⟨1, 2, 3, 4⟩) := by
    decide +kernel
  have hname : IpAddress.ofSocketText? "name.b32.i2p:80" = none := by decide +kernel
  rw [IpAddress.ofSocketText?_eq_some_iff] at hmapped hfull hplain
  obtain ⟨-, hpeers, -, -⟩ := one_host_one_peer "[::FFFF:1.2.3.4%7]:80"
  obtain ⟨hread, -, hkept, -⟩ := one_host_one_peer "name.b32.i2p:80"
  refine ⟨(hpeers _ _ _ hmapped hfull).1.mpr rfl, fun hsame => ?_, hkept fun a ha => ?_⟩
  · exact nomatch (hpeers _ _ _ hmapped hplain).1.mp hsame
  · rw [← hread, hname] at ha
    cases ha

end Peer

end RouterSeed

/-
A certificate that was issued here reads back as it is.

Reading is looser than writing in three places, so not every certificate
has one written form. `Readable` says of each part what writing it and
reading it again takes: identifiers that are ones, tags that can stand
before an element, dates that the calendar has. The parts are read in
the order in which they are written, each in front of all that follow.

Issuing makes readable certificates only, whatever the signer id and the
clock (`readable_of_issueCertificate`). What is left is the length,
which whoever writes the certificate has looked at.

Consumed by the proofs about stored identities.
-/
import RouterSeed.Certificate.Issue
import RouterSeed.Proofs.Calendar
import RouterSeed.Proofs.Key.RoundTrip

namespace RouterSeed

open Der (Reads Oid Element BitString)

-- ============================================================== times

namespace Der.Time

/-- Digits of a fixed width give the number back, as far as the width goes. -/
private theorem number?_digits (width n : Nat) : number? (digits width n) = some
    (n % 10 ^ width) := by
  -- with whatever was read before them
  have hfold : ∀ before, (digits width n).foldlM
      (fun n b => if 48 ≤ b ∧ b ≤ 57 then some (n * 10 + (b.toNat - 48)) else none) before
        = some (before * 10 ^ width + n % 10 ^ width) := by
    induction width with
    | zero =>
      intro before
      simp [digits, Nat.mod_one]
    | succ width ih =>
      intro before
      have hdigit : n / 10 ^ width % 10 < 10 := Nat.mod_lt _ (by decide)
      have hvalue : (UInt8.ofNat (48 + n / 10 ^ width % 10)).toNat = 48 + n / 10 ^ width % 10 := by
        rw [UInt8.toNat_ofNat']
        omega
      have hrange : 48 ≤ UInt8.ofNat (48 + n / 10 ^ width % 10)
          ∧ UInt8.ofNat (48 + n / 10 ^ width % 10) ≤ 57 := by
        rw [UInt8.le_iff_toNat_le, UInt8.le_iff_toNat_le, hvalue]
        show 48 ≤ 48 + n / 10 ^ width % 10 ∧ 48 + n / 10 ^ width % 10 ≤ 57
        omega
      have hcons : digits (width + 1) n
          = UInt8.ofNat (48 + n / 10 ^ width % 10) :: digits width n := by
        simp [digits, List.range_succ]
      rw [hcons, List.foldlM_cons, if_pos hrange, hvalue, Nat.add_sub_cancel_left]
      show List.foldlM _ (before * 10 + n / 10 ^ width % 10) (digits width n) = _
      rw [ih, Nat.mod_pow_succ, Nat.pow_succ, Nat.add_mul, Nat.mul_assoc,
        Nat.mul_comm (n / 10 ^ width % 10), Nat.mul_comm 10]
      congr 1
      omega
  have := hfold 0
  simpa [number?] using this

private theorem number?_digits_of_lt {width n : Nat} (h : n < 10 ^ width) :
    number? (digits width n) = some n := by
  rw [number?_digits, Nat.mod_eq_of_lt h]

/-- What follows the year is the same in both forms of a time, and is read
back for every date from 1970 on. -/
private theorem ofRest_restContent {form : TimeForm} {t : Calendar.DateTime} {year : Nat}
    (hyear : t.year = year) (hstart : 1970 ≤ year) (h : t.Valid) :
    ofRest form year (restContent t) = some ⟨form, t⟩ := by
  have hfields := h.fields_lt
  have hmonth : number? (digits 2 t.month) = some t.month :=
    number?_digits_of_lt (hfields _ (by simp))
  have hday : number? (digits 2 t.day) = some t.day := number?_digits_of_lt (hfields _ (by simp))
  have hhour : number? (digits 2 t.hour) = some t.hour := number?_digits_of_lt (hfields _ (by simp))
  have hminute : number? (digits 2 t.minute) = some t.minute :=
    number?_digits_of_lt (hfields _ (by simp))
  have hsecond : number? (digits 2 t.second) = some t.second :=
    number?_digits_of_lt (hfields _ (by simp))
  have hdate : (⟨year, t.month, t.day, t.hour, t.minute, t.second⟩ : Calendar.DateTime) = t := by
    rw [← hyear]
  -- ten digits and a Z
  have hlength : ¬((restContent t).length ≠ 11 ∨ (restContent t).getLast? ≠ some 90) := by
    rintro (hlength | hlast)
    · exact hlength rfl
    · exact hlast rfl
  unfold ofRest
  rw [if_neg hlength]
  show (do
      let month ← number? (digits 2 t.month)
      let day ← number? (digits 2 t.day)
      let hour ← number? (digits 2 t.hour)
      let minute ← number? (digits 2 t.minute)
      let second ← number? (digits 2 t.second)
      let t : Calendar.DateTime := ⟨year, month, day, hour, minute, second⟩
      if 1970 ≤ year ∧ t.Valid then some (⟨form, t⟩ : Time) else none) = _
  rw [hmonth, hday, hhour, hminute, hsecond]
  rw [← hdate] at h
  refine (if_pos ⟨hstart, h⟩).trans ?_
  rw [hdate]

private theorem length_digits (width n : Nat) : (digits width n).length = width := by
  simp [digits]

/-- What follows the two digits of a year is read as the rest. -/
private theorem ofElement_utc {year : Nat} (h : year < 100) (rest : Bytes) :
    ofElement ⟨utcTimeTag, digits 2 year ++ rest⟩
      = ofRest .utc (if year < 50 then 2000 + year else 1900 + year) rest := by
  unfold ofElement
  dsimp only
  rw [if_pos rfl, List.take_left' (length_digits 2 year), List.drop_left' (length_digits 2 year),
    number?_digits_of_lt h]
  rfl

/-- What follows the four digits of a year is read as the rest. -/
private theorem ofElement_generalized {year : Nat} (h : year < 10000) (rest : Bytes) :
    ofElement ⟨generalizedTimeTag, digits 4 year ++ rest⟩ = ofRest .generalized year rest := by
  have hforms : generalizedTimeTag ≠ utcTimeTag := by decide
  unfold ofElement
  dsimp only
  rw [if_neg hforms, if_pos rfl, List.take_left' (length_digits 4 year),
    List.drop_left' (length_digits 4 year), number?_digits_of_lt h]
  rfl

/-- The time is read back from its content. -/
def Readable (t : Time) : Prop := ofElement ⟨t.tag, t.content⟩ = some t

/-- The form of a time goes by its year, and each form has the digits for
the years it is used for. -/
theorem readable_of_ofSeconds? {seconds : Nat} {t : Time} (h : ofSeconds? seconds = some t) :
    t.Readable := by
  have hvalid : (Calendar.DateTime.ofSeconds seconds).Valid :=
    Calendar.DateTime.valid_ofSeconds seconds
  have hyear : 1970 ≤ (Calendar.DateTime.ofSeconds seconds).year :=
    Calendar.DateTime.year_ofSeconds (Int.natCast_nonneg seconds)
  unfold ofSeconds? at h
  dsimp only at h
  generalize Calendar.DateTime.ofSeconds seconds = date at h hvalid hyear
  obtain ⟨year, hcast⟩ : ∃ year : Nat, date.year = year := ⟨date.year.toNat, by omega⟩
  split at h
  -- two digits of the year are enough before 2050
  next hearly =>
    cases h
    have hfull : (if date.year.toNat % 100 < 50 then 2000 + date.year.toNat % 100
        else 1900 + date.year.toNat % 100) = year := by
      split <;> omega
    show ofElement ⟨utcTimeTag, digits 2 (date.year.toNat % 100) ++ restContent date⟩ = _
    rw [ofElement_utc (Nat.mod_lt _ (by decide)), hfull]
    exact ofRest_restContent hcast (by omega) hvalid
  next hlate =>
    split at h
    next =>
      cases h
      show ofElement ⟨generalizedTimeTag, digits 4 date.year.toNat ++ restContent date⟩ = _
      rw [ofElement_generalized (by omega)]
      exact ofRest_restContent (by omega) (by omega) hvalid
    next => cases h

/-- A time is read back in the form it was written in. -/
theorem reads_time {t : Time} (h : t.Readable) (rest : Bytes) : Reads time t.encode rest t := by
  have htag : knownTag t.tag = true := by
    unfold tag
    cases t.form <;> decide
  have helement : Reads element t.encode rest ⟨t.tag, t.content⟩ := reads_element htag
  apply helement.bind_last
  rw [h]
  exact reads_pure t rest

end Der.Time

-- ====================================================== the parts

private theorem Der.encode_ne_nil (tag : UInt8) (content : Bytes) : Der.encode tag content ≠ [] :=
  List.cons_ne_nil _ _

namespace AlgorithmIdentifier

structure Readable (a : AlgorithmIdentifier) : Prop where
  oid : a.oid.Valid
  parameters : ∀ e ∈ a.parameters, Der.knownTag e.tag = true

/-- An algorithm is read back, with its parameter if it has one. -/
theorem reads_reader {a : AlgorithmIdentifier} (h : a.Readable) (rest : Bytes) :
    Reads reader a.encode rest a := by
  obtain ⟨oid, parameters⟩ := a
  apply Reads.within rfl
  apply (Der.reads_oid h.oid _).bind
  rw [List.flatten_cons, List.flatten_nil, List.append_nil]
  cases parameters with
  | none =>
    apply Der.reads_atEnd_nil.bind_peek
    exact Der.reads_pure _ _
  | some e =>
    apply (Der.reads_atEnd_false (List.cons_ne_nil _ _)).bind_peek
    exact (Der.reads_element (h.parameters e rfl)).bind_pure

end AlgorithmIdentifier

/-- A key is read back, as bits that fill their bytes. -/
theorem SubjectKey.reads_reader {k : SubjectKey} (algorithm : k.algorithm.Readable)
    (aligned : k.key.unused = 0) (rest : Bytes) : Reads reader k.encode rest k := by
  obtain ⟨identifier, ⟨unused, bytes⟩⟩ := k
  cases aligned
  apply Reads.within rfl
  apply (AlgorithmIdentifier.reads_reader algorithm _).bind
  rw [List.flatten_cons, List.flatten_nil]
  exact (Der.reads_bitString bytes []).bind (Der.reads_pure _ _)

namespace Attribute

structure Readable (a : Attribute) : Prop where
  oid : a.oid.Valid
  value : Der.knownTag a.value.tag = true

/-- An attribute of a name is read back. -/
theorem reads_reader {a : Attribute} (h : a.Readable) (rest : Bytes) :
    Reads reader a.encode rest a := by
  apply Reads.within rfl
  apply (Der.reads_oid h.oid _).bind
  exact (Der.reads_element h.value).bind_pure

end Attribute

/-- The parts of a name are sets of attributes that can be read, in the
order of sets. -/
def Name.Readable (name : Name) : Prop :=
  ∀ part ∈ name, NamePart.ofList? part = some part ∧ ∀ a ∈ part, Attribute.Readable a

/-- A name is read back, part by part. Within a part the attributes are in
the order that sets are written in. -/
theorem Name.reads_reader {name : Name} (h : name.Readable) (rest : Bytes) :
    Reads reader name.encode rest name := by
  apply Reads.within rfl
  apply Der.reads_many
  intro part hpart
  obtain ⟨hsorted, hattributes⟩ := h part hpart
  refine ⟨Der.encode_ne_nil _ _, ?_⟩
  intro rest
  have hset : Reads (Der.within Der.setTag (Der.many Attribute.reader))
      (Der.encode Der.setTag (part.map Attribute.encode).flatten) rest part := by
    apply Reads.within rfl
    apply Der.reads_many
    intro a ha
    exact ⟨Der.encode_ne_nil _ _, Attribute.reads_reader (hattributes a ha)⟩
  apply hset.bind_last
  rw [hsorted]
  exact Der.reads_pure part rest

namespace Extension

/-- A flag is written only if it is set. -/
private theorem reads_flag_true (rest : Bytes) :
    Reads flag (Der.encode Der.boolTag [0xFF]) rest true := by
  have hpeek : Reads get [] (Der.encode Der.boolTag [0xFF] ++ rest)
      (Der.encode Der.boolTag [0xFF] ++ rest) := fun _ => rfl
  apply hpeek.bind_peek
  exact (Der.reads_tagged rfl).bind_last (Der.reads_pure true rest)

private theorem reads_flag_false (content rest : Bytes) :
    Reads flag [] (Der.encode Der.octetStringTag content ++ rest) false := fun _ => rfl

/-- An extension is read back, critical or not. -/
theorem reads_reader {e : Extension} (h : e.oid.Valid) (rest : Bytes) :
    Reads reader e.encode rest e := by
  obtain ⟨oid, critical, value⟩ := e
  apply Reads.within rfl
  apply (Der.reads_oid h _).bind
  simp only [List.flatten_cons, List.flatten_nil, List.append_nil]
  have hvalue : ∀ critical : Bool, Reads (do
      let value ← Der.tagged Der.octetStringTag
      pure (⟨oid, critical, value⟩ : Extension)) (Der.encode Der.octetStringTag value) []
      ⟨oid, critical, value⟩ :=
    fun critical => (Der.reads_tagged rfl).bind_pure
  cases critical with
  | true => exact (reads_flag_true _).bind (hvalue true)
  | false => exact (reads_flag_false value []).bind_peek (hvalue false)

end Extension

/-- A version is read back from its number. -/
theorem CertificateVersion.reads_reader (v : CertificateVersion) (rest : Bytes) :
    Reads reader (Der.encodeUnsigned v.number) rest v := by
  apply (Der.reads_unsigned v.number _).bind_last
  cases v with
  | v1 => exact Der.reads_pure _ _
  | v2 => exact Der.reads_pure _ _
  | v3 => exact Der.reads_pure _ _

/-- The two ends of the validity are read back. -/
theorem Validity.reads_reader {v : Validity} (notBefore : v.notBefore.Readable)
    (notAfter : v.notAfter.Readable) (rest : Bytes) : Reads reader v.encode rest v := by
  apply Reads.within rfl
  apply (Der.Time.reads_time notBefore _).bind
  rw [List.flatten_cons, List.flatten_nil]
  exact (Der.Time.reads_time notAfter _).bind (Der.reads_pure _ _)

-- ======================================================= certificates

/-- What is written of a body can be read. Unique ids are not written
here. -/
structure CertificateBody.Readable (b : CertificateBody) : Prop where
  version : b.version ≠ .v1
  serial : Der.isShortestInteger b.serial = true
  serialLength : b.serial.length ≤ maxSerialLength
  algorithm : b.algorithm.Readable
  issuer : b.issuer.Readable
  notBefore : b.validity.notBefore.Readable
  notAfter : b.validity.notAfter.Readable
  subject : b.subject.Readable
  keyAlgorithm : b.subjectKey.algorithm.Readable
  keyAligned : b.subjectKey.key.unused = 0
  issuerId : b.issuerId = none
  subjectId : b.subjectId = none
  extensions : ∃ extensions, b.extensions = some extensions ∧ ∀ e ∈ extensions, e.oid.Valid

/-- The body is read back field by field. The optional fields are told apart
by their tags. -/
theorem CertificateBody.reads_reader {b : CertificateBody} (h : b.Readable) (rest : Bytes) :
    Reads reader b.encode rest b := by
  obtain ⟨version, serial, algorithm, issuer, validity, subject, subjectKey, issuerId, subjectId,
    extensions⟩ := b
  obtain ⟨hversion, hserial, hserialLength, halgorithm, hissuer, hnotBefore, hnotAfter, hsubject,
    hkeyAlgorithm, hkeyAligned, rfl, rfl, written, rfl, hwritten⟩ := h
  apply Reads.within rfl
  simp only [List.flatten_cons, List.flatten_nil, List.append_nil, encodeId, if_neg hversion,
    List.nil_append]
  apply ((CertificateVersion.reads_reader version []).explicit (by decide)).bind
  apply (Der.reads_tagged rfl).bind
  rw [if_neg (by simp [hserial, hserialLength])]
  apply (AlgorithmIdentifier.reads_reader halgorithm _).bind
  apply (Name.reads_reader hissuer _).bind
  apply (Validity.reads_reader hnotBefore hnotAfter _).bind
  apply (Name.reads_reader hsubject _).bind
  apply (SubjectKey.reads_reader hkeyAlgorithm hkeyAligned _).bind
  -- the extensions come under a higher number than the ids that are not there
  apply (Der.reads_implicitBits_none
    (Der.lacksContext_explicit (by decide) (by decide) _ _)).bind_peek
  apply (Der.reads_implicitBits_none
    (Der.lacksContext_explicit (by decide) (by decide) _ _)).bind_peek
  apply Reads.bind_pure
  apply Reads.explicit (by decide)
  apply Reads.within rfl
  apply Der.reads_many
  intro e he
  exact ⟨Der.encode_ne_nil _ _, Extension.reads_reader (hwritten e he)⟩

namespace Certificate

/-- What is written of a certificate can be read. -/
structure Readable (c : Certificate) : Prop where
  body : c.body.Readable
  algorithm : c.algorithm.Readable
  aligned : c.signature.unused = 0

/-- A certificate that can be read and is not too long comes back from
its encoding. -/
theorem decode?_encode {c : Certificate} (h : c.Readable) (short : c.encode.length ≤ Der.maxLength) :
    decode? c.encode = some c := by
  obtain ⟨body, algorithm, ⟨unused, bytes⟩⟩ := c
  obtain ⟨hbody, halgorithm, haligned⟩ := h
  cases haligned
  refine Der.whole_of_reads (Reads.within rfl ?_) short
  apply (CertificateBody.reads_reader hbody _).bind
  apply (AlgorithmIdentifier.reads_reader halgorithm _).bind
  rw [List.flatten_cons, List.flatten_nil]
  exact (Der.reads_bitString bytes []).bind (Der.reads_pure _ _)

end Certificate

-- ============================================================ issuing

/-- What issuing a certificate comes to. -/
theorem issueCertificate_eq_ok {signerId : String} {key : PrivateKey} {inputs : IssueInputs}
    {certificate : Certificate} (h : issueCertificate signerId key inputs = .ok certificate) :
    ∃ algorithm digest body signature, issuingAlgorithm? key = some (algorithm, digest)
      ∧ certificateBody? signerId key.publicKey algorithm inputs = some body
      ∧ body.encode.length ≤ Der.maxLength
      ∧ Su3.signWith key digest body.encode inputs.signatureRandom = .ok signature
      ∧ certificate = ⟨body, algorithm, .ofBytes signature⟩ := by
  unfold issueCertificate at h
  split at h
  · cases h
  next algorithm digest halgorithm =>
    split at h
    · cases h
    next body hbody =>
      split at h
      · cases h
      next hshort =>
        obtain ⟨signature, hsignature, hmade⟩ := bind_eq_ok_iff.mp h
        cases hmade
        exact ⟨algorithm, digest, body, signature, halgorithm, hbody, Nat.le_of_not_lt hshort,
          hsignature, rfl⟩

/-- Serial numbers have 16 bytes. In the first one the sign bit is clear
and the lowest bit is set. -/
theorem serialNumber_eq_cons (random : Nat) :
    ∃ lead rest, serialNumber random = lead :: rest ∧ rest.length = 15 ∧ lead ≠ 0 ∧ lead < 0x80 := by
  have hlead : ∀ first : UInt8, (first &&& 0x7F) ||| 0x01 ≠ 0 ∧ (first &&& 0x7F) ||| 0x01 < 0x80 := by
    have hall : ∀ n < 256, (UInt8.ofNat n &&& 0x7F) ||| 0x01 ≠ 0
        ∧ (UInt8.ofNat n &&& 0x7F) ||| 0x01 < 0x80 := by decide +kernel
    intro first
    have := hall first.toNat first.toNat_lt
    rwa [UInt8.ofNat_toNat] at this
  have hlength := Bytes.length_ofNat 16 random
  unfold serialNumber
  split
  next first rest hrandom =>
    rw [hrandom, List.length_cons] at hlength
    exact ⟨_, rest, rfl, Nat.succ.inj hlength, hlead first⟩
  next hrandom =>
    rw [hrandom] at hlength
    cases hlength

/-- The first byte is no spare one. -/
private theorem isShortestInteger_serialNumber (random : Nat) :
    Der.isShortestInteger (serialNumber random) = true
      ∧ (serialNumber random).length ≤ maxSerialLength := by
  obtain ⟨lead, rest, hserial, hlength, hzero, hsign⟩ := serialNumber_eq_cons random
  have hfull : lead ≠ 0xFF := by
    rintro rfl
    exact absurd hsign (by decide)
  rw [hserial, List.length_cons, hlength]
  exact ⟨Der.isShortestInteger_cons hzero hfull rest, by decide⟩

private theorem readable_namePart {oid : Oid} {tag : UInt8} (hoid : oid.Valid)
    (htag : Der.knownTag tag = true) (text : String) :
    NamePart.ofList? (namePart oid tag text) = some (namePart oid tag text)
      ∧ ∀ a ∈ namePart oid tag text, Attribute.Readable a := by
  refine ⟨rfl, ?_⟩
  intro a ha
  cases List.mem_singleton.mp ha
  exact ⟨hoid, htag⟩

/-- The name of an issued certificate is in the order that its reader asks
for. -/
private theorem readable_subjectName (signerId : String) : (subjectName signerId).Readable := by
  intro part hpart
  simp only [subjectName, List.mem_cons, List.not_mem_nil, or_false] at hpart
  rcases hpart with rfl | rfl | rfl | rfl | rfl
  all_goals exact readable_namePart (by decide +kernel) (by decide) _

/-- The algorithms that certificates are issued with are readable. -/
private theorem readable_of_issuingAlgorithm? {key : PrivateKey} {algorithm : AlgorithmIdentifier}
    {digest : Digest.Algorithm} (h : issuingAlgorithm? key = some (algorithm, digest)) :
    algorithm.Readable := by
  unfold issuingAlgorithm? at h
  split at h
  · cases h
    refine ⟨by decide +kernel, ?_⟩
    intro e he
    cases he
    rfl
  · split at h
    · cases h
      exact ⟨by decide +kernel, nofun⟩
    · cases h
      exact ⟨by decide +kernel, nofun⟩
    · cases h
  · cases h

/-- Every key is written with an algorithm that can be read, and in whole
bytes. -/
theorem readable_ofPublicKey (key : PublicKey) :
    (SubjectKey.ofPublicKey key).algorithm.Readable
      ∧ (SubjectKey.ofPublicKey key).key.unused = 0 := by
  have hparameter : ∀ {e : Element}, Der.knownTag e.tag = true →
      ∀ parameter ∈ some e, Der.knownTag parameter.tag = true := by
    intro e he parameter hmem
    cases hmem
    exact he
  cases key with
  | rsa key =>
    have hoid : rsaEncryptionOid.Valid := by decide +kernel
    exact ⟨⟨hoid, hparameter rfl⟩, rfl⟩
  | ecdsa curve point =>
    have hoid : curveKeyOid.Valid := by decide +kernel
    exact ⟨⟨hoid, hparameter rfl⟩, rfl⟩
  | dsa key =>
    have hoid : dsaOid.Valid := by decide +kernel
    have htag : Der.knownTag (SubjectKey.dsaParameters key).tag = true := by
      show Der.knownTag Der.sequenceTag = true
      decide
    exact ⟨⟨hoid, hparameter htag⟩, rfl⟩

/-- What is issued is in the form that is read back, whatever the inputs
were. -/
theorem readable_of_certificateBody? {signerId : String} {key : PublicKey}
    {algorithm : AlgorithmIdentifier} {inputs : IssueInputs} {body : CertificateBody}
    (halgorithm : algorithm.Readable)
    (h : certificateBody? signerId key algorithm inputs = some body) : body.Readable := by
  obtain ⟨notBefore, hnotBefore, h⟩ := Option.bind_eq_some_iff.mp h
  obtain ⟨notAfter, hnotAfter, h⟩ := Option.bind_eq_some_iff.mp h
  cases h
  obtain ⟨hserial, hserialLength⟩ := isShortestInteger_serialNumber inputs.serialRandom
  obtain ⟨hkeyAlgorithm, hkeyAligned⟩ := readable_ofPublicKey key
  constructor
  case version => exact nofun
  case serial => exact hserial
  case serialLength => exact hserialLength
  case algorithm => exact halgorithm
  case issuer => exact readable_subjectName signerId
  case notBefore => exact Der.Time.readable_of_ofSeconds? hnotBefore
  case notAfter => exact Der.Time.readable_of_ofSeconds? hnotAfter
  case subject => exact readable_subjectName signerId
  case keyAlgorithm => exact hkeyAlgorithm
  case keyAligned => exact hkeyAligned
  case issuerId => rfl
  case subjectId => rfl
  -- the object ids of the four extensions are valid
  case extensions =>
    refine ⟨_, rfl, ?_⟩
    intro e he
    simp only [List.mem_cons, List.not_mem_nil, or_false] at he
    rcases he with rfl | rfl | rfl | rfl
    · show basicConstraintsOid.Valid
      decide +kernel
    · show keyUsageOid.Valid
      decide +kernel
    · show extendedKeyUsageOid.Valid
      decide +kernel
    · show subjectKeyIdOid.Valid
      decide +kernel

/-- Every certificate that is issued can be read. -/
theorem readable_of_issueCertificate {signerId : String} {key : PrivateKey} {inputs : IssueInputs}
    {certificate : Certificate} (h : issueCertificate signerId key inputs = .ok certificate) :
    certificate.Readable := by
  obtain ⟨algorithm, digest, body, signature, halgorithm, hbody, -, -, rfl⟩ :=
    issueCertificate_eq_ok h
  have halgorithm := readable_of_issuingAlgorithm? halgorithm
  exact ⟨readable_of_certificateBody? halgorithm hbody, halgorithm, rfl⟩

/-- The clock and the randomness of the certificates that serve as
examples. -/
def sampleInputs : IssueInputs := ⟨1700000000, 5, 7⟩

/-- Issuing has succeeded if what it gives can be looked at. -/
theorem exists_issueCertificate (signerId : String) (key : PrivateKey) (inputs : IssueInputs)
    (h : (issueCertificate signerId key inputs).toOption.any
      (fun c => c.encode.length ≤ Der.maxLength) = true) :
    ∃ c, issueCertificate signerId key inputs = .ok c ∧ c.encode.length ≤ Der.maxLength := by
  cases hissued : issueCertificate signerId key inputs with
  | ok c =>
    rw [hissued, Except.toOption, Option.any_some, decide_eq_true_iff] at h
    exact ⟨c, rfl, h⟩
  | error failure =>
    rw [hissued] at h
    cases h

/-- The sample key is of the kind that certificates are issued for, and its
signer id is short. -/
theorem exists_issueCertificate_sampleKey :
    ∃ c, issueCertificate "a@b" (.rsa sampleKey) sampleInputs = .ok c
      ∧ c.encode.length ≤ Der.maxLength :=
  exists_issueCertificate _ _ _ (by decide +kernel)

end RouterSeed

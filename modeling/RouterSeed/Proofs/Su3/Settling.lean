/-
How signing a container ends.

The header is signed and announces the length of the signature, so an
attempt signs over a guess: the usual length for the key at first, then
the length of the signature before (`announced`). An attempt misses when
its signature has another length than it announced.

`Settling` lists the four ways out of the loop, and `settling_settle` is
the induction on the attempts that are left. What carries it: the guess
is the announced length of this attempt, every attempt before missed,
and the container differs from the one that came in by its signature
field alone, whatever placeholder stands there. Everything that is
said of signing is read off the four ways, and nothing after that
unfolds the loop.

Consumed by the bundle proofs, whose containers are signed here.
-/
import RouterSeed.Proofs.Su3.OwnSignatures
import RouterSeed.Proofs.Su3.RoundTrip

namespace RouterSeed.Su3.File

variable {f : File} {key : PrivateKey} {randoms : Nat → Nat}

-- ============================================================ attempts

/-- The signature that one attempt makes over a guess at its length. -/
def attempt (f : File) (key : PrivateKey) (length random : Nat) : Except Failure Bytes := do
  let body ← (f.withPlaceholder length).body
  signMessage key f.signatureType body random

/-- The length announced for each attempt. -/
def announced (f : File) (key : PrivateKey) (randoms : Nat → Nat) : Nat → Except Failure Nat
  | 0 => signatureLengthHint key f.signatureType
  | i + 1 => do
    let length ← announced f key randoms i
    let signature ← f.attempt key length (randoms i)
    .ok signature.length

/-- The attempt makes a signature of another length than announced. -/
def Misses (f : File) (key : PrivateKey) (randoms : Nat → Nat) (i : Nat) : Prop :=
  ∃ length signature, f.announced key randoms i = .ok length
    ∧ f.attempt key length (randoms i) = .ok signature
    ∧ signature.length ≠ length

/-- A signature that was made announces its length to the next attempt. -/
private theorem announced_succ {i length : Nat} {signature : Bytes}
    (hannounced : f.announced key randoms i = .ok length)
    (hmade : f.attempt key length (randoms i) = .ok signature) :
    f.announced key randoms (i + 1) = .ok signature.length := by
  rw [announced, hannounced]
  show (f.attempt key length (randoms i)).bind _ = _
  rw [hmade]
  rfl

/-- An attempt without a body fails as the body does. -/
theorem attempt_of_body_error {length random : Nat} {failure : Failure}
    (h : (f.withPlaceholder length).body = .error failure) :
    f.attempt key length random = .error failure := by
  unfold attempt
  rw [h]
  rfl

private theorem attempt_of_body_ok {length random : Nat} {body : Bytes}
    (h : (f.withPlaceholder length).body = .ok body) :
    f.attempt key length random = signMessage key f.signatureType body random := by
  unfold attempt
  rw [h]
  rfl

-- ============================================================ the loop

/-- The ways in which signing ends. -/
inductive Settling (f : File) (key : PrivateKey) (randoms : Nat → Nat) :
    Except Failure Unit × File → Prop
  /-- The key cannot sign for this type at all. -/
  | refused {failure : Failure}
      (hint : signatureLengthHint key f.signatureType = .error failure) :
      Settling f key randoms (.error failure, { f with signature := [] })
  /-- An attempt made a signature of the announced length. -/
  | settled {i : Nat} {signature : Bytes} (bound : i < maxAttempts)
      (before : ∀ j < i, f.Misses key randoms j)
      (announced : f.announced key randoms i = .ok signature.length)
      (made : f.attempt key signature.length (randoms i) = .ok signature) :
      Settling f key randoms (.ok (), { f with signature })
  /-- An attempt made no signature. -/
  | failed {i length : Nat} {failure : Failure} (bound : i < maxAttempts)
      (before : ∀ j < i, f.Misses key randoms j)
      (announced : f.announced key randoms i = .ok length)
      (made : f.attempt key length (randoms i) = .error failure) :
      Settling f key randoms (.error failure, { f with signature := [] })
  /-- All attempts missed. -/
  | exhausted (all : ∀ i < maxAttempts, f.Misses key randoms i) :
      Settling f key randoms
        (.error (.signingFailed .lengthNotSettled), { f with signature := [] })

/-- The signer that the attempts share. -/
def signer (f : File) (key : PrivateKey) (randoms : Nat → Nat) (i : Nat) (body : Bytes) :
    Except Failure Bytes :=
  signMessage key f.signatureType body (randoms i)

/-- The rest of the loop ends in one of the four ways, if all attempts so
far missed. -/
private theorem settling_settle {attempts i length : Nat} (left : i + attempts = maxAttempts)
    (before : ∀ j < i, f.Misses key randoms j)
    (hannounced : f.announced key randoms i = .ok length) (old : Bytes) :
    Settling f key randoms
      (withoutPlaceholder
        (settle (f.signer key randoms) attempts i length { f with signature := old })) := by
  induction attempts generalizing i length old with
  | zero => exact .exhausted fun j hj => before j (by omega)
  | succ attempts ih =>
    have hstart : settle (f.signer key randoms) (attempts + 1) i length { f with signature := old }
        = settle (f.signer key randoms) (attempts + 1) i length f := rfl
    rw [hstart, settle]
    cases hbody : (f.withPlaceholder length).body with
    | error failure =>
      exact .failed (by omega) before hannounced (attempt_of_body_error hbody)
    | ok body =>
      have hattempt : f.attempt key length (randoms i) = f.signer key randoms i body :=
        attempt_of_body_ok hbody
      dsimp only
      cases hmade : f.signer key randoms i body with
      | error failure =>
        exact .failed (by omega) before hannounced (hattempt.trans hmade)
      | ok signature =>
        have hsignature := hattempt.trans hmade
        dsimp only
        by_cases hlength : signature.length = length
        · rw [if_pos hlength]
          subst hlength
          exact .settled (by omega) before hannounced hsignature
        · rw [if_neg hlength]
          -- this attempt joins the ones that missed
          refine ih (by omega) ?_ (announced_succ hannounced hsignature) _
          intro j hj
          rcases Nat.lt_succ_iff_lt_or_eq.mp hj with hless | rfl
          · exact before j hless
          · exact ⟨length, signature, hannounced, hsignature, hlength⟩

/-- Signing ends in one of the four ways. -/
theorem settling_sign (f : File) (key : PrivateKey) (randoms : Nat → Nat) :
    Settling f key randoms (f.sign key randoms) := by
  unfold sign settleSignature
  cases hhint : signatureLengthHint key f.signatureType with
  | error failure => exact .refused hhint
  | ok length =>
    exact settling_settle (Nat.zero_add _) (fun j hj => absurd hj (Nat.not_lt_zero j)) hhint
      f.signature

-- ======================================================== when it misses

/-- There is one reason for a file to have no body. -/
theorem body_eq_error {failure : Failure} (h : f.body = .error failure) :
    failure = .fieldTooLong := by
  unfold body at h
  split at h
  · cases h
  · cases h
    rfl

/-- No attempt gives the verdict that belongs to all of them. -/
private theorem attempt_ne_lengthNotSettled (length random : Nat) :
    f.attempt key length random ≠ .error (.signingFailed .lengthNotSettled) := by
  intro h
  rcases bind_eq_error_iff.mp h with hbody | ⟨body, -, hsigned⟩
  · cases body_eq_error hbody
  · exact signMessage_ne_lengthNotSettled key f.signatureType body random hsigned

/-- The hint knows nothing of the attempts. -/
private theorem hint_ne_lengthNotSettled (t : SignatureType) :
    signatureLengthHint key t ≠ .error (.signingFailed .lengthNotSettled) := by
  intro h
  rcases bind_eq_error_iff.mp h with hdigest | ⟨digest, -, hlength⟩
  · rcases digestFor_eq_error hdigest with hfailure | hfailure <;> cases hfailure
  · cases hlength

/-- Signing gives up on the length exactly when all attempts missed it. -/
private theorem sign_lengthNotSettled_iff (f : File) (key : PrivateKey) (randoms : Nat → Nat) :
    (f.sign key randoms).1 = .error (.signingFailed .lengthNotSettled)
      ↔ ∀ i < maxAttempts, f.Misses key randoms i := by
  have hsettling := settling_sign f key randoms
  generalize f.sign key randoms = ended at hsettling
  cases hsettling with
  | refused hint =>
    constructor
    · intro h
      cases h
      exact absurd hint (hint_ne_lengthNotSettled _)
    · intro h
      obtain ⟨length, -, hannounced, -⟩ := h 0 (by decide)
      rw [announced, hint] at hannounced
      cases hannounced
  | settled bound before hannounced hmade =>
    constructor
    · intro h
      cases h
    · intro h
      -- the attempt that settled would have missed as well
      obtain ⟨length, signature, hother, hagain, hmiss⟩ := h _ bound
      rw [hannounced] at hother
      cases hother
      rw [hmade] at hagain
      cases hagain
      exact absurd rfl hmiss
  | failed bound before hannounced hmade =>
    constructor
    · intro h
      cases h
      exact absurd hmade (attempt_ne_lengthNotSettled _ _)
    · intro h
      obtain ⟨length, signature, hother, hagain, -⟩ := h _ bound
      rw [hannounced] at hother
      cases hother
      rw [hmade] at hagain
      cases hagain
  | exhausted all => exact ⟨fun _ => all, fun _ => rfl⟩

/-- The first guess is right for an RSA key. -/
private theorem not_misses_zero_rsa (rsa : Rsa.PrivateKey) : ¬ f.Misses (.rsa rsa) randoms 0 := by
  rintro ⟨length, signature, hannounced, hmade, hmiss⟩
  obtain ⟨body, -, hsigned⟩ := bind_eq_ok_iff.mp hmade
  have hhint := signatureLengthHint_of_signMessage_rsa hsigned
  rw [announced, hhint] at hannounced
  cases hannounced
  exact hmiss rfl

-- ===================================================== what is signed

/-- The placeholder and the signature announce the same length, so what
was signed is what the signed container says. -/
private theorem body_with_signature (f : File) (signature : Bytes) :
    ({ f with signature } : File).body = (f.withPlaceholder signature.length).body := by
  have hlength : (f.withPlaceholder signature.length).signature.length = signature.length :=
    List.length_replicate
  -- of the signature, a body holds the length only
  have hfits : ({ f with signature } : File).Fits
      ↔ (f.withPlaceholder signature.length).Fits := by
    unfold Fits
    rw [hlength]
    exact Iff.rfl
  have hheader : ({ f with signature } : File).header
      = (f.withPlaceholder signature.length).header := by
    unfold header
    rw [hlength]
    rfl
  unfold body
  rw [hheader]
  simp only [hfits]
  rfl

/-- A body announces the length of the signature after it. -/
private theorem field_body_signatureLength {f : File} {body : Bytes} (h : f.body = .ok body) :
    field body 10 2 = f.signature.length := by
  unfold File.body at h
  split at h
  next fits =>
    cases h
    rw [List.append_assoc, List.append_assoc]
    exact field_header_signatureLength fits.2.2 _
  next => cases h

theorem verifyWithKey_of_body {f : File} {body : Bytes} (h : f.body = .ok body)
    (public_ : PublicKey) :
    f.verifyWithKey public_ = verifySignature public_ f.signatureType body f.signature := by
  unfold verifyWithKey
  rw [h]
  rfl

/-- A container that was signed is the one that came in but for its
signature, which the first attempt that did not miss made over the body
it now has. -/
theorem sign_eq_ok {signed : File} (h : f.sign key randoms = (.ok (), signed)) :
    ∃ i body, i < maxAttempts ∧ (∀ j < i, f.Misses key randoms j)
      ∧ signed = { f with signature := signed.signature }
      ∧ signed.body = .ok body
      ∧ signMessage key f.signatureType body (randoms i) = .ok signed.signature := by
  have hsettling := settling_sign f key randoms
  rw [h] at hsettling
  cases hsettling with
  | settled bound before hannounced hmade =>
    obtain ⟨body, hbody, hsigned⟩ := bind_eq_ok_iff.mp hmade
    exact ⟨_, body, bound, before, rfl, (body_with_signature _ _).trans hbody, hsigned⟩

/-- A container that was signed verifies, if the key's signatures do. -/
theorem verifyWithKey_of_sign {signed : File} (h : f.sign key randoms = (.ok (), signed))
    (own : VerifiesOwn key f.signatureType) :
    signed.verifyWithKey key.publicKey = .ok () := by
  obtain ⟨i, body, -, -, hsame, hbody, hsigned⟩ := sign_eq_ok h
  have htype : signed.signatureType = f.signatureType := by
    rw [hsame]
  rw [verifyWithKey_of_body hbody, htype]
  exact own body (randoms i) signed.signature hsigned

/-- A container that was not signed has no signature and is otherwise the
one that came in. -/
private theorem sign_eq_error {failure : Failure} {left : File}
    (h : f.sign key randoms = (.error failure, left)) : left = { f with signature := [] } := by
  have hsettling := settling_sign f key randoms
  rw [h] at hsettling
  cases hsettling with
  | refused => rfl
  | failed => rfl
  | exhausted => rfl

-- ==================================================== what it depends on

/-- The loop asks its signer for its own attempts only, and looks at no
signature that was there before. -/
private theorem settle_congr {signer other : Nat → Bytes → Except Failure Bytes}
    {attempts i length : Nat}
    (agree : ∀ j, i ≤ j → j < i + attempts → ∀ body, other j body = signer j body)
    (f : File) (old : Bytes) :
    withoutPlaceholder (settle other attempts i length { f with signature := old })
      = withoutPlaceholder (settle signer attempts i length f) := by
  induction attempts generalizing i length f old with
  | zero => rfl
  | succ attempts ih =>
    have hstart : settle other (attempts + 1) i length { f with signature := old }
        = settle other (attempts + 1) i length f := rfl
    rw [hstart, settle, settle]
    cases hbody : (f.withPlaceholder length).body with
    | error failure => rfl
    | ok body =>
      dsimp only
      rw [agree i (Nat.le_refl i) (by omega) body]
      cases signer i body with
      | error failure => rfl
      | ok signature =>
        dsimp only
        by_cases hlength : signature.length = length
        · rw [if_pos hlength, if_pos hlength]
        -- the next attempt starts from the placeholder, so what the file held before is
        -- gone
        · rw [if_neg hlength, if_neg hlength]
          refine ih ?_ (f.withPlaceholder length) (f.withPlaceholder length).signature
          intro j hj hless
          exact agree j (by omega) (by omega)

/-- Signing draws a number for each attempt and no more. -/
private theorem sign_congr {draws : Nat → Nat} (agree : ∀ i < maxAttempts, draws i = randoms i)
    (f : File) (key : PrivateKey) (old : Bytes) :
    ({ f with signature := old } : File).sign key draws = f.sign key randoms := by
  unfold sign settleSignature
  dsimp only
  cases hhint : signatureLengthHint key f.signatureType with
  | error failure => rfl
  | ok length =>
    refine settle_congr ?_ f old
    intro j _ hless body
    rw [agree j (by omega)]

-- ================================================== the whole of signing

/-- Signing either settles on a signature over the body that announces
it, or leaves the container with none. It asks for at most 32 signatures,
whatever signature was there before, and gives up on the length only when
each of them missed it. For an RSA key none ever does. -/
theorem sign_settles_or_clears (f : File) (key : PrivateKey) (randoms : Nat → Nat) :
    (∀ signed, f.sign key randoms = (.ok (), signed) →
        (∃ i body, i < 32 ∧ (∀ j < i, f.Misses key randoms j)
          ∧ signed = { f with signature := signed.signature }
          ∧ signed.body = .ok body
          ∧ signMessage key f.signatureType body (randoms i) = .ok signed.signature
          ∧ field body 10 2 = signed.signature.length)
        ∧ (VerifiesOwn key f.signatureType → signed.verifyWithKey key.publicKey = .ok ()))
      ∧ (∀ failure left, f.sign key randoms = (.error failure, left) →
          left = { f with signature := [] })
      ∧ (∀ old draws, (∀ i < 32, draws i = randoms i) →
          ({ f with signature := old } : File).sign key draws = f.sign key randoms)
      ∧ ((f.sign key randoms).1 = .error (.signingFailed .lengthNotSettled)
          ↔ ∀ i < 32, f.Misses key randoms i)
      ∧ ∀ rsa, key = .rsa rsa →
          (f.sign key randoms).1 ≠ .error (.signingFailed .lengthNotSettled)
            ∧ VerifiesOwn key f.signatureType
            ∧ ∀ message random signature,
                signMessage key f.signatureType message random = .ok signature →
                  signatureLengthHint key f.signatureType = .ok signature.length := by
  refine ⟨?_, fun failure left => sign_eq_error, fun old draws agree => sign_congr agree f key old,
    sign_lengthNotSettled_iff f key randoms, ?_⟩
  · intro signed h
    refine ⟨?_, verifyWithKey_of_sign h⟩
    obtain ⟨i, body, bound, before, hsame, hbody, hsigned⟩ := sign_eq_ok h
    exact ⟨i, body, bound, before, hsame, hbody, hsigned, field_body_signatureLength hbody⟩
  · rintro rsa rfl
    refine ⟨?_, verifiesOwn_rsa rsa f.signatureType, ?_⟩
    · intro h
      rw [sign_lengthNotSettled_iff] at h
      exact not_misses_zero_rsa rsa (h 0 (by decide))
    · intro message random signature hsigned
      exact signatureLengthHint_of_signMessage_rsa hsigned

/-- A container to be signed with DSA. -/
def unsignedLetter : File where
  format := 0
  signatureType := .dsaSha1
  fileType := .zip
  contentType := .reseed
  version := [0x34, 0x32]
  signerId := [0x61, 0x40, 0x62]
  content := [1, 2, 3]
  signature := [7, 7]

/-- The usual length of a DSA signature is not that of a small key's, so
the first attempt misses and the second one settles. -/
theorem sign_settles_or_clears_unsignedLetter :
    signatureLengthHint (.dsa smallKey) unsignedLetter.signatureType = .ok 46
      ∧ ∃ signed, unsignedLetter.sign (.dsa smallKey) (fun i => i) = (.ok (), signed)
          ∧ signed.signature.length = 8
          ∧ signed.verifyWithKey (PrivateKey.dsa smallKey).publicKey = .ok () := by
  have hended : (unsignedLetter.sign (.dsa smallKey) fun i => i).1.toOption = some () := by
    decide +kernel
  have hlength : (unsignedLetter.sign (.dsa smallKey) fun i => i).2.signature.length = 8 := by
    decide +kernel
  refine ⟨rfl, ?_⟩
  cases hsign : unsignedLetter.sign (.dsa smallKey) fun i => i with
  | mk ended signed =>
    rw [hsign] at hended hlength
    cases ended with
    | error failure => cases hended
    | ok =>
      refine ⟨signed, rfl, hlength, ?_⟩
      exact ((sign_settles_or_clears unsignedLetter (.dsa smallKey) fun i => i).1 signed hsign).2
        verifiesOwn_smallKey

end RouterSeed.Su3.File

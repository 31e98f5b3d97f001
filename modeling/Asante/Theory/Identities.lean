import Asante.Model.Identity

/-!
# Verified Identities

What a verified token says about its holder. The identity is built from the
claims that were decoded, and from nothing else; since PyJWT only returns claims
of the issuer it was asked for, all identities one configuration verifies have
its issuer, and their principals are told apart by their subjects alone. The
issuer matters: the text of a principal does not show where the issuer ends.

A development token made under a configuration is accepted under the same
configuration from the second it was made until its lifetime is over, and gives
the identity it was made for. What this needs of PyJWT is stated about the
tokens it signs itself: the header says what it was given, and the claims come
back if they pass the documented checks.

## Main definitions

* `Jwt.PinsIssuer`, `Jwt.RoundTrips`: What is relied on of PyJWT.
* `SignedClaims`: Claims in the form the application signs.
* `plainJwt`: A library that keeps tokens as they are.

## Theorems

* `authenticatedHuman_claims`: The identity against the claims.
* `principal_iff_subject`: Principals are the same exactly for the same subject.
* `dev_token_accepted_iff`: The round trip of a development token.
-/

namespace Asante

/-- Claims are only returned if `iss` is the issuer that was asked for. -/
def Jwt.PinsIssuer (jwt : Jwt) : Prop :=
  ∀ now token key algorithms issuer audience required claims,
    jwt.decode now token key algorithms issuer audience required = .ok claims →
      claims.get? "iss" = some (.str issuer)

/-- A token as it was made. -/
structure PlainToken where
  claims : PyDict
  key : String
  algorithm : String
  headers : PyDict

/-- A claim that is a text. -/
def textOf (claims : PyDict) (name : String) : Option String :=
  (claims.get? name).bind asText

/-- A claim that is a whole number. -/
def wholeOf (claims : PyDict) (name : String) : Option Int :=
  match claims.get? name with
  | some (.num q) => if q.den = 1 then some q.num else none
  | _ => none

/-- The checks of a token with one audience and whole dates. -/
def plainChecks (now : Int) (issuer audience : String) (claims : PyDict) : Bool :=
  textOf claims "iss" = some issuer && textOf claims "aud" = some audience && audience ≠ "" &&
    (wholeOf claims "iat").any (fun iat => iat * 1000000 ≤ now) &&
    (wholeOf claims "exp").any (fun exp => now < exp * 1000000)

/-- A library that keeps tokens as they are, and checks the key they were made
    with. -/
def plainJwt : Jwt where
  Token := PlainToken
  Key := String
  secretKey := id
  getUnverifiedHeader token := .ok (("alg", .str token.algorithm) :: token.headers)
  getSigningKeyFromJwt _ _ _ := .error (.pyJwtError "no key is published")
  decode now token key algorithms issuer audience required :=
    if token.key = key && token.algorithm ∈ algorithms &&
        required.all (fun name => ((token.claims.get? name).any fun value =>
          match value with | .none => false | _ => true)) &&
        plainChecks now issuer audience token.claims
    then .ok token.claims else .error (.pyJwtError "invalid token")
  encode claims key algorithm headers := ⟨claims, key, algorithm, headers⟩

theorem textOf_eq {claims : PyDict} {name text : String} :
    textOf claims name = some text ↔ claims.get? name = some (.str text) := by
  unfold textOf
  rcases claims.get? name with _ | value
  · simp only [Option.bind_none, reduceCtorEq]
  · cases value <;> simp only [Option.bind_some, asText, Option.some.injEq, PyVal.str.injEq,
      reduceCtorEq]

theorem plainJwt_pinsIssuer : plainJwt.PinsIssuer := by
  intro now token key algorithms issuer audience required claims h
  change (if _ then _ else _) = _ at h
  split at h
  · next hchecks =>
      simp only [plainChecks, Bool.and_eq_true, decide_eq_true_eq] at hchecks
      rw [← Except.ok.inj h]
      exact textOf_eq.mp hchecks.2.1.1.1.1
  · exact absurd h (by simp only [reduceCtorEq, not_false_eq_true])

section Claims

variable {claims : PyDict} {human : VerifiedHuman}

theorem claimAt_ok {name : String} {value : PyVal} (h : claimAt claims name = .ok value) :
    claims.get? name = some value := by
  unfold claimAt at h
  split at h
  · next found hfound => rw [hfound, Except.ok.inj h]
  · exact absurd h (by simp only [reduceCtorEq, not_false_eq_true])

theorem textClaim_ok {value : PyVal} {message : String} {text : { s : String // s ≠ "" }}
    (h : textClaim value message = .ok text) : value = .str text.val := by
  unfold textClaim at h
  split at h
  · split at h
    · exact absurd h (by simp only [reduceCtorEq, not_false_eq_true])
    · rw [← Except.ok.inj h]
  · exact absurd h (by simp only [reduceCtorEq, not_false_eq_true])

/-- What an identity has taken from the claims it was built from. -/
structure BuiltFrom (claims : PyDict) (human : VerifiedHuman) : Prop where
  issuer : claims.get? "iss" = some (.str human.issuer)
  subject : claims.get? "sub" = some (.str human.subject)
  clientId : claims.get? "client_id" = some (.str human.clientId)
  audiences : ∃ aud, claims.get? "aud" = some aud ∧ Asante.audiences aud = .ok human.audiences
  scopes : Asante.scopes (claims.get? "scope") = .ok human.scopes

theorem buildHuman_ok {issuer subject clientId : { s : String // s ≠ "" }} {items : List String}
    {value : Option PyVal} (h : buildHuman issuer subject clientId items value = .ok human) :
    human.issuer = issuer.val ∧ human.subject = subject.val ∧ human.clientId = clientId.val ∧
      human.audiences = items ∧ Asante.scopes value = .ok human.scopes := by
  unfold buildHuman at h
  split at h
  · next scopes hscopes =>
      rw [← Except.ok.inj h]
      exact ⟨rfl, rfl, rfl, rfl, hscopes⟩
  · exact absurd h (by simp only [reduceCtorEq, not_false_eq_true])

/-- A result that is `ok` passed through every step. -/
theorem except_bind_ok {ε α β : Type} {x : Except ε α} {f : α → Except ε β} {b : β}
    (h : (x >>= f) = .ok b) : ∃ a, x = .ok a ∧ f a = .ok b := by
  cases x with
  | ok a => exact ⟨a, rfl, h⟩
  | error e => exact absurd h (by simp only [bind, Except.bind, reduceCtorEq, not_false_eq_true])

/-- An identity is built from the claims and from nothing else. -/
theorem authenticatedHuman_claims (h : authenticatedHuman claims = .ok human) :
    BuiltFrom claims human := by
  rcases except_bind_ok h with ⟨iss, hiss, h⟩
  rcases except_bind_ok h with ⟨sub, hsub, h⟩
  rcases except_bind_ok h with ⟨client, hclient, h⟩
  rcases except_bind_ok h with ⟨issuer, hissuer, h⟩
  rcases except_bind_ok h with ⟨subject, hsubject, h⟩
  rcases except_bind_ok h with ⟨clientId, hclientId, h⟩
  rcases except_bind_ok h with ⟨aud, haud, h⟩
  rcases except_bind_ok h with ⟨items, hitems, h⟩
  rcases buildHuman_ok h with ⟨h₁, h₂, h₃, h₄, hscopes⟩
  refine ⟨?_, ?_, ?_, ⟨aud, claimAt_ok haud, ?_⟩, hscopes⟩
  · rw [claimAt_ok hiss, textClaim_ok hissuer, h₁]
  · rw [claimAt_ok hsub, textClaim_ok hsubject, h₂]
  · rw [claimAt_ok hclient, textClaim_ok hclientId, h₃]
  · rw [hitems, h₄]

end Claims

section Verifying

variable {jwt : Jwt} {environ : Environ} {now : Int} {human : VerifiedHuman}

/-- A verified identity is built from decoded claims. -/
theorem verify_decoded {token : jwt.Token} {verifier : AccessTokenVerifier}
    (h : verifier.verify jwt now token = .ok human) :
    ∃ key claims, jwt.decode now token key verifier.algorithms verifier.issuer verifier.audience
      requiredAccessTokenClaims = .ok claims ∧ BuiltFrom claims human := by
  rcases except_bind_ok h with ⟨-, -, h⟩
  rcases except_bind_ok h with ⟨key, -, h⟩
  rcases except_bind_ok h with ⟨claims, hclaims, h⟩
  exact ⟨key, claims, hclaims, authenticatedHuman_claims h⟩

/-- The dependency returns what the configured verifier has verified, for a
    bearer token. -/
theorem require_verified {credentials : Option (Credentials jwt)}
    (h : requireAuthenticatedHuman jwt environ now credentials = .ok human) :
    ∃ presented verifier, credentials = some presented ∧ lower presented.scheme = "bearer" ∧
      buildAccessTokenVerifier environ = .ok verifier ∧
        verifier.verify jwt now presented.token = .ok human := by
  unfold requireAuthenticatedHuman at h
  split at h
  · exact absurd h (by simp only [reduceCtorEq, not_false_eq_true])
  · next presented =>
      split at h
      · exact absurd h (by simp only [reduceCtorEq, not_false_eq_true])
      · next hscheme =>
          split at h
          · exact absurd h (by simp only [reduceCtorEq, not_false_eq_true])
          · next verifier hverifier =>
              refine ⟨presented, verifier, rfl, not_not.mp hscheme, hverifier, ?_⟩
              unfold verifiedOr401 at h
              split at h
              · next verified hverified => rw [hverified, Except.ok.inj h]
              · exact absurd h (by simp only [reduceCtorEq, not_false_eq_true])
              · exact absurd h (by simp only [reduceCtorEq, not_false_eq_true])

/-- Every identity that is verified under a configuration has its issuer. -/
theorem require_issuer (hpins : jwt.PinsIssuer) {credentials : Option (Credentials jwt)}
    (h : requireAuthenticatedHuman jwt environ now credentials = .ok human) :
    ∃ verifier, buildAccessTokenVerifier environ = .ok verifier ∧
      human.issuer = verifier.issuer := by
  rcases require_verified h with ⟨presented, verifier, -, -, hverifier, hverified⟩
  rcases verify_decoded hverified with ⟨key, claims, hdecode, hbuilt⟩
  refine ⟨verifier, hverifier, ?_⟩
  have hiss := hbuilt.issuer.symm.trans (hpins _ _ _ _ _ _ _ _ hdecode)
  exact PyVal.str.inj (Option.some.inj hiss)

/-- Two principals of one issuer are the same exactly if the subjects are. -/
theorem humanPrincipal_subject (issuer subject subject' : String) :
    humanPrincipal issuer subject = humanPrincipal issuer subject' ↔ subject = subject' := by
  refine ⟨fun h => ?_, fun h => by rw [h]⟩
  have hlists := congrArg String.toList h
  simp only [humanPrincipal, String.toList_append] at hlists
  exact String.toList_inj.mp (List.append_cancel_left hlists)

/-- Principals of different issuers may be the same text. -/
example : humanPrincipal "https://a" "b#c" = humanPrincipal "https://a#b" "c" := by decide

/-- Two identities that are verified under one configuration, at whatever times
    and for whatever tokens, have the same principal exactly if they have the same
    subject. -/
theorem principal_iff_subject (jwt : Jwt) (hpins : jwt.PinsIssuer) (environ : Environ)
    (now now' : Int) (credentials credentials' : Option (Credentials jwt))
    (human human' : VerifiedHuman)
    (h : requireAuthenticatedHuman jwt environ now credentials = .ok human)
    (h' : requireAuthenticatedHuman jwt environ now' credentials' = .ok human') :
    human.principalId = human'.principalId ↔ human.subject = human'.subject := by
  rcases require_issuer hpins h with ⟨verifier, hverifier, hissuer⟩
  rcases require_issuer hpins h' with ⟨verifier', hverifier', hissuer'⟩
  -- The configuration has one verifier.
  have hsame : verifier = verifier' := Except.ok.inj (hverifier.symm.trans hverifier')
  rw [human.principal, human'.principal, hissuer, hissuer', hsame]
  exact humanPrincipal_subject _ _ _

theorem exists_of_toBool {ε α : Type} {x : Except ε α} (h : x.toBool = true) :
    ∃ a, x = .ok a := by
  cases x with
  | ok a => exact ⟨a, rfl⟩
  | error e => exact absurd h Bool.noConfusion

/-- A development token of a subject, made at the beginning of time. -/
def plainDevToken (subject : String) : PlainToken :=
  ⟨devClaims (fun _ => none) 0 "7f" subject {}, defaultDevJwtSecret, "HS256",
    [("typ", .str "at+jwt")]⟩

/-- Two tokens, of one subject each, a minute apart. -/
theorem principal_iff_subject_sample : ∃ human human' : VerifiedHuman,
    requireAuthenticatedHuman plainJwt (fun _ => none) 1000000
      (some ⟨"Bearer", plainDevToken "claire"⟩) = .ok human ∧
    requireAuthenticatedHuman plainJwt (fun _ => none) 60000000
      (some ⟨"bearer", plainDevToken "amara"⟩) = .ok human' ∧
    (human.principalId = human'.principalId ↔ human.subject = human'.subject) := by
  rcases exists_of_toBool (show (requireAuthenticatedHuman plainJwt (fun _ => none) 1000000
    (some ⟨"Bearer", plainDevToken "claire"⟩)).toBool = true by decide +kernel) with ⟨human, h⟩
  rcases exists_of_toBool (show (requireAuthenticatedHuman plainJwt (fun _ => none) 60000000
    (some ⟨"bearer", plainDevToken "amara"⟩)).toBool = true by decide +kernel) with ⟨human', h'⟩
  exact ⟨human, human', h, h',
    principal_iff_subject plainJwt plainJwt_pinsIssuer _ _ _ _ _ _ _ h h'⟩

end Verifying

/-- Claims in the form the application signs: texts, dates in whole seconds, all
    that is required, and no date before which they do not count. -/
structure SignedClaims where
  claims : PyDict
  issuer : String
  subject : String
  audience : String
  jti : String
  issuedAt : Int
  expiresAt : Int
  iss_eq : claims.get? "iss" = some (.str issuer)
  sub_eq : claims.get? "sub" = some (.str subject)
  aud_eq : claims.get? "aud" = some (.str audience)
  jti_eq : claims.get? "jti" = some (.str jti)
  iat_eq : claims.get? "iat" = some (.num issuedAt)
  exp_eq : claims.get? "exp" = some (.num expiresAt)
  nbf_eq : claims.get? "nbf" = none
  present : ∀ name ∈ requiredAccessTokenClaims, ∃ value, claims.get? name = some value ∧
    value ≠ .none

/-- The checks of `decode` on such claims: the issuer, the audience, and the
    lifetime. -/
def SignedClaims.Accepted (signed : SignedClaims) (now : Int) (issuer audience : String) : Prop :=
  signed.issuer = issuer ∧ signed.audience = audience ∧ audience ≠ "" ∧
    signed.issuedAt * 1000000 ≤ now ∧ now < signed.expiresAt * 1000000

/-- With this key, the library reads its own tokens: the header has the type it
    was given, and the claims come back exactly if they pass the checks. -/
structure Jwt.RoundTrips (jwt : Jwt) (key : jwt.Key) : Prop where
  header : ∀ claims, ∃ header, jwt.getUnverifiedHeader
    (jwt.encode claims key "HS256" [("typ", .str "at+jwt")]) = .ok header ∧
      header.get? "typ" = some (.str "at+jwt")
  accepts : ∀ (signed : SignedClaims) now issuer audience, signed.Accepted now issuer audience →
    jwt.decode now (jwt.encode signed.claims key "HS256" [("typ", .str "at+jwt")]) key ["HS256"]
      issuer audience requiredAccessTokenClaims = .ok signed.claims
  rejects : ∀ (signed : SignedClaims) now issuer audience, ¬ signed.Accepted now issuer audience →
    ∃ message, jwt.decode now (jwt.encode signed.claims key "HS256" [("typ", .str "at+jwt")]) key
      ["HS256"] issuer audience requiredAccessTokenClaims = .error (.pyJwtError message)

/-- The library that keeps tokens reads its own, with any key. -/
theorem plainJwt_roundTrips (key : String) : plainJwt.RoundTrips key := by
  have hdecode : ∀ (signed : SignedClaims) (now : Int) (issuer audience : String),
      plainChecks now issuer audience signed.claims = true ↔
        signed.Accepted now issuer audience := by
    intro signed now issuer audience
    have hiss := textOf_eq.mpr signed.iss_eq
    have haud := textOf_eq.mpr signed.aud_eq
    have hiat : wholeOf signed.claims "iat" = some signed.issuedAt := by
      simp only [wholeOf, signed.iat_eq, Rat.den_intCast, if_pos, Rat.num_intCast]
    have hexp : wholeOf signed.claims "exp" = some signed.expiresAt := by
      simp only [wholeOf, signed.exp_eq, Rat.den_intCast, if_pos, Rat.num_intCast]
    simp only [plainChecks, hiss, haud, hiat, hexp, Option.any_some, Option.some.injEq,
      Bool.and_eq_true, decide_eq_true_eq, SignedClaims.Accepted, and_assoc]
  have hpresent : ∀ signed : SignedClaims, (requiredAccessTokenClaims.all fun name =>
      ((signed.claims.get? name).any fun value =>
        match value with | .none => false | _ => true)) = true := by
    intro signed
    refine List.all_eq_true.mpr fun name hname => ?_
    rcases signed.present name hname with ⟨value, hvalue, hne⟩
    rw [hvalue, Option.any_some]
    cases value with
    | none => exact absurd rfl hne
    | _ => rfl
  refine ⟨fun claims => ⟨_, rfl, rfl⟩, fun signed now issuer audience h => ?_,
    fun signed now issuer audience h => ⟨"invalid token", ?_⟩⟩
  · have hkey : (decide (key = key) && decide ("HS256" ∈ ["HS256"])) = true := by
      simp only [decide_true, List.mem_singleton, Bool.and_self]
    exact if_pos (Bool.and_eq_true_iff.mpr ⟨Bool.and_eq_true_iff.mpr ⟨hkey, hpresent signed⟩,
      (hdecode signed now issuer audience).mpr h⟩)
  · exact if_neg fun hall =>
      h ((hdecode signed now issuer audience).mp (Bool.and_eq_true_iff.mp hall).2)

/-- The identity can be built exactly if the three names are not empty. -/
theorem authenticatedHuman_texts {claims : PyDict} {issuer subject clientId audience scope : String}
    (hiss : claims.get? "iss" = some (.str issuer)) (hsub : claims.get? "sub" = some (.str subject))
    (hclient : claims.get? "client_id" = some (.str clientId))
    (haud : claims.get? "aud" = some (.str audience))
    (hscope : claims.get? "scope" = some (.str scope)) :
    (∃ human, authenticatedHuman claims = .ok human) ↔
      issuer ≠ "" ∧ subject ≠ "" ∧ clientId ≠ "" := by
  constructor
  · rintro ⟨human, h⟩
    have hbuilt := authenticatedHuman_claims h
    have hissuer := PyVal.str.inj (Option.some.inj (hiss.symm.trans hbuilt.issuer))
    have hsubject := PyVal.str.inj (Option.some.inj (hsub.symm.trans hbuilt.subject))
    have hclientId := PyVal.str.inj (Option.some.inj (hclient.symm.trans hbuilt.clientId))
    rw [hissuer, hsubject, hclientId]
    exact ⟨human.issuer_ne, human.subject_ne, human.clientId_ne⟩
  · rintro ⟨hissuer, hsubject, hclientId⟩
    simp only [authenticatedHuman, claimAt, hiss, hsub, hclient, haud, textClaim, dif_neg hissuer,
      dif_neg hsubject, dif_neg hclientId, audiences, hscope, bind, Except.bind]
    unfold buildHuman
    split
    · exact ⟨_, rfl⟩
    · next e he => exact absurd he (by simp only [scopes, reduceCtorEq, not_false_eq_true])

section DevTokens

variable (environ : Environ) (now : Int) (uuid subject : String) (options : DevTokenOptions)

/-- The issuer of a development token. -/
def DevTokenOptions.issuerOf : String :=
  textOr options.issuer ((environ "ASANTE_AUTH_ISSUER").getD defaultDevIssuer)

/-- The audience of a development token. -/
def DevTokenOptions.audienceOf : String :=
  textOr options.audience ((environ "ASANTE_AUTH_AUDIENCE").getD defaultAudience)

/-- The claims of a development token are in the form. -/
def devSigned : SignedClaims where
  claims := devClaims environ now uuid subject options
  issuer := options.issuerOf environ
  subject := subject
  audience := options.audienceOf environ
  jti := uuid
  issuedAt := now / 1000000
  expiresAt := (now + minutes options.lifetimeMinutes) / 1000000
  iss_eq := rfl
  sub_eq := rfl
  aud_eq := rfl
  jti_eq := rfl
  iat_eq := rfl
  exp_eq := rfl
  nbf_eq := rfl
  present := fun name hname => by
    simp only [requiredAccessTokenClaims, List.mem_cons, List.not_mem_nil, or_false] at hname
    rcases hname with rfl | rfl | rfl | rfl | rfl | rfl | rfl
    all_goals exact ⟨_, rfl, PyVal.noConfusion⟩

/-- The configured issuer and audience of the development mode. -/
def devIssuer : String := (environ "ASANTE_AUTH_ISSUER").getD defaultDevIssuer

/-- The configured audience of the development mode. -/
def devAudience : String := (environ "ASANTE_AUTH_AUDIENCE").getD defaultAudience

/-- The configured key of the development mode. -/
def devKey (jwt : Jwt) : jwt.Key :=
  jwt.secretKey ((environ "ASANTE_DEV_JWT_SECRET").getD defaultDevJwtSecret)

/-- What it takes for a development token to be accepted at a later time. -/
structure DevAccepted (later : Int) (scheme : String) : Prop where
  scheme : lower scheme = "bearer"
  issuer : options.issuerOf environ = devIssuer environ
  issuer_ne : devIssuer environ ≠ ""
  audience : options.audienceOf environ = devAudience environ
  audience_ne : devAudience environ ≠ ""
  clientId_ne : options.clientId ≠ ""
  issued : now / 1000000 ≤ later / 1000000
  alive : later / 1000000 < now / 1000000 + 60 * options.lifetimeMinutes

/-- The lifetime check in whole seconds. -/
theorem devSigned_accepted (later : Int) (issuer audience : String) :
    (devSigned environ now uuid subject options).Accepted later issuer audience ↔
      options.issuerOf environ = issuer ∧ options.audienceOf environ = audience ∧ audience ≠ "" ∧
        now / 1000000 ≤ later / 1000000 ∧
          later / 1000000 < now / 1000000 + 60 * options.lifetimeMinutes := by
  refine and_congr Iff.rfl (and_congr Iff.rfl (and_congr Iff.rfl (and_congr ?_ ?_)))
  · change now / 1000000 * 1000000 ≤ later ↔ _
    omega
  · change later < (now + minutes options.lifetimeMinutes) / 1000000 * 1000000 ↔ _
    unfold minutes
    omega

variable {environ now uuid subject options} {jwt : Jwt} {token : jwt.Token}

/-- The token that is created, for a subject that is not empty. -/
theorem createDevAccessToken_ok (hsecret : options.secret = none)
    (h : createDevAccessToken jwt environ now uuid subject options = .ok token) :
    subject ≠ "" ∧ token = jwt.encode (devSigned environ now uuid subject options).claims
      (devKey environ jwt) "HS256" [("typ", .str "at+jwt")] := by
  unfold createDevAccessToken at h
  split at h
  · exact absurd h (by simp only [reduceCtorEq, not_false_eq_true])
  · next hsubject =>
      rw [hsecret] at h
      exact ⟨hsubject, (Except.ok.inj h).symm⟩

/-- What the verifier of the development mode makes of such a token. -/
theorem verify_dev (hjwt : jwt.RoundTrips (devKey environ jwt)) (now : Int)
    (uuid subject : String) (options : DevTokenOptions) (later : Int) (human : VerifiedHuman) :
    (AccessTokenVerifier.devHmac
        ((environ "ASANTE_DEV_JWT_SECRET").getD defaultDevJwtSecret) (devIssuer environ)
        (devAudience environ)).verify jwt later
        (jwt.encode (devSigned environ now uuid subject options).claims (devKey environ jwt)
          "HS256" [("typ", .str "at+jwt")]) = .ok human ↔
      (devSigned environ now uuid subject options).Accepted later (devIssuer environ)
        (devAudience environ) ∧
      authenticatedHuman (devSigned environ now uuid subject options).claims = .ok human := by
  rcases hjwt.header (devSigned environ now uuid subject options).claims with
    ⟨header, hheader, htyp⟩
  have htype : requireAccessTokenType jwt (jwt.encode
      (devSigned environ now uuid subject options).claims (devKey environ jwt) "HS256"
      [("typ", .str "at+jwt")]) = .ok () := by
    unfold requireAccessTokenType
    rw [hheader]
    simp only [bind, Except.bind, htyp, isAccessTokenType]
    rfl
  constructor
  · intro h
    rcases except_bind_ok h with ⟨-, -, h⟩
    rcases except_bind_ok h with ⟨key, hkey, h⟩
    rcases except_bind_ok h with ⟨claims, hclaims, h⟩
    rw [← Except.ok.inj hkey] at hclaims
    by_cases haccepted : (devSigned environ now uuid subject options).Accepted later
        (devIssuer environ) (devAudience environ)
    · have hsame := (hjwt.accepts _ _ _ _ haccepted).symm.trans hclaims
      rw [← Except.ok.inj hsame] at h
      exact ⟨haccepted, h⟩
    · rcases hjwt.rejects _ _ _ _ haccepted with ⟨message, hmessage⟩
      exact absurd (hmessage.symm.trans hclaims)
        (by simp only [reduceCtorEq, not_false_eq_true])
  · rintro ⟨haccepted, h⟩
    unfold AccessTokenVerifier.verify
    rw [htype]
    change (jwt.decode later _ (devKey environ jwt) ["HS256"] (devIssuer environ)
      (devAudience environ) _ >>= fun claims => authenticatedHuman claims) = _
    rw [hjwt.accepts _ _ _ _ haccepted]
    exact h

theorem build_dev
    (hmode : lower (strip ((environ "ASANTE_AUTH_MODE").getD defaultAuthMode)) = "dev") :
    buildAccessTokenVerifier environ = .ok (.devHmac
      ((environ "ASANTE_DEV_JWT_SECRET").getD defaultDevJwtSecret) (devIssuer environ)
      (devAudience environ)) :=
  if_pos hmode

/-- What the dependency makes of a development token. -/
theorem require_dev
    (hmode : lower (strip ((environ "ASANTE_AUTH_MODE").getD defaultAuthMode)) = "dev")
    (hjwt : jwt.RoundTrips (devKey environ jwt)) (now : Int) (uuid subject : String)
    (options : DevTokenOptions) (later : Int) (scheme : String) (human : VerifiedHuman) :
    requireAuthenticatedHuman jwt environ later (some ⟨scheme, jwt.encode
        (devSigned environ now uuid subject options).claims (devKey environ jwt) "HS256"
        [("typ", .str "at+jwt")]⟩) = .ok human ↔
      lower scheme = "bearer" ∧
        (devSigned environ now uuid subject options).Accepted later (devIssuer environ)
          (devAudience environ) ∧
        authenticatedHuman (devSigned environ now uuid subject options).claims = .ok human := by
  constructor
  · intro h
    rcases require_verified h with ⟨presented, verifier, hpresented, hscheme, hbuild, hverified⟩
    cases Option.some.inj hpresented
    cases Except.ok.inj ((build_dev hmode).symm.trans hbuild)
    exact ⟨hscheme, (verify_dev hjwt now uuid subject options later human).mp hverified⟩
  · rintro ⟨hscheme, hrest⟩
    unfold requireAuthenticatedHuman
    rw [build_dev hmode]
    dsimp only
    rw [if_neg (not_not.mpr hscheme),
      (verify_dev hjwt now uuid subject options later human).mpr hrest]
    rfl

/-- The scopes of a development token are the words it was made with. -/
theorem require_dev_scopes
    (hmode : lower (strip ((environ "ASANTE_AUTH_MODE").getD defaultAuthMode)) = "dev")
    (hjwt : jwt.RoundTrips (devKey environ jwt)) (hsecret : options.secret = none)
    (hcreated : createDevAccessToken jwt environ now uuid subject options = .ok token)
    {later : Int} {scheme : String} {human : VerifiedHuman}
    (h : requireAuthenticatedHuman jwt environ later (some ⟨scheme, token⟩) = .ok human) :
    human.scopes = (splitWords options.scope).dedup := by
  rw [(createDevAccessToken_ok hsecret hcreated).2] at h
  rcases (require_dev hmode hjwt now uuid subject options later scheme human).mp h with
    ⟨-, -, hhuman⟩
  have hscopes := (authenticatedHuman_claims hhuman).scopes
  exact (Except.ok.inj hscopes).symm

/-- A development token that was made under a configuration is accepted under it
    exactly as a bearer token, for the configured issuer and audience, from the
    second it was made to the last of its lifetime; and it gives the identity it
    was made for. -/
theorem dev_token_accepted_iff (jwt : Jwt) (environ : Environ)
    (hmode : lower (strip ((environ "ASANTE_AUTH_MODE").getD defaultAuthMode)) = "dev")
    (hjwt : jwt.RoundTrips (devKey environ jwt)) (now : Int) (uuid subject : String)
    (options : DevTokenOptions) (hsecret : options.secret = none) (token : jwt.Token)
    (hcreated : createDevAccessToken jwt environ now uuid subject options = .ok token)
    (later : Int) (scheme : String) :
    ((∃ human, requireAuthenticatedHuman jwt environ later (some ⟨scheme, token⟩) = .ok human) ↔
      DevAccepted environ now options later scheme) ∧
    ∀ human, requireAuthenticatedHuman jwt environ later (some ⟨scheme, token⟩) = .ok human →
      human.subject = subject ∧ human.issuer = devIssuer environ ∧
        human.principalId = humanPrincipal (devIssuer environ) subject ∧
        human.audiences = [devAudience environ] ∧ human.clientId = options.clientId ∧
        human.scopes = (splitWords options.scope).dedup := by
  rcases createDevAccessToken_ok hsecret hcreated with ⟨hsubject, htoken⟩
  have hrequire := require_dev hmode hjwt now uuid subject options later scheme
  -- The claims by name, as the identity is built from them.
  have hiss := (devSigned environ now uuid subject options).iss_eq
  have hsub := (devSigned environ now uuid subject options).sub_eq
  have haud := (devSigned environ now uuid subject options).aud_eq
  have hclient : (devSigned environ now uuid subject options).claims.get? "client_id" =
    some (.str options.clientId) := rfl
  have hscope : (devSigned environ now uuid subject options).claims.get? "scope" =
    some (.str options.scope) := rfl
  have hbuildable := authenticatedHuman_texts hiss hsub hclient haud hscope
  rw [htoken]
  refine ⟨⟨?_, fun h => ?_⟩, fun human h => ?_⟩
  · rintro ⟨human, h⟩
    rcases (hrequire human).mp h with ⟨hscheme, haccepted, hhuman⟩
    rcases hbuildable.mp ⟨human, hhuman⟩ with ⟨hissuer', -, hclientId⟩
    rcases (devSigned_accepted _ _ _ _ _ _ _ _).mp haccepted with
      ⟨hissuer, haudience, haudience', hissued, halive⟩
    exact ⟨hscheme, hissuer, hissuer ▸ hissuer', haudience, haudience', hclientId, hissued, halive⟩
  · have hissuer_ne : (devSigned environ now uuid subject options).issuer ≠ "" := by
      change options.issuerOf environ ≠ ""
      rw [h.issuer]
      exact h.issuer_ne
    rcases hbuildable.mpr ⟨hissuer_ne, hsubject, h.clientId_ne⟩ with ⟨human, hhuman⟩
    exact ⟨human, (hrequire human).mpr ⟨h.scheme, (devSigned_accepted _ _ _ _ _ _ _ _).mpr
      ⟨h.issuer, h.audience, h.audience_ne, h.issued, h.alive⟩, hhuman⟩⟩
  · have hscopes := require_dev_scopes hmode hjwt hsecret hcreated (htoken ▸ h)
    rcases (hrequire human).mp h with ⟨-, ⟨hissuer, haudience, -⟩, hhuman⟩
    have hbuilt := authenticatedHuman_claims hhuman
    have hiss' := PyVal.str.inj (Option.some.inj (hiss.symm.trans hbuilt.issuer))
    have hsub' := PyVal.str.inj (Option.some.inj (hsub.symm.trans hbuilt.subject))
    have hclient' := PyVal.str.inj (Option.some.inj (hclient.symm.trans hbuilt.clientId))
    rcases hbuilt.audiences with ⟨aud, haud', hitems⟩
    rw [← Option.some.inj (haud.symm.trans haud')] at hitems
    have hissuer' : human.issuer = devIssuer environ := hiss'.symm.trans hissuer
    have hsubject' : human.subject = subject := hsub'.symm
    refine ⟨hsubject', hissuer', ?_, ?_, hclient'.symm, hscopes⟩
    · rw [human.principal, hissuer', hsubject']
    · rw [← haudience]
      exact (Except.ok.inj hitems).symm

/-- A token is read a minute after it was made. -/
theorem dev_token_sample :
    ∃ human, requireAuthenticatedHuman plainJwt (fun _ => none) 60000000
      (some ⟨"Bearer", plainDevToken "claire"⟩) = .ok human ∧
        human.subject = "claire" ∧ human.principalId = humanPrincipal defaultDevIssuer "claire" ∧
        human.scopes = (splitWords "asante:operate").dedup := by
  have h := dev_token_accepted_iff plainJwt (fun _ => none) (by decide +kernel)
    (plainJwt_roundTrips _) 0 "7f" "claire" {} rfl (plainDevToken "claire") rfl 60000000 "Bearer"
  rcases h.1.mpr ⟨by decide +kernel, rfl, by decide +kernel, rfl, by decide +kernel,
    by decide +kernel, by decide +kernel, by decide +kernel⟩ with ⟨human, hhuman⟩
  rcases h.2 human hhuman with ⟨hsubject, -, hprincipal, -, -, hscopes⟩
  exact ⟨human, hhuman, hsubject, hprincipal, hscopes⟩

end DevTokens

end Asante

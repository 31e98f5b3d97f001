import Asante.Model.Main
import Mathlib.Data.List.Dedup

/-!
# Human Identity

The access tokens of the operators: how one is verified, what identity it
gives, and how a development token is made.

A token is verified by PyJWT, which is not modelled. `Jwt` is the part of it the
application calls, with the clock of the call as an argument; a token and a key
are whatever it makes of them. What the application adds is modelled in full:
the type in the header, the configured issuer and audience, the claims an
identity is built from, and which exceptions become an HTTP 401. Only those of
PyJWT do. A header whose `typ` is a list or a dictionary is asked for in a set
and raises a `TypeError`, which is not one of them.

An identity carries what its construction has checked. Its scopes are a set in
the source, and a list without repetitions here.

## Main definitions

* `Jwt`, `TokenError`: The library, and what verifying a token may raise.
* `VerifiedHuman`, `authenticatedHuman`: The identity and the claims behind it.
* `AccessTokenVerifier`, `verify`: The two verifiers.
* `Environ`, `buildAccessTokenVerifier`: The configured verifier.
* `requireAuthenticatedHuman`: The dependency of the protected endpoints.
* `createDevAccessToken`: The token of local development.
-/

namespace Asante

/-- What verifying a token may raise: an exception of PyJWT, or another one. -/
inductive TokenError where
  | pyJwtError (message : String)
  | raised (e : Exc)
  deriving DecidableEq

/-- The functions of PyJWT the application calls. -/
structure Jwt where
  Token : Type
  Key : Type
  secretKey : String → Key
  getUnverifiedHeader : Token → Except TokenError PyDict
  getSigningKeyFromJwt : (jwksUrl : String) → (now : Int) → Token → Except TokenError Key
  decode : (now : Int) → Token → Key → (algorithms : List String) → (issuer : String) →
    (audience : String) → (required : List String) → Except TokenError PyDict
  encode : (claims : PyDict) → Key → (algorithm : String) → (headers : PyDict) → Token

/-- `os.getenv`. -/
abbrev Environ := String → Option String

def defaultAuthMode : String := "dev"
def defaultDevIssuer : String := "https://dev.asante.local"
def defaultAudience : String := "asante-secure-multi-agent"
def defaultDevJwtSecret : String := "asante-local-development-only-change-me"

/-- `_REQUIRED_ACCESS_TOKEN_CLAIMS`. -/
def requiredAccessTokenClaims : List String :=
  ["iss", "sub", "aud", "exp", "iat", "jti", "client_id"]

/-- The principal of an issuer and a subject. -/
def humanPrincipal (issuer subject : String) : String :=
  "oauth:" ++ issuer ++ "#" ++ subject

/-- `AuthenticatedHuman`, with what its construction has checked. -/
structure VerifiedHuman extends AuthenticatedHuman where
  subject : String
  issuer : String
  audiences : List String
  clientId : String
  principal : principalId = humanPrincipal issuer subject
  issuer_ne : issuer ≠ ""
  subject_ne : subject ≠ ""
  clientId_ne : clientId ≠ ""
  scopes_nodup : scopes.Nodup

/-- `s.split()`. -/
def splitWords (s : String) : List String :=
  ((s.toList.splitOnP isPySpace).filter (· ≠ [])).map String.ofList

/-- A value that is a string. -/
def asText : PyVal → Option String
  | .str s => some s
  | _ => none

/-- `_audiences`. -/
def audiences : PyVal → Except TokenError (List String)
  | .str s => .ok [s]
  | .list xs =>
    match xs.mapM asText with
    | some items => .ok items
    | none => .error (.pyJwtError "invalid aud claim")
  | _ => .error (.pyJwtError "invalid aud claim")

/-- `_scopes`, of `claims.get("scope")`. -/
def scopes : Option PyVal → Except TokenError (List String)
  | none => .ok []
  | some .none => .ok []
  | some (.str s) => .ok (splitWords s).dedup
  | some _ => .error (.pyJwtError "invalid scope claim")

theorem scopes_distinct {value : Option PyVal} {items : List String}
    (h : scopes value = .ok items) : items.Nodup := by
  unfold scopes at h
  split at h
  · rw [← Except.ok.inj h]
    exact List.nodup_nil
  · rw [← Except.ok.inj h]
    exact List.nodup_nil
  · rw [← Except.ok.inj h]
    exact List.nodup_dedup _
  · exact absurd h (by simp only [reduceCtorEq, not_false_eq_true])

/-- `claims[name]`. -/
def claimAt (claims : PyDict) (name : String) : Except TokenError PyVal :=
  match claims.get? name with
  | some value => .ok value
  | none => .error (.raised (.lookupError name))

/-- `if not isinstance(value, str) or not value: raise InvalidTokenError(...)`. -/
def textClaim (value : PyVal) (message : String) : Except TokenError { s : String // s ≠ "" } :=
  match value with
  | .str s => if h : s = "" then .error (.pyJwtError message) else .ok ⟨s, h⟩
  | _ => .error (.pyJwtError message)

/-- The identity of checked claims. -/
def buildHuman (issuer subject clientId : { s : String // s ≠ "" }) (items : List String)
    (value : Option PyVal) : Except TokenError VerifiedHuman :=
  match h : scopes value with
  | .ok scopes => .ok
    { principalId := humanPrincipal issuer.val subject.val
      scopes := scopes
      subject := subject.val
      issuer := issuer.val
      audiences := items
      clientId := clientId.val
      principal := rfl
      issuer_ne := issuer.property
      subject_ne := subject.property
      clientId_ne := clientId.property
      scopes_nodup := scopes_distinct h }
  | .error e => .error e

/-- `_authenticated_human`. The three claims are read before any is checked. -/
def authenticatedHuman (claims : PyDict) : Except TokenError VerifiedHuman := do
  let iss ← claimAt claims "iss"
  let sub ← claimAt claims "sub"
  let client ← claimAt claims "client_id"
  let issuer ← textClaim iss "invalid iss claim"
  let subject ← textClaim sub "invalid sub claim"
  let clientId ← textClaim client "invalid client_id claim"
  let aud ← claimAt claims "aud"
  let items ← audiences aud
  buildHuman issuer subject clientId items (claims.get? "scope")

/-- `token_type not in {"at+jwt", "application/at+jwt"}`, which raises for a value
    without a hash. -/
def isAccessTokenType : Option PyVal → Except TokenError Bool
  | some (.str s) => .ok (s = "at+jwt" || s = "application/at+jwt")
  | some (.list _) => .error (.raised (.typeError "unhashable type: 'list'"))
  | some (.dict _) => .error (.raised (.typeError "unhashable type: 'dict'"))
  | _ => .ok false

/-- `_require_access_token_type`. -/
def requireAccessTokenType (jwt : Jwt) (token : jwt.Token) : Except TokenError Unit := do
  let header ← jwt.getUnverifiedHeader token
  if ← isAccessTokenType (header.get? "typ") then return ()
  else throw (.pyJwtError "expected OAuth access-token JWT type at+jwt")

/-- `DevHmacAccessTokenVerifier` and `JwksAccessTokenVerifier`. -/
inductive AccessTokenVerifier where
  | devHmac (secret issuer audience : String)
  | jwks (issuer audience jwksUrl : String) (algorithms : List String)

namespace AccessTokenVerifier

/-- The configured issuer. -/
def issuer : AccessTokenVerifier → String
  | devHmac _ issuer _ => issuer
  | jwks issuer _ _ _ => issuer

/-- The configured audience. -/
def audience : AccessTokenVerifier → String
  | devHmac _ _ audience => audience
  | jwks _ audience _ _ => audience

/-- The accepted algorithms. -/
def algorithms : AccessTokenVerifier → List String
  | devHmac _ _ _ => ["HS256"]
  | jwks _ _ _ algorithms => algorithms

/-- The key a token is verified with. -/
def signingKey (jwt : Jwt) (now : Int) (token : jwt.Token) :
    AccessTokenVerifier → Except TokenError jwt.Key
  | devHmac secret _ _ => .ok (jwt.secretKey secret)
  | jwks _ _ jwksUrl _ => jwt.getSigningKeyFromJwt jwksUrl now token

/-- `verify`. -/
def verify (jwt : Jwt) (now : Int) (token : jwt.Token) (verifier : AccessTokenVerifier) :
    Except TokenError VerifiedHuman := do
  let _ : Unit ← requireAccessTokenType jwt token
  let key ← verifier.signingKey jwt now token
  let claims ← jwt.decode now token key verifier.algorithms verifier.issuer verifier.audience
    requiredAccessTokenClaims
  authenticatedHuman claims

end AccessTokenVerifier

/-- The names of the settings that are missing or empty. -/
def missingSettings (environ : Environ) : List String :=
  ["ASANTE_AUTH_ISSUER", "ASANTE_AUTH_AUDIENCE", "ASANTE_AUTH_JWKS_URL"].filter fun name =>
    (environ name).getD "" = ""

/-- `tuple(item.strip() for item in value.split(",") if item.strip())`. -/
def splitAlgorithms (value : String) : List String :=
  ((value.toList.splitOn ',').map fun item => strip (String.ofList item)).filter (· ≠ "")

/-- `build_access_token_verifier`. -/
def buildAccessTokenVerifier (environ : Environ) : Except Exc AccessTokenVerifier :=
  let mode := lower (strip ((environ "ASANTE_AUTH_MODE").getD defaultAuthMode))
  if mode = "dev" then
    .ok (.devHmac ((environ "ASANTE_DEV_JWT_SECRET").getD defaultDevJwtSecret)
      ((environ "ASANTE_AUTH_ISSUER").getD defaultDevIssuer)
      ((environ "ASANTE_AUTH_AUDIENCE").getD defaultAudience))
  else if mode = "jwks" then
    let missing := missingSettings environ
    if missing ≠ [] then
      .error (.runtimeError ("JWKS auth mode requires: " ++ ", ".intercalate missing))
    else
      let algorithms := splitAlgorithms ((environ "ASANTE_AUTH_ALGORITHMS").getD "RS256")
      if algorithms = [] then
        .error (.runtimeError "ASANTE_AUTH_ALGORITHMS must contain at least one algorithm")
      else .ok (.jwks ((environ "ASANTE_AUTH_ISSUER").getD "")
        ((environ "ASANTE_AUTH_AUDIENCE").getD "") ((environ "ASANTE_AUTH_JWKS_URL").getD "")
        algorithms)
  else .error (.runtimeError "ASANTE_AUTH_MODE must be 'dev' or 'jwks'")

/-- `HTTPAuthorizationCredentials`. -/
structure Credentials (jwt : Jwt) where
  scheme : String
  token : jwt.Token

/-- The verification of a token, as the dependency reports it. -/
def verifiedOr401 (result : Except TokenError VerifiedHuman) : Except Exc VerifiedHuman :=
  match result with
  | .ok human => .ok human
  | .error (.pyJwtError _) => .error (.httpException 401 "Invalid or expired access token")
  | .error (.raised e) => .error e

/-- `require_authenticated_human`. The verifier is built from the environment at
    the first token that is presented, and kept. -/
def requireAuthenticatedHuman (jwt : Jwt) (environ : Environ) (now : Int)
    (credentials : Option (Credentials jwt)) : Except Exc VerifiedHuman :=
  match credentials with
  | none => .error (.httpException 401 "Bearer access token required")
  | some presented =>
    if lower presented.scheme ≠ "bearer" then
      .error (.httpException 401 "Bearer access token required")
    else match buildAccessTokenVerifier environ with
      | .error e => .error e
      | .ok verifier => verifiedOr401 (verifier.verify jwt now presented.token)

/-- `a or b`, for texts. -/
def textOr (a : Option String) (b : String) : String :=
  match a with
  | some s => if s = "" then b else s
  | none => b

/-- The number of whole seconds of an instant, which is how PyJWT encodes one. -/
def numericDate (instant : Int) : PyVal :=
  .num ((instant / 1000000 : Int) : ℚ)

/-- The arguments of `create_dev_access_token` besides the subject. -/
structure DevTokenOptions where
  lifetimeMinutes : Int := 30
  clientId : String := "asante-local-cli"
  scope : String := "asante:operate"
  issuer : Option String := none
  audience : Option String := none
  secret : Option String := none

/-- The claims of a development token. -/
def devClaims (environ : Environ) (now : Int) (uuid subject : String) (options : DevTokenOptions) :
    PyDict :=
  [("iss", .str (textOr options.issuer
      ((environ "ASANTE_AUTH_ISSUER").getD defaultDevIssuer))),
    ("sub", .str subject),
    ("aud", .str (textOr options.audience
      ((environ "ASANTE_AUTH_AUDIENCE").getD defaultAudience))),
    ("exp", numericDate (now + minutes options.lifetimeMinutes)),
    ("iat", numericDate now),
    ("jti", .str uuid),
    ("client_id", .str options.clientId),
    ("scope", .str options.scope)]

/-- `create_dev_access_token`. -/
def createDevAccessToken (jwt : Jwt) (environ : Environ) (now : Int) (uuid subject : String)
    (options : DevTokenOptions) : Except Exc jwt.Token :=
  if subject = "" then .error (.valueError "subject is required")
  else
    let secret := textOr options.secret
      ((environ "ASANTE_DEV_JWT_SECRET").getD defaultDevJwtSecret)
    .ok (jwt.encode (devClaims environ now uuid subject options) (jwt.secretKey secret) "HS256"
      [("typ", .str "at+jwt")])

end Asante

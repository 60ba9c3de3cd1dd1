import TrusTrove.InvoicePages
import TrusTrove.RequestBody
import TrusTrove.TrustedProxy

/-!
# Tokens and the protected routes

What stands around the challenges: `api/handlers_auth.go`, `GenerateJWT` of `auth/challenge.go` and
`AuthMiddleware` of `api/router.go`. A challenge that is redeemed is exchanged for a token, and a
request with a token runs under the address in it. Calls run concurrently.
-/

namespace TrusTrove

section Tokens

/-- The claims of a token. `sub` is there if it is a string. -/
structure MapClaims where
  sub : Option String
  exp : Option ℤ
  iat : Option ℤ
  deriving DecidableEq, Repr

/-- What the code uses of package `jwt`, with HMAC signatures. -/
structure Jwt where
  signedString : MapClaims → String → Except GoError String
  parse : String → String → ℤ → Except GoError MapClaims

/-- `time.Duration(expiryHours) * time.Hour`, a 64-bit duration. -/
def jwtLifetime (expiryHours : ℤ) : ℤ := (expiryHours * (3600 * 10 ^ 9)).bmod (2 ^ 64)

variable (J : Jwt)

/-- `GenerateJWT`: the claims and the text. The clock is read once for each of the two times. -/
def generateJWT (address jwtSecret : String) (expiryHours now now' : ℤ) :
    Except GoError (MapClaims × String) := do
  let claims : MapClaims :=
    { sub := some address, exp := some (unix (now + jwtLifetime expiryHours))
      iat := some (unix now') }
  let token ← J.signedString claims jwtSecret
  return (claims, token)

/-- The token of an `Authorization` header. -/
def bearerToken (authHeader : String) : Except Response String :=
  if authHeader = "" then .error (httpError "Unauthorized: missing token" 401) else
  match authHeader.toList.span (· ≠ ' ') with
  | (_, []) => .error (httpError "Unauthorized: invalid header format" 401)
  | (scheme, _ :: rest) =>
    if scheme.map Char.toLower ≠ "bearer".toList then
      .error (httpError "Unauthorized: invalid header format" 401)
    else
      let tokenStr := trimSpace (String.ofList rest)
      if tokenStr = "" || tokenStr.toList.any fun c => [' ', '\t', '\r', '\n'].contains c then
        .error (httpError "Unauthorized: invalid header format" 401)
      else .ok tokenStr

/-- `AuthMiddleware`: the address the request runs under. -/
def authMiddleware (jwtSecret authHeader : String) (now : ℤ) : Except Response String :=
  match bearerToken authHeader with
  | .error r => .error r
  | .ok tokenStr =>
    match J.parse tokenStr jwtSecret now with
    | .error _ => .error (httpError "Unauthorized: invalid or expired token" 401)
    | .ok claims =>
      match claims.sub with
      | none => .error (httpError "Unauthorized: missing sub claim" 401)
      | some sub => .ok sub

/-- `HandleGetAuth` up to `GenerateChallenge`; `parse` is `keypair.Parse`. -/
def authAddress (parse : String → Bool) (query : List (String × String)) : Except Response String :=
  let address := queryGet query "address"
  if address = "" then .error (httpError "missing address parameter" 400)
  else if parse address = false then .error (httpError "invalid address format" 400)
  else .ok address

/-- `HandlePostAuth` up to `VerifyChallenge`. -/
def postAuthTransaction (body : List Char) : Except Response String :=
  match decodePostAuth body with
  | .error e => .error e.response
  | .ok transaction =>
    if transaction = "" then .error (httpError "missing transaction parameter" 400)
    else .ok transaction

end Tokens

structure ApiConfig extends AuthConfig where
  jwtSecret : String
  jwtExpiryHours : ℤ

/-- A token, with the redemption it was issued for. -/
structure IssuedToken where
  redemption : Redemption
  claims : MapClaims
  issuedAt : ℤ
  deriving DecidableEq, Repr

/-- A request that `AuthMiddleware` let through. -/
structure Admission where
  address : String
  time : ℤ
  deriving DecidableEq, Repr

/-- The challenges, the calls of `HandlePostAuth` that are past `VerifyChallenge`, the tokens issued
and the requests let through. -/
structure ApiWorld (Hash : Type) where
  auth : AuthWorld Hash
  verified : List Redemption
  tokens : List IssuedToken
  admitted : List Admission

def ApiWorld.init (Hash : Type) (clock : ℤ) : ApiWorld Hash := ⟨.init Hash clock, [], [], []⟩

def ApiWorld.tick {Hash : Type} (w : ApiWorld Hash) (now : ℤ) : ApiWorld Hash :=
  { w with auth := { w.auth with clock := now } }

/-- A step of a call, or of a holder of a key. -/
inductive ApiStep (Hash : Type)
  | getAuth (query : List (String × String)) (nonce : Except GoError String) (now now' : ℤ)
  | put (i : ℕ) (now : ℤ)
  | sign (address : String) (txHash : Hash)
  | signInvoice (tx : Transaction)
  | postAuth (body : List Char) (now : ℤ)
  | consume (i : ℕ) (now : ℤ)
  | issueToken (i : ℕ) (now now' : ℤ)
  | authenticate (authHeader : String) (now : ℤ)

section Step

variable {Hash Signature : Type} (K : Txnbuild Hash Signature) (J : Jwt) (C : ApiConfig)

/-- A step of the challenges. A call whose `consume` succeeds goes on to `GenerateJWT`. -/
def ApiWorld.challenge (w : ApiWorld Hash) (step : AuthStep Hash) : ApiWorld Hash :=
  let auth := step.apply K C.toAuthConfig w.auth
  { w with auth := auth, verified := w.verified ++ auth.redeemed.drop w.auth.redeemed.length }

def ApiStep.apply : ApiStep Hash → ApiWorld Hash → ApiWorld Hash
  | getAuth query nonce now now', w =>
    match authAddress K.parse query with
    | .error _ => w
    | .ok address => w.challenge K C (.generate address nonce now now')
  | put i now, w => w.challenge K C (.put i now)
  | sign address txHash, w => w.challenge K C (.sign address txHash)
  | signInvoice tx, w => w.challenge K C (.signInvoice tx)
  | postAuth body now, w =>
    match postAuthTransaction body with
    | .error _ => w
    | .ok transaction => w.challenge K C (.check transaction now)
  | consume i now, w => w.challenge K C (.consume i now)
  | issueToken i now now', w =>
    match w.verified[i]? with
    | none => w.tick now'
    | some r =>
      match generateJWT J r.clientAddr C.jwtSecret C.jwtExpiryHours now now' with
      | .error _ => { w.tick now' with verified := w.verified.eraseIdx i }
      | .ok (claims, _) =>
        { w.tick now' with
          verified := w.verified.eraseIdx i, tokens := w.tokens ++ [⟨r, claims, now⟩] }
  | authenticate authHeader now, w =>
    match authMiddleware J C.jwtSecret authHeader now with
    | .error _ => w.tick now
    | .ok address => { w.tick now with admitted := w.admitted ++ [⟨address, now⟩] }

/-- The token of the header, if it verifies, is one that was issued. -/
def TokenUnforged (w : ApiWorld Hash) (authHeader : String) (now : ℤ) : Prop :=
  ∀ tokenStr claims, bearerToken authHeader = .ok tokenStr →
    J.parse tokenStr C.jwtSecret now = .ok claims → ∃ t ∈ w.tokens, t.claims = claims

/-- What a step may be, as for the steps of the challenges; tokens are not forged either. -/
def ApiStep.Allowed (w : ApiWorld Hash) : ApiStep Hash → Prop
  | getAuth query nonce now now' => ∀ address, authAddress K.parse query = .ok address →
      (AuthStep.generate address nonce now now').Allowed K C.toAuthConfig w.auth
  | put i now => (AuthStep.put i now).Allowed K C.toAuthConfig w.auth
  | sign address txHash => (AuthStep.sign address txHash).Allowed K C.toAuthConfig w.auth
  | signInvoice tx => (AuthStep.signInvoice tx).Allowed K C.toAuthConfig w.auth
  | postAuth body now => ∀ transaction, postAuthTransaction body = .ok transaction →
      (AuthStep.check transaction now).Allowed K C.toAuthConfig w.auth
  | consume i now => (AuthStep.consume i now).Allowed K C.toAuthConfig w.auth
  | issueToken _ now now' => w.auth.clock ≤ now ∧ now ≤ now'
  | authenticate authHeader now => w.auth.clock ≤ now ∧ TokenUnforged J C w authHeader now

inductive ApiReachable : ApiWorld Hash → Prop
  | init (clock : ℤ) (h : 0 ≤ clock) : ApiReachable (.init Hash clock)
  | step {w : ApiWorld Hash} (step : ApiStep Hash) (hw : ApiReachable w)
      (h : step.Allowed K J C w) : ApiReachable (step.apply K J C w)

end Step

end TrusTrove

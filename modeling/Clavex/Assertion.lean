import Clavex.Cell
import Clavex.Json
import Clavex.Pool

/-!
# Signed assertions and the replay cache

`ValidateJWTBearerGrant`, `ValidateClientAssertionJWTWithProfile` and
`ValidateAttestationAssertionJWT` as programs that read the clock and ask the replay
cache. Reading and verifying a JWT is left to the library. Times are in nanoseconds.
-/

namespace Clavex

open Prog

def second : Int := 1000000000

def byteLen (s : String) : Nat := s.utf8ByteSize

def dropQuotes (s : String) : String := String.ofList (s.toList.filter (· ≠ '"'))

/-! ## Reading a JWT -/

/-- The claims of a JWT. Dates are missing, not zero, when the claim is not there. -/
structure Jwt where
  (iss sub : String := "")
  aud : List String := []
  jti : String := ""
  (exp iat nbf : Option Int := none)
  cnf : Option Json := none

structure JwsMessage where
  signatures : Nat := 1
  alg : String := ""
  payload : Option Json := none

/-- The JWT library over key sets `K`: `verify` is the error of verifying the signature and
the dates at a time, with a skew of 30 seconds. -/
structure JwtReader (K : Type) where
  parse : String → Option Jwt
  verify : K → String → Int → Option String
  parseJWS : String → Option JwsMessage
  parseJWK : Json → Except String K
  thumbprint : K → Except String String

/-! ## The cache -/

inductive ReplayOp where
  | now
  | checkAndSet (key : String) (ttl : Int)

inductive CacheAnswer where
  | fresh
  | alreadyUsed
  | error
  deriving DecidableEq

@[reducible] def ReplayOp.Resp : ReplayOp → Type
  | now => Int
  | checkAndSet .. => CacheAnswer

inductive CacheEnv where
  | up
  | down
  | lost
  deriving DecidableEq

def replaySem (env : CacheEnv) : (op : ReplayOp) → KeyStore String → op.Resp × KeyStore String
  | .now, s => (s.now, s)
  | .checkAndSet key ttl, s =>
    match env with
    | .up => (if (s.setNX key ttl).1 then .fresh else .alreadyUsed, (s.setNX key ttl).2)
    | .down => (.error, s)
    | .lost => (.error, (s.setNX key ttl).2)

inductive AssertionErr where
  | token (code description : String)
  | replayUnavailable

abbrev ReplayProg := Prog ReplayOp ReplayOp.Resp AssertionErr

section
variable {K : Type} (L : JwtReader K)

def verifyNow (keySet : K) (raw code label : String) : ReplayProg Unit := do
  let now ← call .now
  ofExcept <| match L.verify keySet raw now with
    | some err => .error (.token code (label ++ dropQuotes err))
    | none => .ok ()

def replayTTL (expires now : Int) : Int := if timeSub expires now ≤ 0 then 300 * second else timeSub expires now

/-! ## JWT bearer grants -/

def validateJWTBearerGrant (keySet : K) (tokenEndpoint : String) (jtiCache : Bool) (assertion : String) :
    ReplayProg Jwt :=
  let invalid (description : String) : AssertionErr := .token "invalid_grant" description
  match L.parse assertion with
  | none => fail (invalid "invalid assertion")
  | some t => do
    require (t.iss ≠ "") (invalid "assertion missing iss (RFC 7523 sec. 3)")
    require (t.sub ≠ "") (invalid "assertion missing sub (RFC 7523 sec. 3)")
    match t.exp with
    | none => fail (invalid "assertion missing exp (RFC 7523 sec. 3)")
    | some exp => do
      verifyNow L keySet assertion "invalid_grant" "assertion verification failed: "
      require (tokenEndpoint ∈ t.aud) (invalid "assertion aud must include the token endpoint (RFC 7523 sec. 3)")
      if jtiCache = true ∧ t.jti ≠ "" then do
        let now ← call .now
        let answer ← call (.checkAndSet ("jwtbearer:jti:" ++ t.jti) (replayTTL exp now))
        require (answer ≠ CacheAnswer.alreadyUsed) (invalid "assertion jti already used")
        return t
      else return t

/-! ## Client assertions -/

inductive ClientAssertionProfile where
  | standard
  | fapiFinal
  | other

def singleAudience (ms : List (String × Json)) : Option String :=
  match (decodeField (fun _ j => some (some j)) none "aud" ms).1 with
  | none => none
  | some j => decStr "" j

def checkFAPIFinal (assertion issuer : String) : Except AssertionErr Unit :=
  let invalid (description : String) : Except AssertionErr Unit := .error (.token "invalid_client" description)
  match L.parseJWS assertion with
  | none => invalid "client_assertion must contain one signed JWT"
  | some m =>
    if m.signatures ≠ 1 then invalid "client_assertion must contain one signed JWT"
    else
      match m.payload with
      | some (.obj ms) =>
        if singleAudience ms ≠ some issuer then
          invalid "FAPI Final client_assertion aud must be a single issuer string"
        else if m.alg ≠ "PS256" ∧ m.alg ≠ "ES256" then
          invalid "FAPI Final client_assertion algorithm must be PS256 or ES256"
        else .ok ()
      | some .null => invalid "FAPI Final client_assertion aud must be a single issuer string"
      | _ => invalid "invalid assertion claims"

def checkProfile (assertion issuer : String) : ClientAssertionProfile → Except AssertionErr Unit
  | .standard => .ok ()
  | .fapiFinal => checkFAPIFinal L assertion issuer
  | .other => .error (.token "invalid_client" "unknown client assertion profile")

def spendJTI (key : String) (ttl : Int) (used : String) : ReplayProg Unit := do
  let answer ← call (ReplayOp.checkAndSet key ttl)
  match answer with
  | CacheAnswer.error => fail .replayUnavailable
  | CacheAnswer.alreadyUsed => fail (.token "invalid_client" used)
  | CacheAnswer.fresh => return ()

def validateClientAssertionJWTWithProfile (keySet : K) (tokenEndpoint issuer : String) (jtiCache : Bool)
    (profile : ClientAssertionProfile) (extraAudiences : List String) (assertion : String) : ReplayProg String :=
  let invalid (description : String) : AssertionErr := .token "invalid_client" description
  match L.parse assertion with
  | none => fail (invalid "invalid client_assertion")
  | some t => do
    require (t.iss ≠ "" ∧ t.sub ≠ "") (invalid "client_assertion iss and sub are required")
    match t.exp with
    | none => fail (invalid "client_assertion exp is required")
    | some exp => do
      ofExcept (checkProfile L assertion issuer profile)
      require (t.sub = t.iss)
        (invalid "client_assertion sub must be present and must match iss (RFC 7523 sec. 3)")
      verifyNow L keySet assertion "invalid_client" "client_assertion verification failed: "
      require (∃ a ∈ t.aud, a ∈ tokenEndpoint :: issuer :: extraAudiences)
        (invalid "client_assertion aud must include token endpoint")
      if jtiCache = true ∧ t.jti ≠ "" then do
        let now ← call .now
        spendJTI ("ca:jti:" ++ t.jti) (replayTTL (exp + 30 * second) now) "client_assertion jti already used"
        return t.iss
      else return t.iss

/-! ## Attestations -/

def popMaxAge : Int := 330 * second

def popDeadline (iat : Int) : Option Int → Int
  | none => iat + popMaxAge
  | some exp => if exp + 30 * second < iat + popMaxAge then exp + 30 * second else iat + popMaxAge

def validateAttestationPopJWT (popKeySet : K) (tokenEndpoint issuer expectedClientID : String) (jtiCache : Bool)
    (extraAudiences : List String) (popJWT : String) : ReplayProg Unit :=
  let invalid (description : String) : AssertionErr := .token "invalid_client" ("PoP JWT: " ++ description)
  match L.parse popJWT with
  | none => fail (invalid "parse error")
  | some t => do
    require (t.iss ≠ "") (invalid "missing iss")
    require (t.iss = expectedClientID) (invalid "iss does not match client_id")
    let now ← call .now
    match t.iat with
    | none => fail (invalid "missing or stale iat")
    | some iat => do
      require (¬ (now + 30 * second < iat) ∧ ¬ (iat + popMaxAge < now)) (invalid "missing or stale iat")
      require (t.jti ≠ "" ∧ byteLen t.jti ≤ 512) (invalid "missing or invalid jti")
      verifyNow L popKeySet popJWT "invalid_client" "PoP JWT: verification failed: "
      require (∃ a ∈ t.aud, a ∈ tokenEndpoint :: issuer :: extraAudiences)
        (invalid "aud must include token endpoint or issuer")
      if jtiCache = true then do
        let now ← call .now
        require (0 < timeSub (popDeadline iat t.exp) now) (invalid "expired proof")
        spendJTI ("pop:jti:" ++ t.jti) (timeSub (popDeadline iat t.exp) now) "PoP JWT: jti already used"
      else return ()

def splitTilde (s : String) : Option (String × String) :=
  match s.toList.span (· ≠ '~') with
  | (a, _ :: b) => some (String.ofList a, String.ofList b)
  | (_, []) => none

def confirmationKeys (t : Jwt) : Except AssertionErr K :=
  let invalid (description : String) : Except AssertionErr K := .error (.token "invalid_client" description)
  match t.cnf with
  | none => invalid "attestation JWT missing cnf claim"
  | some (.obj ms) =>
    match (decodeField (fun _ j => some (some j)) none "jwk" ms).1 with
    | none => invalid "attestation JWT cnf.jwk missing or invalid"
    | some jwk =>
      match L.parseJWK jwk with
      | .error err => invalid ("attestation JWT cnf.jwk parse error: " ++ err)
      | .ok keys => .ok keys
  | some _ => invalid "attestation JWT cnf.jwk missing or invalid"

def validateAttestationAssertionJWT (clientKeySet : K) (tokenEndpoint issuer expectedClientID : String)
    (jtiCache : Bool) (extraAudiences : List String) (clientAssertion : String) : ReplayProg String :=
  let invalid (description : String) : AssertionErr := .token "invalid_client" description
  match splitTilde clientAssertion with
  | none => fail (invalid "client_assertion must be <attest_jwt>~<pop_jwt> (tilde-separated)")
  | some (attestJWT, popJWT) => do
    require (attestJWT ≠ "" ∧ popJWT ≠ "")
      (invalid "client_assertion must be <attest_jwt>~<pop_jwt> (tilde-separated)")
    match L.parse attestJWT with
    | none => fail (invalid "attestation JWT parse error")
    | some t => do
      require (t.sub ≠ "") (invalid "attestation JWT missing sub (client_id)")
      require (t.sub = expectedClientID) (invalid "attestation JWT sub does not match client_id")
      verifyNow L clientKeySet attestJWT "invalid_client" "attestation JWT verification failed: "
      let popKeySet ← ofExcept (confirmationKeys L t)
      validateAttestationPopJWT L popKeySet tokenEndpoint issuer expectedClientID jtiCache extraAudiences popJWT
      ofExcept <| (L.thumbprint popKeySet).mapError fun err =>
        .token "invalid_client" ("attestation JWT cnf.jwk thumbprint: " ++ err)

end

/-! ## Requests -/

inductive AssertionRequest (K : Type) where
  | bearer (keySet : K) (tokenEndpoint assertion : String)
  | client (keySet : K) (tokenEndpoint issuer : String) (profile : ClientAssertionProfile)
      (extraAudiences : List String) (assertion : String)
  | attestation (keySet : K) (tokenEndpoint issuer expectedClientID : String) (extraAudiences : List String)
      (clientAssertion : String)

inductive AssertionReply where
  | subject (t : Jwt)
  | clientID (id : String)
  | instanceJKT (jkt : String)

def serveAssertion {K : Type} (L : JwtReader K) : AssertionRequest K → ReplayProg AssertionReply
  | .bearer keySet tokenEndpoint assertion => do
    let t ← validateJWTBearerGrant L keySet tokenEndpoint true assertion
    return .subject t
  | .client keySet tokenEndpoint issuer profile extraAudiences assertion => do
    let id ← validateClientAssertionJWTWithProfile L keySet tokenEndpoint issuer true profile extraAudiences assertion
    return .clientID id
  | .attestation keySet tokenEndpoint issuer expectedClientID extraAudiences clientAssertion => do
    let jkt ← validateAttestationAssertionJWT L keySet tokenEndpoint issuer expectedClientID true extraAudiences
      clientAssertion
    return .instanceJKT jkt

def assertionSystem {K : Type} (L : JwtReader K) :
    System (AssertionRequest K) ReplayOp ReplayOp.Resp AssertionErr AssertionReply (KeyStore String) CacheEnv Nat where
  main := serveAssertion L
  sem := replaySem
  other n s := s.tick n

end Clavex

import Clavex.TokenEndpoint

/-!
# Token exchange

`ExchangeToken` and the token-exchange grant of `Token`, within one organisation and from
a source organisation that the `resource` names.
-/

namespace Clavex

open Prog

structure CrossOrgTrust where
  (allowedScopes allowedClientIDs : List String := [])
  maxTokenTTL : Option Int := none
  requireMFA : Bool := false

/-- `verify` is the JWT library: the claims of a token that the keys have signed and whose
dates hold at the time. `parseUnverified` reads the claims and checks nothing. The other
functions are the tables that only this grant reads. -/
structure ExchangeHandler extends OIDCHandler where
  verify : Keys → Int → String → Option (GoMap Json)
  parseUnverified : String → Option (GoMap Json)
  uuidParse : String → Option UUID
  getTrust : UUID → UUID → Option CrossOrgTrust
  allowedAudiences : String → List String
  flattenRoleNames : UUID → Option (List String)
  listMappers : String → Option (List Mapper)

/-- `accessToken` is also what a request without a type means. -/
inductive SubjectTokenType where
  | accessToken
  | refreshToken
  | other

structure ExchangeRequest extends ClientAuth where
  subjectToken : String := ""
  subjectTokenType : SubjectTokenType := .accessToken
  (audience scope resource : String := "")
  proof : ProofHeaders := {}

structure TokenExchangeResponse where
  accessToken : Signed
  issuedTokenType : String := "urn:ietf:params:oauth:token-type:access_token"
  tokenType : String := "Bearer"
  expiresIn : Int
  scope : String

/-! ## The subject token -/

inductive SubjectToken where
  | access (claims : GoMap Json)
  | refresh (rt : RefreshRow)

def SubjectToken.scope : SubjectToken → String
  | access claims => textClaim claims "scope"
  | refresh rt => rt.scope

section
variable (h : ExchangeHandler)

def verifyAccessToken (tc : MintConfig) (now : Int) (raw : String) : Option (GoMap Json) :=
  (h.verify tc.keys now raw).filter fun claims => textClaim claims "iss" = tc.issuer

def verifySubject (verifyTC : MintConfig) (subjectToken : String) : SubjectTokenType → TokenProg SubjectToken
  | .accessToken => do
    let now ← stmt .now
    match verifyAccessToken h verifyTC now subjectToken with
    | none => fail (invalidGrant "subject_token is invalid or expired")
    | some claims => return .access claims
  | .refreshToken => do
    let some rt ← stmt (.refreshByHash (h.hashString subjectToken))
      | fail (invalidGrant "subject_token (refresh) not found")
    let now ← stmt .now
    require (rt.revokedAt.isNone = true ∧ now ≤ rt.expiresAt)
      (invalidGrant "subject_token (refresh) is revoked or expired")
    return .refresh rt
  | .other => fail (.oauth "invalid_request" "unsupported subject_token_type")

def exchangeUserClaims (user : User) : UserClaims :=
  { userClaimsFromModel h.toOIDCHandler user with roles := (h.flattenRoleNames user.id).getD [] }

def subjectClaims (clientID : String) : SubjectToken → TokenProg (Option UserClaims)
  | .access claims =>
    if textClaim claims "sub" = "" then return none
    else
      match h.uuidParse (textClaim claims "sub") with
      | none => fail (invalidGrant "invalid sub claim in subject_token")
      | some userID => do
        let user ← activeUser userID
        return some (mapClaims (exchangeUserClaims h user) user (h.listMappers clientID))
  | .refresh rt =>
    match rt.userID with
    | none => return none
    | some userID => do
      let user ← activeUser userID
      return some (exchangeUserClaims h user)

end

/-! ## Scope and audience -/

def narrowScope (granted requested : String) : String :=
  if (fields requested).all (· ∈ fields granted) then
    if fields requested = [] then granted else " ".intercalate (fields requested)
  else ""

def exchangedScope (granted requested : String) : Except TokenErr String :=
  if requested = "" then .ok granted
  else if narrowScope granted requested = "" then
    .error (.oauth "invalid_scope" "requested scope exceeds subject_token scope")
  else .ok (narrowScope granted requested)

def audiencePermitted (requested clientID : String) (allowed : List String) : Bool :=
  requested == "" || requested == clientID || allowed.contains requested

def targetAudience (requested clientID : String) (allowed : List String) : Except TokenErr String :=
  if requested = "" then .ok clientID
  else if audiencePermitted requested clientID allowed then .ok requested
  else .error (.oauth "invalid_target" "requested audience is not permitted for this client")

/-! ## The exchange -/

section
variable (h : ExchangeHandler)

def exchangeToken (r : ExchangeRequest) (clientID requestedScope : String) (allowedAudiences : List String)
    (verifyTC tc : MintConfig) : TokenProg TokenExchangeResponse := do
  let subject ← verifySubject h verifyTC r.subjectToken r.subjectTokenType
  let uc ← subjectClaims h clientID subject
  let scope ← ofExcept (exchangedScope subject.scope requestedScope)
  let aud ← ofExcept (targetAudience r.audience clientID allowedAudiences)
  let some (accessToken, _) ← stmt (.issueAccessToken tc aud scope uc none none)
    | fail (.internal "issue exchanged access token")
  return { accessToken := accessToken, expiresIn := tc.accessTokenTTL, scope := scope }

def audiencesOf (cl : Option OIDCClient) : List String := (cl.map fun cl => h.allowedAudiences cl.clientID).getD []

def sameOrgExchange (r : ExchangeRequest) (clientID : String) (tc : MintConfig) : TokenProg TokenExchangeResponse := do
  let cl ← stmt (.clientByID clientID)
  exchangeToken h r clientID r.scope (audiencesOf h cl) tc tc

end

/-! ## From another organisation -/

def splitWords (s : String) : List String :=
  ((s.toList.splitOnP fun c => c == ' ' || c == '\t').filter (· ≠ [])).map String.ofList

def intersectScopes (allowed : List String) (requested : String) : String :=
  " ".intercalate ((splitWords requested).filter (· ∈ allowed))

def isTrustAllowed (trust : CrossOrgTrust) (clientID requestedScope : String) : Option String :=
  if trust.allowedClientIDs ≠ [] ∧ clientID ∉ trust.allowedClientIDs then none
  else if trust.allowedScopes ≠ [] ∧ requestedScope ≠ "" then
    if intersectScopes trust.allowedScopes requestedScope = "" then none
    else some (intersectScopes trust.allowedScopes requestedScope)
  else some requestedScope

def mfaMethods : List String := ["mfa", "otp", "totp", "hwk", "swk", "phr"]

def hasMFA (claims : GoMap Json) : Bool :=
  match claims.lookup "amr" with
  | some (.arr methods) => methods.any fun m => m.asString.any (· ∈ mfaMethods)
  | _ => false

def capTTL (trust : CrossOrgTrust) (tc : MintConfig) : MintConfig :=
  match trust.maxTokenTTL with
  | some max => if max < tc.accessTokenTTL then { tc with accessTokenTTL := max } else tc
  | none => tc

def crossOrgURN : String := "urn:clavex:org:"

section
variable (h : ExchangeHandler)

def checkTrustMFA (trust : CrossOrgTrust) (subjectToken : String) : Except TokenErr Unit :=
  if trust.requireMFA then
    match h.parseUnverified subjectToken with
    | none => .error (.oauth "invalid_request" "cannot parse subject_token")
    | some claims =>
      if hasMFA claims then .ok ()
      else
        .error (.oauth "access_denied"
          "cross-org trust requires MFA; subject_token amr does not satisfy requirement")
  else .ok ()

def crossOrgExchange (r : ExchangeRequest) (clientID : String) : TokenProg TokenExchangeResponse := do
  let sourceSlug := trimPfx r.resource crossOrgURN
  let some source ← stmt (.orgBySlug sourceSlug) | fail (.oauth "invalid_request" "source organization not found")
  let some target ← stmt (.orgBySlug r.orgSlug) | fail (.oauth "invalid_request" "target organization not found")
  require (source.id ≠ target.id)
    (.oauth "invalid_request" "source and target org must differ for cross-org exchange")
  match h.getTrust source.id target.id with
  | none => fail (.oauth "access_denied" "no active cross-org trust from source to target organization")
  | some trust =>
    match isTrustAllowed trust clientID r.scope with
    | none => fail (.oauth "access_denied" "cross-org trust does not permit this client or scope")
    | some scope => do
      ofExcept (checkTrustMFA h trust r.subjectToken)
      let cl ← stmt (.clientByID clientID)
      let targetTC ← applyOrgOverrides h.toOIDCHandler (newTC h.toOIDCHandler r.orgSlug) (some target) cl
      let sourceTC ← verificationTC h.toOIDCHandler sourceSlug
      exchangeToken h r clientID scope (audiencesOf h cl) sourceTC (capTTL trust targetTC)

/-! ## The grant -/

def exchangeClient (r : ExchangeRequest) : TokenProg (MintConfig × String) := do
  let tc ← verificationTC h.toOIDCHandler r.orgSlug
  let _ ← checkDPoP h.toOIDCHandler r.proof.headers r.proof.htm r.proof.htu
  let a ← (authenticateClient h.toOIDCHandler r.toClientAuth).mapError fun e => .oauth "invalid_client" e.message
  return (tc, a.clientID)

def tokenExchange (r : ExchangeRequest) : TokenProg TokenExchangeResponse := do
  let (tc, clientID) ← exchangeClient h r
  if hasPrefix r.resource crossOrgURN then crossOrgExchange h r clientID
  else sameOrgExchange h r clientID tc

end

end Clavex

import Clavex.Exchange

/-!
# The token endpoint

`Token`: the signing configuration of the organisation in the URL, the DPoP proof, the
authentication of the client, and then one program per grant.
-/

namespace Clavex

open Prog

/-! ## Signing configuration -/

variable (d : OIDCHandler)

def issuerFromRequest (orgSlug : String) : String := d.config.issuer ++ "/" ++ orgSlug

def newTC (orgSlug : String) : MintConfig := { d.config with issuer := issuerFromRequest d orgSlug }

def withSigner (tc : MintConfig) (org : OrgRow) : TokenProg MintConfig := do
  let found ← stmt (.resolveSigner org.id)
  require (found = true) .unavailable
  return { tc with keys := .tenant org.id }

def verificationTC (orgSlug : String) : TokenProg MintConfig :=
  if ¬ d.orgSigners then return newTC d orgSlug
  else do
    let some org ← stmt (.orgBySlug orgSlug) | fail .unavailable
    withSigner (newTC d orgSlug) org

def overrideTTL (accessTokenTTL refreshTokenTTL : Option Int) (tc : MintConfig) : MintConfig :=
  let tc := match accessTokenTTL.filter (0 < ·) with
    | some ttl => { tc with accessTokenTTL := ttl, idTokenTTL := ttl }
    | none => tc
  match refreshTokenTTL.filter (0 < ·) with
  | some ttl => { tc with refreshTokenTTL := ttl }
  | none => tc

def applyTTLOverrides (tc : MintConfig) (org : Option OrgRow) (cl : Option OIDCClient) : MintConfig :=
  let tc := match org with
    | some org => overrideTTL org.accessTokenTTL org.refreshTokenTTL tc
    | none => tc
  match cl with
  | some cl => overrideTTL cl.accessTokenTTL cl.refreshTokenTTL tc
  | none => tc

def applyOrgOverrides (tc : MintConfig) (org : Option OrgRow) (cl : Option OIDCClient) :
    TokenProg MintConfig :=
  if ¬ d.orgSigners then return applyTTLOverrides tc org cl
  else
    match org with
    | some org => withSigner (applyTTLOverrides tc (some org) cl) org
    | none => fail .unavailable

/-! ## DPoP -/

def invalidProof (description : String) : TokenErr := .oauth "invalid_dpop_proof" description

def checkDPoP (headers : List String) (htm htu : String) : TokenProg (Option DPoPKey) := do
  require (headers.length ≤ 1) (invalidProof "exactly one DPoP header is allowed (RFC 9449 §7.1)")
  let now ← stmt .now
  let key ← ofExcept ((parseDPoPProof d.proofs now (headers.headD "") htm htu).mapError fun e =>
    invalidProof (d.proofs.errorText e))
  match key with
  | none => return none
  | some k => do
    let fresh ← stmt (.checkJTI k.jti)
    require (fresh = true) (invalidProof "dpop proof jti already used")
    return some k

/-! ## Client authentication -/

structure PeerCert where
  subject : String
  dnsNames : List String := []

inductive AssertionType where
  | none
  | jwtBearer
  | jwtClientAttestation

structure ClientAuth where
  orgSlug : String
  assertionType : AssertionType := .none
  (clientAssertion attestationHeader attestationPoPHeader : String := "")
  peerCert : Option PeerCert := none
  basic : Option (String × String) := none
  (clientID clientSecret : String := "")

structure Authenticated where
  clientID : String
  attestationJKT : String := ""

abbrev AuthProg := Prog TokenOp TokenOp.Resp HTTPError

def unauthorized {α : Type} (message : String) : AuthProg α := fail ⟨401, message⟩

def activeClient (clientID : String) : AuthProg OIDCClient := do
  let some client ← stmt (.clientByID clientID) | unauthorized "unknown client"
  require (client.isActive = true) ⟨401, "unknown client"⟩
  return client

def authenticateClientByAssertion (r : ClientAuth) : AuthProg Authenticated := do
  require (r.clientAssertion ≠ "") ⟨401, "client_assertion required"⟩
  match d.assertionIssuer r.clientAssertion with
  | none => unauthorized "invalid client_assertion"
  | some clientID => do
    require (clientID ≠ "") ⟨401, "client_assertion iss is required"⟩
    require (r.clientID = "" ∨ r.clientID = clientID) ⟨401, "client_id does not match client_assertion"⟩
    let client ← activeClient clientID
    require (client.tokenEndpointAuthMethod = .privateKeyJWT) ⟨401, "client not configured for private_key_jwt"⟩
    let valid ← stmt (.lookup (.clientAssertion r.clientAssertion clientID (issuerFromRequest d r.orgSlug)))
    ofExcept valid
    return { clientID := clientID }

def attestationText (r : ClientAuth) : String :=
  if r.clientAssertion = "" ∧ r.attestationHeader ≠ "" ∧ r.attestationPoPHeader ≠ "" then
    r.attestationHeader ++ "~" ++ r.attestationPoPHeader
  else r.clientAssertion

def authenticateAttested (r : ClientAuth) (clientID : String) : AuthProg Authenticated := do
  let client ← activeClient clientID
  require (client.tokenEndpointAuthMethod = .attestation) ⟨401, "client not configured for attest_jwt_client_auth"⟩
  let some org ← stmt (.orgBySlug r.orgSlug) | unauthorized "client does not belong to the active organisation"
  require (org.id = client.orgID ∧ org.isActive = true) ⟨401, "client does not belong to the active organisation"⟩
  let jkt ← stmt (.lookup (.clientAttestation (attestationText r) clientID (issuerFromRequest d r.orgSlug)))
  let jkt ← ofExcept jkt
  return { clientID := clientID, attestationJKT := jkt }

def authenticateClientByAttestationAssertion (r : ClientAuth) : AuthProg Authenticated := do
  require (attestationText r ≠ "") ⟨401, "client_assertion required"⟩
  match (attestationText r).splitOn "~" with
  | attestation :: _ :: _ => do
    require (attestation ≠ "") ⟨401, "client_assertion must be <attest_jwt>~<pop_jwt>"⟩
    match d.attestationSubject attestation with
    | none => unauthorized "invalid attestation JWT"
    | some clientID => do
      require (clientID ≠ "") ⟨401, "attestation JWT missing sub (client_id)"⟩
      authenticateAttested d r clientID
  | _ => unauthorized "client_assertion must be <attest_jwt>~<pop_jwt>"

def authenticateByClientCert (cert : PeerCert) (client : OIDCClient) : Bool :=
  if client.tlsClientAuthSubjectDN ≠ "" then cert.subject == client.tlsClientAuthSubjectDN
  else client.tlsClientAuthSANDNS ≠ "" && cert.dnsNames.contains client.tlsClientAuthSANDNS

def authenticateBySecret (r : ClientAuth) : AuthProg Authenticated := do
  let (clientID, clientSecret) := r.basic.getD (r.clientID, r.clientSecret)
  require (clientID ≠ "") ⟨401, "client_id required"⟩
  let client ← activeClient clientID
  match client.tokenEndpointAuthMethod with
  | .privateKeyJWT => unauthorized "client_assertion required"
  | .attestation => unauthorized "attestation client_assertion required"
  | .tlsClientAuth => unauthorized "mTLS certificate required"
  | .secretOrNone =>
    match client.clientSecretHash with
    | none => return { clientID := clientID }
    | some hash => do
      require (d.checkSecret hash clientSecret = true) ⟨401, "invalid client secret"⟩
      return { clientID := clientID }

def authenticateByCertificate (r : ClientAuth) (cert : PeerCert) : AuthProg Authenticated := do
  let client ← stmt (.clientByID r.clientID)
  match client.filter fun cl => cl.isActive && cl.tokenEndpointAuthMethod == .tlsClientAuth with
  | none => authenticateBySecret d r
  | some cl => do
    require (authenticateByClientCert cert cl = true) ⟨401, "tls_client_auth: certificate subject mismatch"⟩
    return { clientID := r.clientID }

def authenticateClient (r : ClientAuth) : AuthProg Authenticated :=
  match r.assertionType with
  | .jwtBearer => authenticateClientByAssertion d r
  | .jwtClientAttestation => authenticateClientByAttestationAssertion d r
  | .none =>
    if r.attestationHeader ≠ "" then authenticateClientByAttestationAssertion d r
    else
      match r.peerCert with
      | some cert => if r.clientID = "" then authenticateBySecret d r else authenticateByCertificate d r cert
      | none => authenticateBySecret d r

/-! ## Authorization codes -/

def checkSenderConstrained (cl : Option OIDCClient) (x : Caller) : Except TokenErr Unit :=
  match cl with
  | none => .ok ()
  | some cl =>
    if cl.dpopBoundAccessTokens ∧ x.dpop.isNone ∧ x.mtls.isNone then
      .error (.oauth "invalid_request"
        "sender-constrained access token required: provide a DPoP proof or mTLS client certificate")
    else if cl.tlsClientCertBoundAccessTokens ∧ x.mtls.isNone then
      .error (.oauth "invalid_client" "mTLS client certificate is required for this client")
    else .ok ()

def hookURLOf (org : Option OrgRow) : String := (org.map (·.claimsEnrichmentURL)).getD ""

def idTokenAlgOf (cl : Option OIDCClient) : String := (cl.map (·.idTokenSignedResponseAlg)).getD ""

def isInvalidGrant : TokenErr → Bool
  | .oauth code _ => code == "invalid_grant"
  | _ => false

def presentsCode (x : Caller) (cl : Option OIDCClient) (redirectURI codeVerifier : String)
    (ac : CodeRow) : Bool :=
  ac.accessTokenJTI != "" && cl.any (fun cl => ac.orgID == cl.orgID) && ac.clientID == x.clientID &&
    ac.redirectURI == redirectURI && (verifyPKCE d ac.pkceChallenge codeVerifier).isOk &&
    (ac.dpopJKT == "" || x.dpop.any (fun k => k.jkt == ac.dpopJKT))

def revokeReplayed (x : Caller) (cl : Option OIDCClient) (tc : MintConfig)
    (code redirectURI codeVerifier : String) : TokenProg Unit := do
  let some used ← stmt (.usedCodeByHash (d.hashString code)) | fail .unavailable
  match used.filter (presentsCode d x cl redirectURI codeVerifier) with
  | none => return ()
  | some ac => do
    let revoked ← stmt (.revokeToken ac.accessTokenJTI tc.accessTokenTTL)
    require (revoked = true) .unavailable
    match ac.refreshFamilyID with
    | none => return ()
    | some familyID => do
      let revoked ← stmt (.revokeFamilyByID familyID)
      require (revoked = true) .unavailable

def authorizationCodeGrant (x : Caller) (tc : MintConfig) (code redirectURI codeVerifier : String) :
    TokenProg TokenSet := do
  let cl ← stmt (.clientByID x.clientID)
  ofExcept (checkSenderConstrained cl x)
  let org ← stmt (.orgBySlug x.orgSlug)
  let tc ← applyOrgOverrides d tc org cl
  let r ← (exchangeCode d x code redirectURI codeVerifier (idTokenAlgOf cl) tc (hookURLOf org)).attempt
  match r with
  | .ok ts => return ts
  | .error e =>
    if isInvalidGrant e then do
      revokeReplayed d x cl tc code redirectURI codeVerifier
      fail e
    else fail e

/-! ## Refresh tokens and client credentials -/

def refreshTokenGrant (x : Caller) (tc : MintConfig) (refreshToken : String) : TokenProg TokenSet := do
  let cl ← stmt (.clientByID x.clientID)
  ofExcept (checkSenderConstrained cl x)
  let org ← stmt (.orgBySlug x.orgSlug)
  let tc ← applyOrgOverrides d tc org cl
  exchangeRefreshToken d x refreshToken tc (hookURLOf org)

def filterScope (requested : String) (allowed : List String) : String :=
  if allowed = [] then requested else " ".intercalate ((fields requested).filter (· ∈ allowed))

def clientCredentialsGrant (x : Caller) (tc : MintConfig) (scope : String) : TokenProg TokenSet := do
  let cl ← stmt (.clientByID x.clientID)
  match cl with
  | none => exchangeClientCredentials x.clientID scope tc x.dpop x.mtls
  | some cl => do
    let org ← stmt (.orgBySlug x.orgSlug)
    let tc ← applyOrgOverrides d tc org (some cl)
    exchangeClientCredentials x.clientID (filterScope scope cl.scopes) tc x.dpop x.mtls

def invalidServiceAccount : TokenErr := .oauth "invalid_client" "invalid service account credentials"

def serviceAccountGrant (tc : MintConfig) (clientID secret scope : String) (dpop : Option DPoPKey)
    (mtls : Option MTLSCert) : TokenProg TokenSet := do
  let some sa ← stmt (.serviceAccountByID clientID) | fail invalidServiceAccount
  require (sa.isActive = true ∧ d.checkSecret sa.clientSecretHash secret = true) invalidServiceAccount
  let scope := if scope = "" then " ".intercalate sa.scopes else filterScope scope sa.scopes
  exchangeClientCredentials ("sa:" ++ d.uuidText sa.id) scope tc dpop mtls

/-! ## Polling grants -/

def pollClaims (clientID : String) (user : User) : TokenProg UserClaims := do
  let roles ← stmt (.lookup (.flattenRoleNames user.id))
  let groups ← stmt (.lookup (.groupsForUser user.id))
  let mappers ← stmt (.lookup (.mappersByClient clientID))
  return mapClaims { userClaimsFromModel d user with roles := roles.getD [], groups := groups.getD [] } user mappers

def issuePolled (x : Caller) (tc : MintConfig) (orgID : UUID) (userID : Option UUID)
    (scope alg : String) (uc : UserClaims) (dpop : Option DPoPKey) (accessToken : Signed) : TokenProg TokenSet := do
  let idToken ← issueIDTokenFor d tc x.clientID "" alg uc accessToken
  let familyID ← stmt .newUUID
  let now ← stmt .now
  let refreshToken ← issueRefreshToken d
    { orgID := orgID
      clientID := x.clientID
      userID := userID
      familyID := familyID
      scope := scope
      expiresAt := now + tc.refreshTokenTTL
      dpopJKT := (dpop.map (·.jkt)).getD "" }
  return {
    accessToken := accessToken
    idToken := some idToken
    refreshToken := refreshToken
    tokenType := tokenType dpop
    expiresIn := tc.accessTokenTTL
    scope := scope }

def checkDeviceCode (x : Caller) (now : Int) (dc : DeviceCode) : Except TokenErr Unit :=
  if dc.clientID ≠ x.clientID then .error (invalidGrant "device code was not issued to this client")
  else if dc.expiresAt < now then .error (.oauth "expired_token" "device code expired")
  else .ok ()

def deviceDecision (dc : DeviceCode) : Except TokenErr UUID :=
  match dc.isAuthorized with
  | none => .error (.oauth "authorization_pending" "user has not yet approved the request")
  | some false => .error (.oauth "access_denied" "user denied the request")
  | some true =>
    match dc.userID with
    | some userID => .ok userID
    | none => .error (.internal "nil pointer")

def slowDownText (interval : Int) : String :=
  "polling too fast; wait at least " ++ toString (interval + 5) ++ " seconds"

def redeemDevice (x : Caller) (dc : DeviceCode) (userID : UUID) : TokenProg TokenSet := do
  let user ← activeUser userID
  let cl ← stmt (.clientByID x.clientID)
  let org ← stmt (.orgBySlug x.orgSlug)
  let tc ← applyOrgOverrides d (newTC d x.orgSlug) org cl
  let uc ← pollClaims d x.clientID user
  let flags ← stmt (.lookup (.resolveFlags dc.orgID user.id))
  let uc := addExtra uc "flags" flags
  let some (accessToken, _) ← stmt (.issueAccessToken tc x.clientID dc.scope (some uc) none none)
    | fail (.internal "issue access token")
  let ts ← issuePolled d x tc dc.orgID (some userID) dc.scope (idTokenAlgOf cl) uc none accessToken
  let _ ← stmt (.deleteDevice dc.id)
  return ts

def deviceCodeGrant (x : Caller) (deviceCode : String) : TokenProg TokenSet := do
  require (deviceCode ≠ "") (.oauth "invalid_request" "missing device_code")
  let some dc ← stmt (.deviceByCode (d.hashString deviceCode)) | fail (invalidGrant "device code not found")
  let now ← stmt .now
  ofExcept (checkDeviceCode x now dc)
  let tooFast ← stmt (.touchPoll dc.id dc.pollInterval)
  if tooFast = some true then do
    let _ ← stmt (.slowDown dc.id)
    fail (.oauth "slow_down" (slowDownText dc.pollInterval))
  else do
    let userID ← ofExcept (deviceDecision dc)
    redeemDevice d x dc userID

def vpClaimsExtra (uc : UserClaims) (vpClaims : Option Json) : UserClaims :=
  match vpClaims with
  | none => uc
  | some claims =>
    let verification : Json := .obj [("trust_framework", .str "oid4vp"), ("assurance_level", .str "high")]
    addExtra (addExtra uc "verified_claims" (some (.obj [("verification", verification), ("claims", claims)]))) "amr"
      (some (.arr [.str "pop"]))

def cibaClaims (uc : UserClaims) (cr : CIBARequest) : UserClaims :=
  vpClaimsExtra (if cr.acr = "" then uc else { uc with acr := cr.acr }) cr.vpClaims

def checkCIBA (x : Caller) (now : Int) (cr : CIBARequest) : Except TokenErr Unit :=
  if cr.clientID ≠ x.clientID then .error (invalidGrant "auth_req_id was not issued to this client")
  else if cr.expiresAt < now then .error (.oauth "expired_token" "auth_req_id has expired")
  else .ok ()

structure ProofHeaders where
  headers : List String := []
  htm : String := "POST"
  htu : String := ""

/-- What a poll of the approved request `cr` yields. The proof is checked here, after the
endpoint has already done so. -/
def redeemCIBA (x : Caller) (proof : ProofHeaders) (cr : CIBARequest) (userID : UUID) :
    TokenProg TokenSet := do
  let user ← activeUser userID
  let cl ← stmt (.clientByID x.clientID)
  let org ← stmt (.orgBySlug x.orgSlug)
  let tc ← applyOrgOverrides d (newTC d x.orgSlug) org cl
  let uc ← pollClaims d x.clientID user
  let uc := cibaClaims uc cr
  let dpop ← checkDPoP d proof.headers proof.htm proof.htu
  let some (accessToken, _) ← stmt (.issueAccessToken tc x.clientID cr.scope (some uc) dpop x.mtls)
    | fail (.internal "issue access token")
  let cl ← stmt (.clientByID x.clientID)
  let ts ← issuePolled d x tc cr.orgID (some userID) cr.scope (idTokenAlgOf cl) uc dpop accessToken
  let _ ← stmt (.deleteCIBA cr.authReqID true)
  return ts

def cibaGrant (x : Caller) (proof : ProofHeaders) (authReqID : String) : TokenProg TokenSet := do
  require (authReqID ≠ "") (.oauth "invalid_request" "auth_req_id is required")
  let some cr ← stmt (.cibaByID authReqID) | fail (invalidGrant "auth_req_id not found")
  let now ← stmt .now
  ofExcept (checkCIBA x now cr)
  let cl ← stmt (.clientByID x.clientID)
  require (¬ (cl.any (·.tlsClientCertBoundAccessTokens) ∧ x.mtls.isNone))
    (.oauth "invalid_client" "mTLS client certificate is required for this client")
  let polled ← stmt (.cibaPoll authReqID (if cr.interval ≤ 0 then 5 else cr.interval))
  require (polled = true) (.oauth "slow_down" "polling too frequently; wait for the interval before retrying")
  match cr.status with
  | .pending => fail (.oauth "authorization_pending" "user has not yet approved the request")
  | .denied => do
    let _ ← stmt (.deleteCIBA authReqID false)
    fail (.oauth "access_denied" "user denied the backchannel authentication request")
  | .approved =>
    match cr.userID with
    | none => fail (invalidGrant "user identity not resolved")
    | some userID => redeemCIBA d x proof cr userID

/-! ## The endpoint -/

inductive GrantType where
  | authorizationCode
  | refreshToken
  | clientCredentials
  | deviceCode
  | ciba
  deriving DecidableEq

structure TokenRequest extends ClientAuth where
  grantType : GrantType
  (code redirectURI codeVerifier refreshToken scope deviceCode authReqID : String := "")
  proof : ProofHeaders := {}
  mtls : Option MTLSCert := none

def HTTPError.text (e : HTTPError) : String := "code=" ++ toString e.status ++ ", message=" ++ e.message

def caller (r : TokenRequest) (dpop : Option DPoPKey) (text : HTTPError → String) :
    TokenProg Caller := do
  let a ← (authenticateClient d r.toClientAuth).mapError fun e => .oauth "invalid_client" (text e)
  return {
    orgSlug := r.orgSlug
    clientID := a.clientID
    attestationJKT := a.attestationJKT
    dpop := dpop
    mtls := r.mtls }

def serviceAccountSecret (r : TokenRequest) : String :=
  if r.clientSecret = "" then (r.basic.map (·.2)).getD "" else r.clientSecret

def token (r : TokenRequest) : TokenProg TokenSet := do
  let tc ← verificationTC d r.orgSlug
  let dpop ← checkDPoP d r.proof.headers r.proof.htm r.proof.htu
  match r.grantType with
  | .authorizationCode => do
    let x ← caller d r dpop HTTPError.message
    authorizationCodeGrant d x tc r.code r.redirectURI r.codeVerifier
  | .refreshToken => do
    let x ← caller d r dpop HTTPError.message
    refreshTokenGrant d x tc r.refreshToken
  | .clientCredentials =>
    if hasPrefix r.clientID "sa_" then
      serviceAccountGrant d tc r.clientID (serviceAccountSecret r) r.scope dpop r.mtls
    else do
      let x ← caller d r dpop HTTPError.message
      clientCredentialsGrant d x tc r.scope
  | .deviceCode => do
    let x ← caller d r dpop HTTPError.text
    deviceCodeGrant d x r.deviceCode
  | .ciba => do
    let x ← caller d r dpop HTTPError.text
    cibaGrant d x r.proof r.authReqID

end Clavex

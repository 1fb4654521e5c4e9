import Clavex.Authorize

/-!
# Pushed authorization requests

`PushedAuthorizationRequest` and `Authorize` as programs over Redis and the database: how the
parameters of a request come about, from a pushed request, a request object or the query, and
what is created with them.
-/

namespace Clavex

open Prog

/-- The columns and settings that only these endpoints read; `encKeys` decrypts request
objects and `codeHash` is `ComputeAtHash` of a code. -/
structure PushHandler (K : Type) extends AuthorizeHandler where
  reader : JarReader K
  encKeys : Option (String → Except String String)
  jarClient : OIDCClient → JarClient
  (requirePKCE federation : String → Bool)
  codeHash : String → String

/-! ## Stores and operations -/

inductive Grant where
  | login (sess : LoginSession)
  | code (ac : AuthCode)

def Grant.clientID : Grant → String
  | login sess => sess.clientID
  | code ac => ac.clientID

/-- `par` are the hashes of pushed requests and `parKeys` the keys that have been drawn for
them; `created` is what `Authorize` has created so far. -/
structure AuthzStore extends TokenStore where
  par : String → Cell (GoMap String) := fun _ => .empty
  parKeys : List String := []
  jarJTIs : String → Cell Unit := fun _ => .empty
  created : List Grant := []

/-- What an operation meets: `fetched` is the body behind a `request_uri`, `registered` the row
that `RegisterFederated` returns, and `scopes` the credential scopes. -/
structure AuthzEnv (K : Type) extends Env where
  jar : JarEnv K
  fetched : Except String String := .error "could not fetch request_uri"
  registered : Option OIDCClient := none
  scopes : Option (List String) := none

/-- `fapiClient` is the lookup that decides whether a request has to be pushed. -/
inductive AuthzOp where
  | token (op : TokenOp)
  | hgetall (key : String)
  | del (key : String)
  | storePAR (orgSlug : String) (params : GoMap String)
  | register (clientID : String)
  | fapiClient (clientID : String)
  | parseJAR (client : OIDCClient) (issuer requestJWT : String)
  | fetchRequestURI (client : OIDCClient) (issuer requestURI : String)
  | spendJTI (key : String) (ttl : Int)
  | credentialScopes (orgID : UUID)
  | createCode (ac : AuthCode)
  | saveLogin (sess : LoginSession)

@[reducible] def AuthzOp.Resp : AuthzOp → Type
  | token op => op.Resp
  | hgetall _ => Option (GoMap String)
  | del _ => Unit
  | storePAR .. => Option String
  | register _ | fapiClient _ => Option OIDCClient
  | parseJAR .. | fetchRequestURI .. => Except JarErr (GoMap String)
  | spendJTI .. => Option Bool
  | credentialScopes _ => Option (List String)
  | createCode _ => Option String
  | saveLogin _ => Bool

def parKey (orgSlug token : String) : String := "par:" ++ orgSlug ++ ":" ++ token

def parTTL : Int := 90

section
variable {K : Type} (h : PushHandler K)

def jarDecryptOpts : JarOptions := { decrypter := h.encKeys }

/-- A failed `SET NX` counts as no answer. The key of a pushed request is known to nobody
before the reply, so its `HSET` and `EXPIRE` are one operation, and it is never drawn twice. -/
def authzSem (env : AuthzEnv K) : (op : AuthzOp) → AuthzStore → op.Resp × AuthzStore
  | .token op, s =>
    ((sem h.toOIDCHandler env.toEnv op s.toTokenStore).1,
      { s with toTokenStore := (sem h.toOIDCHandler env.toEnv op s.toTokenStore).2 })
  | .hgetall key, s => (if env.fails then none else some (((s.par key).get s.now).getD ∅), s)
  | .del key, s => ((), if env.fails then s else { s with par := Function.update s.par key .empty })
  | .storePAR orgSlug params, s =>
    if env.fails ∨ parKey orgSlug env.plain ∈ s.parKeys then (none, s)
    else
      (some env.plain,
        { s with
          par := Function.update s.par (parKey orgSlug env.plain) (.set params (some (s.now + parTTL)))
          parKeys := parKey orgSlug env.plain :: s.parKeys })
  | .register _, s =>
    match if env.fails then none else env.registered with
    | none => (none, s)
    | some cl => (some cl, { s with clients := cl :: s.clients.filter (·.clientID != cl.clientID) })
  | .fapiClient clientID, s => (if env.fails then none else s.clients.find? (·.clientID == clientID), s)
  | .parseJAR client issuer requestJWT, s =>
    (parseJAR h.reader env.jar (jarDecryptOpts h) (h.jarClient client) issuer requestJWT, s)
  | .fetchRequestURI client issuer _, s =>
    (match env.fetched with
      | .error err => .error (.core err)
      | .ok body => parseJAR h.reader env.jar (jarDecryptOpts h) (h.jarClient client) issuer (trimSpace body), s)
  | .spendJTI key ttl, s =>
    if env.fails then (none, s)
    else (some (s.setNX s.jarJTIs key ttl).1, { s with jarJTIs := (s.setNX s.jarJTIs key ttl).2 })
  | .credentialScopes _, s => (if env.fails then none else env.scopes, s)
  | .createCode ac, s =>
    if env.fails then (none, s)
    else
      (some env.plain,
        { s with
          toTokenStore := s.insertCode ac (h.hashString env.plain)
          created := .code ac :: s.created })
  | .saveLogin sess, s => if env.fails then (false, s) else (true, { s with created := .login sess :: s.created })

end

/-- `oauth` is a JSON error of the pushing endpoint, `authorize` one that is sent to the client
or shown. -/
inductive AuthzErr where
  | http (status : Nat) (message : String)
  | oauth (code description : String)
  | authorize (e : AuthorizeError)

inductive AuthzReply where
  | pushed (requestURI : String) (expiresIn : Int)
  | code (redirectURI code state : String) (idToken : Option Signed)
  | login (sessID : String)

abbrev AuthzProg := Prog AuthzOp AuthzOp.Resp AuthzErr

abbrev authz (op : AuthzOp) : AuthzProg op.Resp := Prog.call op

abbrev onTokens (op : TokenOp) : AuthzProg op.Resp := Prog.call (AuthzOp.token op)

def asAuthz {ε α : Type} (e : ε → AuthzErr) (p : Prog TokenOp TokenOp.Resp ε α) : AuthzProg α :=
  (p.mapError e).embed .token fun _ r => r

def ClientColumns.requiresPAR (cols : ClientColumns) : Bool :=
  cols.requirePAR || (cols.requestObjectSigningAlg != "" && cols.requestObjectSigningAlg != "none")

/-! ## Pushing -/

structure PushRequest where
  auth : ClientAuth
  form : GoMap String
  dpop : String := ""
  htm : String := "POST"
  htu : String := ""

def formParams (r : PushRequest) (clientID : String) : GoMap String :=
  (r.form.erase "client_secret").insert "client_id" clientID

def withObject (params : GoMap String) (claims : Option (GoMap String)) (clientID : String) : GoMap String :=
  (((claims.map params.assignAll).getD params).insert "client_id" clientID).erase "request"

def withProofKey (params : GoMap String) : Option DPoPKey → GoMap String
  | some key => if param params "dpop_jkt" = "" then params.insert "dpop_jkt" key.jkt else params
  | none => params

section
variable {K : Type} (h : PushHandler K) (r : PushRequest)

def checkObjectClaims (claims : GoMap String) : Except AuthzErr Unit :=
  if (claims.lookup "request").isSome then
    .error (.oauth "invalid_request_object" "request object must not contain a 'request' claim (JAR RFC 9101 §6.2)")
  else if (claims.lookup "request_uri").isSome then
    .error (.oauth "invalid_request_object" "request object must not contain a 'request_uri' claim (JAR RFC 9101 §6.2)")
  else .ok ()

def pushedObject (clientID : String) : AuthzProg (GoMap String) := do
  let params := formParams r clientID
  if param params "request" = "" then return params
  else do
    let client ← onTokens (.clientByID clientID)
    match client with
    -- the request object of a client that cannot be read is dropped
    | none => return withObject params none clientID
    | some client => do
      let jar ← authz (.parseJAR client (issuerFromRequest h.toOIDCHandler r.auth.orgSlug) (param params "request"))
      let claims ← ofExcept (jar.mapError fun err => .oauth "invalid_request_object" err.text)
      ofExcept (checkObjectClaims claims)
      return withObject params (some claims) clientID

def checkPushedResponseType (client : Option OIDCClient) (rt : String) : Except AuthzErr Unit :=
  match client with
  | none => .ok ()
  | some cl =>
    let registered := (h.columns cl.clientID).responseTypes
    if registered ≠ [] ∧ rt ∉ registered then
      .error (.oauth "unsupported_response_type" "response_type is not registered for this client")
    else if rt ∈ ["code", "code id_token", "code token", "code id_token token"] then .ok ()
    else .error (.oauth "unsupported_response_type" "unsupported response_type")

def checkPushedClient (client : Option OIDCClient) (params : GoMap String) : Except AuthzErr Unit :=
  match client with
  | none => .ok ()
  | some cl =>
    let alg := (h.columns cl.clientID).requestObjectSigningAlg
    if alg ≠ "" ∧ alg ≠ "none" ∧ param r.form "request" = "" then
      .error (.oauth "invalid_request"
        "signed request object required at PAR endpoint (FAPI 2.0 §5.3.3 / JAR RFC 9101 §6.3)")
    else if h.requirePKCE cl.clientID ∧ param params "code_challenge" = "" then
      .error (.oauth "invalid_request" "PKCE code_challenge is required (FAPI 2.0 §5.2.2-18 / RFC 7636)")
    else if h.requirePKCE cl.clientID ∧ param params "code_challenge_method" ≠ "S256" then
      .error (.oauth "invalid_request" "code_challenge_method must be S256")
    else .ok ()

def pushedProof (params : GoMap String) : AuthzProg (Option DPoPKey) :=
  if r.dpop = "" then return none
  else do
    let now ← onTokens .now
    let key ← ofExcept ((parseDPoPProof h.proofs now r.dpop r.htm r.htu).mapError fun e =>
      .oauth "invalid_dpop_proof" (h.proofs.errorText e))
    require (¬ (param params "dpop_jkt" ≠ "" ∧ key.any (·.jkt ≠ param params "dpop_jkt")))
      (.oauth "invalid_dpop_proof" "dpop_jkt does not match the JWK thumbprint in the DPoP proof")
    return key

def parURNPrefix : String := "urn:ietf:params:oauth:request-uri:"

def pushedAuthorizationRequest : AuthzProg AuthzReply := do
  let a ← asAuthz (fun e : HTTPError => .oauth "invalid_client" e.message) (authenticateClient h.toOIDCHandler r.auth)
  require (r.form.lookup "request_uri" = none)
    (.oauth "invalid_request" "request_uri is not allowed in a pushed authorization request (RFC 9126 §2.1)")
  let params ← pushedObject h r a.clientID
  require (param params "response_type" ≠ "") (.oauth "invalid_request" "response_type is required")
  let client ← onTokens (.clientByID a.clientID)
  ofExcept (checkPushedResponseType h client (param params "response_type"))
  let client ← onTokens (.clientByID a.clientID)
  ofExcept (checkPushedClient h r client params)
  let key ← pushedProof h r params
  let some token ← authz (.storePAR r.auth.orgSlug (withProofKey params key)) | fail (.http 500 "Internal Server Error")
  return .pushed (parURNPrefix ++ token) parTTL

end

/-! ## The parameters of an authorization request -/

structure AuthorizeQuery where
  orgSlug : String
  params : GoMap String
  ssoCookie : String := ""

structure Resolved where
  params : GoMap String
  (parUsed requestObjectProcessed : Bool := false)

def defaultClientID (params : GoMap String) (clientID : String) : GoMap String :=
  if param params "client_id" = "" ∧ clientID ≠ "" then params.insert "client_id" clientID else params

def authorizeError (orgSlug clientID : String) (params : GoMap String) (description : String) : AuthzErr :=
  .authorize
    { code := "invalid_request"
      description := description
      redirectURI := param params "redirect_uri"
      state := param params "state"
      responseMode := param params "response_mode"
      clientID := clientID
      orgSlug := orgSlug }

def pushedParams (q : AuthorizeQuery) (token : String) : AuthzProg (GoMap String) := do
  let stored ← authz (.hgetall (parKey q.orgSlug token))
  match stored.filter (·.len ≠ 0) with
  | none => fail (.http 400 "invalid_request_uri: PAR request not found or expired")
  | some stored => do
    let queryClientID := param q.params "client_id"
    let params := defaultClientID stored queryClientID
    require (queryClientID = "" ∨ queryClientID = param params "client_id")
      (authorizeError q.orgSlug queryClientID params "request_uri was not issued to this client")
    -- the parameters are used whatever the deletion answers
    let _ ← authz (.del (parKey q.orgSlug token))
    return params

section
variable {K : Type} (h : PushHandler K) (q : AuthorizeQuery) (org : OrgRow)

/-- The row of a client and its columns. Where a federation is configured, an unknown entity is
registered, and the row that is returned is without `require_par`. -/
def lookupClient (clientID : String) : AuthzProg (Option (OIDCClient × ClientColumns)) := do
  let client ← onTokens (.clientByID clientID)
  match client with
  | some cl => return some (cl, h.columns cl.clientID)
  | none =>
    if h.federation q.orgSlug && hasPrefix clientID "https://" then do
      let registered ← authz (.register clientID)
      return registered.map fun cl => (cl, { h.columns cl.clientID with requirePAR := false })
    else return none

def fetchedParams (requestURI : String) : AuthzProg (GoMap String) := do
  let clientID := param q.params "client_id"
  require (clientID ≠ "") (.http 400 "client_id is required when using request_uri")
  let client ← lookupClient h q clientID
  match client with
  | none => fail (.http 400 "unknown client_id")
  | some (cl, _) => do
    let jar ← authz (.fetchRequestURI cl (issuerFromRequest h.toOIDCHandler q.orgSlug) requestURI)
    let claims ← ofExcept (jar.mapError fun err => .http 400 ("invalid request_uri: " ++ err.text))
    return (defaultClientID claims clientID).erase "request_uri"

def requestURIParams : AuthzProg Resolved :=
  let requestURI := param q.params "request_uri"
  if requestURI = "" then return { params := q.params }
  else if hasPrefix requestURI parURNPrefix then do
    let params ← pushedParams q (String.ofList (requestURI.toList.drop parURNPrefix.length))
    return { params := params, parUsed := true, requestObjectProcessed := true }
  else if hasPrefix requestURI "https://" || hasPrefix requestURI "http://" then do
    let params ← fetchedParams h q requestURI
    return { params := params, requestObjectProcessed := true }
  else fail (.http 400 "unsupported request_uri format")

def jarReplayTTL (now : Int) (expStr : String) : Int :=
  match if expStr = "" then none else (h.atoi expStr).filter (fun exp => now < exp) with
  | some exp => exp - now + 60
  | none => 600

def enforceRequestObjectJTIReplay (params : GoMap String) : AuthzProg (GoMap String) :=
  let jti := param params jarJtiKey
  let expStr := param params jarExpKey
  let params := (params.erase jarJtiKey).erase jarExpKey
  if jti = "" ∨ param params jarPolicyErrorKey ≠ "" then return params
  else do
    let now ← onTokens .now
    let key := "oidc:jarjti:" ++ param params "client_id" ++ ":" ++ jti
    let firstUse ← authz (.spendJTI key (jarReplayTTL h now expStr))
    if firstUse = some false then
      return (params.insert jarPolicyErrorKey "invalid_request_object").insert jarPolicyDescKey
        "request object jti has already been used (OpenID Federation 12.1.1.1)"
    else return params

def requestParams (r : Resolved) : AuthzProg Resolved :=
  let requestJWT := param r.params "request"
  let clientID := param r.params "client_id"
  if requestJWT = "" then return r
  else if clientID = "" then return { r with params := r.params.erase "request" }
  else do
    let client ← lookupClient h q clientID
    match client with
    | none => return { r with params := r.params.erase "request" }
    | some (cl, _) => do
      let jar ← authz (.parseJAR cl (issuerFromRequest h.toOIDCHandler q.orgSlug) requestJWT)
      let claims ← ofExcept (jar.mapError fun err => .http 400 ("invalid request object: " ++ err.text))
      let params ← enforceRequestObjectJTIReplay h (defaultClientID claims clientID)
      return { r with params := params.erase "request", requestObjectProcessed := true }

/-- Clients that require it have to push. A client that cannot be read requires nothing. -/
def enforcePAR (r : Resolved) : AuthzProg (GoMap String) :=
  let clientID := param r.params "client_id"
  if clientID = "" then return r.params
  else do
    let client ← authz (.fapiClient clientID)
    if client.any (fun cl => (h.columns cl.clientID).requiresPAR) = true then do
      require (r.parUsed = true)
        (authorizeError q.orgSlug clientID r.params "pushed authorization request (PAR) is required")
      return if r.requestObjectProcessed = false ∧ param r.params "state" ≠ "" then r.params.erase "state" else r.params
    else return r.params

/-! ## What is created -/

def ssoSessionOf : AuthzProg (Option SSOSession) :=
  if q.ssoCookie = "" then return none
  else do
    let sess ← onTokens (.ssoSession q.ssoCookie)
    return sess.filter (·.orgSlug == q.orgSlug)

def ssoTooOld (now : Int) (sess : LoginSession) (sso : SSOSession) : Bool :=
  decide (0 < sess.maxAge ∧ 0 < sso.authTime ∧ sess.maxAge < now - sso.authTime)

def underSSO (sess : LoginSession) (sso : SSOSession) : LoginSession :=
  { sess with orgID := sso.orgID, authTime := sso.authTime }

def silentCode (sess : LoginSession) (sso : SSOSession) : AuthzProg (Option String) := do
  let now ← onTokens .now
  match issueAuthorizationCode (underSSO sess sso) ∅ (some sso.userID) now false with
  | none => return none
  | some ac => authz (.createCode ac)

def hybridIDToken (code nonce clientID : String) (sso : SSOSession) : TokenProg Signed := do
  let tc ← verificationTC h.toOIDCHandler q.orgSlug
  let cl ← stmt (.clientByID clientID)
  let claims : UserClaims :=
    { userID := h.uuidText sso.userID, orgID := "", email := "", authTime := sso.authTime, cHash := h.codeHash code }
  let some tok ← stmt (.issueIDToken tc clientID nonce claims (resolveIDTokenAlg (idTokenAlgOf cl)))
    | fail (.internal "issue id token")
  return tok

def replyCode (params : GoMap String) (sess : LoginSession) (sso : SSOSession) (code : String) : AuthzProg AuthzReply :=
  if strContains (param params "response_type") "id_token" then do
    let tok ← asAuthz (fun _ : TokenErr => .http 503 "Service Unavailable")
      (hybridIDToken h q code sess.nonce sess.clientID sso)
    return .code sess.redirectURI code sess.state (some tok)
  else return .code sess.redirectURI code sess.state none

variable (input : AuthorizeInput)

def promptNone (sess : LoginSession) : AuthzProg AuthzReply := do
  let refuse (code description : String) : AuthzErr := .authorize (redirectedError input (code, description))
  let sso ← ssoSessionOf q
  match sso with
  | none => fail (refuse "login_required" "user authentication required")
  | some sso => do
    let now ← onTokens .now
    require (ssoTooOld now sess sso = false)
      (refuse "login_required" "max_age exceeded — re-authentication required")
    let some code ← silentCode sess sso | fail (refuse "server_error" "failed to issue authorization code")
    replyCode h q input.params sess sso code

def saveLoginSession (sess : LoginSession) : AuthzProg AuthzReply := do
  let n ← onTokens .newUUID
  let saved ← authz (.saveLogin { sess with id := h.uuidString n })
  require (saved = true) (.http 500 "Internal Server Error")
  return .login (h.uuidString n)

def ssoUnlessLogin : AuthzProg (Option SSOSession) :=
  if param input.params "prompt" = "login" then return none else ssoSessionOf q

def promptUser (sess : LoginSession) : AuthzProg AuthzReply := do
  let sso ← ssoUnlessLogin q input
  match sso with
  | none => saveLoginSession h sess
  | some sso => do
    let now ← onTokens .now
    if ssoTooOld now sess sso = true then saveLoginSession h sess
    else do
      let code ← silentCode sess sso
      match code with
      | none => saveLoginSession h sess
      | some code => replyCode h q input.params sess sso code

def namedClient (params : GoMap String) : AuthzProg (Option (OIDCClient × ClientColumns)) :=
  if param params "client_id" = "" then return none else lookupClient h q (param params "client_id")

def authorizeWith (client : Option (OIDCClient × ClientColumns)) :
    Except AuthorizeError LoginSession :=
  Clavex.authorize { h.toAuthorizeHandler with columns := fun id => (client.map (·.2)).getD (h.columns id) } input
    (client.map (·.1)) ""

def authorizeEndpoint : AuthzProg AuthzReply := do
  let some org ← onTokens (.orgBySlug q.orgSlug) | fail (.http 404 "organization not found")
  require (org.isActive = true) (.http 404 "organization not found")
  let r ← requestURIParams h q
  let r ← requestParams h q r
  let params ← enforcePAR h q r
  let scopes ← authz (.credentialScopes org.id)
  let client ← namedClient h q params
  let input : AuthorizeInput :=
    { orgSlug := q.orgSlug
      orgID := org.id
      params := params
      requestObjectProcessed := r.requestObjectProcessed
      credentialScopes := scopes }
  let sess ← ofExcept ((authorizeWith h input client).mapError .authorize)
  if param params "prompt" = "none" then promptNone h q input sess else promptUser h q input sess

end

/-! ## Requests -/

inductive AuthzRequest where
  | push (r : PushRequest)
  | authorize (q : AuthorizeQuery)

def serveAuthz {K : Type} (h : PushHandler K) : AuthzRequest → AuthzProg AuthzReply
  | .push r => pushedAuthorizationRequest h r
  | .authorize q => authorizeEndpoint h q

end Clavex

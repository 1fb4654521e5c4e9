import Clavex.Jar
import Clavex.TokenEndpoint

/-!
# Authorization requests

`ValidateAuthorizeRequest`, and `Authorize` from there to the login session, once the
parameters are known. `BackchannelAuthorize` as a program over the stores.
-/

namespace Clavex

open Prog

structure ClientColumns where
  (redirectURIs responseTypes : List String := [])
  requirePAR : Bool := false
  requestObjectSigningAlg : String := ""
  isPublic : Bool := false

/-- `parseJAR` is `ParseJAR` under the strict option and `readDetails` the JSON of
`authorization_details`. -/
structure AuthorizeHandler extends OIDCHandler where
  columns : String → ClientColumns
  isAllowedRedirectURI : String → List String → Bool
  atoi : String → Option Int
  readDetails : String → Option (List (GoMap Json))
  parseJAR : OIDCClient → String → String → Except JarErr (GoMap String)

/-! ## Parameters -/

def param (params : GoMap String) (k : String) : String := (params.lookup k).getD ""

structure AuthorizeRequest where
  orgSlug : String
  orgID : UUID
  (clientID redirectURI scope state nonce pkceChallenge pkceMethod : String)
  isPublicClient : Bool
  (responseMode responseType prompt loginHint display : String)
  maxAge : Int
  dpopJKT : String

structure AuthorizeError where
  (code description : String)
  (redirectURI state responseMode clientID orgSlug : String := "")

structure AuthorizeInput where
  orgSlug : String
  orgID : UUID
  params : GoMap String
  requestObjectProcessed : Bool := false
  credentialScopes : Option (List String) := none

def normaliseResponseMode : String → String
  | "" => "query"
  | "jwt" => "query.jwt"
  | raw => raw

def withResponseMode (params : GoMap String) : GoMap String :=
  if param params "response_mode" = "" ∧ (strContains (param params "response_type") "id_token" = true ∨
      strContains (param params "response_type") "token" = true) then
    params.insert "response_mode" "fragment"
  else params

/-! ## Validation -/

section
variable (h : AuthorizeHandler) (q : AuthorizeInput)

def authorizeClient (client : Option OIDCClient) : Except AuthorizeError OIDCClient :=
  let refuse (code description : String) : Except AuthorizeError OIDCClient :=
    .error { code := code, description := description }
  if param q.params "client_id" = "" then refuse "invalid_request" "client_id is required"
  else
    match client.filter (·.isActive) with
    | none => refuse "invalid_request" "invalid client_id: unknown or inactive client"
    | some cl =>
      if cl.orgID ≠ q.orgID then refuse "unauthorized_client" "client does not belong to this organization"
      else if h.isAllowedRedirectURI (param q.params "redirect_uri") (h.columns cl.clientID).redirectURIs then .ok cl
      else refuse "invalid_request" "redirect_uri not allowed"

abbrev Redirected := Except (String × String)

def checkRequestObject (cols : ClientColumns) : Redirected Unit :=
  let required := cols.requirePAR ∨ (cols.requestObjectSigningAlg ≠ "" ∧ cols.requestObjectSigningAlg ≠ "none")
  if q.requestObjectProcessed ∧ param q.params "sub" ≠ "" then
    .error ("invalid_request_object", "request object must not contain a sub claim (OpenID Federation 12.1.1.1)")
  else if q.requestObjectProcessed ∧ param q.params jarPolicyErrorKey ≠ "" then
    .error (param q.params jarPolicyErrorKey, param q.params jarPolicyDescKey)
  else if ¬ q.requestObjectProcessed ∧ required then
    .error ("invalid_request",
      "this client requires PAR: authorization request must use a request_uri obtained from the PAR endpoint")
  else .ok ()

def checkResponseType (cols : ClientColumns) (rt : String) : Redirected Unit :=
  if cols.responseTypes ≠ [] ∧ rt ∉ cols.responseTypes then
    .error ("unsupported_response_type", "response_type is not registered for this client")
  else if rt ∈ ["code", "code id_token", "code token", "code id_token token"] then .ok ()
  else .error ("unsupported_response_type", "only response_type=code is supported")

def isCredentialScope (credentialScopes : Option (List String)) (scope : String) : Bool :=
  match credentialScopes with
  | none => false
  | some set => scope ≠ "" && (fields scope).all (· ∈ set)

def keepsScope (client : OIDCClient) : Bool :=
  param q.params "authorization_details" ≠ "" || client.tokenEndpointAuthMethod == .attestation ||
    isCredentialScope q.credentialScopes (param q.params "scope")

def authorizeScope (client : OIDCClient) : Redirected String :=
  let scope := param q.params "scope"
  if scope ≠ "" ∧ strContains scope "openid" = false ∧ keepsScope q client = false then
    .error ("invalid_scope", "scope must include openid")
  else .ok (if keepsScope q client then scope else filterScope scope client.scopes)

def checkPKCEParams (cols : ClientColumns) : Redirected Unit :=
  let challenge := param q.params "code_challenge"
  if cols.isPublic ∧ challenge = "" then
    .error ("invalid_request", "PKCE code_challenge required for public clients")
  else if cols.requestObjectSigningAlg ≠ "" ∧ cols.requestObjectSigningAlg ≠ "none" ∧ challenge = "" then
    .error ("invalid_request", "PKCE code_challenge required")
  else if challenge ≠ "" ∧ param q.params "code_challenge_method" ≠ "S256" then
    .error ("invalid_request", "only code_challenge_method=S256 is supported")
  else .ok ()

def checkResponseMode (params : GoMap String) : Redirected String :=
  let rm := normaliseResponseMode (param params "response_mode")
  if rm ∉ ["query", "query.jwt", "fragment.jwt", "form_post", "fragment"] then
    .error ("invalid_request", "unsupported response_mode: " ++ param params "response_mode")
  else if strContains (param params "response_type") "id_token" = true ∧ param params "nonce" = "" then
    .error ("invalid_request", "nonce is required when response_type includes id_token")
  else .ok rm

def parseMaxAge (s : String) : Int := if s = "" then 0 else ((h.atoi s).filter (0 ≤ ·)).getD 0

def checkAuthorize (client : OIDCClient) : Redirected (String × String) := do
  let cols := h.columns client.clientID
  checkRequestObject q cols
  checkResponseType cols (param q.params "response_type")
  let scope ← authorizeScope q client
  checkPKCEParams q cols
  let rm ← checkResponseMode (withResponseMode q.params)
  return (scope, rm)

def redirectedError (e : String × String) : AuthorizeError :=
  { code := e.1
    description := e.2
    redirectURI := param q.params "redirect_uri"
    state := param q.params "state"
    responseMode := normaliseResponseMode (param (withResponseMode q.params) "response_mode")
    clientID := param q.params "client_id"
    orgSlug := q.orgSlug }

def validateAuthorizeRequest (client : Option OIDCClient) : Except AuthorizeError AuthorizeRequest := do
  let client ← authorizeClient h q client
  let (scope, rm) ← (checkAuthorize h q client).mapError (redirectedError q)
  return {
    orgSlug := q.orgSlug
    orgID := q.orgID
    clientID := param q.params "client_id"
    redirectURI := param q.params "redirect_uri"
    scope := scope
    state := param q.params "state"
    nonce := param q.params "nonce"
    pkceChallenge := param q.params "code_challenge"
    pkceMethod := param q.params "code_challenge_method"
    isPublicClient := (h.columns client.clientID).isPublic
    responseMode := rm
    responseType := param q.params "response_type"
    prompt := param q.params "prompt"
    loginHint := param q.params "login_hint"
    display := param q.params "display"
    maxAge := parseMaxAge h (param q.params "max_age")
    dpopJKT := param q.params "dpop_jkt" }

def checkDetails : Redirected (List (GoMap Json)) :=
  let raw := param q.params "authorization_details"
  if raw = "" then .ok []
  else
    match h.readDetails raw with
    | none => .error ("invalid_authorization_details", "authorization_details must be a valid JSON array")
    | some details =>
      if details.all fun d => ((d.lookup "type").bind Json.asString).any (· ≠ "") then .ok details
      else
        .error ("invalid_authorization_details",
          "each authorization_details object must have a non-empty string \"type\" field")

def authorize (client : Option OIDCClient) (sessID : String) : Except AuthorizeError LoginSession := do
  let req ← validateAuthorizeRequest h q client
  let details ← (checkDetails h q).mapError (redirectedError q)
  return {
    id := sessID
    orgSlug := q.orgSlug
    orgID := q.orgID
    clientID := req.clientID
    redirectURI := req.redirectURI
    scope := req.scope
    state := req.state
    nonce := req.nonce
    pkceChallenge := req.pkceChallenge
    pkceMethod := req.pkceMethod
    maxAge := req.maxAge
    authorizationDetails := details
    acrValues := param q.params "acr_values"
    claimsParam := param q.params "claims"
    dpopJKT := req.dpopJKT }

end

/-! ## Backchannel requests -/

def cibaGrantType : String := "urn:openid:params:grant-type:ciba"

/-- The form, the request object, and what the hints lead to: the user with the e-mail
address `login_hint`, and the subject of an `id_token_hint` that this server has issued. -/
structure BackchannelRequest where
  auth : ClientAuth
  form : GoMap String := ∅
  request : String := ""
  hintedUser : Option User := none
  hintedSubject : Option (Option UUID) := none

structure BackchannelReply where
  authReqID : String
  (expiresIn interval : Int)

def JarErr.text : JarErr → String
  | core text | fapi text => "invalid_request_object: " ++ text

def backchannelKeys : List String :=
  ["scope", "login_hint", "id_token_hint", "binding_message", "requested_expiry", "client_notification_token",
    "acr_values", "dcql_query"]

def isFAPIAuth (client : OIDCClient) : Bool :=
  client.tokenEndpointAuthMethod == .privateKeyJWT || client.tokenEndpointAuthMethod == .tlsClientAuth

section
variable (h : AuthorizeHandler) (q : BackchannelRequest)

def backchannelParams (client : OIDCClient) : Except TokenErr (GoMap String) :=
  let form : GoMap String := GoMap.ofMembers
    ((backchannelKeys.map fun k => (k, param q.form k)).filter fun kv => kv.2 ≠ "")
  if q.request = "" then
    if isFAPIAuth client then .error (.oauth "invalid_request" "FAPI-CIBA requires a signed request object")
    else .ok form
  else
    match h.parseJAR client (issuerFromRequest h.toOIDCHandler q.auth.orgSlug) q.request with
    | .error err => .error (.oauth "invalid_request" err.text)
    | .ok claims => .ok (form.assignAll claims)

def backchannelScope (client : OIDCClient) (params : GoMap String) : Except TokenErr String :=
  let scope := param params "scope"
  if scope = "" then .error (.oauth "invalid_request" "scope is required")
  else if strContains scope "openid" then .ok (filterScope scope client.scopes)
  else .error (.oauth "invalid_request" "scope must include openid")

def checkBindingMessage (client : OIDCClient) (bindingMessage : String) : Except TokenErr Unit :=
  if bindingMessage = "" ∧ isFAPIAuth client then
    .error (.oauth "invalid_request" "binding_message is required for FAPI2 CIBA")
  else if 128 < byteLen bindingMessage then
    .error (.oauth "invalid_binding_message" "binding_message exceeds maximum length")
  else .ok ()

def resolveHints (params : GoMap String) : TokenProg (Option UUID) :=
  let named := if param params "login_hint" = "" then none else (q.hintedUser.filter (·.isActive)).map (·.id)
  if param params "id_token_hint" ≠ "" ∧ named = none then do
    let _ ← verificationTC h.toOIDCHandler q.auth.orgSlug
    match q.hintedSubject with
    | none => fail (.oauth "invalid_request" "id_token_hint is invalid or not issued by this server")
    | some subject => return subject
  else return named

def parseIntParam (s : String) : Option Int :=
  if s.toList.all fun c => '0' ≤ c && c ≤ '9' then
    some ((s.toList.foldl (fun (n : BitVec 64) c => n * 10 + BitVec.ofNat 64 (c.toNat - '0'.toNat)) 0).toInt)
  else none

def backchannelExpiry (params : GoMap String) : Int :=
  let re := param params "requested_expiry"
  if re = "" then 120 else ((parseIntParam re).filter fun secs => 0 < secs ∧ secs ≤ 600).getD 120

def backchannelAuthorize : TokenProg BackchannelReply := do
  let a ← (authenticateClient h.toOIDCHandler q.auth).mapError fun e => .oauth "invalid_client" e.text
  let some client ← stmt (.clientByID a.clientID) | fail (.oauth "invalid_client" "client not found")
  require (client.isActive = true) (.oauth "invalid_client" "client not found")
  require (cibaGrantType ∈ client.grantTypes) (.oauth "unauthorized_client" "client not registered for CIBA grant")
  let params ← ofExcept (backchannelParams h q client)
  let scope ← ofExcept (backchannelScope client params)
  ofExcept (checkBindingMessage client (param params "binding_message"))
  require (param params "login_hint" ≠ "" ∨ param params "id_token_hint" ≠ "")
    (.oauth "invalid_request" "login_hint or id_token_hint is required")
  let some org ← stmt (.orgBySlug q.auth.orgSlug) | fail (.oauth "invalid_request" "org not found")
  let userID ← resolveHints h q params
  let some authReqID ← stmt .randomToken | fail (.internal "create request")
  let now ← stmt .now
  let stored ← stmt (.insertCIBA
    { authReqID := authReqID
      orgID := org.id
      clientID := a.clientID
      userID := userID
      scope := scope
      expiresAt := now + backchannelExpiry params })
  require (stored = true) (.internal "create request")
  return { authReqID := authReqID, expiresIn := backchannelExpiry params, interval := 5 }

end

end Clavex

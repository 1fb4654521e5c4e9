import Clavex.TokenEndpoint

/-!
# The device grant

`DeviceAuthorization`, `DeviceUserSubmit` and `DeviceConsentSubmit` as programs, and the
system in which they and the polls of `deviceCodeGrant` are made one after the other,
under any organisation's URL.
-/

namespace Clavex

open Prog

/-! ## Handlers -/

structure DeviceAuthorizationResponse where
  (deviceCode userCode verificationURI verificationURIComplete : String)
  (expiresIn interval : Int)

inductive DeviceReply where
  | started (r : DeviceAuthorizationResponse)
  | entry (orgName prefilledCode error : String)
  | consent (error : String)
  | redirect (url : String)
  | done (orgName : String) (allowed : Bool)
  | tokens (ts : TokenSet)

def deviceGrantType : String := "urn:ietf:params:oauth:grant-type:device_code"

variable (d : OIDCHandler)

def createDevice (orgID : UUID) (clientID scope : String) (ttl : Int) :
    TokenProg (DeviceCode × String) := do
  let some rawDevice ← stmt .randomToken | fail (.internal "generate device code")
  let some userCode ← stmt .randomToken | fail (.internal "generate user code")
  let some dc ← stmt (.insertDevice orgID clientID (d.hashString rawDevice) userCode scope ttl)
    | fail (.internal "store device code")
  return (dc, rawDevice)

def deviceScope (scope : String) : String := if trimSpace scope = "" then "openid" else trimSpace scope

/-- The code is stored for the organisation in the URL, whichever the client belongs to. -/
def deviceAuthorization (r : ClientAuth) (scope : String) : TokenProg DeviceReply := do
  let a ← (authenticateClient d r).mapError fun e => .oauth "invalid_client" e.text
  let some client ← stmt (.clientByID a.clientID) | fail (.oauth "invalid_client" "client not found")
  require (deviceGrantType ∈ client.grantTypes)
    (.oauth "unauthorized_client" "client not authorised for device_code grant")
  let some org ← stmt (.orgBySlug r.orgSlug) | fail (.oauth "invalid_request" "org not found")
  let (dc, rawDevice) ← createDevice d org.id a.clientID (deviceScope scope) 600
  let now ← stmt .now
  let verificationURI := issuerFromRequest d r.orgSlug ++ "/device"
  return .started {
    deviceCode := rawDevice
    userCode := dc.userCode
    verificationURI := verificationURI
    verificationURIComplete := verificationURI ++ "?user_code=" ++ dc.userCode
    expiresIn := dc.expiresAt - now
    interval := dc.pollInterval }

def orgNameOf (org : Option OrgRow) : String := (org.map (·.name)).getD ""

def renderEntry (orgSlug userCode error : String) : TokenProg DeviceReply := do
  let org ← stmt (.orgBySlug orgSlug)
  return .entry (orgNameOf org) userCode error

def sessionAt (orgSlug : String) : Option String → TokenProg (Option SSOSession)
  | none => return none
  | some cookie => do
    let sess ← stmt (.ssoSession cookie)
    return sess.filter (·.orgSlug == orgSlug)

def deviceURL (orgSlug page : String) (dcID : Nat) : String :=
  issuerFromRequest d orgSlug ++ "/device/" ++ page ++ "?dc_id=" ++ d.uuidString dcID

def deviceUserSubmit (orgSlug : String) (cookie : Option String) (userCode : String) :
    TokenProg DeviceReply :=
  let code := toUpper (trimSpace userCode)
  if code = "" then renderEntry orgSlug code "Please enter the code displayed on your device."
  else do
    let some dc ← stmt (.deviceByUserCode code)
      | renderEntry orgSlug code "Code not found. Please check the code and try again."
    let now ← stmt .now
    if dc.expiresAt < now then
      renderEntry orgSlug code "Code has expired. Please restart the activation on your device."
    else if dc.isAuthorized.isSome then renderEntry orgSlug code "This code has already been used."
    else do
      let sess ← sessionAt orgSlug cookie
      return .redirect (deviceURL d orgSlug (if sess.isSome then "consent" else "login") dc.id)

/-- `dcID` is empty if the form's value is not a UUID. -/
structure ConsentRequest where
  orgSlug : String
  cookie : Option String
  dcID : Option Nat
  action : String

def decideDevice (dcID : Nat) (userID : UUID) (orgName action : String) : TokenProg DeviceReply :=
  if action = "allow" then do
    let stored ← stmt (.authorizeDevice dcID userID)
    if stored = true then return .done orgName true
    else return .consent "An error occurred. Please try again."
  else do
    let _ ← stmt (.denyDevice dcID)
    return .done orgName false

/-- The organisation of the code is compared neither with the URL nor with the session. -/
def deviceConsentSubmit (r : ConsentRequest) : TokenProg DeviceReply :=
  match r.dcID with
  | none => return .consent "Invalid session. Please start over on your device."
  | some dcID => do
    let some dc ← stmt (.deviceByID dcID)
      | return .consent "Activation code expired. Please restart the process on your device."
    let now ← stmt .now
    if dc.expiresAt < now then
      return .consent "Activation code expired. Please restart the process on your device."
    else if dc.isAuthorized.isSome then return .consent "This code has already been used."
    else do
      let some sess ← sessionAt r.orgSlug r.cookie | return .redirect (deviceURL d r.orgSlug "login" dcID)
      let org ← stmt (.orgBySlug r.orgSlug)
      decideDevice dcID sess.userID (orgNameOf org) r.action

/-! ## Sequences of requests -/

inductive DeviceRequest where
  | authorization (auth : ClientAuth) (scope : String)
  | userSubmit (orgSlug : String) (cookie : Option String) (userCode : String)
  | consent (r : ConsentRequest)
  | poll (caller : Caller) (deviceCode : String)

def serveDevice : DeviceRequest → TokenProg DeviceReply
  | .authorization auth scope => deviceAuthorization d auth scope
  | .userSubmit orgSlug cookie userCode => deviceUserSubmit d orgSlug cookie userCode
  | .consent r => deviceConsentSubmit d r
  | .poll x deviceCode => do
    let ts ← deviceCodeGrant d x deviceCode
    return .tokens ts

structure DeviceEntry where
  request : DeviceRequest
  before : TokenStore
  reply : Except TokenErr DeviceReply

structure DeviceWorld where
  store : TokenStore
  log : List DeviceEntry := []

inductive DeviceMove where
  | request (q : DeviceRequest) (ω : Nat → Env)
  | signIn (id orgSlug : String) (userID : UUID)
  | tick (seconds : Nat)
  | settings (clients : List OIDCClient) (users : List User)

def ssoSessionTTL : Int := 43200

def signInDevice (id orgSlug : String) (userID : UUID) (s : TokenStore) : TokenStore :=
  match s.orgs.find? (·.slug == orgSlug), s.users.find? (·.id == userID) with
  | some org, some user =>
    if user.orgID = org.id then
      { s with
        sso := Function.update s.sso id
          (.set { userID := userID, orgID := org.id, orgSlug := orgSlug, authTime := s.now } (some (s.now + ssoSessionTTL))) }
    else s
  | _, _ => s

def deviceStep (w : DeviceWorld) : DeviceMove → DeviceWorld
  | .request q ω =>
    { store := (execAlone d ω (serveDevice d q) w.store).2
      log := ⟨q, w.store, (execAlone d ω (serveDevice d q) w.store).1⟩ :: w.log }
  | .signIn id orgSlug userID => { w with store := signInDevice id orgSlug userID w.store }
  | .tick n => { w with store := { w.store with now := w.store.now + n } }
  | .settings clients users => { w with store := { w.store with clients := clients, users := users } }

end Clavex

import Clavex.FlowEngine

/-!
# Login sessions and what a login step can do

The state of one login: the Redis entry of its `login_session_id`, the tables
the handlers read, and a log of what has happened on the session (newest
first). Every path through a login handler ends in one `Effect`; `perform`
carries it out under the failures of the stores.
-/

namespace Clavex

structure LoginSession where
  (id orgSlug : String)
  orgID : UUID
  clientID : String
  (redirectURI scope state nonce pkceChallenge pkceMethod : String := "")
  (maxAge authTime : Int := 0)
  userID : Option UUID := none
  (mfaPending forceMFA breachWarningAcknowledged : Bool := false)
  authorizationDetails : List (GoMap Json) := []
  (acrValues claimsParam : String := "")
  emailOTPPending : Bool := false
  emailOTPAddress : String := ""
  phoneOTPPending : Bool := false
  phoneOTPPhone : String := ""
  extraClaims : GoMap Json := ∅
  requiredSPIDLevel : Int := 0
  requiredCIEUpgrade : Bool := false
  dpopJKT : String := ""
  oid4vpPending : Bool := false
  (oid4vpRequestID oid4vpMessage : String := "")

structure AuthCode where
  orgID : UUID
  clientID : String
  userID : UUID
  (redirectURI scope nonce pkceChallenge pkceMethod : String)
  (authTime expiresAt : Int)
  authorizationDetails : List (GoMap Json)
  (acr claimsParam : String)
  extraClaims : GoMap Json
  dpopJKT : String

def resolveACR (acrValues : String) : String := if isBlank acrValues then "" else "0"

def issueAuthorizationCode (s : LoginSession) (claims : GoMap Json) (userID : Option UUID) (now : Int)
    (fails : Bool) : Option AuthCode :=
  if fails then none
  else userID.map fun u =>
    { orgID := s.orgID
      clientID := s.clientID
      userID := u
      redirectURI := s.redirectURI
      scope := s.scope
      nonce := s.nonce
      pkceChallenge := s.pkceChallenge
      pkceMethod := s.pkceMethod
      authTime := s.authTime
      expiresAt := now + 60
      authorizationDetails := s.authorizationDetails
      acr := resolveACR s.acrValues
      claimsParam := s.claimsParam
      extraClaims := claims
      dpopJKT := s.dpopJKT }

/-! ## Tables -/

inductive PresentationStatus where
  | pending
  | verified
  | failed
  | expired
  deriving DecidableEq

structure PresentationSession where
  requestID : String
  status : PresentationStatus := .pending
  vpClaims : GoMap Json := ∅

structure OTPRow where
  orgID : UUID
  (address codeHash loginSessionID : String)
  expiresAt : Int
  usedAt : Option Int := none

inductive SaveSite where
  | breach
  | mfaEnforced
  | requiredAction
  | flowSPID
  | flowCIE
  | flowStepUp
  | flowForceMFA
  | flowOID4VP
  | breachAcknowledged
  | otpSent
  | otpVerified
  | passkey
  deriving DecidableEq

inductive Issuer where
  | submit
  | mfaChallenge
  | resume
  | oid4vpResume

inductive Event where
  | flowRun (user : UUID) (fr : FlowResult)
  | mfaAccepted (user : UUID)
  | saved (site : SaveSite) (s : LoginSession)
  | issued (via : Issuer) (code : AuthCode)

def Event.isMFAAccepted : Event → Bool
  | .mfaAccepted _ => true
  | _ => false

def Event.isFlowRun : Event → Bool
  | .flowRun .. => true
  | _ => false

structure World where
  session : Option LoginSession
  users : List User
  orgs : List Organization
  phones : List (UUID × String) := []
  presentations : List PresentationSession := []
  (emailOTPs phoneOTPs : List OTPRow := [])
  log : List Event := []

namespace World

variable (w : World)

def orgBySlug (slug : String) : Option Organization := w.orgs.find? (·.slug == slug)

def userByEmail (orgID : UUID) (email : String) : Option User :=
  w.users.find? fun u => u.orgID == orgID && u.email == email

def userByID (id : UUID) : Option User := w.users.find? (·.id == id)

def userByPhone (orgID : UUID) (phone : String) : Option User :=
  w.users.find? fun u => u.orgID == orgID && w.phones.contains (u.id, phone)

def presentation (requestID : String) : Option PresentationSession :=
  w.presentations.find? (·.requestID == requestID)

def record (e : Event) : World := { w with log := e :: w.log }

end World

/-! ## Effects -/

inductive Response where
  | httpError (status : Nat) (msg : String)
  | page (msg : String)
  | mfaChallenge (msg : String)
  | redirect (url : String)
  | json (userID : UUID) (resumeURL : Option String)
  | clientError (code : String)
  | code (c : AuthCode)

/-- What a handler does last. `onFail` answers a failed save or insert. -/
inductive Effect where
  | refuse (r : Response)
  | save (site : SaveSite) (s : LoginSession) (r onFail : Response)
  | drop (r : Response)
  | issue (via : Issuer) (s : LoginSession) (claims : GoMap Json) (userID : Option UUID) (onFail : Response)

structure Outcome where
  world : World
  effect : Effect

structure Faults where
  now : Int := 0
  (getFails saveFails deleteFails issueFails : Bool := false)

def perform (f : Faults) (o : Outcome) : World × Response :=
  match o.effect with
  | .refuse r => (o.world, r)
  | .save site s r onFail =>
    if f.saveFails then (o.world, onFail)
    else ({ o.world with session := some s, log := .saved site s :: o.world.log }, r)
  | .drop r => (if f.deleteFails then o.world else { o.world with session := none }, r)
  | .issue via s claims userID onFail =>
    match issueAuthorizationCode s claims userID f.now f.issueFails with
    | none => (o.world, onFail)
    | some c =>
      ({ o.world with
          session := if f.deleteFails then o.world.session else none
          log := .issued via c :: o.world.log }, .code c)

abbrev Handler := Except Outcome

def Handler.finish : Handler Outcome → Outcome
  | .ok o | .error o => o

end Clavex

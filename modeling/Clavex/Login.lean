import Clavex.Session
import Clavex.Trace

/-!
# The login handlers

One definition per handler that reads or writes a login session on the way to
an authorization code. What a request is answered by services outside the
session's own state (IP rules, CAPTCHA, lockout, breach list, policy engine,
device trust, second-factor store) is part of the request.
-/

namespace Clavex

inductive IPRule where
  | none
  | allow
  | deny
  deriving DecidableEq

inductive PolicyAction where
  | allow
  | deny
  | requireMFA
  | stepUp
  deriving DecidableEq

def PolicyAction.isMFARequired (a : PolicyAction) : Bool := a == .requireMFA || a == .stepUp

inductive BreachAction where
  | off
  | block
  | forceReset
  | warn

/-- The parts of the handler that do not change while it runs: password and TOTP
comparison, the digest of one-time codes, and the optional components. -/
structure Deps where
  checkPassword : String → String → Bool
  totpValidate : Int → String → String → Bool
  hashOTP : String → String
  flowEngine : Option Engine
  oid4vp : Bool

def errorText : String := "An error occurred. Please try again."

def refuse (w : World) (r : Response) {α : Type} : Handler α := throw ⟨w, .refuse r⟩

variable (w : World)

def loadSession (f : Faults) (msg : String) : Handler LoginSession :=
  match w.session with
  | some s => if f.getFails then refuse w (.httpError 400 msg) else pure s
  | none => refuse w (.httpError 400 msg)

/-! ## AuthorizeSubmit -/

structure SubmitReq extends Faults where
  (email password : String)
  ipAddress : String := ""
  orgFails : Bool := false
  ipRule : IPRule := .none
  (captchaFails usersFail : Bool := false)
  locked : Option String := none
  breachedPasswordAction : BreachAction := .off
  breachCount : Option Nat := none
  policy : Option PolicyAction := none
  mfaCount : Option Nat := some 0
  trusted : Bool := false
  flow : Option (List (StepEnv × LoginFlowStep)) := none
  vpRequestID : Option String := none

def authenticate (d : Deps) (w : World) (q : SubmitReq) (s : LoginSession) : Handler User := do
  if q.ipRule = .deny then refuse w (.page "Access denied.")
  if q.captchaFails then refuse w (.page "Please complete the CAPTCHA challenge.")
  match if q.usersFail then none else w.userByEmail s.orgID q.email with
  | none => refuse w (.page "Invalid email or password.")
  | some user =>
    if !user.isActive then refuse w (.page "Invalid email or password.")
    match q.locked with
    | some remaining => refuse w (.page ("Too many failed attempts. Please try again in " ++ remaining ++ "."))
    | none =>
      match user.passwordHash with
      | none => refuse w (.page "Invalid email or password.")
      | some hash =>
        if d.checkPassword hash q.password then pure user else refuse w (.page "Invalid email or password.")

def breachCheck (q : SubmitReq) (s : LoginSession) (user : User) : Handler Unit :=
  if s.breachWarningAcknowledged then pure ()
  else
    match q.breachCount with
    | none => pure ()
    | some count =>
      match q.breachedPasswordAction with
      | .off => pure ()
      | .block =>
        refuse w (.page ("This password has appeared in " ++ toString count ++
          " known data breach(es). Please choose a different password to sign in."))
      | .forceReset =>
        throw ⟨w, .save .breach { s with userID := some user.id }
          (.redirect ("/" ++ s.orgSlug ++ "/update-password?login_session_id=" ++ s.id)) (.page errorText)⟩
      | .warn =>
        throw ⟨w, .save .breach { s with userID := some user.id }
          (.redirect ("/" ++ s.orgSlug ++ "/breach-warning?login_session_id=" ++ s.id ++
            "&count=" ++ toString count)) (.page errorText)⟩

def policyCheck (q : SubmitReq) (s : LoginSession) : Handler LoginSession :=
  if q.ipRule = .allow then pure s
  else
    match q.policy with
    | none => pure s
    | some action =>
      if action = .deny then refuse w (.page "Access denied by security policy.")
      else if action.isMFARequired then pure { s with forceMFA := true }
      else pure s

def mfaRequired (org : Option Organization) (user : User) (s : LoginSession) : Bool :=
  org.any (·.mfaRequired) || user.mfaRequired || s.forceMFA

def enforceMFA (q : SubmitReq) (s : LoginSession) (org : Option Organization) (user : User) :
    Handler Unit :=
  if mfaRequired org user s then
    match q.mfaCount with
    | none => refuse w (.page errorText)
    | some confirmed =>
      if confirmed = 0 then
        refuse w (.page ("Two-factor authentication is required for this account but has not been enrolled. " ++
          "Please contact your administrator."))
      else if q.trusted then pure ()
      else
        throw ⟨w, .save .mfaEnforced { s with userID := some user.id, mfaPending := true }
          (.mfaChallenge "") (.page errorText)⟩
  else pure ()

def requiredActions (w : World) (s : LoginSession) (user : User) : List String → Handler Unit
  | [] => pure ()
  | action :: rest =>
    if action = "VERIFY_EMAIL" ∧ !user.isEmailVerified then refuse w (.page "Check your email.")
    else if action = "UPDATE_PASSWORD" then
      throw ⟨w, .save .requiredAction { s with userID := some user.id }
        (.redirect ("/" ++ s.orgSlug ++ "/update-password?login_session_id=" ++ s.id)) (.page errorText)⟩
    else if action = "ENROLL_PASSKEY" then
      throw ⟨w, .save .requiredAction { s with userID := some user.id }
        (.redirect ("/" ++ s.orgSlug ++ "/enroll-passkey?login_session_id=" ++ s.id)) (.page errorText)⟩
    else requiredActions w s user rest

def stepUpDest (url sessID : String) : String :=
  if url.toList.contains '?' then url ++ "&login_session_id=" ++ sessID else url ++ "?login_session_id=" ++ sessID

def withClaims (s : LoginSession) (fr : FlowResult) : LoginSession :=
  if 0 < fr.extraClaims.len then { s with extraClaims := fr.extraClaims } else s

def userContext (q : SubmitReq) (s : LoginSession) (user : User) : UserContext :=
  { user := user, orgSlug := s.orgSlug, clientID := s.clientID, ipAddress := q.ipAddress, authTime := s.authTime }

def applyFlow (d : Deps) (w : World) (q : SubmitReq) (s : LoginSession) (user : User) (fr : FlowResult) :
    Handler LoginSession :=
  if 0 < fr.upgradeSPIDLevel then
    throw ⟨w, .save .flowSPID { s with userID := some user.id, requiredSPIDLevel := fr.upgradeSPIDLevel }
      (.redirect ("/" ++ s.orgSlug ++ "/spid/upgrade?login_session_id=" ++ s.id)) (.page errorText)⟩
  else if fr.upgradeCIE then
    throw ⟨w, .save .flowCIE { s with userID := some user.id, requiredCIEUpgrade := true }
      (.redirect ("/" ++ s.orgSlug ++ "/cie/upgrade?login_session_id=" ++ s.id)) (.page errorText)⟩
  else if fr.forceReauth then throw ⟨w, .drop (.clientError "login_required")⟩
  else if fr.deny then
    if fr.stepUpURL ≠ "" then
      throw ⟨w, .save .flowStepUp { s with userID := some user.id }
        (.redirect (stepUpDest fr.stepUpURL s.id)) (.page errorText)⟩
    else refuse w (.page fr.denyReason)
  else if fr.forceMFA && !s.forceMFA then
    throw ⟨w, .save .flowForceMFA { s with forceMFA := true, userID := some user.id, mfaPending := true }
      (.mfaChallenge "") (.page errorText)⟩
  else
    match fr.oid4vpChallenge with
    | none => pure (withClaims s fr)
    | some ch =>
      if d.oid4vp then
        match q.vpRequestID with
        | none => refuse w (.page errorText)
        | some rid =>
          -- the request id column is unique, so a used id fails the insert
          if (w.presentation rid).isSome then refuse w (.page errorText)
          else
            throw ⟨{ w with presentations := ⟨rid, .pending, ∅⟩ :: w.presentations },
              .save .flowOID4VP
                { withClaims s fr with
                  userID := some user.id
                  oid4vpPending := true
                  oid4vpRequestID := rid
                  oid4vpMessage := ch.message }
                (.redirect ("/" ++ s.orgSlug ++ "/authorize/oid4vp-challenge?login_session_id=" ++ s.id ++
                  "&request_id=" ++ rid)) (.page errorText)⟩
      else pure (withClaims s fr)

def authorizeSubmit (d : Deps) (w : World) (q : SubmitReq) : Outcome := Handler.finish do
  let s ← loadSession w q.toFaults "login session expired — please try again"
  let org := if q.orgFails then none else w.orgBySlug s.orgSlug
  let user ← authenticate d w q s
  let s := { s with authTime := q.now }
  breachCheck w q s user
  let s ← policyCheck w q s
  enforceMFA w q s org user
  requiredActions w s user user.requiredActions
  match d.flowEngine with
  | none => pure ⟨w, .issue .submit s s.extraClaims (some user.id) (.page errorText)⟩
  | some eng =>
    let fr := eng.run q.flow (userContext q s user)
    let w := w.record (.flowRun user.id fr)
    let s ← applyFlow d w q s user fr
    pure ⟨w, .issue .submit s s.extraClaims (some user.id) (.page errorText)⟩

/-! ## MFAChallengeSubmit -/

structure MFACredential where
  type : String
  data : Option (Bool × String)

def totpMatches (validate : String → String → Bool) (creds : List MFACredential) (code : String) : Bool :=
  creds.any fun cr =>
    cr.type == "totp" &&
      match cr.data with
      | some (true, secret) => validate code secret
      | _ => false

structure MFAReq extends Faults where
  totpCode : String
  locked : Option String := none
  creds : Option (List MFACredential) := some []
  (backupOK usersFail : Bool := false)

def maxAgeExceeded (s : LoginSession) (now : Int) : Bool :=
  decide (0 < s.maxAge) && decide (0 < s.authTime) && decide (s.maxAge < now - s.authTime)

def mfaChallengeSubmit (d : Deps) (w : World) (q : MFAReq) : Outcome := Handler.finish do
  let s ← loadSession w q.toFaults "MFA session expired — please sign in again"
  if !s.mfaPending then refuse w (.httpError 400 "MFA session expired — please sign in again")
  match s.userID with
  | none => refuse w (.mfaChallenge "Invalid session. Please sign in again.")
  | some userID =>
    match q.locked with
    | some remaining => refuse w (.mfaChallenge ("Too many incorrect codes. Try again in " ++ remaining ++ "."))
    | none =>
      match q.creds with
      | none => refuse w (.mfaChallenge errorText)
      | some creds =>
        let verified := totpMatches (d.totpValidate q.now) creds q.totpCode
        if verified || (q.totpCode != "" && q.backupOK) then
          let w := w.record (.mfaAccepted userID)
          match if q.usersFail then none else w.userByID userID with
          | none => refuse w (.mfaChallenge errorText)
          | some user =>
            if maxAgeExceeded s q.now then throw ⟨w, .drop (.clientError "login_required")⟩
            -- the claims collected by the flow are not passed on
            pure ⟨w, .issue .mfaChallenge s ∅ (some user.id) (.mfaChallenge errorText)⟩
        else refuse w (.mfaChallenge "Invalid authenticator code. Please try again.")

/-! ## Resuming -/

structure AckReq extends Faults where
  orgSlug : String

def breachWarningAcknowledge (q : AckReq) : Outcome := Handler.finish do
  let s ← loadSession w q.toFaults "session expired — please sign in again"
  pure ⟨w, .save .breachAcknowledged { s with breachWarningAcknowledged := true }
    (.redirect ("/" ++ q.orgSlug ++ "/authorize/resume?login_session_id=" ++ s.id))
    (.httpError 500 "Internal Server Error")⟩

def authorizeResume (f : Faults) : Outcome := Handler.finish do
  let s ← loadSession w f "login session expired — please start over"
  if s.userID.isNone then refuse w (.httpError 400 "authentication not completed")
  if s.mfaPending then refuse w (.mfaChallenge "")
  if maxAgeExceeded s f.now then throw ⟨w, .drop (.clientError "login_required")⟩
  pure ⟨w, .issue .resume s s.extraClaims s.userID (.httpError 500 "Internal Server Error")⟩

structure VPResumeReq extends Faults where
  lookupFails : Bool := false

def withPresentation (claims vpClaims : GoMap Json) : GoMap Json :=
  (claims.assignAll vpClaims).insert "acr_oid4vp" (.str "verified")

def oid4vpResume (d : Deps) (w : World) (q : VPResumeReq) : Outcome := Handler.finish do
  let s ← loadSession w q.toFaults "session expired — please sign in again"
  if !s.oid4vpPending || s.oid4vpRequestID == "" then
    refuse w (.httpError 400 "no OID4VP challenge in progress")
  if !d.oid4vp then refuse w (.httpError 500 "Internal Server Error")
  match if q.lookupFails then none else w.presentation s.oid4vpRequestID with
  | none => refuse w (.httpError 400 "presentation session not found — please try again")
  | some vp =>
    if vp.status ≠ .verified then
      refuse w (.httpError 400 "credential not yet verified — please wait for the wallet to complete")
    pure ⟨w, .issue .oid4vpResume s (withPresentation s.extraClaims vp.vpClaims) s.userID
      (.httpError 500 "Internal Server Error")⟩

/-! ## One-time codes by email and SMS -/

inductive OTPChannel where
  | email
  | phone

namespace OTPChannel

def pending : OTPChannel → LoginSession → Bool
  | .email, s => s.emailOTPPending
  | .phone, s => s.phoneOTPPending

def markSent : OTPChannel → LoginSession → String → LoginSession
  | .email, s, a => { s with emailOTPPending := true, emailOTPAddress := a }
  | .phone, s, a => { s with phoneOTPPending := true, phoneOTPPhone := a }

def markVerified : OTPChannel → LoginSession → UUID → LoginSession
  | .email, s, u => { s with userID := some u, emailOTPPending := false, emailOTPAddress := "" }
  | .phone, s, u => { s with userID := some u, phoneOTPPending := false, phoneOTPPhone := "" }

def rows : OTPChannel → World → List OTPRow
  | .email, w => w.emailOTPs
  | .phone, w => w.phoneOTPs

def setRows : OTPChannel → World → List OTPRow → World
  | .email, w, rs => { w with emailOTPs := rs }
  | .phone, w, rs => { w with phoneOTPs := rs }

def address : OTPChannel → LoginSession → String → String
  | .email, _, form => form
  | .phone, s, _ => s.phoneOTPPhone

def user : OTPChannel → World → UUID → String → Option User
  | .email, w, org, a => w.userByEmail org a
  | .phone, w, org, a => w.userByPhone org a

def emptyText : OTPChannel → String
  | .email => "Please enter your email address."
  | .phone => "Please enter your phone number."

def codeText : OTPChannel → String
  | .email => "Please enter the 6-digit code from your email."
  | .phone => "Please enter the 6-digit code from your SMS."

def wrongText : OTPChannel → String
  | .email => "Incorrect or expired code. Please check your email and try again."
  | .phone => "Incorrect or expired code. Please check your SMS and try again."

def noUserText : OTPChannel → String
  | .email => "No active account found for this email address."
  | .phone => "No active account found for this phone number."

def path : OTPChannel → String
  | .email => "/otp/verify?login_session_id="
  | .phone => "/phone-otp/verify?login_session_id="

end OTPChannel

def createOTP (hash : String → String) (rs : List OTPRow) (org : UUID) (addr code sessID : String) (now : Int) :
    List OTPRow :=
  ⟨org, addr, hash code, sessID, now + 600, none⟩ ::
    rs.filter fun r => !(r.orgID == org && r.address == addr && r.usedAt.isNone)

def otpLive (hash : String → String) (org : UUID) (addr code sessID : String) (now : Int) (r : OTPRow) : Bool :=
  r.orgID == org && r.address == addr && r.codeHash == hash code && r.loginSessionID == sessID &&
    r.usedAt.isNone && decide (now < r.expiresAt)

def consumeOTP (hash : String → String) (rs : List OTPRow) (org : UUID) (addr code sessID : String) (now : Int) :
    List OTPRow × Bool :=
  (rs.map fun r => if otpLive hash org addr code sessID now r then { r with usedAt := some now } else r,
    rs.any (otpLive hash org addr code sessID now))

/-- `orgSlug` is the one in the URL, which need not be the session's. `address`
comes normalised; `code = none` when `Create` failed. -/
structure OTPSendReq extends Faults where
  (orgSlug address : String)
  throttled : Option String := none
  code : Option String

def otpSend (ch : OTPChannel) (d : Deps) (w : World) (q : OTPSendReq) : Outcome := Handler.finish do
  match w.orgBySlug q.orgSlug with
  | none => refuse w (.httpError 404 "organization not found")
  | some org =>
    let s ← loadSession w q.toFaults "login session expired — please start over"
    if q.address = "" then refuse w (.page ch.emptyText)
    match q.throttled with
    | some retry => refuse w (.page ("Please wait " ++ retry ++ " before requesting another code."))
    | none =>
      match q.code with
      | none => refuse w (.page errorText)
      | some code =>
        let w := ch.setRows w (createOTP d.hashOTP (ch.rows w) org.id q.address code s.id q.now)
        -- a failed save is ignored
        let r := Response.redirect ("/" ++ q.orgSlug ++ ch.path ++ s.id)
        pure ⟨w, .save .otpSent (ch.markSent s q.address) r r⟩

structure OTPVerifyReq extends Faults where
  (orgSlug address code : String)
  locked : Option String := none
  (consumeFails usersFail : Bool := false)

def otpVerify (ch : OTPChannel) (d : Deps) (w : World) (q : OTPVerifyReq) : Outcome := Handler.finish do
  match w.orgBySlug q.orgSlug with
  | none => refuse w (.httpError 404 "organization not found")
  | some org =>
    let s ← loadSession w q.toFaults "session expired — please start over"
    if !ch.pending s then refuse w (.httpError 400 "session expired — please start over")
    if q.code = "" then refuse w (.page ch.codeText)
    match q.locked with
    | some remaining => refuse w (.page ("Too many incorrect codes. Try again in " ++ remaining ++ "."))
    | none =>
      let addr := ch.address s q.address
      if q.consumeFails then refuse w (.page ch.wrongText)
      let (rs, found) := consumeOTP d.hashOTP (ch.rows w) org.id addr q.code s.id q.now
      if !found then refuse w (.page ch.wrongText)
      let w := ch.setRows w rs
      match if q.usersFail then none else ch.user w org.id addr with
      | none => refuse w (.page ch.noUserText)
      | some user =>
        if !user.isActive then refuse w (.page ch.noUserText)
        pure ⟨w, .save .otpVerified (ch.markVerified s user.id)
          (.redirect ("/" ++ q.orgSlug ++ "/authorize/resume?login_session_id=" ++ s.id))
          (.httpError 500 "Internal Server Error")⟩

/-! ## Passkeys -/

/-- `credentialUser` is the owner of the credential the assertion names, whatever
organisation the URL names. -/
structure PasskeyReq extends Faults where
  challengeOK : Bool
  credentialUser : Option UUID
  assertionOK : Bool

def finishPasskeyLogin (q : PasskeyReq) : Outcome := Handler.finish do
  if !q.challengeOK then refuse w (.httpError 400 "passkey challenge not found or expired")
  match q.credentialUser with
  | none => refuse w (.httpError 401 "passkey verification failed")
  | some userID =>
    if (w.userByID userID).isNone || !q.assertionOK then refuse w (.httpError 401 "passkey verification failed")
    match w.session with
    | none => refuse w (.json userID none)
    | some s =>
      if q.getFails then refuse w (.json userID none)
      -- a failed save is ignored
      let r := Response.json userID (some ("/" ++ s.orgSlug ++ "/authorize/resume?login_session_id=" ++ s.id))
      pure ⟨w, .save .passkey { s with userID := some userID, mfaPending := false } r r⟩

/-! ## The machine -/

inductive LoginMove where
  | authorizeSubmit (q : SubmitReq)
  | mfaChallengeSubmit (q : MFAReq)
  | breachWarningAcknowledge (q : AckReq)
  | authorizeResume (f : Faults)
  | oid4vpResume (q : VPResumeReq)
  | otpSend (ch : OTPChannel) (q : OTPSendReq)
  | otpVerify (ch : OTPChannel) (q : OTPVerifyReq)
  | finishPasskeyLogin (q : PasskeyReq)
  | expire
  | present (requestID : String) (status : PresentationStatus) (claims : GoMap Json)
  | setActive (user : UUID) (active : Bool)
  | deleteUser (user : UUID)

def loginStep (d : Deps) (w : World) : LoginMove → World
  | .authorizeSubmit q => (perform q.toFaults (authorizeSubmit d w q)).1
  | .mfaChallengeSubmit q => (perform q.toFaults (mfaChallengeSubmit d w q)).1
  | .breachWarningAcknowledge q => (perform q.toFaults (breachWarningAcknowledge w q)).1
  | .authorizeResume f => (perform f (authorizeResume w f)).1
  | .oid4vpResume q => (perform q.toFaults (oid4vpResume d w q)).1
  | .otpSend ch q => (perform q.toFaults (otpSend ch d w q)).1
  | .otpVerify ch q => (perform q.toFaults (otpVerify ch d w q)).1
  | .finishPasskeyLogin q => (perform q.toFaults (finishPasskeyLogin w q)).1
  | .expire => { w with session := none }
  | .present rid status claims =>
    { w with presentations := w.presentations.map fun p =>
        if p.requestID == rid then { p with status := status, vpClaims := claims } else p }
  | .setActive user active =>
    { w with users := w.users.map fun u => if u.id == user then { u with isActive := active } else u }
  | .deleteUser user => { w with users := w.users.filter (·.id != user) }

def World.KeyedUsers : Prop := ∀ u ∈ w.users, ∀ v ∈ w.users, u.id = v.id → u = v

structure Fresh (w : World) (s : LoginSession) : Prop where
  log : w.log = []
  session : w.session = some s
  userID : s.userID = none
  oid4vpPending : s.oid4vpPending = false
  extraClaims : s.extraClaims = ∅
  keyed : w.KeyedUsers

def PasswordMove : LoginMove → Prop
  | .authorizeSubmit _ | .mfaChallengeSubmit _ | .breachWarningAcknowledge _ | .authorizeResume _ | .oid4vpResume _
  | .expire | .present .. => True
  | _ => False

def issued (d : Deps) (w : World) (a : LoginMove) : Option (Issuer × AuthCode × List Event) :=
  match (loginStep d w a).log with
  | .issued via c :: pre => if w.log.length ≤ pre.length then some (via, c, pre) else none
  | _ => none

/-! ## A small deployment, for runs on fixed inputs -/

def acme : Organization := { id := 1, name := "Acme", slug := "acme" }

def ada : User := { id := 7, orgID := 1, email := "ada@acme.eu", passwordHash := some "pw", isEmailVerified := true }

def acmeSession : LoginSession := { id := "s1", orgSlug := "acme", orgID := 1, clientID := "portal" }

def acmeDeps : Deps :=
  { checkPassword := fun hash password => hash == password
    totpValidate := fun _ code secret => code == secret
    hashOTP := id
    flowEngine := some ⟨fun _ => "", fun _ => none⟩
    oid4vp := true }

def acmeWorld (org : Organization) (u : User) : World := { session := some acmeSession, users := [u], orgs := [org] }

theorem acmeWorld_fresh (org u) : Fresh (acmeWorld org u) acmeSession := by
  refine ⟨rfl, rfl, rfl, rfl, rfl, ?_⟩
  intro v hv v' hv' _
  simp only [acmeWorld, List.mem_singleton] at hv hv'
  rw [hv, hv']

def adaReq : SubmitReq := { email := "ada@acme.eu", password := "pw", mfaCount := some 1 }

def adaTotp : MFAReq := { totpCode := "123456", creds := some [⟨"totp", some (true, "123456")⟩] }

end Clavex

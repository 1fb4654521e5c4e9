import Clavex.TokenStoreSound

/-!
# The grants

`ExchangeCode`, `ExchangeRefreshToken` and `ExchangeClientCredentials` as programs over
the stores, one operation per statement.
-/

namespace Clavex

open Prog TokenStore

structure Caller where
  (orgSlug clientID : String)
  attestationJKT : String := ""
  dpop : Option DPoPKey := none
  mtls : Option MTLSCert := none

def invalidGrant (description : String) : TokenErr := .oauth "invalid_grant" description

def tokenType (dpop : Option DPoPKey) : String := if dpop.isSome then "DPoP" else "Bearer"

/-! ## Claims -/

variable (d : OIDCHandler)

def userClaimsFromModel (u : User) : UserClaims :=
  { userID := d.uuidText u.id
    orgID := d.uuidText u.orgID
    email := u.email
    firstName := u.firstName.getD ""
    lastName := u.lastName.getD "" }

def addExtra (uc : UserClaims) (k : String) : Option Json → UserClaims
  | some v => { uc with extraClaims := uc.extraClaims.insert k v }
  | none => uc

def assignExtra (uc : UserClaims) : Option (GoMap Json) → UserClaims
  | some extra => { uc with extraClaims := uc.extraClaims.assignAll extra }
  | none => uc

def mapClaims (uc : UserClaims) (user : User) (mappers : Option (List Mapper)) : UserClaims :=
  { uc with extraClaims := resolveMapperExtraClaims mappers uc user.metadata }

def enrichClaims (hookURL clientID scope : String) (uc : UserClaims) : TokenProg UserClaims :=
  if hookURL = "" then return uc
  else do
    let extra ← stmt (.lookup (.enrich hookURL clientID scope uc))
    return assignExtra uc extra

def activeUser (id : UUID) : TokenProg User := do
  let some user ← stmt (.userByID id) | fail (invalidGrant "user not found or inactive")
  require (user.isActive = true) (invalidGrant "user not found or inactive")
  return user

def codeUserClaims (ac : CodeRow) (user : User) (groups roles : Option (List String)) : UserClaims :=
  { userClaimsFromModel d user with
    authTime := ac.authTime
    acr := ac.acr
    authorizationDetails := ac.authorizationDetails
    reqClaims := ac.claimsParam
    groups := groups.getD []
    roles := roles.getD [] }

def codeClaims (clientID hookURL : String) (ac : CodeRow) (user : User) : TokenProg UserClaims := do
  let groups ← stmt (.lookup (.groupsForUser ac.userID))
  let roles ← stmt (.lookup (.flattenRoleNames ac.userID))
  let mappers ← stmt (.lookup (.mappersByClient clientID))
  let uc := mapClaims (codeUserClaims d ac user groups roles) user mappers
  -- the claims of the login flow do not replace those of the mappers
  let uc := { uc with extraClaims := uc.extraClaims ∪ ac.extraClaims }
  let verified ← stmt (.lookup (.verifiedClaims ac.claimsParam ac.userID))
  let uc ← enrichClaims hookURL clientID ac.scope (addExtra uc "verified_claims" verified)
  let flags ← stmt (.lookup (.resolveFlags ac.orgID ac.userID))
  return addExtra uc "flags" flags

def refreshClaims (clientID hookURL : String) (rt : RefreshRow) :
    TokenProg (Option UserClaims) :=
  match rt.userID with
  | none => return none
  | some userID => do
    let user ← activeUser userID
    let roles ← stmt (.lookup (.flattenRoleNames userID))
    let mappers ← stmt (.lookup (.mappersByClient clientID))
    let uc := mapClaims { userClaimsFromModel d user with roles := roles.getD [] } user mappers
    let uc ← enrichClaims hookURL clientID rt.scope uc
    let flags ← stmt (.lookup (.resolveFlags rt.orgID userID))
    return some (addExtra uc "flags" flags)

/-! ## Refresh tokens -/

def issueRefreshToken (p : RefreshParams) : TokenProg String := do
  let some plain ← stmt .randomToken | fail (.internal "generate refresh token")
  let stored ← stmt (.insertRefresh p (d.hashString plain))
  require (stored = true) (.internal "store refresh token")
  match p.replacesID with
  | none => return plain
  | some id => do
    let _ ← stmt (.setReplacedBy (d.hashString plain) id)
    return plain

/-! ## Authorization codes -/

def verifyPKCE (challenge verifier : String) : Except String Unit :=
  if challenge = "" then .ok ()
  else if verifier = "" then .error "code_verifier is required"
  else if d.s256 verifier ≠ challenge then .error "code_verifier does not match code_challenge"
  else .ok ()

def checkCodeKey (jkt : String) (dpop : Option DPoPKey) : Except TokenErr Unit :=
  if jkt = "" then .ok ()
  else
    match dpop with
    | none => .error (.oauth "invalid_dpop_proof" "DPoP proof required: authorization was bound to dpop_jkt")
    | some k =>
      if k.jkt ≠ jkt then
        .error (.oauth "invalid_dpop_proof"
          "DPoP proof key does not match the dpop_jkt committed at authorization time")
      else .ok ()

def checkCode (x : Caller) (redirectURI codeVerifier : String) (ac : CodeRow) (now : Int) :
    Except TokenErr Unit :=
  if ac.clientID ≠ x.clientID then .error (invalidGrant "code was not issued to this client")
  else if ac.redirectURI ≠ redirectURI then .error (invalidGrant "redirect_uri mismatch")
  else if ac.expiresAt < now then .error (invalidGrant "authorization code expired")
  else
    match verifyPKCE d ac.pkceChallenge codeVerifier with
    | .error msg => .error (invalidGrant msg)
    | .ok () => checkCodeKey ac.dpopJKT x.dpop

def issueIDTokenFor (tc : MintConfig) (clientID nonce alg : String) (uc : UserClaims)
    (accessToken : Signed) : TokenProg Signed := do
  let some tok ← stmt (.issueIDToken tc clientID nonce { uc with atHash := d.atHash accessToken } (resolveIDTokenAlg alg))
    | fail (.internal "issue id token")
  return tok

def codeIDToken (tc : MintConfig) (clientID alg : String) (ac : CodeRow) (uc : UserClaims)
    (accessToken : Signed) : TokenProg (Option Signed) :=
  if strContains ac.scope "openid" then do
    let tok ← issueIDTokenFor d tc clientID ac.nonce alg uc accessToken
    return some tok
  else return none

def exchangeCode (x : Caller) (code redirectURI codeVerifier idTokenAlg : String) (tc : MintConfig)
    (hookURL : String) : TokenProg TokenSet := do
  let some ac ← stmt (.consumeCode (d.hashString code))
    | fail (invalidGrant "authorization code not found or already used")
  let now ← stmt .now
  ofExcept (checkCode d x redirectURI codeVerifier ac now)
  let user ← activeUser ac.userID
  let uc ← codeClaims d x.clientID hookURL ac user
  let some (accessToken, accessJTI) ← stmt (.issueAccessToken tc x.clientID ac.scope (some uc) x.dpop x.mtls)
    | fail (.internal "issue access token")
  let idToken ← codeIDToken d tc x.clientID idTokenAlg ac uc accessToken
  let familyID ← stmt .newUUID
  let now ← stmt .now
  let refreshToken ← issueRefreshToken d
    { orgID := ac.orgID
      clientID := x.clientID
      userID := some ac.userID
      familyID := familyID
      scope := ac.scope
      expiresAt := now + tc.refreshTokenTTL
      dpopJKT := (x.dpop.map (·.jkt)).getD ""
      mtlsX5TS256 := (x.mtls.map (·.x5ts256)).getD ""
      attestationJKT := x.attestationJKT }
  let recorded ← stmt (.setRevocationData ac.codeHash accessJTI familyID)
  require (recorded = true) (.internal "persist code revocation data")
  return {
    accessToken := accessToken
    idToken := idToken
    refreshToken := refreshToken
    tokenType := tokenType x.dpop
    expiresIn := tc.accessTokenTTL
    scope := ac.scope
    authorizationDetails := ac.authorizationDetails }

/-! ## Rotation -/

def alreadyUsed : TokenErr := invalidGrant "refresh token already used"

def replayed {α : Type} (familyID : Nat) : TokenProg α := do
  let _ ← stmt (.revokeFamilyByID familyID)
  fail alreadyUsed

/-- The row to rotate. A revoked token stands for its successor as long as that one is
unused, since the client may have lost the response. -/
def currentToken (rawRefreshToken : String) : TokenProg RefreshRow := do
  let some rt ← stmt (.refreshByHash (d.hashString rawRefreshToken)) | fail (invalidGrant "refresh token not found")
  if rt.revokedAt.isNone then return rt
  else
    match rt.replacedBy with
    | none => replayed rt.familyID
    | some id => do
      let some successor ← stmt (.refreshByID id) | replayed rt.familyID
      if successor.revokedAt.isNone then return successor else replayed rt.familyID

def checkRefresh (x : Caller) (rt : RefreshRow) (now : Int) : Except TokenErr Unit :=
  if rt.clientID ≠ x.clientID then .error (invalidGrant "token was not issued to this client")
  else if rt.expiresAt < now then .error (invalidGrant "refresh token expired")
  else if rt.attestationJKT = "" then .ok ()
  else if x.attestationJKT = "" then
    .error (.oauth "invalid_client" "client_attestation required: refresh token is bound to a client instance key")
  else if x.attestationJKT ≠ rt.attestationJKT then
    .error (.oauth "invalid_client"
      "client instance key mismatch: refresh token is bound to a different client instance key")
  else .ok ()

def verifyMTLSRefreshBinding (storedThumb : String) (mtls : Option MTLSCert) : Except TokenErr Unit :=
  if storedThumb = "" then .ok ()
  else
    match mtls with
    | none =>
      .error (.oauth "invalid_client" "mTLS client certificate is required: refresh token is sender-constrained")
    | some c =>
      if c.x5ts256 ≠ storedThumb then
        .error (invalidGrant "mTLS certificate thumbprint mismatch: refresh token was bound to a different certificate")
      else .ok ()

def successorParams (x : Caller) (rt : RefreshRow) : RefreshParams :=
  { orgID := rt.orgID
    clientID := x.clientID
    userID := rt.userID
    familyID := rt.familyID
    scope := rt.scope
    expiresAt := rt.expiresAt
    replacesID := some rt.id
    dpopJKT := (x.dpop.map (·.jkt)).getD ""
    mtlsX5TS256 := (x.mtls.map (·.x5ts256)).getD rt.mtlsX5TS256
    attestationJKT := rt.attestationJKT }

def issueSuccessor (x : Caller) (tc : MintConfig) (hookURL : String) (rt : RefreshRow) :
    TokenProg TokenSet := do
  let uc ← refreshClaims d x.clientID hookURL rt
  ofExcept (verifyMTLSRefreshBinding rt.mtlsX5TS256 x.mtls)
  let some (accessToken, _) ← stmt (.issueAccessToken tc x.clientID rt.scope uc x.dpop x.mtls)
    | fail (.internal "issue access token")
  let refreshToken ← issueRefreshToken d (successorParams x rt)
  return {
    accessToken := accessToken
    refreshToken := refreshToken
    tokenType := tokenType x.dpop
    expiresIn := tc.accessTokenTTL
    scope := rt.scope }

def exchangeRefreshToken (x : Caller) (rawRefreshToken : String) (tc : MintConfig)
    (hookURL : String) : TokenProg TokenSet := do
  let rt ← currentToken d rawRefreshToken
  let now ← stmt .now
  ofExcept (checkRefresh x rt now)
  let revoked ← stmt (.revokeByID rt.id)
  require (revoked = true) (.internal "revoke old refresh token")
  issueSuccessor d x tc hookURL rt

/-! ## Client credentials -/

def exchangeClientCredentials (clientID scope : String) (tc : MintConfig) (dpop : Option DPoPKey)
    (mtls : Option MTLSCert) : TokenProg TokenSet := do
  let scope := if scope = "" then "api" else scope
  let some (accessToken, _) ← stmt (.issueAccessToken tc clientID scope none dpop mtls)
    | fail (.internal "issue access token")
  return { accessToken := accessToken, tokenType := tokenType dpop, expiresIn := tc.accessTokenTTL, scope := scope }

/-! ## A refresh request that runs alone: the row to rotate -/

section
variable (ω : TokenOp → Env) (s : TokenStore)

def readRefresh (op : TokenOp) (p : RefreshRow → Bool) : Option RefreshRow :=
  if (ω op).fails then none else s.refresh.find p

def currentRow (raw : String) : Option RefreshRow :=
  match readRefresh ω s (.refreshByHash (d.hashString raw)) (·.tokenHash == d.hashString raw) with
  | none => none
  | some rt =>
    if rt.revokedAt.isNone then some rt
    else
      match rt.replacedBy with
      | none => none
      | some id => (readRefresh ω s (.refreshByID id) (·.id == id)).filter (·.revokedAt.isNone)

variable {rt : RefreshRow} {raw thumb hookURL : String} {α : Type} {mtls : Option MTLSCert} {x : Caller} {tc : MintConfig}

theorem readRefresh_mem {op p} (h : readRefresh ω s op p = some rt) : rt ∈ s.refresh.list := by
  unfold readRefresh at h
  split at h
  · cases h
  · exact (Rows.find_some h).1

theorem currentRow_unrevoked (h : currentRow d ω s raw = some rt) : rt ∈ s.refresh.list ∧ rt.revokedAt = none := by
  unfold currentRow at h
  split at h
  · cases h
  rename_i old hold
  split at h
  · rename_i hnone
    cases h
    exact ⟨readRefresh_mem ω s hold, Option.isNone_iff_eq_none.mp hnone⟩
  · split at h
    · cases h
    · rw [Option.filter_eq_some_iff] at h
      exact ⟨readRefresh_mem ω s h.1, Option.isNone_iff_eq_none.mp h.2⟩

theorem exec_replayed (α) (familyID t) :
    ∃ t', (replayed familyID : TokenProg α).exec (fun op => sem d (ω op) op) t = (.error alreadyUsed, t') := ⟨_, rfl⟩

theorem exec_currentToken (raw) :
    (∃ rt, currentRow d ω s raw = some rt ∧ execToken d ω (currentToken d raw) s = (.ok rt, s)) ∨
    (currentRow d ω s raw = none ∧ ∃ e t, execToken d ω (currentToken d raw) s = (.error e, t) ∧
      (e = alreadyUsed ∨ t = s)) := by
  unfold currentRow readRefresh execToken currentToken
  simp only [call_bind, exec_ask, sem, readOrFail]
  cases if (ω (.refreshByHash (d.hashString raw))).fails then none
      else s.refresh.find (·.tokenHash == d.hashString raw) with
  | none => exact .inr ⟨rfl, _, _, rfl, .inr rfl⟩
  | some rt =>
    obtain ⟨t', hreplay⟩ := exec_replayed d ω RefreshRow rt.familyID s
    by_cases hrev : rt.revokedAt.isNone = true
    · simp only [hrev, ite_true]
      exact .inl ⟨rt, rfl, rfl⟩
    simp only [hrev, Bool.false_eq_true, ite_false]
    cases rt.replacedBy with
    | none => exact .inr ⟨rfl, _, _, hreplay, .inl rfl⟩
    | some id =>
      simp only [exec_ask, sem, readOrFail]
      cases if (ω (.refreshByID id)).fails then none else s.refresh.find (·.id == id) with
      | none => exact .inr ⟨rfl, _, _, hreplay, .inl rfl⟩
      | some successor =>
        by_cases hs : successor.revokedAt.isNone = true
        · simp only [hs, ite_true, Option.filter_some]
          exact .inl ⟨successor, rfl, rfl⟩
        · simp only [hs, Bool.false_eq_true, ite_false, Option.filter_some]
          exact .inr ⟨trivial, _, _, hreplay, .inl rfl⟩

/-! ## After the revocation -/

def readUser (id : UUID) : Option User :=
  (if (ω (.userByID id)).fails then none else s.users.find? (·.id == id)).filter (·.isActive)

def hookAnswer (hookURL clientID scope : String) (uc : UserClaims) : Option (GoMap Json) :=
  if hookURL = "" then none
  else (ω (.lookup (.enrich hookURL clientID scope uc))).answer (.enrich hookURL clientID scope uc)

def refreshedClaims (clientID hookURL : String) (rt : RefreshRow) (userID : UUID) (user : User) : UserClaims :=
  let ask (l : Lookup) : l.Answer := (ω (.lookup l)).answer l
  let roles : Option (List String) := ask (.flattenRoleNames userID)
  let uc := mapClaims { userClaimsFromModel d user with roles := roles.getD [] } user (ask (.mappersByClient clientID))
  addExtra (assignExtra uc (hookAnswer ω hookURL clientID rt.scope uc)) "flags" (ask (.resolveFlags rt.orgID userID))

theorem exec_activeUser (id) (f : User → TokenProg α) :
    execToken d ω (activeUser id >>= f) s = match readUser ω s id with
      | some user => execToken d ω (f user) s
      | none => (.error (invalidGrant "user not found or inactive"), s) := by
  unfold execToken readUser activeUser
  rw [exec_bind]
  simp only [call_bind, exec_ask, sem, readOrFail]
  cases if (ω (.userByID id)).fails then none else s.users.find? (·.id == id) with
  | none => rfl
  | some user =>
    simp only [exec_require_bind, exec_pure, Option.filter_some]
    by_cases ha : user.isActive = true <;> simp [ha]

theorem exec_enrichClaims (hookURL clientID scope : String) (uc)
    (f : UserClaims → TokenProg α) :
    execToken d ω (enrichClaims hookURL clientID scope uc >>= f) s =
      execToken d ω (f (assignExtra uc (hookAnswer ω hookURL clientID scope uc))) s := by
  unfold execToken enrichClaims hookAnswer
  by_cases hhook : hookURL = "" <;> simp only [hhook, ite_true, ite_false] <;> rfl

def refreshUser (clientID hookURL : String) (rt : RefreshRow) : Option (Option UserClaims) :=
  match rt.userID with
  | none => some none
  | some id => (readUser ω s id).map fun user => some (refreshedClaims d ω clientID hookURL rt id user)

theorem exec_refreshClaims (clientID hookURL) (rt : RefreshRow)
    (f : Option UserClaims → TokenProg α) :
    execToken d ω (refreshClaims d clientID hookURL rt >>= f) s = match refreshUser d ω s clientID hookURL rt with
      | some uc => execToken d ω (f uc) s
      | none => (.error (invalidGrant "user not found or inactive"), s) := by
  unfold refreshClaims refreshUser
  cases rt.userID with
  | none => rfl
  | some id =>
    simp only [bind_assoc, exec_activeUser]
    cases readUser ω s id with
    | none => rfl
    | some user => exact exec_enrichClaims ..

/-! ## What can still fail -/

def newTokenHash : String := d.hashString (ω .randomToken).plain

inductive FailsLater (x : Caller) (tc : MintConfig) (hookURL : String) (rt : RefreshRow) : Prop
  | user {id} (hid : rt.userID = some id) (h : readUser ω s id = none)
  | certificate (h : rt.mtlsX5TS256 ≠ "") (hne : x.mtls.map (·.x5ts256) ≠ some rt.mtlsX5TS256)
  | signing {uc} (h : refreshUser d ω s x.clientID hookURL rt = some uc)
      (hs : (ω (.issueAccessToken tc x.clientID rt.scope uc x.dpop x.mtls)).fails = true ∨
        Rejected d.jwt (extraOf uc))
  | random (h : (ω .randomToken).fails = true)
  | storing (h : (ω (.insertRefresh (successorParams x rt) (newTokenHash d ω))).fails = true)
  | taken {r} (h : r ∈ s.refresh.list) (hr : r.tokenHash = newTokenHash d ω)

theorem verifyMTLSRefreshBinding_ok :
    verifyMTLSRefreshBinding thumb mtls = .ok () ↔ (thumb ≠ "" → mtls.map (·.x5ts256) = some thumb) := by
  unfold verifyMTLSRefreshBinding
  by_cases ht : thumb = ""
  · simp [ht]
  · cases mtls with
    | none => simp [ht]
    | some c => by_cases hc : c.x5ts256 = thumb <;> simp [ht, hc]

theorem verifyMTLSRefreshBinding_error {e} (h : verifyMTLSRefreshBinding thumb mtls = .error e) : e ≠ alreadyUsed := by
  unfold verifyMTLSRefreshBinding at h
  split at h
  · cases h
  split at h
  · cases h; decide
  · split at h
    · cases h; decide
    · cases h

theorem refreshUser_none {clientID} :
    refreshUser d ω s clientID hookURL rt = none ↔ ∃ id, rt.userID = some id ∧ readUser ω s id = none := by
  unfold refreshUser
  cases rt.userID with
  | none | some id => simp

theorem exec_issueRefreshToken (p) (f : String → TokenProg α) :
    ((ω .randomToken).fails = false ∧ (ω (.insertRefresh p (newTokenHash d ω))).fails = false ∧
      (∀ r ∈ s.refresh.list, r.tokenHash ≠ newTokenHash d ω) ∧
      ∃ plain t, execToken d ω (issueRefreshToken d p >>= f) s = execToken d ω (f plain) t) ∨
    (((ω .randomToken).fails = true ∨ (ω (.insertRefresh p (newTokenHash d ω))).fails = true ∨
        ∃ r ∈ s.refresh.list, r.tokenHash = newTokenHash d ω) ∧
      ∃ e, e ≠ alreadyUsed ∧ execToken d ω (issueRefreshToken d p >>= f) s = (.error e, s)) := by
  unfold execToken issueRefreshToken newTokenHash
  simp only [call_bind, ask_bind, exec_ask]
  cases hr : (ω .randomToken).fails with
  | true =>
    refine .inr ⟨.inl rfl, .internal "generate refresh token", by decide, ?_⟩
    simp [sem, readOrFail, hr]
  | false =>
    have hrandom : sem d (ω .randomToken) .randomToken s = (some (ω .randomToken).plain, s) := by
      simp [sem, readOrFail, hr]
    simp only [hrandom, ask_bind, exec_ask]
    rcases sem_insertRefresh d s (ω (.insertRefresh p (d.hashString (ω .randomToken).plain))) p _ with
      ⟨hi, hbad⟩ | ⟨t, hi, hins, hf⟩
    · refine .inr ⟨.inr hbad, .internal "store refresh token", by decide, ?_⟩
      simp only [hi]
      rfl
    · refine .inl ⟨trivial, hf, ?_, ?_⟩
      · intro r hr' he
        rw [insertRefresh_none.mpr ⟨r, hr', he⟩] at hins
        cases hins
      · simp only [hi]
        cases p.replacesID with
        | none | some id => exact ⟨_, _, rfl⟩

theorem exec_issueSuccessor (x tc) (hookURL : String) (rt) :
    (¬ FailsLater d ω s x tc hookURL rt ∧ ∃ ts t, execToken d ω (issueSuccessor d x tc hookURL rt) s = (.ok ts, t)) ∨
    (FailsLater d ω s x tc hookURL rt ∧ ∃ e t, e ≠ alreadyUsed ∧ t.refresh = s.refresh ∧
      execToken d ω (issueSuccessor d x tc hookURL rt) s = (.error e, t)) := by
  unfold issueSuccessor
  rw [exec_refreshClaims]
  cases huser : refreshUser d ω s x.clientID hookURL rt with
  | none =>
    obtain ⟨id, hid, hnone⟩ := (refreshUser_none d ω s).mp huser
    exact .inr ⟨.user hid hnone, _, s, by decide, rfl, rfl⟩
  | some uc =>
    simp only [execToken, exec_ofExcept_bind]
    cases hcert : verifyMTLSRefreshBinding rt.mtlsX5TS256 x.mtls with
    | error e =>
      have hbad : ¬ (rt.mtlsX5TS256 ≠ "" → x.mtls.map (·.x5ts256) = some rt.mtlsX5TS256) := by
        rw [← verifyMTLSRefreshBinding_ok, hcert]
        exact fun h => by cases h
      rw [Classical.not_imp] at hbad
      exact .inr ⟨.certificate hbad.1 hbad.2, e, s, verifyMTLSRefreshBinding_error hcert, rfl, rfl⟩
    | ok _ =>
      have hgood := verifyMTLSRefreshBinding_ok.mp hcert
      simp only [call_bind, exec_ask]
      rcases sem_issueAccessToken d s (ω (.issueAccessToken tc x.clientID rt.scope uc x.dpop x.mtls)) tc x.clientID
        rt.scope uc x.dpop x.mtls with ⟨hmint, hbad⟩ | ⟨tok, hmint, -, hsigned⟩
      · simp only [hmint]
        refine .inr ⟨.signing huser hbad, .internal "issue access token", _, by decide, ?_, rfl⟩
        rfl
      · simp only [hmint]
        rcases exec_issueRefreshToken d ω _ (successorParams x rt) _ with ⟨h1, h2, h3, plain, t', hrun⟩ | ⟨hbad, e, he, hrun⟩
        · refine .inl ⟨?_, _, _, hrun⟩
          intro hl
          cases hl with
          | user hid h =>
            rw [(refreshUser_none d ω s).mpr ⟨_, hid, h⟩] at huser
            cases huser
          | certificate h hne => exact hne (hgood h)
          | signing h hs =>
            rw [huser] at h
            cases h
            exact hsigned hs
          | random h => rw [h1] at h; cases h
          | storing h => rw [h2] at h; cases h
          | taken h hr => exact h3 _ h hr
        · refine .inr ⟨?_, e, _, he, ?_, hrun⟩
          · rcases hbad with h | h | ⟨r', hr', h⟩
            · exact .random h
            · exact .storing h
            · exact .taken hr' h
          · rfl

/-! ## Which errors leave the table alone -/

structure Rotates (x : Caller) (raw : String) (rt : RefreshRow) : Prop where
  current : currentRow d ω s raw = some rt
  client : rt.clientID = x.clientID
  live : s.now ≤ rt.expiresAt
  key : rt.attestationJKT = "" ∨ x.attestationJKT = rt.attestationJKT
  works : (ω (.revokeByID rt.id)).fails = false

theorem checkRefresh_ok {now} :
    checkRefresh x rt now = .ok () ↔ rt.clientID = x.clientID ∧ now ≤ rt.expiresAt ∧
      (rt.attestationJKT = "" ∨ x.attestationJKT = rt.attestationJKT) := by
  unfold checkRefresh
  by_cases hc : rt.clientID = x.clientID
  · by_cases he : rt.expiresAt < now
    · simp [hc, he, Int.not_le.mpr he]
    · by_cases hk : rt.attestationJKT = ""
      · simp [hc, he, hk, Int.not_lt.mp he]
      · by_cases hx : x.attestationJKT = rt.attestationJKT
        · simp [hc, he, hk, hx, Int.not_lt.mp he]
        · by_cases h0 : x.attestationJKT = ""
          · simp [hc, he, hk, h0, Ne.symm hk]
          · simp [hc, he, hk, hx, h0]
  · simp [hc]

theorem revokeByID_ne (hm : rt ∈ s.refresh.list) (hr : rt.revokedAt = none) :
    (s.revokeByID rt.id).refresh ≠ s.refresh := by
  intro heq
  have hm' : rt ∈ (s.revokeByID rt.id).refresh.list := by rw [heq]; exact hm
  obtain ⟨a, -, ha⟩ := mem_revokeByID.mp hm'
  split at ha
  · rw [ha] at hr; cases hr
  · rename_i hid
    rw [ha] at hid
    simp at hid

theorem failsLater_revokeByID {id} :
    FailsLater d ω (s.revokeByID id) x tc hookURL rt ↔ FailsLater d ω s x tc hookURL rt := by
  have hhash : (∃ r ∈ (s.revokeByID id).refresh.list, r.tokenHash = newTokenHash d ω) ↔
      ∃ r ∈ s.refresh.list, r.tokenHash = newTokenHash d ω := by
    constructor
    · rintro ⟨r, hr, he⟩
      obtain ⟨a, ha, rfl⟩ := mem_revokeByID.mp hr
      refine ⟨a, ha, ?_⟩
      rw [← he]
      split <;> rfl
    · rintro ⟨a, ha, he⟩
      refine ⟨_, mem_revokeByID.mpr ⟨a, ha, rfl⟩, ?_⟩
      rw [← he]
      split <;> rfl
  constructor <;> intro h <;> cases h with
  | user hid h => exact .user hid h
  | certificate h hne => exact .certificate h hne
  | signing h hs => exact .signing h hs
  | random h => exact .random h
  | storing h => exact .storing h
  | taken h hr =>
    first
      | obtain ⟨r, hr, he⟩ := hhash.mp ⟨_, h, hr⟩; exact .taken hr he
      | obtain ⟨r, hr, he⟩ := hhash.mpr ⟨_, h, hr⟩; exact .taken hr he

theorem exec_exchangeRefreshToken
    (h : Rotates d ω s x raw rt) :
    execToken d ω (exchangeRefreshToken d x raw tc hookURL) s =
      execToken d ω (issueSuccessor d x tc hookURL rt) (s.revokeByID rt.id) := by
  rcases exec_currentToken d ω s raw with ⟨rt', hcur, hrun⟩ | ⟨hnone, -⟩
  · rw [h.current] at hcur
    cases hcur
    unfold exchangeRefreshToken
    unfold execToken at hrun ⊢
    rw [exec_bind, hrun]
    simp only [call_bind, exec_ask, exec_ofExcept_bind, sem, checkRefresh_ok.mpr ⟨h.client, h.live, h.key⟩, unlessFails,
      h.works, Bool.false_eq_true, ite_false]
    rfl
  · rw [h.current] at hnone
    cases hnone

/-- A request that does not get as far as the revocation, or whose revocation fails, does
not change the table unless it reports a replay. -/
theorem exec_exchangeRefreshToken_early
    (h : ∀ rt, ¬ Rotates d ω s x raw rt) :
    ∃ e t, execToken d ω (exchangeRefreshToken d x raw tc hookURL) s = (.error e, t) ∧ (e = alreadyUsed ∨ t = s) := by
  unfold exchangeRefreshToken
  rcases exec_currentToken d ω s raw with ⟨rt, hcur, hrun⟩ | ⟨-, e, t, hrun, hor⟩ <;> unfold execToken at hrun ⊢ <;>
    rw [exec_bind, hrun]
  · simp only [call_bind, exec_ask, exec_ofExcept_bind, sem]
    cases hcheck : checkRefresh x rt s.now with
    | error e => exact ⟨e, s, rfl, .inr rfl⟩
    | ok _ =>
      obtain ⟨hc, hl, hk⟩ := checkRefresh_ok.mp hcheck
      have hfails : (ω (.revokeByID rt.id)).fails = true := by
        by_contra hf
        exact h rt ⟨hcur, hc, hl, hk, Bool.eq_false_iff.mpr hf⟩
      refine ⟨.internal "revoke old refresh token", s, ?_, .inr rfl⟩
      simp only [unlessFails, hfails, ite_true]
      rfl
  · exact ⟨e, t, rfl, hor⟩

theorem refresh_error_atomic_iff (x : Caller) (raw : String) (tc : MintConfig) (hookURL : String) :
    (∀ e, (execToken d ω (exchangeRefreshToken d x raw tc hookURL) s).1 = .error e → e ≠ alreadyUsed →
        (execToken d ω (exchangeRefreshToken d x raw tc hookURL) s).2.refresh = s.refresh) ↔
      ¬ ∃ rt, Rotates d ω s x raw rt ∧ FailsLater d ω s x tc hookURL rt := by
  by_cases hrot : ∃ rt, Rotates d ω s x raw rt
  · obtain ⟨rt, hrot⟩ := hrot
    obtain ⟨hm, hr⟩ := currentRow_unrevoked d ω s hrot.current
    rw [exec_exchangeRefreshToken d ω s hrot]
    rcases exec_issueSuccessor d ω (s.revokeByID rt.id) x tc hookURL rt with
      ⟨hfine, ts, t, hrun⟩ | ⟨hlater, e, t, hne, heq, hrun⟩ <;> rw [hrun]
    · constructor
      · rintro - ⟨rt', hrot', hlater⟩
        have hsame : some rt' = some rt := by rw [← hrot'.current, hrot.current]
        cases hsame
        exact hfine ((failsLater_revokeByID d ω s).mpr hlater)
      · intro _ e he
        cases he
    · constructor
      · intro h
        exact absurd (heq.symm.trans (h e rfl hne)) (revokeByID_ne s hm hr)
      · intro h
        exact absurd ⟨rt, hrot, (failsLater_revokeByID d ω s).mp hlater⟩ h
  · obtain ⟨e, t, hrun, hor⟩ := exec_exchangeRefreshToken_early d ω s fun rt h => hrot ⟨rt, h⟩
    rw [hrun]
    constructor
    · rintro - ⟨rt, h, -⟩
      exact hrot ⟨rt, h⟩
    · intro _ e' he hne
      cases he
      rw [hor.resolve_left hne]

end

def boundToken : RefreshRow :=
  { id := 1, tokenHash := "rt", revokedAt := none, orgID := 1, clientID := "app", userID := some plainUser.id, familyID := 0
    scope := "openid", expiresAt := 3600, mtlsX5TS256 := "thumb" }

def boundStore : TokenStore := { plainStore with refresh := Rows.empty.insert boundToken (List.not_mem_nil) }

theorem missing_certificate_spends_token :
    let r := execToken plainHandler (fun _ => {})
      (exchangeRefreshToken plainHandler { orgSlug := "acme", clientID := "app" } "rt" plainHandler.config "") boundStore
    r.1 = .error (.oauth "invalid_client"
      "mTLS client certificate is required: refresh token is sender-constrained") ∧
    boundStore.refresh.list.map (·.revokedAt) = [none] ∧ r.2.refresh.list.map (·.revokedAt) = [some 0] :=
  ⟨rfl, rfl, rfl⟩

end Clavex

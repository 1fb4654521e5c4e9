import Clavex.DPoP
import Clavex.Session
import Clavex.Revocation
import Clavex.Prog

/-!
# The stores behind the token endpoint

The tables and Redis keys that token requests read and write, and the operations on
them: one per SQL statement, Redis command or call of a collaborator. `sem` carries an
operation out; its `Env` says whether the store fails and what a collaborator outside
the tables answers.
-/

namespace Clavex

/-! ## Rows -/

structure OrgRow extends Organization where
  isActive : Bool := true
  (accessTokenTTL refreshTokenTTL : Option Int := none)
  claimsEnrichmentURL : String := ""

inductive AuthMethod where
  | privateKeyJWT
  | attestation
  | tlsClientAuth
  | secretOrNone
  deriving DecidableEq

structure OIDCClient where
  clientID : String
  orgID : UUID
  clientSecretHash : Option String := none
  (grantTypes scopes : List String := [])
  tokenEndpointAuthMethod : AuthMethod := .secretOrNone
  isActive : Bool := true
  (idTokenSignedResponseAlg tlsClientAuthSubjectDN tlsClientAuthSANDNS : String := "")
  (dpopBoundAccessTokens tlsClientCertBoundAccessTokens : Bool := false)
  (accessTokenTTL refreshTokenTTL : Option Int := none)

structure ServiceAccount where
  (id orgID : UUID)
  (clientID clientSecretHash : String)
  scopes : List String := []
  isActive : Bool := true

structure CodeRow extends AuthCode where
  codeHash : String
  usedAt : Option Int := none
  accessTokenJTI : String := ""
  refreshFamilyID : Option Nat := none

structure RefreshParams where
  orgID : UUID
  clientID : String
  userID : Option UUID
  familyID : Nat
  scope : String
  expiresAt : Int
  replacesID : Option Nat := none
  (dpopJKT mtlsX5TS256 attestationJKT : String := "")

/-- A row of `refresh_tokens`; `replacesID` is the parameter of the insert, which the
table does not keep. -/
structure RefreshRow extends RefreshToken, RefreshParams where
  replacedBy : Option Nat := none

structure DeviceCode where
  id : Nat
  orgID : UUID
  (clientID deviceCodeHash userCode scope : String)
  expiresAt : Int
  isAuthorized : Option Bool := none
  userID : Option UUID := none
  lastPolledAt : Option Int := none
  pollInterval : Int := 5

inductive CIBAStatus where
  | pending
  | approved
  | denied
  deriving DecidableEq

structure CIBARequest where
  authReqID : String
  orgID : UUID
  clientID : String
  userID : Option UUID
  scope : String
  expiresAt : Int
  status : CIBAStatus := .pending
  interval : Int := 5
  vpClaims : Option Json := none
  acr : String := ""

structure SSOSession where
  (userID orgID : UUID)
  orgSlug : String
  authTime : Int := 0

inductive Secret where
  | code (codeHash : String)
  | device (deviceCodeHash : String)
  | ciba (authReqID : String)
  deriving DecidableEq

/-! ## The store -/

/-- `nextID` is the next fresh UUID. `drawn` are the random values handed out or presented
so far; none of them comes up again. `minted` remembers the `jti` and the expiry of every
access token signed. -/
structure TokenStore where
  now : Int := 0
  nextID : Nat := 0
  orgs : List OrgRow := []
  clients : List OIDCClient := []
  serviceAccounts : List ServiceAccount := []
  users : List User := []
  codes : Rows (fun c : CodeRow => c.codeHash) := .empty
  refresh : Rows (fun r : RefreshRow => r.id) := .empty
  devices : Rows (fun c : DeviceCode => c.id) := .empty
  ciba : Rows (fun c : CIBARequest => c.authReqID) := .empty
  (revoked dpopJTIs cibaPolls : String → Cell Unit := fun _ => .empty)
  sso : String → Cell SSOSession := fun _ => .empty
  drawn : List Secret := []
  minted : List (String × Int) := []

/-- The handler's configuration and the libraries it uses. `uuidString` is the text of a
fresh UUID, `uuidText` that of a stored one. -/
structure OIDCHandler where
  jwt : JwtLib
  (hashString s256 : String → String)
  uuidText : UUID → String
  uuidString : Nat → String
  uuidString_ne : ∀ n, uuidString n ≠ ""
  uuidString_inj : ∀ m n, uuidString m = uuidString n → m = n
  atHash : Signed → String
  checkSecret : String → String → Bool
  (assertionIssuer attestationSubject : String → Option String)
  proofs : ProofLib
  config : MintConfig
  orgSigners : Bool

/-! ## Operations -/

structure HTTPError where
  status : Nat
  message : String

inductive Lookup where
  | clientAssertion (assertion clientID issuer : String)
  | clientAttestation (assertion clientID issuer : String)
  | groupsForUser (user : UUID)
  | flattenRoleNames (user : UUID)
  | mappersByClient (clientID : String)
  | verifiedClaims (claimsParam : String) (user : UUID)
  | enrich (hookURL clientID scope : String) (uc : UserClaims)
  | resolveFlags (org user : UUID)

@[reducible] def Lookup.Answer : Lookup → Type
  | clientAssertion .. => Except HTTPError Unit
  | clientAttestation .. => Except HTTPError String
  | groupsForUser _ | flattenRoleNames _ => Option (List String)
  | mappersByClient _ => Option (List Mapper)
  | verifiedClaims .. => Option Json
  | enrich .. => Option (GoMap Json)
  | resolveFlags .. => Option Json

def Lookup.nothing : (l : Lookup) → l.Answer
  | clientAssertion .. | clientAttestation .. => .error ⟨401, "client_assertion invalid"⟩
  | groupsForUser _ | flattenRoleNames _ | mappersByClient _ | verifiedClaims .. | enrich .. | resolveFlags .. => none

structure Env where
  fails : Bool := false
  plain : String := ""
  answer : (l : Lookup) → l.Answer := Lookup.nothing

inductive TokenOp where
  | now
  | newUUID
  | randomToken
  | lookup (l : Lookup)
  | orgBySlug (slug : String)
  | clientByID (clientID : String)
  | serviceAccountByID (clientID : String)
  | userByID (id : UUID)
  | resolveSigner (org : UUID)
  | issueAccessToken (tc : MintConfig) (clientID scope : String) (user : Option UserClaims) (dpop : Option DPoPKey)
      (mtls : Option MTLSCert)
  | issueIDToken (tc : MintConfig) (clientID nonce : String) (user : UserClaims) (alg : String)
  | checkJTI (jti : String)
  | revokeToken (jti : String) (ttl : Int)
  | consumeCode (codeHash : String)
  | usedCodeByHash (codeHash : String)
  | setRevocationData (codeHash jti : String) (familyID : Nat)
  | refreshByHash (tokenHash : String)
  | refreshByID (id : Nat)
  | revokeByID (id : Nat)
  | revokeFamilyByID (familyID : Nat)
  | insertRefresh (p : RefreshParams) (tokenHash : String)
  | setReplacedBy (tokenHash : String) (id : Nat)
  | insertDevice (orgID : UUID) (clientID deviceCodeHash userCode scope : String) (ttl : Int)
  | deviceByCode (deviceCodeHash : String)
  | deviceByUserCode (userCode : String)
  | deviceByID (id : Nat)
  | authorizeDevice (id : Nat) (userID : UUID)
  | denyDevice (id : Nat)
  | touchPoll (id : Nat) (interval : Int)
  | slowDown (id : Nat)
  | deleteDevice (id : Nat)
  | insertCIBA (r : CIBARequest)
  | cibaByID (authReqID : String)
  | approveCIBA (authReqID : String)
  | approveCIBAWithVPClaims (authReqID : String) (userID : UUID) (vpClaims : Json) (acr : String)
  | denyCIBA (authReqID : String)
  | cibaPoll (authReqID : String) (interval : Int)
  | deleteCIBA (authReqID : String) (consumed : Bool)
  | cleanupExpiredCIBA
  | ssoSession (id : String)

/-- What an operation answers. A `Bool` says that it went well; an `Option` is empty
when it failed or there is no such row. `usedCodeByHash` tells the two apart. The flag of
`deleteCIBA` tells a request that has yielded tokens from a denied one. -/
@[reducible] def TokenOp.Resp : TokenOp → Type
  | now => Int
  | newUUID => Nat
  | randomToken => Option String
  | lookup l => l.Answer
  | orgBySlug _ => Option OrgRow
  | clientByID _ => Option OIDCClient
  | serviceAccountByID _ => Option ServiceAccount
  | userByID _ => Option User
  | resolveSigner _ => Bool
  | issueAccessToken .. => Option (Signed × String)
  | issueIDToken .. => Option Signed
  | checkJTI _ | revokeToken .. => Bool
  | consumeCode _ => Option CodeRow
  | usedCodeByHash _ => Option (Option CodeRow)
  | setRevocationData .. => Bool
  | refreshByHash _ | refreshByID _ => Option RefreshRow
  | revokeByID _ | revokeFamilyByID _ | insertRefresh .. | setReplacedBy .. => Bool
  | insertDevice .. | deviceByCode _ | deviceByUserCode _ | deviceByID _ => Option DeviceCode
  | authorizeDevice .. | denyDevice _ => Bool
  | touchPoll .. => Option Bool
  | slowDown _ | deleteDevice _ | insertCIBA _ => Bool
  | cibaByID _ => Option CIBARequest
  | approveCIBA _ | approveCIBAWithVPClaims .. | denyCIBA _ | cibaPoll .. | deleteCIBA .. | cleanupExpiredCIBA => Bool
  | ssoSession _ => Option SSOSession

namespace TokenStore

variable (s : TokenStore)

def setNX (c : String → Cell Unit) (key : String) (ttl : Int) : Bool × (String → Cell Unit) :=
  match (c key).get s.now with
  | some _ => (false, c)
  | none => (true, Function.update c key (.set () (some (s.now + ttl))))

def insertCode (ac : AuthCode) (codeHash : String) : TokenStore :=
  if .code codeHash ∈ s.drawn then s
  else
    match s.codes.push { ac with codeHash := codeHash } with
    | none => s
    | some codes => { s with codes := codes, drawn := .code codeHash :: s.drawn }

def consumable (codeHash : String) (c : CodeRow) : Bool :=
  c.codeHash == codeHash && c.usedAt.isNone && decide (s.now < c.expiresAt)

def consumeCode (codeHash : String) : Option CodeRow × TokenStore :=
  let use (c : CodeRow) : CodeRow := { c with usedAt := some s.now }
  ((s.codes.find (s.consumable codeHash)).map use,
    { s with
      codes := s.codes.modify (s.consumable codeHash) use fun _ => rfl
      drawn := .code codeHash :: s.drawn })

def setRevocationData (codeHash jti : String) (familyID : Nat) : TokenStore :=
  { s with
    codes := s.codes.modify (·.codeHash == codeHash)
      (fun c => { c with accessTokenJTI := jti, refreshFamilyID := some familyID }) fun _ => rfl }

def revokeByID (id : Nat) : TokenStore :=
  { s with refresh := s.refresh.modify (·.id == id) (fun r => { r with revokedAt := some s.now }) fun _ => rfl }

def revokeFamilyByID (familyID : Nat) : TokenStore :=
  { s with
    refresh := s.refresh.modify (fun r => r.familyID == familyID && r.revokedAt.isNone)
      (fun r => { r with revokedAt := some s.now }) fun _ => rfl }

def insertRefresh (p : RefreshParams) (tokenHash : String) : Option TokenStore :=
  if s.refresh.list.any (·.tokenHash == tokenHash) then none
  else
    some { s with
      refresh := s.refresh.insertFresh (fun id => { p with id := id, tokenHash := tokenHash }) fun _ => rfl }

def setReplacedBy (tokenHash : String) (id : Nat) : TokenStore :=
  { s with
    refresh := s.refresh.modify (·.id == id)
      (fun r => { r with replacedBy := (s.refresh.find (·.tokenHash == tokenHash)).map (·.id) }) fun _ => rfl }

def insertDevice (orgID : UUID) (clientID deviceCodeHash userCode scope : String) (ttl : Int) :
    Option (DeviceCode × TokenStore) :=
  let c : DeviceCode :=
    { id := s.nextID
      orgID := orgID
      clientID := clientID
      deviceCodeHash := deviceCodeHash
      userCode := userCode
      scope := scope
      expiresAt := s.now + ttl }
  if .device deviceCodeHash ∈ s.drawn then none
  else
    (s.devices.push c).map fun devices =>
      (c, { s with nextID := s.nextID + 1, devices := devices, drawn := .device deviceCodeHash :: s.drawn })

def authorizeDevice (id : Nat) (userID : UUID) : TokenStore :=
  { s with
    devices := s.devices.modify (·.id == id) (fun c => { c with isAuthorized := some true, userID := some userID })
      fun _ => rfl }

def denyDevice (id : Nat) : TokenStore :=
  { s with devices := s.devices.modify (·.id == id) (fun c => { c with isAuthorized := some false }) fun _ => rfl }

def touchPoll (id : Nat) (interval : Int) : Option Bool × TokenStore :=
  match s.devices.find (·.id == id) with
  | none => (none, s)
  | some c =>
    (some (c.lastPolledAt.any fun last => decide (s.now - last < interval)),
      { s with devices := s.devices.modify (·.id == id) (fun c => { c with lastPolledAt := some s.now }) fun _ => rfl })

def slowDown (id : Nat) : TokenStore :=
  { s with
    devices := s.devices.modify (·.id == id) (fun c => { c with pollInterval := c.pollInterval + 5 }) fun _ => rfl }

def deleteDevice (id : Nat) : TokenStore := { s with devices := s.devices.delete (·.id == id) }

def insertCIBA (r : CIBARequest) : Option TokenStore :=
  if .ciba r.authReqID ∈ s.drawn then none
  else
    (s.ciba.push { r with status := .pending, vpClaims := none, acr := "" }).map fun ciba =>
      { s with ciba := ciba, drawn := .ciba r.authReqID :: s.drawn }

variable (authReqID : String)

def decideCIBA (p : CIBARequest → Bool) (f : CIBARequest → CIBARequest)
    (hf : ∀ r, (f r).authReqID = r.authReqID) : TokenStore :=
  { s with ciba := s.ciba.modify (fun r => r.authReqID == authReqID && r.status == .pending && p r) f hf }

def approveCIBA : TokenStore :=
  s.decideCIBA authReqID (fun _ => true) (fun r => { r with status := .approved }) fun _ => rfl

def approveCIBAWithVPClaims (userID : UUID) (vpClaims : Json) (acr : String) : TokenStore :=
  s.decideCIBA authReqID (fun r => r.userID == some userID && decide (s.now < r.expiresAt))
    (fun r => { r with status := .approved, vpClaims := some vpClaims, acr := acr }) fun _ => rfl

def denyCIBA : TokenStore :=
  s.decideCIBA authReqID (fun _ => true) (fun r => { r with status := .denied }) fun _ => rfl

def deleteCIBA : TokenStore := { s with ciba := s.ciba.delete (·.authReqID == authReqID) }

def cleanupExpiredCIBA : TokenStore := { s with ciba := s.ciba.delete fun r => decide (r.expiresAt < s.now) }

variable {s}

variable {id : Nat} {r : RefreshRow} {h : String} {p : RefreshParams}

theorem mem_revokeByID : r ∈ (s.revokeByID id).refresh.list ↔
    ∃ a ∈ s.refresh.list, r = if a.id == id then { a with revokedAt := some s.now } else a := by
  simp only [revokeByID, Rows.mem_modify]

theorem mem_revokeFamilyByID {familyID} : r ∈ (s.revokeFamilyByID familyID).refresh.list ↔
    ∃ a ∈ s.refresh.list,
      r = if a.familyID == familyID && a.revokedAt.isNone then { a with revokedAt := some s.now } else a := by
  simp only [revokeFamilyByID, Rows.mem_modify]

theorem mem_setReplacedBy : r ∈ (s.setReplacedBy h id).refresh.list ↔
    ∃ a ∈ s.refresh.list, r = if a.id == id then
      { a with replacedBy := (s.refresh.find (·.tokenHash == h)).map (·.id) } else a := by
  simp only [setReplacedBy, Rows.mem_modify]

theorem insertRefresh_none :
    s.insertRefresh p h = none ↔ ∃ r ∈ s.refresh.list, r.tokenHash = h := by
  unfold insertRefresh
  rw [ite_eq_left_iff]
  simp

theorem insertRefresh_some {t} (hi : s.insertRefresh p h = some t) :
    t = { s with refresh := t.refresh } ∧
      t.refresh.list = { p with id := s.refresh.freshKey, tokenHash := h } :: s.refresh.list := by
  unfold insertRefresh at hi
  split at hi
  · cases hi
  · cases hi; exact ⟨rfl, rfl⟩

end TokenStore

variable (d : OIDCHandler)

def issueAccessTokenOp (env : Env) (tc : MintConfig) (clientID scope : String)
    (user : Option UserClaims) (dpop : Option DPoPKey) (mtls : Option MTLSCert) (s : TokenStore) :
    Option (Signed × String) × TokenStore :=
  let jti := d.uuidString s.nextID
  match issueAccessToken d.jwt tc s.now jti clientID scope user dpop mtls env.fails with
  | none => (none, { s with nextID := s.nextID + 1 })
  | some r => (some r, { s with nextID := s.nextID + 1, minted := (jti, s.now + tc.accessTokenTTL) :: s.minted })

def unlessFails (env : Env) (s t : TokenStore) : Bool × TokenStore := (!env.fails, if env.fails then s else t)

def readOrFail {α : Type} (env : Env) (s : TokenStore) (r : Option α) : Option α × TokenStore :=
  (if env.fails then none else r, s)

def sem (env : Env) : (op : TokenOp) → TokenStore → op.Resp × TokenStore
  | .now, s => (s.now, s)
  | .newUUID, s => (s.nextID, { s with nextID := s.nextID + 1 })
  | .randomToken, s => readOrFail env s (some env.plain)
  | .lookup l, s => (env.answer l, s)
  | .orgBySlug slug, s => readOrFail env s (s.orgs.find? (·.slug == slug))
  | .clientByID clientID, s => readOrFail env s (s.clients.find? (·.clientID == clientID))
  | .serviceAccountByID clientID, s => readOrFail env s (s.serviceAccounts.find? (·.clientID == clientID))
  | .userByID id, s => readOrFail env s (s.users.find? (·.id == id))
  | .resolveSigner _, s => (!env.fails, s)
  | .issueAccessToken tc clientID scope user dpop mtls, s =>
    issueAccessTokenOp d env tc clientID scope user dpop mtls s
  | .issueIDToken tc clientID nonce user alg, s =>
    (issueIDToken d.jwt tc s.now (d.uuidString s.nextID) clientID nonce user alg env.fails,
      { s with nextID := s.nextID + 1 })
  | .checkJTI jti, s =>
    -- Redis being away counts as a replay
    if env.fails then (false, s)
    else ((s.setNX s.dpopJTIs jti 300).1, { s with dpopJTIs := (s.setNX s.dpopJTIs jti 300).2 })
  | .revokeToken jti ttl, s =>
    unlessFails env s
      { s with revoked := Function.update s.revoked jti (.set () (if 0 < ttl then some (s.now + ttl) else none)) }
  | .consumeCode h, s => if env.fails then (none, s) else s.consumeCode h
  | .usedCodeByHash h, s =>
    if env.fails then (none, s) else (some (s.codes.find fun c => c.codeHash == h && c.usedAt.isSome), s)
  | .setRevocationData h jti fam, s => unlessFails env s (s.setRevocationData h jti fam)
  | .refreshByHash h, s => readOrFail env s (s.refresh.find (·.tokenHash == h))
  | .refreshByID id, s => readOrFail env s (s.refresh.find (·.id == id))
  | .revokeByID id, s => unlessFails env s (s.revokeByID id)
  | .revokeFamilyByID fam, s => unlessFails env s (s.revokeFamilyByID fam)
  | .insertRefresh p h, s =>
    match if env.fails then none else s.insertRefresh p h with
    | none => (false, s)
    | some t => (true, t)
  | .setReplacedBy h id, s => unlessFails env s (s.setReplacedBy h id)
  | .insertDevice orgID clientID h userCode scope ttl, s =>
    match if env.fails then none else s.insertDevice orgID clientID h userCode scope ttl with
    | none => (none, s)
    | some (c, t) => (some c, t)
  | .deviceByCode h, s => readOrFail env s (s.devices.find (·.deviceCodeHash == h))
  | .deviceByUserCode code, s => readOrFail env s (s.devices.find (·.userCode == code))
  | .deviceByID id, s => readOrFail env s (s.devices.find (·.id == id))
  | .authorizeDevice id userID, s => unlessFails env s (s.authorizeDevice id userID)
  | .denyDevice id, s => unlessFails env s (s.denyDevice id)
  | .touchPoll id interval, s => if env.fails then (none, s) else s.touchPoll id interval
  | .slowDown id, s => unlessFails env s (s.slowDown id)
  | .deleteDevice id, s => unlessFails env s (s.deleteDevice id)
  | .insertCIBA r, s =>
    match if env.fails then none else s.insertCIBA r with
    | none => (false, s)
    | some t => (true, t)
  | .cibaByID id, s => readOrFail env s (s.ciba.find (·.authReqID == id))
  | .approveCIBA id, s => unlessFails env s (s.approveCIBA id)
  | .approveCIBAWithVPClaims id userID claims acr, s => unlessFails env s (s.approveCIBAWithVPClaims id userID claims acr)
  | .denyCIBA id, s => unlessFails env s (s.denyCIBA id)
  | .cibaPoll id interval, s =>
    if env.fails then (false, s)
    else ((s.setNX s.cibaPolls id interval).1, { s with cibaPolls := (s.setNX s.cibaPolls id interval).2 })
  | .deleteCIBA id _, s => unlessFails env s (s.deleteCIBA id)
  | .cleanupExpiredCIBA, s => unlessFails env s s.cleanupExpiredCIBA
  | .ssoSession id, s => readOrFail env s ((s.sso id).get s.now)

/-! ## Programs of the token endpoint -/

/-- `oauth` is a `TokenError`, `unavailable` a 503 and `internal` any other error. -/
inductive TokenErr where
  | oauth (code description : String)
  | unavailable
  | internal (msg : String)
  deriving DecidableEq

structure TokenSet where
  accessToken : Signed
  idToken : Option Signed := none
  refreshToken : String := ""
  tokenType : String
  expiresIn : Int
  scope : String
  authorizationDetails : List (GoMap Json) := []

abbrev TokenProg := Prog TokenOp TokenOp.Resp TokenErr

abbrev stmt {ε : Type} (op : TokenOp) : Prog TokenOp TokenOp.Resp ε op.Resp := Prog.call op

def execToken {α : Type} (ω : TokenOp → Env) (p : TokenProg α) (s : TokenStore) :
    Except TokenErr α × TokenStore :=
  p.exec (fun op => sem d (ω op) op) s

def numbered (ω : Nat → Env) (op : TokenOp) (x : TokenStore × Nat) : op.Resp × (TokenStore × Nat) :=
  ((sem d (ω x.2) op x.1).1, ((sem d (ω x.2) op x.1).2, x.2 + 1))

def execAlone {α : Type} (ω : Nat → Env) (p : TokenProg α) (s : TokenStore) :
    Except TokenErr α × TokenStore :=
  ((p.exec (numbered d ω) (s, 0)).1, (p.exec (numbered d ω) (s, 0)).2.1)

end Clavex

import Clavex.TokenEndpointSound

/-!
# Tenant isolation of the token endpoint

The organisation in the URL decides on issuer and keys; clients, service accounts, codes
and refresh tokens are found whichever organisation they belong to.
`token_isolated_iff` says when a token that is issued stays within one organisation.
-/

namespace Clavex

open Prog

section
variable {d : OIDCHandler} {s : TokenStore}

/-! ## Authentication -/

def presentsAttestation (r : ClientAuth) : Bool :=
  match r.assertionType with
  | .jwtClientAttestation => true
  | .jwtBearer => false
  | .none => decide (r.attestationHeader ≠ "")

def AuthenticatedAs (s : TokenStore) (r : ClientAuth) (attested : Bool) (clientID : String) : Prop :=
  ∃ cl, s.clients.find? (·.clientID == clientID) = some cl ∧
    (attested = true → ∃ org, s.orgs.find? (·.slug == r.orgSlug) = some org ∧ org.id = cl.orgID)

theorem activeClient_post (clientID) :
    (activeClient clientID).Post (sem d)
      (onOk fun cl t => t = s ∧ s.clients.find? (·.clientID == clientID) = some cl) s := by
  refine .read (fun _ => rfl) fun env => ?_
  cases hread : (sem d env (.clientByID clientID) s).1 with
  | none => exact trivial
  | some client => exact .require fun _ => ⟨rfl, readOrFail_some hread⟩

section
variable (r : ClientAuth)
include r

theorem authenticateClientByAssertion_post :
    (authenticateClientByAssertion d r).Post (sem d)
      (onOk fun a t => t = s ∧ AuthenticatedAs s r false a.clientID) s := by
  refine .require fun _ => ?_
  cases d.assertionIssuer r.clientAssertion with
  | none => exact trivial
  | some clientID =>
    refine .require fun _ => ?_
    refine .require fun _ => ?_
    refine .bind_ok (activeClient_post clientID) ?_
    rintro client t ⟨rfl, hclient⟩
    refine .require fun _ => ?_
    refine .read (fun _ => rfl) fun env => ?_
    refine .ofExcept fun _ _ => ⟨rfl, client, hclient, ?_⟩
    exact nofun

theorem authenticateAttested_post (clientID) :
    (authenticateAttested d r clientID).Post (sem d)
      (onOk fun a t => t = s ∧ AuthenticatedAs s r true a.clientID) s := by
  refine .bind_ok (activeClient_post clientID) ?_
  rintro client t ⟨rfl, hclient⟩
  refine .require fun _ => ?_
  refine .read (fun _ => rfl) fun env => ?_
  cases hread : (sem d env (.orgBySlug r.orgSlug) t).1 with
  | none => exact trivial
  | some org =>
    refine .require fun hown => ?_
    refine .read (fun _ => rfl) fun env' => ?_
    refine .ofExcept fun jkt _ => ⟨rfl, client, hclient, fun _ => ?_⟩
    exact ⟨org, readOrFail_some hread, hown.1⟩

theorem authenticateClientByAttestationAssertion_post :
    (authenticateClientByAttestationAssertion d r).Post (sem d)
      (onOk fun a t => t = s ∧ AuthenticatedAs s r true a.clientID) s := by
  refine .require fun _ => ?_
  split
  · refine .require fun _ => ?_
    split
    · exact trivial
    · exact .require fun _ => authenticateAttested_post r _
  · exact trivial

theorem authenticateBySecret_post :
    (authenticateBySecret d r).Post (sem d) (onOk fun a t => t = s ∧ AuthenticatedAs s r false a.clientID) s := by
  refine .require fun _ => ?_
  refine .bind_ok (activeClient_post _) ?_
  rintro client t ⟨rfl, hclient⟩
  have has : AuthenticatedAs t r false _ := ⟨client, hclient, nofun⟩
  cases client.tokenEndpointAuthMethod with
  | secretOrNone =>
    cases client.clientSecretHash with
    | none => exact ⟨rfl, has⟩
    | some hash => exact .require fun _ => ⟨rfl, has⟩
  | _ => exact trivial

theorem authenticateByCertificate_post (cert) :
    (authenticateByCertificate d r cert).Post (sem d)
      (onOk fun a t => t = s ∧ AuthenticatedAs s r false a.clientID) s := by
  refine .read (fun _ => rfl) fun env => ?_
  split
  · exact authenticateBySecret_post r
  · rename_i cl hcl
    have hread := (Option.filter_eq_some_iff.mp hcl).1
    exact .require fun _ => ⟨rfl, cl, readOrFail_some hread, nofun⟩

theorem authenticateClient_post :
    (authenticateClient d r).Post (sem d)
      (onOk fun a t => t = s ∧ AuthenticatedAs s r (presentsAttestation r) a.clientID) s := by
  unfold authenticateClient presentsAttestation
  cases r.assertionType with
  | jwtBearer => exact authenticateClientByAssertion_post r
  | jwtClientAttestation => exact authenticateClientByAttestationAssertion_post r
  | none =>
    by_cases hheader : r.attestationHeader = ""
    · simp only [hheader, ne_eq, not_true_eq_false, ite_false, decide_false]
      cases r.peerCert with
      | none => exact authenticateBySecret_post r
      | some cert =>
        by_cases hid : r.clientID = ""
        · simp only [hid, ite_true]
          exact authenticateBySecret_post r
        · simp only [hid, ite_false]
          exact authenticateByCertificate_post r cert
    · simp only [hheader, ne_eq, not_false_eq_true, ite_true, decide_true]
      exact authenticateClientByAttestationAssertion_post r

end

theorem checkDPoP_post (headers : List String) (htm htu : String) :
    (checkDPoP d headers htm htu).Post (sem d) (onOk fun _ t => ∃ j, t = { s with dpopJTIs := j }) s := by
  refine .require fun _ => ?_
  refine .read (fun _ => rfl) fun env => ?_
  refine .ofExcept fun key _ => ?_
  cases key with
  | none => exact ⟨s.dpopJTIs, rfl⟩
  | some k =>
    refine .call fun env' => .require fun _ => ?_
    simp only [sem]
    split
    · exact ⟨s.dpopJTIs, rfl⟩
    · exact ⟨_, rfl⟩

/-! ## Before the grant -/

def authenticated (d : OIDCHandler) (r : TokenRequest) : TokenProg (MintConfig × Caller) := do
  let tc ← verificationTC d r.orgSlug
  let dpop ← checkDPoP d r.proof.headers r.proof.htm r.proof.htu
  let x ← caller d r dpop HTTPError.message
  return (tc, x)

structure Admitted (d : OIDCHandler) (s : TokenStore) (r : TokenRequest) (tc : MintConfig) (x : Caller)
    (t : TokenStore) : Prop where
  store : ∃ j, t = { s with dpopJTIs := j }
  signs : SignsFor d s.orgs r.orgSlug tc
  slug : x.orgSlug = r.orgSlug
  client : AuthenticatedAs s r.toClientAuth (presentsAttestation r.toClientAuth) x.clientID

theorem caller_post (r dpop text) :
    (caller d r dpop text).Post (sem d) (onOk fun x t => t = s ∧ x.orgSlug = r.orgSlug ∧
      AuthenticatedAs s r.toClientAuth (presentsAttestation r.toClientAuth) x.clientID) s := by
  refine .bind_ok (.mapError (authenticateClient_post r.toClientAuth)) ?_
  rintro a t ⟨rfl, ha⟩
  exact ⟨rfl, rfl, ha⟩

theorem authenticated_post (r) : (authenticated d r).Post (sem d) (onOk fun a t => Admitted d s r a.1 a.2 t) s := by
  refine .bind_ok (verificationTC_post r.orgSlug) ?_
  rintro tc t ⟨rfl, htc⟩
  refine .bind_ok (checkDPoP_post r.proof.headers r.proof.htm r.proof.htu) ?_
  rintro dpop _ ⟨j, rfl⟩
  refine .bind_ok (caller_post r dpop HTTPError.message) ?_
  rintro x _ ⟨rfl, hslug, hx⟩
  exact ⟨⟨j, rfl⟩, htc, hslug, hx⟩

/-! ## The grants -/

def TokenStore.rotatable (s : TokenStore) (tokenHash : String) : Option RefreshRow :=
  (s.refresh.find (·.tokenHash == tokenHash)).bind fun rt =>
    if rt.revokedAt.isNone then some rt
    else rt.replacedBy.bind fun id => (s.refresh.find (·.id == id)).filter (·.revokedAt.isNone)

def userOf (s : TokenStore) (id : UUID) : Option User := s.users.find? (·.id == id)

def MintedAt (d : OIDCHandler) (s : TokenStore) (orgSlug : String) (user : Option User) (tok : Signed) : Prop :=
  ∃ tc, SignsFor d s.orgs orgSlug tc ∧ MintedWith d tc user tok

theorem consumed_user (env) (h) :
    (sem d env (.consumeCode h) s).2.users = s.users ∧ ∀ ac, (sem d env (.consumeCode h) s).1 = some ac →
      ∃ row, s.codes.find (s.consumable h) = some row ∧ ac.userID = row.userID := by
  simp only [sem]
  cases env.fails with
  | true => exact ⟨rfl, by simp⟩
  | false =>
    refine ⟨rfl, fun ac hac => ?_⟩
    obtain ⟨row, hrow, rfl⟩ := Option.map_eq_some_iff.mp hac
    exact ⟨row, hrow, rfl⟩

variable {tc : MintConfig} {orgSlug : String} {r : TokenRequest} {ω : Nat → Env}

theorem exchangeCode_post (x code redirectURI codeVerifier alg) (htc : SignsFor d s.orgs orgSlug tc)
    (hookURL : String) :
    (exchangeCode d x code redirectURI codeVerifier alg tc hookURL).Post (sem d)
      (onOk fun ts _ => ∃ row, s.codes.find (s.consumable (d.hashString code)) = some row ∧
        MintedAt d s orgSlug (userOf s row.userID) ts.accessToken) s := by
  refine .call fun env => ?_
  obtain ⟨husers, hcode⟩ := consumed_user env (d.hashString code)
  revert hcode
  cases (sem d env (.consumeCode (d.hashString code)) s).1 with
  | none => exact fun _ => trivial
  | some ac =>
    intro hcode
    obtain ⟨row, hrow, huserID⟩ := hcode ac rfl
    refine .read (fun _ => rfl) fun _ => .ofExcept fun _ _ => ?_
    refine .bind_ok (activeUser_post ac.userID) ?_
    rintro user t ⟨rfl, huser⟩
    rw [husers, huserID] at huser
    refine .bind_ok (codeClaims_post x.clientID hookURL ac user) ?_
    intro uc t huc
    refine .call fun env' => ?_
    cases hmint : (sem d env' (.issueAccessToken tc x.clientID ac.scope (some uc) x.dpop x.mtls) t).1 with
    | none => exact trivial
    | some r =>
      have hminted : MintedAt d s orgSlug (userOf s row.userID) r.1 := by
        rw [show userOf s row.userID = some user from huser]
        exact ⟨tc, htc, mintedWith_of_sem (.some huc) hmint⟩
      -- what follows only adds to the answer
      refine .bind_ok (.any _ _) fun idToken t' _ => .call fun _ => .call fun _ => ?_
      refine .bind_ok (.any _ _) fun refreshToken t'' _ => .call fun _ => ?_
      exact .require fun _ => ⟨row, hrow, hminted⟩

theorem authorizationCodeGrant_post (x) (htc : Unsigned d x.orgSlug tc) (code redirectURI codeVerifier) :
    (authorizationCodeGrant d x tc code redirectURI codeVerifier).Post (sem d)
      (onOk fun ts _ => ∃ row, s.codes.find (s.consumable (d.hashString code)) = some row ∧
        MintedAt d s x.orgSlug (userOf s row.userID) ts.accessToken) s := by
  refine .read (fun _ => rfl) fun _ => .ofExcept fun _ _ => ?_
  refine .read (fun _ => rfl) fun env => ?_
  refine .bind_ok (applyOrgOverrides_post htc (fun o ho => readOrFail_some ho) _) ?_
  rintro tc' t ⟨rfl, htc'⟩
  refine .bind_ok (.attempt (exchangeCode_post x code redirectURI codeVerifier _ htc' _)) ?_
  intro r t' hr
  cases r with
  | ok ts => exact hr ts rfl
  | error e =>
    -- an error stays one, whatever the replay handling does
    dsimp only
    split
    · exact .bind_ok (.any _ _) fun _ _ _ => trivial
    · exact trivial

theorem replayed_post {α} (familyID) {Q} :
    (replayed familyID : TokenProg α).Post (sem d) (onOk Q) s := .call fun _ => trivial

theorem currentToken_post (rawRefreshToken) :
    (currentToken d rawRefreshToken).Post (sem d)
      (onOk fun rt t => t = s ∧ s.rotatable (d.hashString rawRefreshToken) = some rt) s := by
  refine .read (fun _ => rfl) fun env => ?_
  cases hread : (sem d env (.refreshByHash (d.hashString rawRefreshToken)) s).1 with
  | none => exact trivial
  | some rt =>
    have hrow : s.refresh.find (·.tokenHash == d.hashString rawRefreshToken) = some rt := readOrFail_some hread
    dsimp only
    split
    · rename_i hlive
      refine ⟨rfl, ?_⟩
      simp only [TokenStore.rotatable, hrow, Option.bind_some, hlive, ite_true]
    · rename_i hrevoked
      cases hreplaced : rt.replacedBy with
      | none => exact replayed_post _
      | some id =>
        refine .read (fun _ => rfl) fun env' => ?_
        cases hnext : (sem d env' (.refreshByID id) s).1 with
        | none => exact replayed_post _
        | some successor =>
          dsimp only
          split
          · rename_i hlive
            refine ⟨rfl, ?_⟩
            simp only [TokenStore.rotatable, hrow, Option.bind_some, hrevoked, hreplaced]
            rw [show s.refresh.find (·.id == id) = some successor from readOrFail_some hnext]
            simp [hlive]
          · exact replayed_post _

theorem issueSuccessor_post (x) (htc : SignsFor d s.orgs orgSlug tc) (hookURL : String) (rt) :
    (issueSuccessor d x tc hookURL rt).Post (sem d)
      (onOk fun ts _ => MintedAt d s orgSlug (rt.userID.bind (userOf s)) ts.accessToken) s := by
  refine .bind_ok (refreshClaims_post x.clientID hookURL rt) ?_
  rintro uc t ⟨user, huc, huser⟩
  refine .ofExcept fun _ _ => ?_
  refine .call fun env => ?_
  cases hmint : (sem d env (.issueAccessToken tc x.clientID rt.scope uc x.dpop x.mtls) t).1 with
  | none => exact trivial
  | some r =>
    refine .bind_ok (.any _ _) fun refreshToken t' _ => ⟨tc, htc, ?_⟩
    rw [show rt.userID.bind (userOf s) = user from huser.symm]
    exact mintedWith_of_sem huc hmint

theorem refreshTokenGrant_post (x) (htc : Unsigned d x.orgSlug tc) (refreshToken) :
    (refreshTokenGrant d x tc refreshToken).Post (sem d)
      (onOk fun ts _ => ∃ rt, s.rotatable (d.hashString refreshToken) = some rt ∧
        MintedAt d s x.orgSlug (rt.userID.bind (userOf s)) ts.accessToken) s := by
  refine .read (fun _ => rfl) fun _ => .ofExcept fun _ _ => ?_
  refine .read (fun _ => rfl) fun env => ?_
  refine .bind_ok (applyOrgOverrides_post htc (fun o ho => readOrFail_some ho) _) ?_
  rintro tc' _ ⟨rfl, htc'⟩
  refine .bind_ok (currentToken_post refreshToken) ?_
  rintro rt t ⟨rfl, hrt⟩
  refine .read (fun _ => rfl) fun _ => .ofExcept fun _ _ => ?_
  refine .call fun env' => .require fun _ => ?_
  -- the tables that are read next stay as they are
  rcases unlessFails_cases t env' (t.revokeByID rt.id) with ⟨heq, -⟩ | ⟨heq, -⟩ <;>
    rw [show sem d env' (.revokeByID rt.id) t = _ from heq]
  · refine .mono ?_ (issueSuccessor_post x htc' _ rt)
    rintro (e | ts) t' hminted
    · exact trivial
    · exact ⟨rt, hrt, hminted⟩
  · refine .mono ?_ (issueSuccessor_post x (s := t.revokeByID rt.id) htc' _ rt)
    rintro (e | ts) t' hminted
    · exact trivial
    · exact ⟨rt, hrt, hminted⟩

theorem exchangeClientCredentials_post (clientID scope) (htc : SignsFor d s.orgs orgSlug tc) (dpop mtls) :
    (exchangeClientCredentials clientID scope tc dpop mtls).Post (sem d)
      (onOk fun ts _ => MintedAt d s orgSlug none ts.accessToken) s := by
  refine .call fun env => ?_
  cases hmint : (sem d env (.issueAccessToken tc clientID _ none dpop mtls) s).1 with
  | none => exact trivial
  | some r => exact ⟨tc, htc, mintedWith_of_sem .none hmint⟩

theorem clientCredentialsGrant_post (x) (htc : SignsFor d s.orgs x.orgSlug tc) (scope) :
    (clientCredentialsGrant d x tc scope).Post (sem d) (onOk fun ts _ => MintedAt d s x.orgSlug none ts.accessToken) s := by
  refine .read (fun _ => rfl) fun env => ?_
  cases (sem d env (.clientByID x.clientID) s).1 with
  | none => exact exchangeClientCredentials_post x.clientID scope htc x.dpop x.mtls
  | some cl =>
    refine .read (fun _ => rfl) fun env' => ?_
    refine .bind_ok (applyOrgOverrides_post htc.unsigned (fun o ho => readOrFail_some ho) _) ?_
    rintro tc' t ⟨rfl, htc'⟩
    exact exchangeClientCredentials_post x.clientID _ htc' x.dpop x.mtls

theorem serviceAccountGrant_post (htc : SignsFor d s.orgs orgSlug tc) (clientID secret scope dpop mtls) :
    (serviceAccountGrant d tc clientID secret scope dpop mtls).Post (sem d)
      (onOk fun ts _ => MintedAt d s orgSlug none ts.accessToken) s := by
  refine .read (fun _ => rfl) fun env => ?_
  cases (sem d env (.serviceAccountByID clientID) s).1 with
  | none => exact trivial
  | some sa =>
    refine .require fun _ => ?_
    exact exchangeClientCredentials_post _ _ htc dpop mtls

/-! ## Successful requests -/

def viaServiceAccount (r : TokenRequest) : Bool := r.grantType == .clientCredentials && hasPrefix r.clientID "sa_"

def grantFor (d : OIDCHandler) (r : TokenRequest) (a : MintConfig × Caller) : TokenProg TokenSet :=
  match r.grantType with
  | .authorizationCode => authorizationCodeGrant d a.2 a.1 r.code r.redirectURI r.codeVerifier
  | .refreshToken => refreshTokenGrant d a.2 a.1 r.refreshToken
  | _ => clientCredentialsGrant d a.2 a.1 r.scope

def ownGrant (r : TokenRequest) : Bool := r.grantType != .deviceCode && r.grantType != .ciba

theorem token_eq (hg : ownGrant r = true) (hsa : viaServiceAccount r = false) :
    token d r = authenticated d r >>= grantFor d r := by
  unfold ownGrant at hg
  unfold viaServiceAccount at hsa
  simp only [token, authenticated, grantFor, bind_assoc, pure_bind]
  cases hgt : r.grantType with
  | authorizationCode | refreshToken => rfl
  | clientCredentials =>
    rw [hgt] at hsa
    have hid : ¬ hasPrefix r.clientID "sa_" = true := fun h => by rw [h] at hsa; cases hsa
    simp [hid]
  | deviceCode | ciba => rw [hgt] at hg; cases hg

def principalOrg (d : OIDCHandler) (ω : Nat → Env) (r : TokenRequest) (s : TokenStore) : Option UUID :=
  if viaServiceAccount r then (s.serviceAccounts.find? (·.clientID == r.clientID)).map (·.orgID)
  else
    match (execAlone d ω (authenticated d r) s).1 with
    | .ok (_, x) => (s.clients.find? (·.clientID == x.clientID)).map (·.orgID)
    | .error _ => none

def tokenUser (d : OIDCHandler) (r : TokenRequest) (s : TokenStore) : Option User :=
  match r.grantType with
  | .authorizationCode => (s.codes.find (s.consumable (d.hashString r.code))).bind fun ac => userOf s ac.userID
  | .refreshToken => (s.rotatable (d.hashString r.refreshToken)).bind fun rt => rt.userID.bind (userOf s)
  | _ => none

/-- The access token is signed under the organisation in the URL, and the client and the
user are of that organisation. -/
def TokenIsolated (d : OIDCHandler) (ω : Nat → Env) (r : TokenRequest) (s : TokenStore) (tok : Signed) : Prop :=
  ∃ org, s.orgs.find? (·.slug == r.orgSlug) = some org ∧ principalOrg d ω r s = some org.id ∧
    (∀ user, tokenUser d r s = some user → user.orgID = org.id) ∧ MintedUnder d org (tokenUser d r s) tok

/-- The client was checked against the URL, or is of its organisation all the same; and the
user is of the client's organisation. -/
def tenantCond (d : OIDCHandler) (ω : Nat → Env) (r : TokenRequest) (s : TokenStore) : Bool :=
  ((!viaServiceAccount r && presentsAttestation r.toClientAuth) ||
    (s.orgs.find? (·.slug == r.orgSlug)).any fun org => principalOrg d ω r s == some org.id) &&
  (tokenUser d r s).all fun user => principalOrg d ω r s == some user.orgID

theorem tenantCond_iff : tenantCond d ω r s = true ↔
    ((viaServiceAccount r = false ∧ presentsAttestation r.toClientAuth = true) ∨
      ∃ org, s.orgs.find? (·.slug == r.orgSlug) = some org ∧ principalOrg d ω r s = some org.id) ∧
    ∀ user, tokenUser d r s = some user → principalOrg d ω r s = some user.orgID := by
  unfold tenantCond
  rw [Bool.and_eq_true, Bool.or_eq_true, Option.any_eq_true, Option.all_eq_true]
  simp only [Bool.and_eq_true, Bool.not_eq_true', beq_iff_eq]

theorem grantFor_post (hg : ownGrant r = true) {x t} (ha : Admitted d s r tc x t) :
    (grantFor d r (tc, x)).Post (sem d) (onOk fun ts _ => MintedAt d s r.orgSlug (tokenUser d r s) ts.accessToken) t := by
  obtain ⟨⟨j, rfl⟩, hsigns, hslug, -⟩ := ha
  rw [← hslug] at hsigns ⊢
  unfold grantFor tokenUser
  unfold ownGrant at hg
  cases hgt : r.grantType with
  | authorizationCode =>
    refine .mono ?_ (authorizationCodeGrant_post x hsigns.unsigned r.code r.redirectURI r.codeVerifier)
    rintro (e | ts) t' h
    · exact trivial
    obtain ⟨row, hrow, hminted⟩ := h
    have hfind : s.codes.find (s.consumable (d.hashString r.code)) = some row := hrow
    rw [hfind]
    exact hminted
  | refreshToken =>
    refine .mono ?_ (refreshTokenGrant_post x hsigns.unsigned r.refreshToken)
    rintro (e | ts) t' h
    · exact trivial
    obtain ⟨rt, hrt, hminted⟩ := h
    have hfind : s.rotatable (d.hashString r.refreshToken) = some rt := hrt
    rw [hfind]
    exact hminted
  | clientCredentials => exact clientCredentialsGrant_post (s := { s with dpopJTIs := j }) x hsigns r.scope
  | deviceCode | ciba => rw [hgt] at hg; cases hg

theorem token_serviceAccount_post (hsa : viaServiceAccount r = true) :
    (token d r).Post (sem d) (onOk fun ts _ => MintedAt d s r.orgSlug (tokenUser d r s) ts.accessToken) s := by
  unfold viaServiceAccount at hsa
  rw [Bool.and_eq_true, beq_iff_eq] at hsa
  obtain ⟨hgt, hid⟩ := hsa
  unfold token tokenUser
  refine .bind_ok (verificationTC_post r.orgSlug) ?_
  rintro tc t ⟨rfl, htc⟩
  refine .bind_ok (checkDPoP_post r.proof.headers r.proof.htm r.proof.htu) ?_
  rintro dpop _ ⟨j, rfl⟩
  rw [hgt]
  simp only [hid, ite_true]
  exact serviceAccountGrant_post (s := { t with dpopJTIs := j }) htc r.clientID _ r.scope dpop r.mtls

theorem token_ok {ts} (hg : ownGrant r = true) (hok : (execAlone d ω (token d r) s).1 = .ok ts) :
    MintedAt d s r.orgSlug (tokenUser d r s) ts.accessToken ∧
    (viaServiceAccount r = false → presentsAttestation r.toClientAuth = true →
      ∃ org, s.orgs.find? (·.slug == r.orgSlug) = some org ∧ principalOrg d ω r s = some org.id) := by
  cases hsa : viaServiceAccount r with
  | true =>
    have hpost := execAlone_post (ω := ω) (token_serviceAccount_post (d := d) (s := s) hsa)
    rw [hok] at hpost
    exact ⟨hpost, nofun⟩
  | false =>
    rw [token_eq hg hsa] at hok
    have hpost := execAlone_bind (ω := ω) (authenticated_post (d := d) (s := s) r)
      (Q := fun ts _ => MintedAt d s r.orgSlug (tokenUser d r s) ts.accessToken ∧
        (presentsAttestation r.toClientAuth = true →
          ∃ org, s.orgs.find? (·.slug == r.orgSlug) = some org ∧ principalOrg d ω r s = some org.id))
      (f := grantFor d r) ?_
    · rw [hok] at hpost
      exact ⟨hpost.1, fun _ => hpost.2⟩
    · rintro ⟨tc, x⟩ t hauth hadmitted
      refine .mono ?_ (grantFor_post hg hadmitted)
      rintro (e | ts) t' hminted
      · exact trivial
      refine ⟨hminted, fun hatt => ?_⟩
      obtain ⟨cl, hcl, horg⟩ := hadmitted.client
      obtain ⟨org, hfind, hid⟩ := horg hatt
      refine ⟨org, hfind, ?_⟩
      unfold principalOrg
      rw [hsa, hauth, hid]
      simp [hcl]

end

theorem token_isolated_iff (d : OIDCHandler) (ω : Nat → Env) (r : TokenRequest) (s : TokenStore) (ts : TokenSet)
    (hg : ownGrant r = true) (hok : (execAlone d ω (token d r) s).1 = .ok ts) :
    TokenIsolated d ω r s ts.accessToken ↔ tenantCond d ω r s = true := by
  obtain ⟨⟨tc, hsigns, hminted⟩, hattested⟩ := token_ok hg hok
  rw [tenantCond_iff]
  constructor
  · rintro ⟨org, horg, hprincipal, huser, -⟩
    refine ⟨.inr ⟨org, horg, hprincipal⟩, fun user hu => ?_⟩
    rw [huser user hu]
    exact hprincipal
  · rintro ⟨hclient, huser⟩
    have hown : ∃ org, s.orgs.find? (·.slug == r.orgSlug) = some org ∧ principalOrg d ω r s = some org.id := by
      rcases hclient with ⟨hsa, hatt⟩ | hown
      · exact hattested hsa hatt
      · exact hown
    obtain ⟨org, horg, hprincipal⟩ := hown
    refine ⟨org, horg, hprincipal, fun user hu => ?_, hminted.under hsigns horg⟩
    have hsame := huser user hu
    rw [hprincipal] at hsame
    exact (Option.some.inj hsame).symm

def sharedStore : TokenStore :=
  { twoOrgs with
    serviceAccounts := [{ id := 9, orgID := 2, clientID := "sa_bot", clientSecretHash := "secret" }]
    codes := Rows.empty.insert
      { orgID := 2, clientID := "spy", userID := 8, redirectURI := "https://spy/cb", scope := "openid", nonce := ""
        pkceChallenge := "", pkceMethod := "", authTime := 0, expiresAt := 300, authorizationDetails := []
        acr := "", claimsParam := "", extraClaims := ∅, dpopJKT := "", codeHash := "code" } List.not_mem_nil
    refresh := (Rows.empty.insertFresh (fun id =>
      { id := id, tokenHash := "theirs", orgID := 2, clientID := "spy", userID := some 8, familyID := 0
        scope := "openid", expiresAt := 3600 }) fun _ => rfl).insertFresh (fun id =>
      { id := id, tokenHash := "ours", orgID := 1, clientID := "app", userID := some 7, familyID := 1
        scope := "openid", expiresAt := 3600 }) fun _ => rfl }

def smoothly (_ : Nat) : Env := { plain := "new" }

def homeRequest : TokenRequest :=
  { orgSlug := "acme", clientID := "app", grantType := .refreshToken, refreshToken := "ours" }

theorem token_isolated_iff_home : ∃ ts, (execAlone plainHandler smoothly (token plainHandler homeRequest) sharedStore).1 = .ok ts ∧
    TokenIsolated plainHandler smoothly homeRequest sharedStore ts.accessToken := by
  have hok : (execAlone plainHandler smoothly (token plainHandler homeRequest) sharedStore).1.isOk = true := by
    decide +kernel
  cases hrun : (execAlone plainHandler smoothly (token plainHandler homeRequest) sharedStore).1 with
  | error e =>
    rw [hrun] at hok
    cases hok
  | ok ts =>
    refine ⟨ts, rfl, ?_⟩
    exact (token_isolated_iff plainHandler smoothly homeRequest sharedStore ts rfl hrun).mpr (by decide +kernel)

def strayRequests : List TokenRequest :=
  [{ orgSlug := "acme", clientID := "spy", grantType := .authorizationCode, code := "code"
     redirectURI := "https://spy/cb" },
    { orgSlug := "acme", clientID := "spy", grantType := .refreshToken, refreshToken := "theirs" },
    { orgSlug := "acme", clientID := "spy", grantType := .clientCredentials },
    { orgSlug := "acme", clientID := "sa_bot", clientSecret := "secret", grantType := .clientCredentials }]

def issuedTo (r : TokenRequest) : Option (Keys × String × String) :=
  match (execAlone plainHandler smoothly (token plainHandler r) sharedStore).1 with
  | .ok ts => do
    let iss ← (ts.accessToken.claims.lookup "iss").bind Json.asString
    let sub ← (ts.accessToken.claims.lookup "sub").bind Json.asString
    return (ts.accessToken.keys, iss, sub)
  | .error _ => none

theorem stray_requests_get_tokens :
    strayRequests.map issuedTo =
      ["8", "8", "spy", "sa:9"].map (fun sub => some (.tenant 1, "https://id/acme", sub)) ∧
    strayRequests.map (principalOrg plainHandler smoothly · sharedStore) = List.replicate 4 (some 2) := by
  decide +kernel

end Clavex

import Clavex.TokenEndpoint
import Clavex.Pool

/-!
# The code grant as a protocol

The phases of a request with an authorization code: on its way to the exchange, owner of
the code it has consumed, or handling a replay. `authorizationCodeGrant_follows` says
that the program keeps to them whatever the stores answer.
-/

namespace Clavex

open Prog

/-! ## Quiet programs -/

section
variable {ε α : Type}

def Quiet (p : Prog TokenOp TokenOp.Resp ε α) : Prop := p.Uses fun op => op.quiet = true

theorem Quiet.ret (a) : Quiet (ret a : Prog TokenOp TokenOp.Resp ε α) := trivial

theorem Quiet.fail (e) : Quiet (fail e : Prog TokenOp TokenOp.Resp ε α) := trivial

theorem Quiet.ask {op} (h : op.quiet = true) {k : op.Resp → Prog TokenOp TokenOp.Resp ε α}
    (hk : ∀ r, Quiet (k r)) : Quiet (.ask op k) := ⟨h, hk⟩

end

theorem activeUser_quiet (id) : Quiet (activeUser id) := by
  refine .ask rfl (Option.forall.2 ⟨Quiet.fail _, fun user => ?_⟩)
  exact .require (Quiet.ret _)

theorem enrichClaims_quiet (hookURL clientID scope : String) (uc) : Quiet (enrichClaims hookURL clientID scope uc) := by
  unfold enrichClaims
  split
  · exact .ret _
  · exact .ask rfl fun _ => .ret _

variable (d : OIDCHandler)

theorem codeClaims_quiet (clientID hookURL) (ac user) : Quiet (codeClaims d clientID hookURL ac user) := by
  simp only [codeClaims, call_bind]
  refine .ask rfl fun _ => Quiet.ask rfl fun _ => Quiet.ask rfl fun _ => Quiet.ask rfl fun _ => ?_
  exact .bind (enrichClaims_quiet ..) fun _ => Quiet.ask rfl fun _ => Quiet.ret _

theorem refreshClaims_quiet (clientID hookURL) (rt) : Quiet (refreshClaims d clientID hookURL rt) := by
  unfold refreshClaims
  cases rt.userID with
  | none => exact Quiet.ret _
  | some id =>
    simp only [call_bind]
    refine .bind (activeUser_quiet id) fun user => Quiet.ask rfl fun _ => Quiet.ask rfl fun _ => ?_
    exact .bind (enrichClaims_quiet ..) fun _ => Quiet.ask rfl fun _ => Quiet.ret _

theorem issueIDTokenFor_quiet (tc clientID nonce alg uc accessToken) : Quiet (issueIDTokenFor d tc clientID nonce alg uc accessToken) := by
  refine .ask rfl (Option.forall.2 ⟨.fail _, fun tok => ?_⟩)
  exact .ret _

theorem codeIDToken_quiet (tc clientID alg ac uc accessToken) : Quiet (codeIDToken d tc clientID alg ac uc accessToken) := by
  unfold codeIDToken
  split
  · exact .bind (issueIDTokenFor_quiet ..) fun _ => Quiet.ret _
  · exact Quiet.ret _

theorem applyOrgOverrides_quiet (tc org cl) : Quiet (applyOrgOverrides d tc org cl) := by
  unfold applyOrgOverrides
  split
  · exact Quiet.ret _
  · cases org with
    | none => exact Quiet.fail _
    | some org => exact Quiet.ask rfl fun _ => .require (Quiet.ret _)

/-! ## Phases -/

structure CodeRequest where
  caller : Caller
  tc : MintConfig
  code : String
  (redirectURI codeVerifier : String := "")

/-- From `spent` to `recorded` the request owns the code `ac`. A request that is
`turnedAway` has met a failure, or has not got as far as the exchange. -/
inductive CodePhase where
  | entered
  | client (cl : Option OIDCClient)
  | turnedAway
  | spent (ac : CodeRow)
  | minted (ac : CodeRow) (tok : Signed) (jti : String)
  | named (ac : CodeRow) (tok : Signed) (jti : String) (familyID : Nat)
  | stored (ac : CodeRow) (tok : Signed) (jti : String) (familyID : Nat) (plain : String)
  | recorded (ac : CodeRow) (tok : Signed) (jti : String) (familyID : Nat) (plain : String)
  | refused (cl : Option OIDCClient)
  | unmatched
  | found (ac : CodeRow)
  | tokenRevoked (ac : CodeRow)
  | familyRevoked (ac : CodeRow)

namespace CodePhase

def code : CodePhase → Option CodeRow
  | spent ac | minted ac .. | named ac .. | stored ac .. | recorded ac .. => some ac
  | _ => none

def Ended : CodePhase → Prop
  | turnedAway | unmatched => True
  | tokenRevoked ac => ac.refreshFamilyID = none
  | familyRevoked _ => True
  | φ => φ.code.isSome = true

theorem ended_of_code {φ : CodePhase} {ac} (h : φ.code = some ac) : φ.Ended := by
  cases φ <;> first
    | exact rfl
    | cases h

end CodePhase

structure CodeBound (d : OIDCHandler) (q : CodeRequest) (ac : AuthCode) : Prop where
  client : ac.clientID = q.caller.clientID
  redirect : ac.redirectURI = q.redirectURI
  verifier : verifyPKCE d ac.pkceChallenge q.codeVerifier = .ok ()
  key : ac.dpopJKT = "" ∨ q.caller.dpop.map (·.jkt) = some ac.dpopJKT

theorem checkCodeKey_ok {jkt dpop} (h : checkCodeKey jkt dpop = .ok ()) : jkt = "" ∨ dpop.map (·.jkt) = some jkt := by
  unfold checkCodeKey at h
  split at h
  · exact .inl ‹_›
  cases dpop with
  | none => cases h
  | some k =>
    simp only at h
    split at h
    · cases h
    · rename_i hk
      exact .inr (congrArg some (not_not.mp hk))

theorem checkCode_ok {d q ac now} (h : checkCode d q.caller q.redirectURI q.codeVerifier ac now = .ok ()) :
    CodeBound d q ac.toAuthCode := by
  unfold checkCode at h
  split at h
  · cases h
  rename_i hclient
  split at h
  · cases h
  rename_i hredirect
  split at h
  · cases h
  · split at h
    · cases h
    · rename_i hpkce
      exact ⟨not_not.mp hclient, not_not.mp hredirect, hpkce, checkCodeKey_ok h⟩

theorem presentsCode_iff {d q cl ac} :
    presentsCode d q.caller cl q.redirectURI q.codeVerifier ac = true ↔
      ac.accessTokenJTI ≠ "" ∧ (∃ c, cl = some c ∧ ac.orgID = c.orgID) ∧ CodeBound d q ac.toAuthCode := by
  have hkey : (ac.dpopJKT == "" || q.caller.dpop.any (fun k => k.jkt == ac.dpopJKT)) = true ↔
      ac.dpopJKT = "" ∨ q.caller.dpop.map (·.jkt) = some ac.dpopJKT := by
    cases q.caller.dpop <;> simp
  have horg : cl.any (fun c => ac.orgID == c.orgID) = true ↔ ∃ c, cl = some c ∧ ac.orgID = c.orgID := by
    cases cl <;> simp
  have hpkce : (verifyPKCE d ac.pkceChallenge q.codeVerifier).isOk = true ↔
      verifyPKCE d ac.pkceChallenge q.codeVerifier = .ok () := by
    cases verifyPKCE d ac.pkceChallenge q.codeVerifier <;> simp [Except.isOk, Except.toBool]
  unfold presentsCode
  simp only [Bool.and_eq_true, hkey, horg, hpkce, bne_iff_ne, beq_iff_eq]
  constructor
  · intro h
    exact ⟨h.1.1.1.1.1, h.1.1.1.1.2, h.1.1.1.2, h.1.1.2, h.1.2, h.2⟩
  · intro h
    exact ⟨⟨⟨⟨⟨h.1, h.2.1⟩, h.2.2.client⟩, h.2.2.redirect⟩, h.2.2.verifier⟩, h.2.2.key⟩

/-! ## Steps -/

def lookupPhase (q : CodeRequest) (cl : Option OIDCClient) : Option (Option CodeRow) → CodePhase
  | none => .turnedAway
  | some used =>
    match used.filter (presentsCode d q.caller cl q.redirectURI q.codeVerifier) with
    | some ac => .found ac
    | none => .unmatched

inductive CodeStep (d : OIDCHandler) (q : CodeRequest) : CodePhase → (op : TokenOp) → (op.Resp → CodePhase) → Prop
  | quiet {φ op} (h : op.quiet = true) : CodeStep d q φ op fun _ => φ
  | client : CodeStep d q .entered (.clientByID q.caller.clientID) fun cl =>
      if (checkSenderConstrained cl q.caller).isOk then .client cl else .turnedAway
  | org {cl} : CodeStep d q (.client cl) (.orgBySlug q.caller.orgSlug) fun org =>
      if d.orgSigners && org.isNone then .turnedAway else .client cl
  | signer {cl org} : CodeStep d q (.client cl) (.resolveSigner org) fun found =>
      if found then .client cl else .turnedAway
  | consume {cl} : CodeStep d q (.client cl) (.consumeCode (d.hashString q.code)) fun
      | some ac => .spent ac
      | none => .refused cl
  | mint {ac tc uc} :
      CodeStep d q (.spent ac) (.issueAccessToken tc q.caller.clientID ac.scope (some uc) q.caller.dpop q.caller.mtls) fun
        | some (tok, jti) => .minted ac tok jti
        | none => .spent ac
  | name {ac tok jti} : CodeStep d q (.minted ac tok jti) .newUUID (.named ac tok jti)
  | store {ac tok jti familyID p} (plain : String)
      (hf : p.familyID = familyID) (hr : p.replacesID = none) :
      CodeStep d q (.named ac tok jti familyID) (.insertRefresh p (d.hashString plain)) fun ok =>
        if ok then .stored ac tok jti familyID plain else .named ac tok jti familyID
  | record {ac tok jti familyID plain} :
      CodeStep d q (.stored ac tok jti familyID plain) (.setRevocationData ac.codeHash jti familyID) fun ok =>
        if ok then .recorded ac tok jti familyID plain else .stored ac tok jti familyID plain
  | lookup {cl} :
      CodeStep d q (.refused cl) (.usedCodeByHash (d.hashString q.code)) (lookupPhase d q cl)
  | revokeToken {ac ttl} :
      CodeStep d q (.found ac) (.revokeToken ac.accessTokenJTI ttl) fun ok =>
        if ok then .tokenRevoked ac else .turnedAway
  | revokeFamily {ac familyID} (h : ac.refreshFamilyID = some familyID) :
      CodeStep d q (.tokenRevoked ac) (.revokeFamilyByID familyID) fun ok =>
        if ok then .familyRevoked ac else .turnedAway
  -- an exchange that fails after it has consumed the code looks its own code up
  | revokeOwnToken {φ ac jti ttl} (h : φ.code = some ac) :
      CodeStep d q φ (.revokeToken jti ttl) fun _ => φ
  | revokeOwnFamily {φ ac familyID} (h : φ.code = some ac) :
      CodeStep d q φ (.revokeFamilyByID familyID) fun _ => φ

def codeProtocol : Protocol CodeRequest TokenOp TokenOp.Resp := ⟨CodePhase, CodeStep d⟩

def CodeDone (q : CodeRequest) (φ : CodePhase) : Except TokenErr TokenSet → Prop
  | .ok ts => ∃ ac jti familyID, φ = .recorded ac ts.accessToken jti familyID ts.refreshToken ∧
      CodeBound d q ac.toAuthCode ∧ ts.scope = ac.scope
  | .error _ => φ.Ended

/-! ## The program -/

section
variable (d : OIDCHandler) (q : CodeRequest)

variable (cl : Option OIDCClient)

def ExchangeDone (φ : CodePhase) : Except TokenErr TokenSet → Prop
  | .ok ts => CodeDone d q φ (.ok ts)
  | .error e => (φ = .refused cl ∧ isInvalidGrant e = true) ∨ φ.code.isSome = true

theorem follows_quiet {α β : Type} {Q : CodePhase → Except TokenErr β → Prop} {φ : CodePhase} {p : TokenProg α}
    (hp : Quiet p) {g} (hok : ∀ a, (g a).Follows (codeProtocol d) q Q φ)
    (herr : ∀ e, Q φ (.error e)) : (p >>= g).Follows (codeProtocol d) q Q φ :=
  .bind_uses (fun _ h => CodeStep.quiet h) hp hok herr

theorem exchangeCode_follows (alg tc) (hookURL : String) :
    (exchangeCode d q.caller q.code q.redirectURI q.codeVerifier alg tc hookURL).Follows (codeProtocol d) q
      (ExchangeDone d q cl) (.client cl) := by
  refine .ask .consume (Option.forall.2 ⟨.inl ⟨rfl, rfl⟩, fun ac => ?_⟩)
  refine .ask (.quiet rfl) fun now => ?_
  refine .ofExcept (fun _ hcheck => ?_) fun _ _ => .inr rfl
  refine follows_quiet d q (activeUser_quiet _) (fun user => ?_) fun _ => .inr rfl
  refine follows_quiet d q (codeClaims_quiet ..) (fun uc => ?_) fun _ => .inr rfl
  refine .ask .mint (Option.forall.2 ⟨.inr rfl, fun r => ?_⟩)
  obtain ⟨tok, jti⟩ := r
  refine follows_quiet d q (codeIDToken_quiet ..) (fun idToken => ?_) fun _ => .inr rfl
  refine .ask .name fun familyID => ?_
  refine .ask (.quiet rfl) fun now' => ?_
  refine .ask (.quiet rfl) (Option.forall.2 ⟨.inr rfl, fun plain => ?_⟩)
  refine .ask (.store plain rfl rfl) fun ok => ?_
  cases ok with
  | false => exact .inr rfl
  | true =>
    refine .ask .record fun ok => ?_
    cases ok with
    | false => exact .inr rfl
    | true => exact ⟨ac, jti, familyID, rfl, checkCode_ok hcheck, rfl⟩

theorem revokeReplayed_follows (tc) {e} :
    (revokeReplayed d q.caller cl tc q.code q.redirectURI q.codeVerifier >>= fun _ =>
      (fail e : TokenProg TokenSet)).Follows (codeProtocol d) q (CodeDone d q) (.refused cl) := by
  simp only [revokeReplayed, call_bind, ask_bind]
  refine .ask .lookup (Option.forall.2 ⟨trivial, fun used => ?_⟩)
  simp only [lookupPhase]
  cases used.filter (presentsCode d q.caller cl q.redirectURI q.codeVerifier) with
  | none => exact trivial
  | some ac =>
    refine .ask .revokeToken fun ok => ?_
    cases ok with
    | false => exact trivial
    | true =>
      cases hf : ac.refreshFamilyID with
      | none => exact hf
      | some familyID =>
        refine .ask (.revokeFamily hf) fun ok => ?_
        cases ok with
        | false | true => exact trivial

theorem revokeReplayed_follows_own (tc) {e φ ac} (h : φ.code = some ac) :
    (revokeReplayed d q.caller cl tc q.code q.redirectURI q.codeVerifier >>= fun _ =>
      (fail e : TokenProg TokenSet)).Follows (codeProtocol d) q (CodeDone d q) φ := by
  have hend : φ.Ended := CodePhase.ended_of_code h
  simp only [revokeReplayed, call_bind, ask_bind]
  refine .ask (.quiet rfl) (Option.forall.2 ⟨hend, fun used => ?_⟩)
  simp only
  cases used.filter (presentsCode d q.caller cl q.redirectURI q.codeVerifier) with
  | none => exact hend
  | some ac' =>
    refine .ask (.revokeOwnToken h) fun ok => ?_
    cases ok with
    | false => exact hend
    | true =>
      cases ac'.refreshFamilyID with
      | none => exact hend
      | some familyID =>
        refine .ask (.revokeOwnFamily h) fun ok => ?_
        cases ok <;> exact hend

theorem applyOrgOverrides_follows {β : Type} (org tc) {Q : CodePhase → Except TokenErr β → Prop}
    {g} (hok : ∀ tc, (g tc).Follows (codeProtocol d) q Q (.client cl))
    (herr : ∀ e, Q .turnedAway (.error e)) :
    (applyOrgOverrides d tc org cl >>= g).Follows (codeProtocol d) q Q
      (if d.orgSigners && org.isNone then .turnedAway else .client cl) := by
  unfold applyOrgOverrides
  cases d.orgSigners with
  | false => exact hok _
  | true =>
    cases org with
    | none => exact herr _
    | some org =>
      refine .ask .signer fun found => ?_
      cases found with
      | false => exact herr _
      | true => exact hok _

theorem authorizationCodeGrant_follows :
    (authorizationCodeGrant d q.caller q.tc q.code q.redirectURI q.codeVerifier).Follows (codeProtocol d) q
      (CodeDone d q) .entered := by
  simp only [authorizationCodeGrant, call_bind]
  refine .ask .client fun cl => ?_
  cases hs : checkSenderConstrained cl q.caller with
  | error e => exact trivial
  | ok _ =>
    refine .ask .org fun org => ?_
    refine applyOrgOverrides_follows d q cl org _ (fun tc => ?_) fun _ => trivial
    refine (exchangeCode_follows d q cl _ tc _).attempt.bind ?_ ?_
    · intro ψ r hr
      obtain ⟨y, hy, hdone⟩ := hr
      cases hy
      cases r with
      | ok ts => exact hdone
      | error e =>
        simp only
        rcases hdone with ⟨hψ, he⟩ | hown
        · rw [hψ, he, if_pos rfl]
          exact revokeReplayed_follows d q cl tc
        · obtain ⟨ac, hac⟩ := Option.isSome_iff_exists.mp hown
          cases isInvalidGrant e with
          | true => exact revokeReplayed_follows_own d q cl tc hac
          | false => exact CodePhase.ended_of_code hac
    · intro ψ e hr
      obtain ⟨y, hy, -⟩ := hr
      cases hy

end

end Clavex

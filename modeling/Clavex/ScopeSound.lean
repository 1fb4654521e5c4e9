import Clavex.DeviceSound
import Clavex.Rotation
import Clavex.Scope
import Clavex.TokenTenantSound

/-!
# Scopes and ID tokens

For each grant, when the scope of the token set decides whether there is an ID token.
-/

namespace Clavex

open Prog List Option Bool TokenStore

/-! ## Programs that add no rows -/

abbrev AddsNone {ε α : Type} (p : Prog TokenOp TokenOp.Resp ε α) : Prop := p.Uses fun op => op.adds = false

theorem Quiet.addsNone {ε α} {p : Prog TokenOp TokenOp.Resp ε α} (h : Quiet p) : AddsNone p := by
  refine .mono ?_ h
  intro op hq
  cases op <;> first
    | rfl
    | cases hq

theorem PollOnly.addsNone {ε α} {p : Prog TokenOp TokenOp.Resp ε α} (h : PollOnly p) : AddsNone p := by
  refine .mono ?_ h
  intro op hq
  cases op <;> first
    | rfl
    | cases hq

theorem checkDPoP_addsNone {d} (headers : List String) (htm htu : String) :
    AddsNone (checkDPoP d headers htm htu) :=
  checkDPoP_uses d (A := fun op => op.adds = false) rfl (fun _ => rfl) headers htm htu

/-! ## Runs of one client -/

def scopeStart (s : TokenStore) : ScopePool := Pool.init { s with codes := .empty, devices := .empty, ciba := .empty }

def runScope (h : AuthorizeHandler) (s : TokenStore) (ms : ScopeRun) : ScopePool := run (scopeSystem h).step (scopeStart s) ms

def scopeHandler : AuthorizeHandler :=
  { plainHandler with
    columns := fun _ => { redirectURIs := ["https://app/cb"] }
    isAllowedRedirectURI := fun uri registered => uri ∈ registered
    atoi := fun _ => none
    readDetails := fun raw => if raw = "[]" then some [] else none
    parseJAR := fun _ _ _ => .error (.core "parse JWT") }

def scopeStore : TokenStore :=
  { plainStore with
    clients := [{ plainClient with scopes := ["openid", "profile"], grantTypes := [deviceGrantType, cibaGrantType] }]
    serviceAccounts := [{ id := 9, orgID := 1, clientID := "sa_bot", clientSecretHash := "secret", scopes := ["reports"] }] }

def scopeRun (ms : ScopeRun) : ScopePool := runScope scopeHandler scopeStore ms

def served (i : Nat) (q : ScopeRequest) (plain : String) : ScopeRun :=
  .start i q :: List.replicate 30 (.advance i { plain := plain })

def appToken (grantType : GrantType) (scope : String) : TokenRequest :=
  { orgSlug := "acme", clientID := "app", grantType := grantType, code := "code", redirectURI := "https://app/cb"
    deviceCode := "dev", authReqID := "req", scope := scope }

def codeMoves (i : Nat) (scope details : String) : ScopeRun :=
  .other (.code
    { orgSlug := "acme"
      orgID := 1
      params := GoMap.ofMembers [("client_id", "app"), ("redirect_uri", "https://app/cb"), ("response_type", "code"),
        ("scope", scope), ("authorization_details", details)] } "code" ∅ (some plainUser.id) 0) ::
    served i (.token (appToken .authorizationCode "")) "a"

def backchannelMoves (i : Nat) (scope : String) : ScopeRun :=
  served i (.backchannel
    { auth := { orgSlug := "acme", clientID := "app" }
      form := GoMap.ofMembers [("scope", scope), ("login_hint", "ada@acme.example")]
      hintedUser := some plainUser }) "req" ++
    .other (.statement {} (.approveCIBA "req")) :: served (i + 1) (.token (appToken .ciba "")) "c"

/-! ## ID tokens -/

def IDTokenByScope (ts : TokenSet) : Prop := ts.idToken.isSome = true ↔ "openid" ∈ fields ts.scope

section
variable {d : OIDCHandler} {x : Caller}

theorem exchangeCode_idToken {code redirectURI codeVerifier alg tc} {hookURL : String} :
    (exchangeCode d x code redirectURI codeVerifier alg tc hookURL).Yields
      fun ts => ts.idToken.isSome = strContains ts.scope "openid" := by
  refine .after (Option.forall.2 ⟨trivial, fun ac => .after fun now => .ofExcept fun _ => .after fun user => ?_⟩)
  refine .after fun uc => .after (Option.forall.2 ⟨trivial, fun tok => ?_⟩)
  refine .bind (R := fun idToken => idToken.isSome = strContains ac.scope "openid") ?_ fun idToken hid => ?_
  · unfold codeIDToken
    cases strContains ac.scope "openid" with
    | true => exact .after fun _ => rfl
    | false => exact rfl
  · exact .after fun _ => .after fun _ => .after fun _ => .after fun _ => .require fun _ => hid

theorem cibaGrant_idToken {proof authReqID Q} (hQ : ∀ ts : TokenSet, ts.idToken.isSome = true → Q ts) :
    (cibaGrant d x proof authReqID).Yields Q := by
  refine .require fun _ => .after (Option.forall.2 ⟨trivial, fun cr => .after fun now => .ofExcept fun _ => ?_⟩)
  refine .after fun cl => .require fun _ => .after fun polled => .require fun _ => ?_
  cases cr.status with
  | pending => exact trivial
  | denied => exact .after fun _ => trivial
  | approved =>
    cases cr.userID with
    | none => exact trivial
    | some userID =>
      refine .after fun user => .after fun cl => .after fun org => .after fun tc => .after fun uc => .after fun dpop => ?_
      refine .after (Option.forall.2 ⟨trivial, fun tok => .after fun cl => .bind (R := (·.idToken.isSome = true)) ?_ ?_⟩)
      · exact .after fun _ => .after fun _ => .after fun _ => .after fun _ => rfl
      · exact fun ts hts => .after fun _ => hQ ts hts

end

/-- With a code the scope is searched for the text, a refresh token brings no ID token, and a
backchannel request always does. -/
theorem idToken_by_scope_iff (d : OIDCHandler) (x : Caller) (tc : MintConfig) :
    (∀ code redirectURI codeVerifier, (authorizationCodeGrant d x tc code redirectURI codeVerifier).Yields fun ts =>
      IDTokenByScope ts ↔ (strContains ts.scope "openid" = true ↔ "openid" ∈ fields ts.scope)) ∧
    (∀ refreshToken, (refreshTokenGrant d x tc refreshToken).Yields fun ts => IDTokenByScope ts ↔ "openid" ∉ fields ts.scope) ∧
    ∀ proof authReqID, (cibaGrant d x proof authReqID).Yields fun ts => IDTokenByScope ts ↔ "openid" ∈ fields ts.scope := by
  unfold IDTokenByScope
  refine ⟨fun code redirectURI codeVerifier => ?_, fun refreshToken => ?_, fun proof authReqID => ?_⟩
  · refine .after fun cl => .ofExcept fun _ => .after fun org => .after fun tc => ?_
    refine .bind (.attempt exchangeCode_idToken) fun r hr => ?_
    cases r with
    | ok ts =>
      show (_ ↔ _) ↔ _
      rw [hr ts rfl]
    | error e =>
      dsimp only
      split
      · exact .after fun _ => trivial
      · exact trivial
  · refine .after fun cl => .ofExcept fun _ => .after fun org => .after fun tc => .after fun rt => .after fun now => ?_
    refine .ofExcept fun _ => .after fun _ => .require fun _ => .after fun uc => .ofExcept fun _ => ?_
    refine .after (Option.forall.2 ⟨trivial, fun tok => .after fun refreshToken => ?_⟩)
    show (_ ↔ _) ↔ _
    simp
  · exact cibaGrant_idToken fun ts hts => by simp [hts]

def idTokens (t : ScopePool) : List (String × Bool) :=
  t.log.filterMap fun x => match x.2 with
    | .ok (.tokens ts) => some (ts.scope, ts.idToken.isSome)
    | _ => none

theorem idToken_without_openid :
    idTokens (scopeRun (codeMoves 0 "openidx" "[]")) = [("openidx", true)] ∧
    idTokens (scopeRun (backchannelMoves 0 "openidx profile")) = [("profile", true)] ∧
    "openid" ∉ fields "openidx" ∧ "openid" ∉ fields "profile" := by
  decide +kernel

end Clavex

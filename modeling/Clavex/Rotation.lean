import Clavex.CodeProtocol

/-!
# Token families as a protocol

Code grants start families of refresh tokens and refresh grants rotate them. A request
is in a phase of its own from the moment it has named a family, or read the row it
rotates, until the new token is stored. `GrantStep.effect` says what a step can do to
the table of refresh tokens.
-/

namespace Clavex

open Prog

structure RefreshRequest where
  caller : Caller
  tc : MintConfig
  refreshToken : String

inductive GrantRequest where
  | code (q : CodeRequest)
  | refresh (q : RefreshRequest)

def grant (d : OIDCHandler) : GrantRequest → TokenProg TokenSet
  | .code q => authorizationCodeGrant d q.caller q.tc q.code q.redirectURI q.codeVerifier
  | .refresh q => refreshTokenGrant d q.caller q.tc q.refreshToken

/-! ## Phases -/

inductive GrantPhase where
  | idle
  | named (familyID : Nat)
  | current (rt : RefreshRow)
  | rotated (rt : RefreshRow)
  | minted (rt : RefreshRow) (tok : Signed)
  | stored (rt : RefreshRow) (tok : Signed) (plain : String)

namespace GrantPhase

def family : GrantPhase → Option Nat
  | named fam => some fam
  | rotated rt | minted rt _ => some rt.familyID
  | _ => none

def ofRow : Option RefreshRow → GrantPhase
  | some rt => if rt.revokedAt.isNone then current rt else idle
  | none => idle

end GrantPhase

def TokenOp.aside (op : TokenOp) : Bool :=
  op.quiet || match op with
    | issueAccessToken .. | consumeCode _ | setRevocationData .. | revokeToken .. | revokeFamilyByID _
    | setReplacedBy .. => true
    | _ => false

variable {op : TokenOp} {d : OIDCHandler} {q : GrantRequest}

theorem TokenOp.aside_of_quiet (h : op.quiet = true) : op.aside = true :=
  (Bool.or_eq_true ..).mpr (.inl h)

inductive GrantStep (d : OIDCHandler) :
    GrantRequest → GrantPhase → (op : TokenOp) → (op.Resp → GrantPhase) → Prop
  | aside {q φ op f} (h : op.aside = true)
      (hf : ∀ r, f r = φ) : GrantStep d q φ op f
  | name {q : GrantRequest} : GrantStep d q .idle .newUUID .named
  | first {q familyID p} (tokenHash : String) (hf : p.familyID = familyID)
      (hr : p.replacesID = none) : GrantStep d (.code q) (.named familyID) (.insertRefresh p tokenHash) fun ok =>
        if ok then .idle else .named familyID
  | present {q : RefreshRequest} :
      GrantStep d (.refresh q) .idle (.refreshByHash (d.hashString q.refreshToken)) .ofRow
  | successor {q id} : GrantStep d (.refresh q) .idle (.refreshByID id) .ofRow
  | revoke {q rt} :
      GrantStep d (.refresh q) (.current rt) (.revokeByID rt.id) fun ok => if ok then .rotated rt else .idle
  | mint {q rt tc uc} :
      GrantStep d (.refresh q) (.rotated rt)
        (.issueAccessToken tc q.caller.clientID rt.scope uc q.caller.dpop q.caller.mtls) fun
        | some (tok, _) => .minted rt tok
        | none => .rotated rt
  | rotate {q rt tok} (plain : String) (hc : rt.clientID = q.caller.clientID)
      (hm : verifyMTLSRefreshBinding rt.mtlsX5TS256 q.caller.mtls = .ok ()) :
      GrantStep d (.refresh q) (.minted rt tok) (.insertRefresh (successorParams q.caller rt) (d.hashString plain))
        fun ok => if ok then .stored rt tok plain else .minted rt tok

def grantProtocol (d : OIDCHandler) : Protocol GrantRequest TokenOp TokenOp.Resp := ⟨GrantPhase, GrantStep d⟩

def GrantDone (φ : GrantPhase) : GrantRequest → Except TokenErr TokenSet → Prop
  | .refresh _, .ok ts => ∃ rt, φ = .stored rt ts.accessToken ts.refreshToken ∧ ts.scope = rt.scope
  | _, _ => True

/-! ## Code grants -/

def codeGrantPhase : CodePhase → GrantPhase
  | .named _ _ _ fam => .named fam
  | _ => .idle

theorem CodeStep.grantStep {q φ f} (h : CodeStep d q φ op f) :
    GrantStep d (.code q) (codeGrantPhase φ) op fun r => codeGrantPhase (f r) := by
  cases h with
  | quiet hq => exact .aside (TokenOp.aside_of_quiet hq) fun _ => rfl
  | client | org | signer | record | revokeToken | revokeFamily _ =>
    refine .aside rfl fun r => ?_
    dsimp only
    split <;> rfl
  | consume | mint =>
    refine .aside rfl fun r => ?_
    cases r <;> rfl
  | name => exact .name
  | @store ac tok jti fam p plain hf hr =>
    have hphase : (fun ok : Bool => codeGrantPhase (if ok = true then .stored ac tok jti fam plain
        else .named ac tok jti fam)) = fun ok => if ok = true then .idle else .named fam := by
      funext ok
      cases ok <;> rfl
    rw [hphase]
    exact .first _ hf hr
  | lookup =>
    refine .aside rfl fun r => ?_
    unfold lookupPhase
    split
    · rfl
    · split <;> rfl
  | revokeOwnToken _ | revokeOwnFamily _ => exact .aside rfl fun _ => rfl

/-! ## Refresh grants -/

section
variable (d : OIDCHandler) (q : RefreshRequest)

open GrantStep

theorem follows_aside {α β : Type} {Q : GrantPhase → Except TokenErr β → Prop} {φ : GrantPhase} {p : TokenProg α}
    (hp : Quiet p) {g} (hok : ∀ a, (g a).Follows (grantProtocol d) (.refresh q) Q φ)
    (herr : ∀ e, Q φ (.error e)) : (p >>= g).Follows (grantProtocol d) (.refresh q) Q φ :=
  .bind_uses (fun _ h => aside (TokenOp.aside_of_quiet h) fun _ => rfl) hp hok herr

theorem currentToken_follows :
    (currentToken d q.refreshToken).Follows (grantProtocol d) (.refresh q)
      (fun φ r => ∀ rt, r = .ok rt → φ = .current rt) .idle := by
  have replayed_follows : ∀ fam, (replayed fam : TokenProg RefreshRow).Follows (grantProtocol d) (.refresh q)
      (fun φ r => ∀ rt, r = .ok rt → φ = .current rt) .idle := by
    intro fam
    refine .ask (aside rfl fun _ => rfl) fun _ => ?_
    intro rt h
    cases h
  simp only [currentToken, call_bind]
  refine .ask present fun r => ?_
  cases r with
  | none =>
    intro rt h
    cases h
  | some rt =>
    simp only [GrantPhase.ofRow]
    cases hlive : rt.revokedAt.isNone with
    | true =>
      intro rt' h
      cases h
      rfl
    | false =>
      cases rt.replacedBy with
      | none => exact replayed_follows _
      | some id =>
        refine .ask successor (Option.forall.2 ⟨replayed_follows _, fun rt' => ?_⟩)
        simp only [GrantPhase.ofRow]
        cases hlive' : rt'.revokedAt.isNone with
        | true =>
          intro rt'' h
          cases h
          rfl
        | false =>
          simp only [Bool.false_eq_true, ite_false]
          exact replayed_follows _

theorem checkRefresh_client {x rt now} (h : checkRefresh x rt now = .ok ()) : rt.clientID = x.clientID := by
  unfold checkRefresh at h
  split at h
  · cases h
  · exact not_not.mp ‹_›

theorem issueSuccessor_follows (tc) (hookURL : String) {rt} (hc : rt.clientID = q.caller.clientID) :
    (issueSuccessor d q.caller tc hookURL rt).Follows (grantProtocol d) (.refresh q)
      (fun φ r => GrantDone φ (.refresh q) r) (.rotated rt) := by
  refine follows_aside d q (refreshClaims_quiet ..) (fun uc => ?_) fun _ => trivial
  refine .ofExcept (fun _ hm => ?_) fun _ _ => trivial
  refine .ask mint (Option.forall.2 ⟨trivial, fun r => ?_⟩)
  refine .ask (aside rfl fun _ => rfl) (Option.forall.2 ⟨trivial, fun plain => ?_⟩)
  refine .ask (rotate plain hc hm) fun ok => ?_
  cases ok with
  | false => exact trivial
  | true => exact .ask (aside rfl fun _ => rfl) fun _ => ⟨rt, rfl, rfl⟩

theorem refreshTokenGrant_follows :
    (refreshTokenGrant d q.caller q.tc q.refreshToken).Follows (grantProtocol d) (.refresh q)
      (fun φ r => GrantDone φ (.refresh q) r) .idle := by
  refine .ask (GrantStep.aside rfl fun _ => rfl) fun cl => ?_
  refine .ofExcept (fun _ _ => ?_) fun _ _ => trivial
  refine .ask (GrantStep.aside rfl fun _ => rfl) fun org => ?_
  refine follows_aside d q (applyOrgOverrides_quiet ..) (fun tc => ?_) fun _ => trivial
  refine (currentToken_follows d q).bind ?_ fun _ _ _ => trivial
  intro ψ rt hψ
  rw [hψ rt rfl]
  refine .ask (GrantStep.aside rfl fun _ => rfl) fun now => ?_
  refine .ofExcept (fun _ hcheck => ?_) fun _ _ => trivial
  refine .ask GrantStep.revoke fun ok => ?_
  cases ok with
  | false => exact trivial
  | true => exact issueSuccessor_follows d q tc _ (checkRefresh_client hcheck)

end

theorem grant_follows (d q) : (grant d q).Follows (grantProtocol d) q (fun φ r => GrantDone φ q r) .idle := by
  cases q with
  | code q =>
    have hsim := Follows.sim (grantProtocol d) (.code q) codeGrantPhase CodeStep.grantStep
      (authorizationCodeGrant_follows d q)
    exact hsim.mono fun _ _ _ => trivial
  | refresh q => exact refreshTokenGrant_follows d q

/-! ## What a step does to the table -/

structure RefreshRow.Same (r r' : RefreshRow) : Prop where
  id : r'.id = r.id
  hash : r'.tokenHash = r.tokenHash
  params : r'.toRefreshParams = r.toRefreshParams
  revoked : r.revokedAt ≠ none → r'.revokedAt ≠ none

theorem RefreshRow.Same.refl (r : RefreshRow) : r.Same r := ⟨rfl, rfl, rfl, fun h => h⟩

theorem RefreshRow.Same.trans {a b c : RefreshRow} (h : a.Same b) (h' : b.Same c) : a.Same c :=
  ⟨h'.id.trans h.id, h'.hash.trans h.hash, h'.params.trans h.params, fun ha => h'.revoked (h.revoked ha)⟩

structure RefreshKept (s s' : TokenStore) : Prop where
  nextID : s.nextID ≤ s'.nextID
  fwd : ∀ r ∈ s.refresh.list, ∃ r' ∈ s'.refresh.list, r.Same r'
  bwd : ∀ r' ∈ s'.refresh.list, ∃ r ∈ s.refresh.list, r.Same r'

namespace RefreshKept

variable {s s' : TokenStore}

theorem of_eq (h : s'.refresh = s.refresh) (hn : s.nextID ≤ s'.nextID) : RefreshKept s s' := by
  refine ⟨hn, ?_, ?_⟩
  · intro r hr
    refine ⟨r, ?_, .refl r⟩
    rw [h]
    exact hr
  · intro r hr
    rw [h] at hr
    exact ⟨r, hr, .refl r⟩

theorem of_modify {f : RefreshRow → RefreshRow} (hmem : ∀ r, r ∈ s'.refresh.list ↔ ∃ a ∈ s.refresh.list, r = f a)
    (hf : ∀ a : RefreshRow, a.Same (f a)) (hn : s.nextID ≤ s'.nextID) : RefreshKept s s' := by
  refine ⟨hn, ?_, ?_⟩
  · intro r hr
    exact ⟨f r, (hmem _).mpr ⟨r, hr, rfl⟩, hf r⟩
  · intro r' hr'
    obtain ⟨a, ha, rfl⟩ := (hmem r').mp hr'
    exact ⟨a, ha, hf a⟩

theorem revokeByID (s id) : RefreshKept s (s.revokeByID id) := by
  refine of_modify (fun _ => TokenStore.mem_revokeByID) (fun a => ?_) (Nat.le_refl _)
  split
  · exact ⟨rfl, rfl, rfl, fun _ => Option.some_ne_none _⟩
  · exact .refl a

theorem revokeFamilyByID (s fam) : RefreshKept s (s.revokeFamilyByID fam) := by
  refine of_modify (fun _ => TokenStore.mem_revokeFamilyByID) (fun a => ?_) (Nat.le_refl _)
  split
  · exact ⟨rfl, rfl, rfl, fun _ => Option.some_ne_none _⟩
  · exact .refl a

theorem setReplacedBy (s) (h : String) (id) : RefreshKept s (s.setReplacedBy h id) := by
  refine of_modify (fun _ => TokenStore.mem_setReplacedBy) (fun a => ?_) (Nat.le_refl _)
  split
  · exact ⟨rfl, rfl, rfl, fun hr => hr⟩
  · exact .refl a

end RefreshKept

theorem sem_aside (d s env) (h : op.aside = true) : RefreshKept s (sem d env op s).2 := by
  have hwrote := sem_wrote d s env op
  generalize (sem d env op s).2 = t at hwrote ⊢
  cases hwrote with
  | draw hn => exact .of_eq rfl hn
  | mint => exact .of_eq rfl (Nat.le_succ _)
  | revokeByID => cases h
  | revokeFamilyByID => exact .revokeFamilyByID s _
  | insertRefresh => cases h
  | setReplacedBy => exact .setReplacedBy s _ _
  | insertDevice => exact .of_eq rfl (Nat.le_succ _)
  | _ => exact .of_eq rfl (Nat.le_refl _)

inductive GrantEffect (d : OIDCHandler) (env : Env) (op : TokenOp) (s s' : TokenStore) :
    GrantRequest → GrantPhase → GrantPhase → Prop
  | keep {q φ} (hk : RefreshKept s s') : GrantEffect d env op s s' q φ φ
  | drop {q rt} (hk : RefreshKept s s') : GrantEffect d env op s s' q (.current rt) .idle
  | name {q : GrantRequest} (hk : RefreshKept s s') (hn : s.nextID < s'.nextID) :
      GrantEffect d env op s s' q .idle (.named s.nextID)
  | first {q p h} (hr : p.replacesID = none) (hi : s.insertRefresh p h = some s') :
      GrantEffect d env op s s' (.code q) (.named p.familyID) .idle
  | read {q rt} (hrt : rt ∈ s.refresh.list) (hk : RefreshKept s s') :
      GrantEffect d env op s s' q .idle (.current rt)
  | revoke {q rt} (hop : op = .revokeByID rt.id) (hworks : env.fails = false)
      (hs : s' = s.revokeByID rt.id) : GrantEffect d env op s s' q (.current rt) (.rotated rt)
  | mint {q rt tok tc clientID uc dpop mtls} (hop : op = .issueAccessToken tc clientID rt.scope uc dpop mtls)
      (hk : RefreshKept s s')
      (hscope : (extraOf uc).lookup "scope" = none → tok.claims.lookup "scope" = some (.str rt.scope)) :
      GrantEffect d env op s s' q (.rotated rt) (.minted rt tok)
  | rotate {q rt tok plain} (hc : rt.clientID = q.caller.clientID)
      (hm : verifyMTLSRefreshBinding rt.mtlsX5TS256 q.caller.mtls = .ok ())
      (hi : s.insertRefresh (successorParams q.caller rt) (d.hashString plain) = some s') :
      GrantEffect d env op s s' (.refresh q) (.minted rt tok) (.stored rt tok plain)

theorem GrantEffect.ofRow {env s s' r} (hr : ∀ rt, r = some rt → rt ∈ s.refresh.list)
    (hk : RefreshKept s s') : GrantEffect d env op s s' q .idle (.ofRow r) := by
  cases r with
  | none => exact .keep hk
  | some rt =>
    simp only [GrantPhase.ofRow]
    split
    · exact .read (hr rt rfl) hk
    · exact .keep hk

theorem GrantStep.effect {φ f} (h : GrantStep d q φ op f) (env s) :
    GrantEffect d env op s (sem d env op s).2 q φ (f (sem d env op s).1) := by
  have read : ∀ {p : RefreshRow → Bool} {rt}, (readOrFail env s (s.refresh.find p)).1 = some rt → rt ∈ s.refresh.list := by
    intro p rt hrt
    simp only [readOrFail] at hrt
    split at hrt
    · cases hrt
    · exact (Rows.find_some hrt).1
  cases h with
  | aside ha hf =>
    rw [hf]
    exact .keep (sem_aside d s env ha)
  | name => exact .name (sem_aside d s env rfl) (Nat.lt_succ_self _)
  | @first q fam p c hf hr =>
    subst hf
    rcases sem_insertRefresh d s env p c with ⟨hsem, -⟩ | ⟨t, hsem, hi, -⟩ <;> rw [hsem]
    · exact .keep (.of_eq rfl (Nat.le_refl _))
    · exact .first hr hi
  | present | successor => exact .ofRow (fun _ => read) (sem_aside d s env rfl)
  | @revoke q rt =>
    rcases unlessFails_cases s env (s.revokeByID rt.id) with ⟨h, -⟩ | ⟨h, hworks⟩
    · rw [show sem d env (.revokeByID rt.id) s = (false, s) from h]
      exact .drop (.of_eq rfl (Nat.le_refl _))
    · rw [show sem d env (.revokeByID rt.id) s = (true, s.revokeByID rt.id) from h]
      exact .revoke rfl hworks rfl
  | @mint q rt tc uc =>
    have hk := sem_aside d s env
      (show (TokenOp.issueAccessToken tc q.caller.clientID rt.scope uc q.caller.dpop q.caller.mtls).aside = true from rfl)
    rcases sem_issueAccessToken d s env tc q.caller.clientID rt.scope uc q.caller.dpop q.caller.mtls with
      ⟨hsem, -⟩ | ⟨tok, hsem, hmint, -⟩
    · rw [hsem] at hk ⊢
      exact .keep hk
    · rw [hsem] at hk ⊢
      exact .mint rfl hk fun hx => issueAccessToken_claim hmint (by decide) hx
  | @rotate q rt tok plain hc hm =>
    rcases sem_insertRefresh d s env (successorParams q.caller rt) (d.hashString plain) with
      ⟨hsem, -⟩ | ⟨t, hsem, hi, -⟩ <;> rw [hsem]
    · exact .keep (.of_eq rfl (Nat.le_refl _))
    · exact .rotate hc hm hi

end Clavex

import Clavex.TokenStore

/-!
# What one operation on the stores can do

One lemma per operation that later proofs step over: the answers it can give and the
store it leaves. Reads and questions to collaborators are `quiet`.
-/

namespace Clavex

open TokenStore

section
variable (d : OIDCHandler) (s : TokenStore) (env : Env)

def TokenOp.quiet : TokenOp → Bool
  | now | newUUID | randomToken | lookup _ | orgBySlug _ | clientByID _ | serviceAccountByID _ | userByID _
  | resolveSigner _ | issueIDToken .. | usedCodeByHash _ | refreshByHash _ | refreshByID _ | deviceByCode _
  | deviceByUserCode _ | deviceByID _ | cibaByID _ | ssoSession _ => true
  | _ => false

theorem sem_quiet {op} (h : op.quiet = true) : ∃ n, s.nextID ≤ n ∧ (sem d env op s).2 = { s with nextID := n } := by
  cases op with
  | newUUID | issueIDToken tc clientID nonce user alg => exact ⟨s.nextID + 1, Nat.le_succ _, rfl⟩
  | usedCodeByHash c =>
    refine ⟨s.nextID, Nat.le_refl _, ?_⟩
    simp only [sem]
    split <;> rfl
  | _ => first
    | exact ⟨s.nextID, Nat.le_refl _, rfl⟩
    | cases h

theorem unlessFails_cases (t) :
    (unlessFails env s t = (false, s) ∧ env.fails = true) ∨ (unlessFails env s t = (true, t) ∧ env.fails = false) := by
  unfold unlessFails
  cases env.fails with
  | true => exact .inl ⟨rfl, rfl⟩
  | false => exact .inr ⟨rfl, rfl⟩

theorem insertCode_cases (ac) (h : String) : s.insertCode ac h = s ∨
    ∃ codes, .code h ∉ s.drawn ∧ codes.list = { ac with codeHash := h } :: s.codes.list ∧
      s.insertCode ac h = { s with codes := codes, drawn := .code h :: s.drawn } := by
  unfold insertCode
  split
  · exact .inl rfl
  · split
    · exact .inl rfl
    · exact .inr ⟨_, ‹_›, Rows.push_some ‹_›, rfl⟩

theorem sem_setRevocationData (h jti) (fam) :
    sem d env (.setRevocationData h jti fam) s = unlessFails env s (s.setRevocationData h jti fam) := rfl

theorem sem_revokeToken (jti ttl) : sem d env (.revokeToken jti ttl) s = unlessFails env s
    { s with revoked := Function.update s.revoked jti (.set () (if 0 < ttl then some (s.now + ttl) else none)) } := rfl

theorem sem_revokeFamilyByID (fam) :
    sem d env (.revokeFamilyByID fam) s = unlessFails env s (s.revokeFamilyByID fam) := rfl

theorem sem_insertRefresh (p) (h) :
    (sem d env (.insertRefresh p h) s = (false, s) ∧
      (env.fails = true ∨ ∃ r ∈ s.refresh.list, r.tokenHash = h)) ∨
    ∃ t, sem d env (.insertRefresh p h) s = (true, t) ∧ s.insertRefresh p h = some t ∧ env.fails = false := by
  simp only [sem]
  cases env.fails with
  | true => exact .inl ⟨rfl, .inl rfl⟩
  | false =>
    simp only [Bool.false_eq_true, ite_false]
    cases hi : s.insertRefresh p h with
    | none => exact .inl ⟨rfl, .inr (insertRefresh_none.mp hi)⟩
    | some t => exact .inr ⟨t, rfl, rfl, trivial⟩

theorem sem_insertDevice (orgID) (clientID h userCode scope) (ttl) :
    sem d env (.insertDevice orgID clientID h userCode scope ttl) s = (none, s) ∨
    ∃ c devices, sem d env (.insertDevice orgID clientID h userCode scope ttl) s =
        (some c, { s with nextID := s.nextID + 1, devices := devices, drawn := .device h :: s.drawn }) ∧
      .device h ∉ s.drawn ∧ devices.list = c :: s.devices.list ∧
      c = { id := s.nextID, orgID := orgID, clientID := clientID, deviceCodeHash := h, userCode := userCode, scope := scope,
            expiresAt := s.now + ttl } := by
  simp only [sem, insertDevice]
  cases env.fails with
  | true => exact .inl rfl
  | false =>
    by_cases hdrawn : .device h ∈ s.drawn
    · simp only [Bool.false_eq_true, ite_false, if_pos hdrawn]
      exact .inl trivial
    · simp only [Bool.false_eq_true, ite_false, if_neg hdrawn]
      cases hpush : s.devices.push _ with
      | none => exact .inl rfl
      | some devices => exact .inr ⟨_, devices, rfl, hdrawn, Rows.push_some hpush, rfl⟩

theorem sem_insertCIBA (r) :
    sem d env (.insertCIBA r) s = (false, s) ∨
    ∃ ciba, sem d env (.insertCIBA r) s = (true, { s with ciba := ciba, drawn := .ciba r.authReqID :: s.drawn }) ∧
      .ciba r.authReqID ∉ s.drawn ∧
      ciba.list = { r with status := .pending, vpClaims := none, acr := "" } :: s.ciba.list := by
  simp only [sem, insertCIBA]
  cases env.fails with
  | true => exact .inl rfl
  | false =>
    by_cases hdrawn : .ciba r.authReqID ∈ s.drawn
    · simp only [Bool.false_eq_true, ite_false, if_pos hdrawn]
      exact .inl trivial
    · simp only [Bool.false_eq_true, ite_false, if_neg hdrawn]
      cases hpush : s.ciba.push _ with
      | none => exact .inl rfl
      | some ciba => exact .inr ⟨ciba, rfl, hdrawn, Rows.push_some hpush⟩

theorem sem_issueAccessToken (tc clientID scope uc dpop mtls) :
    (sem d env (.issueAccessToken tc clientID scope uc dpop mtls) s = (none, { s with nextID := s.nextID + 1 }) ∧
      (env.fails = true ∨ Rejected d.jwt (extraOf uc))) ∨
    ∃ tok, sem d env (.issueAccessToken tc clientID scope uc dpop mtls) s =
        (some (tok, d.uuidString s.nextID),
          { s with
            nextID := s.nextID + 1
            minted := (d.uuidString s.nextID, s.now + tc.accessTokenTTL) :: s.minted }) ∧
      issueAccessToken d.jwt tc s.now (d.uuidString s.nextID) clientID scope uc dpop mtls false =
        some (tok, d.uuidString s.nextID) ∧
      ¬ (env.fails = true ∨ Rejected d.jwt (extraOf uc)) := by
  simp only [sem, issueAccessTokenOp]
  have hnone := @issueAccessToken_none d.jwt tc s.now (d.uuidString s.nextID) clientID scope uc dpop mtls env.fails
  cases hm : issueAccessToken d.jwt tc s.now (d.uuidString s.nextID) clientID scope uc dpop mtls env.fails with
  | none => exact .inl ⟨rfl, hnone.mp hm⟩
  | some r =>
    have hfine : ¬ (env.fails = true ∨ Rejected d.jwt (extraOf uc)) := by
      rw [← hnone, hm]
      exact Option.some_ne_none _
    have hworks : env.fails = false := Bool.eq_false_iff.mpr fun h => hfine (.inl h)
    rw [hworks] at hm
    obtain ⟨tok, jti⟩ := r
    have hjti : jti = d.uuidString s.nextID := (issueAccessToken_some.mp hm).2.2.2.1
    subst hjti
    exact .inr ⟨tok, rfl, hm, hfine⟩

end

/-! ## What is written -/

inductive Wrote (env : Env) (s : TokenStore) : TokenOp → TokenStore → Prop
  | nothing {op} : Wrote env s op s
  | draw {op n} (hn : s.nextID ≤ n) : Wrote env s op { s with nextID := n }
  | mint {tc clientID scope jti uc dpop mtls} : Wrote env s (.issueAccessToken tc clientID scope uc dpop mtls)
        { s with nextID := s.nextID + 1, minted := (jti, s.now + tc.accessTokenTTL) :: s.minted }
  | checkJTI {jti} : Wrote env s (.checkJTI jti) { s with dpopJTIs := (s.setNX s.dpopJTIs jti 300).2 }
  | revokeToken {jti ttl} : Wrote env s (.revokeToken jti ttl)
      { s with revoked := Function.update s.revoked jti (.set () (if 0 < ttl then some (s.now + ttl) else none)) }
  | consumeCode {h} : Wrote env s (.consumeCode h) (s.consumeCode h).2
  | setRevocationData {h jti fam} :
      Wrote env s (.setRevocationData h jti fam) (s.setRevocationData h jti fam)
  | revokeByID {id} : Wrote env s (.revokeByID id) (s.revokeByID id)
  | revokeFamilyByID {fam} : Wrote env s (.revokeFamilyByID fam) (s.revokeFamilyByID fam)
  | insertRefresh {p h refresh}
      (hi : s.insertRefresh p h = some { s with refresh := refresh }) :
      Wrote env s (.insertRefresh p h) { s with refresh := refresh }
  | setReplacedBy {h id} : Wrote env s (.setReplacedBy h id) (s.setReplacedBy h id)
  | insertDevice {orgID clientID h userCode scope ttl c devices} (hdrawn : .device h ∉ s.drawn) (hlist : devices.list = c :: s.devices.list)
      (hc : c = { id := s.nextID, orgID := orgID, clientID := clientID, deviceCodeHash := h, userCode := userCode,
                  scope := scope, expiresAt := s.now + ttl }) :
      Wrote env s (.insertDevice orgID clientID h userCode scope ttl)
        { s with nextID := s.nextID + 1, devices := devices, drawn := .device h :: s.drawn }
  | authorizeDevice {id userID} (hworks : env.fails = false) :
      Wrote env s (.authorizeDevice id userID) (s.authorizeDevice id userID)
  | denyDevice {id} (hworks : env.fails = false) : Wrote env s (.denyDevice id) (s.denyDevice id)
  | touchPoll {id interval} : Wrote env s (.touchPoll id interval)
      { s with devices := s.devices.modify (·.id == id) (fun c => { c with lastPolledAt := some s.now }) fun _ => rfl }
  | slowDown {id} : Wrote env s (.slowDown id) (s.slowDown id)
  | deleteDevice {id} : Wrote env s (.deleteDevice id) (s.deleteDevice id)
  | insertCIBA {r ciba} (hdrawn : .ciba r.authReqID ∉ s.drawn)
      (hlist : ciba.list = { r with status := .pending, vpClaims := none, acr := "" } :: s.ciba.list) :
      Wrote env s (.insertCIBA r) { s with ciba := ciba, drawn := .ciba r.authReqID :: s.drawn }
  | approveCIBA {id} : Wrote env s (.approveCIBA id) (s.approveCIBA id)
  | approveCIBAWithVPClaims {id userID claims acr} :
      Wrote env s (.approveCIBAWithVPClaims id userID claims acr) (s.approveCIBAWithVPClaims id userID claims acr)
  | denyCIBA {id} : Wrote env s (.denyCIBA id) (s.denyCIBA id)
  | cibaPoll {id interval} :
      Wrote env s (.cibaPoll id interval) { s with cibaPolls := (s.setNX s.cibaPolls id interval).2 }
  | deleteCIBA {id consumed} : Wrote env s (.deleteCIBA id consumed) (s.deleteCIBA id)
  | cleanupExpiredCIBA : Wrote env s .cleanupExpiredCIBA s.cleanupExpiredCIBA

theorem Wrote.unlessFails {env s t op} (h : env.fails = false → Wrote env s op t) :
    Wrote env s op (unlessFails env s t).2 := by
  rcases unlessFails_cases s env t with ⟨heq, -⟩ | ⟨heq, hworks⟩ <;> rw [heq]
  · exact .nothing
  · exact h hworks

theorem sem_wrote (d s env op) : Wrote env s op (sem d env op s).2 := by
  by_cases hq : op.quiet = true
  · obtain ⟨n, hn, hs⟩ := sem_quiet d s env hq
    rw [hs]
    exact .draw hn
  · cases op with
    | issueAccessToken tc clientID scope uc dpop mtls =>
      rcases sem_issueAccessToken d s env tc clientID scope uc dpop mtls with ⟨hsem, -⟩ | ⟨tok, hsem, -⟩ <;> rw [hsem]
      · exact .draw (Nat.le_succ _)
      · exact .mint
    | checkJTI jti =>
      simp only [sem]
      split
      · exact .nothing
      · exact .checkJTI
    | revokeToken jti ttl => exact .unlessFails fun _ => .revokeToken
    | consumeCode h =>
      simp only [sem]
      split
      · exact .nothing
      · exact .consumeCode
    | setRevocationData h jti fam => exact .unlessFails fun _ => .setRevocationData
    | revokeByID id => exact .unlessFails fun _ => .revokeByID
    | revokeFamilyByID fam => exact .unlessFails fun _ => .revokeFamilyByID
    | insertRefresh p h =>
      rcases sem_insertRefresh d s env p h with ⟨hsem, -⟩ | ⟨t, hsem, hi, -⟩ <;> rw [hsem]
      · exact .nothing
      · have ht := (insertRefresh_some hi).1
        rw [ht] at hi ⊢
        exact .insertRefresh hi
    | setReplacedBy h id => exact .unlessFails fun _ => .setReplacedBy
    | insertDevice orgID clientID h userCode scope ttl =>
      rcases sem_insertDevice d s env orgID clientID h userCode scope ttl with
        hsem | ⟨c, devices, hsem, hdrawn, hlist, hc⟩ <;> rw [hsem]
      · exact .nothing
      · exact .insertDevice hdrawn hlist hc
    | authorizeDevice id userID => exact .unlessFails .authorizeDevice
    | denyDevice id => exact .unlessFails .denyDevice
    | touchPoll id interval =>
      simp only [sem, touchPoll]
      split
      · exact .nothing
      · split
        · exact .nothing
        · exact .touchPoll
    | slowDown id => exact .unlessFails fun _ => .slowDown
    | deleteDevice id => exact .unlessFails fun _ => .deleteDevice
    | insertCIBA r =>
      rcases sem_insertCIBA d s env r with hsem | ⟨ciba, hsem, hdrawn, hlist⟩ <;> rw [hsem]
      · exact .nothing
      · exact .insertCIBA hdrawn hlist
    | approveCIBA id => exact .unlessFails fun _ => .approveCIBA
    | approveCIBAWithVPClaims id userID claims acr => exact .unlessFails fun _ => .approveCIBAWithVPClaims
    | denyCIBA id => exact .unlessFails fun _ => .denyCIBA
    | cibaPoll id interval =>
      simp only [sem]
      split
      · exact .nothing
      · exact .cibaPoll
    | deleteCIBA id consumed => exact .unlessFails fun _ => .deleteCIBA
    | cleanupExpiredCIBA => exact .unlessFails fun _ => .cleanupExpiredCIBA
    | _ => exact absurd rfl hq

def plainProofs : ProofLib where
  parse text :=
    if text = "proof" then
      some
        { typ := "dpop+jwt"
          alg := "ES256"
          jwk := some .publicKey
          verifies := true
          payload := some { jti := "p", iat := some 200, htm := "POST", htu := "https://id/acme/token" }
          thumbprint := some "key" }
    else none
  equalFold := fun a b => a == b
  normalizeHTU := id
  errorText := fun _ => ""

def plainHandler : OIDCHandler where
  jwt := jwx
  hashString := id
  s256 := id
  uuidText := fun id => toString id.toNat
  uuidString := fun n => String.ofList (List.replicate (n + 1) 'u')
  uuidString_ne := by
    intro n h
    have hnil : String.ofList (List.replicate (n + 1) 'u') = String.ofList [] := h
    cases String.ofList_inj.mp hnil
  uuidString_inj := by
    intro m n h
    have hlen := congrArg List.length (String.ofList_inj.mp h)
    simpa using hlen
  atHash := fun _ => ""
  checkSecret := fun hash secret => hash == secret
  assertionIssuer := some
  attestationSubject := some
  proofs := plainProofs
  config := ⟨.server, "https://id", 300, 3600, 300⟩
  orgSigners := true

def plainUser : User := { id := 7, orgID := 1, email := "ada@acme.example" }

def plainOrg : OrgRow := { id := 1, name := "Acme", slug := "acme" }

def plainClient : OIDCClient := { clientID := "app", orgID := 1 }

def plainStore : TokenStore := { orgs := [plainOrg], clients := [plainClient], users := [plainUser] }

def twoOrgs : TokenStore :=
  { orgs := [plainOrg, { id := 2, name := "Evil", slug := "evil" }]
    clients := [plainClient, { clientID := "spy", orgID := 2 }]
    users := [plainUser, { id := 8, orgID := 2, email := "eve@evil.example" }] }

end Clavex

import Clavex.Rotation
import Clavex.CodeOnceSound

/-!
# Families of refresh tokens

Code grants and refresh grants interleave with logouts and revocations of every kind. The
tokens of a family carry what its first token was issued for (`family_keeps_grant`).
Rotation reads a row, revokes it and stores its successor in separate statements; a
family has one live token and each token one successor as long as the row is still live
when it is revoked (`refresh_rotates_once`).
-/

namespace Clavex

open Prog List Option Function Rows TokenStore Once

variable {q : GrantRequest} {p : RefreshParams} {i : Nat} {rt : RefreshRow} {c : String}

/-! ## Runs -/

inductive GrantEvent where
  | code (e : CodeEvent)
  | revoke (p : RefreshRow → Bool)

variable (d : OIDCHandler)

theorem id_revoked (s : TokenStore) (r : RefreshRow) : { r with revokedAt := some s.now }.id = r.id := rfl

def grantEvent : GrantEvent → TokenStore → TokenStore
  | .code e, s => codeEvent d e s
  | .revoke p, s => { s with refresh := s.refresh.modify p (fun r => { r with revokedAt := some s.now }) (id_revoked s) }

abbrev GrantPool := Pool GrantRequest TokenOp TokenOp.Resp TokenErr TokenSet TokenStore

abbrev GrantThreads := Threads GrantRequest GrantPhase

variable {th : GrantThreads}

abbrev GrantLog := List (GrantRequest × Except TokenErr TokenSet)

variable {log : GrantLog}

def grantSystem : System GrantRequest TokenOp TokenOp.Resp TokenErr TokenSet TokenStore Env GrantEvent where
  main := grant d
  sem := sem d
  other := grantEvent d

theorem grantEvent_kept (e s) : RefreshKept s (grantEvent d e s) := by
  cases e with
  | code e =>
    cases e with
    | tick n | settings orgs users | walletConsume c => exact .of_eq rfl (Nat.le_refl _)
    | authorize plain session claims userID =>
      simp only [grantEvent, codeEvent]
      split
      · rename_i ac _
        rcases insertCode_cases s ac (d.hashString plain) with heq | ⟨codes, -, -, heq⟩ <;> rw [heq] <;>
          exact .of_eq rfl (Nat.le_refl _)
      · exact .of_eq rfl (Nat.le_refl _)
  | revoke p =>
    have hmem : ∀ r, r ∈ (grantEvent d (.revoke p) s).refresh.list ↔
        ∃ a ∈ s.refresh.list, r = if p a then { a with revokedAt := some s.now } else a := by
      intro r
      simp only [grantEvent, mem_modify]
    refine .of_modify hmem (fun a => ?_) (Nat.le_refl _)
    split
    · exact ⟨rfl, rfl, rfl, fun _ => some_ne_none _⟩
    · exact .refl a

/-! ## What a family carries -/

structure SameGrant (r r' : RefreshParams) : Prop where
  org : r'.orgID = r.orgID
  client : r'.clientID = r.clientID
  user : r'.userID = r.userID
  scope : r'.scope = r.scope
  attestation : r'.attestationJKT = r.attestationJKT

theorem SameGrant.symm {r r'} (h : SameGrant r r') : SameGrant r' r :=
  ⟨h.org.symm, h.client.symm, h.user.symm, h.scope.symm, h.attestation.symm⟩

structure Succeeds (o r : RefreshParams) : Prop where
  family : r.familyID = o.familyID
  expires : r.expiresAt ≤ o.expiresAt
  certificate : o.mtlsX5TS256 ≠ "" → r.mtlsX5TS256 = o.mtlsX5TS256

def Held (s : TokenStore) (rt : RefreshRow) : Prop := ∃ r ∈ s.refresh.list, rt.Same r

def Scoped (tok : Signed) (scope : String) : Prop := tok.claims.lookup "scope" = some (.str scope)

/-- The plain token is the successor of `rt`, with the thumbprint of the certificate presented or, if
there is none, that of `rt`. -/
def Handed (s : TokenStore) (q : RefreshRequest) (plain : String) (rt : RefreshRow) : Prop :=
  Held s rt ∧ ∃ r ∈ s.refresh.list, r.tokenHash = d.hashString plain ∧ r.replacesID = some rt.id ∧ r.scope = rt.scope ∧
    r.mtlsX5TS256 = (q.caller.mtls.map (·.x5ts256)).getD rt.mtlsX5TS256

def GrantOK (strict : Bool) (s : TokenStore) (q : GrantRequest) : GrantPhase → Prop
  | .idle => True
  | .named fam => fam < s.nextID ∧ ∀ r ∈ s.refresh.list, r.familyID ≠ fam
  | .current rt | .rotated rt => Held s rt
  | .minted rt tok => Held s rt ∧ (strict = true → Scoped tok rt.scope)
  | .stored rt tok plain => (∀ q', q = .refresh q' → Handed d s q' plain rt) ∧ (strict = true → Scoped tok rt.scope)

structure FamilyInv (d : OIDCHandler) (strict : Bool) (s : TokenStore) (th : GrantThreads) (log : GrantLog) : Prop where
  bound : ∀ r ∈ s.refresh.list, r.familyID < s.nextID
  agree : ∀ r ∈ s.refresh.list, ∀ r' ∈ s.refresh.list, r.familyID = r'.familyID →
    SameGrant r.toRefreshParams r'.toRefreshParams
  chain : ∀ r ∈ s.refresh.list, ∀ id, r.replacesID = some id → ∃ o ∈ s.refresh.list, o.id = id ∧
    Succeeds o.toRefreshParams r.toRefreshParams
  phases : ∀ {i q φ}, th i = some (q, φ) → GrantOK d strict s q φ
  names : ∀ {i j q q' fam}, th i = some (q, .named fam) → th j = some (q', .named fam) → i = j
  log : ∀ {q ts}, (.refresh q, .ok ts) ∈ log →
    (∃ rt, Handed d s q ts.refreshToken rt ∧ rt.scope = ts.scope) ∧ (strict = true → Scoped ts.accessToken ts.scope)

section
variable {d : OIDCHandler} {strict : Bool} {s s' : TokenStore}
  {new : Option RefreshRow}

structure RefreshGrown (new : Option RefreshRow) (s s' : TokenStore) : Prop where
  nextID : s.nextID ≤ s'.nextID
  fwd : ∀ r ∈ s.refresh.list, ∃ r' ∈ s'.refresh.list, r.Same r'
  bwd : ∀ r' ∈ s'.refresh.list, new = some r' ∨ ∃ r ∈ s.refresh.list, r.Same r'

theorem RefreshKept.grown (hk : RefreshKept s s') : RefreshGrown none s s' :=
  ⟨hk.nextID, hk.fwd, fun r' hr' => .inr (hk.bwd r' hr')⟩

theorem RefreshGrown.insert (hi : s.insertRefresh p c = some s') :
    RefreshGrown (some { p with id := s.refresh.freshKey, tokenHash := c }) s s' := by
  obtain ⟨hs', hlist⟩ := insertRefresh_some hi
  refine ⟨by rw [hs'], ?_, ?_⟩
  · intro r hr
    refine ⟨r, ?_, .refl r⟩
    rw [hlist]
    exact mem_cons_of_mem _ hr
  · intro r' hr'
    rw [hlist] at hr'
    rcases mem_cons.mp hr' with rfl | hr'
    · exact .inl rfl
    · exact .inr ⟨r', hr', .refl r'⟩

theorem Held.mono (hg : RefreshGrown new s s') (h : Held s rt) : Held s' rt := by
  obtain ⟨r, hr, hsame⟩ := h
  obtain ⟨r', hr', hsame'⟩ := hg.fwd r hr
  exact ⟨r', hr', hsame.trans hsame'⟩

theorem Handed.mono (hg : RefreshGrown new s s') {q plain} (h : Handed d s q plain rt) : Handed d s' q plain rt := by
  obtain ⟨hheld, r, hr, hh, hparams⟩ := h
  obtain ⟨r', hr', hsame⟩ := hg.fwd r hr
  refine ⟨hheld.mono hg, r', hr', hsame.hash.trans hh, ?_⟩
  rw [hsame.params]
  exact hparams

structure FamilyInv.Fits (s : TokenStore) (th : GrantThreads) (p : RefreshParams) : Prop where
  bound : p.familyID < s.nextID
  agree : ∀ r ∈ s.refresh.list, r.familyID = p.familyID → SameGrant r.toRefreshParams p
  unnamed : ∀ {i q}, th i ≠ some (q, .named p.familyID)
  chain : ∀ id, p.replacesID = some id → ∃ o ∈ s.refresh.list, o.id = id ∧ Succeeds o.toRefreshParams p

namespace FamilyInv

section
variable (h : FamilyInv d strict s th log)
include h

theorem grow (hg : RefreshGrown new s s')
    (hnew : ∀ n, new = some n → Fits s th n.toRefreshParams) : FamilyInv d strict s' th log where
  bound := by
    intro r' hr'
    refine Nat.lt_of_lt_of_le ?_ hg.nextID
    rcases hg.bwd r' hr' with hn | ⟨r, hr, hsame⟩
    · exact (hnew r' hn).bound
    · rw [hsame.params]
      exact h.bound r hr
  agree := by
    intro r₁' hr₁' r₂' hr₂' hfam
    rcases hg.bwd r₁' hr₁' with hn₁ | ⟨r₁, hr₁, hsame₁⟩ <;> rcases hg.bwd r₂' hr₂' with hn₂ | ⟨r₂, hr₂, hsame₂⟩
    · cases hn₁.symm.trans hn₂
      exact ⟨rfl, rfl, rfl, rfl, rfl⟩
    · rw [hsame₂.params] at hfam ⊢
      exact ((hnew r₁' hn₁).agree r₂ hr₂ hfam.symm).symm
    · rw [hsame₁.params] at hfam ⊢
      exact (hnew r₂' hn₂).agree r₁ hr₁ hfam
    · rw [hsame₁.params, hsame₂.params] at hfam ⊢
      exact h.agree r₁ hr₁ r₂ hr₂ hfam
  chain := by
    intro r' hr' id hid
    have hold : ∃ o ∈ s.refresh.list, o.id = id ∧ Succeeds o.toRefreshParams r'.toRefreshParams := by
      rcases hg.bwd r' hr' with hn | ⟨r, hr, hsame⟩
      · exact (hnew r' hn).chain id hid
      · rw [hsame.params] at hid ⊢
        exact h.chain r hr id hid
    obtain ⟨o, ho, hoid, hsucc⟩ := hold
    obtain ⟨o', ho', hsame'⟩ := hg.fwd o ho
    refine ⟨o', ho', hsame'.id.trans hoid, ?_⟩
    rw [hsame'.params]
    exact hsucc
  phases := by
    intro i q φ hi
    have hok := h.phases hi
    cases φ with
    | idle => exact trivial
    | named fam =>
      refine ⟨Nat.lt_of_lt_of_le hok.1 hg.nextID, ?_⟩
      intro r' hr' hfam
      rcases hg.bwd r' hr' with hn | ⟨r, hr, hsame⟩
      · exact (hnew r' hn).unnamed (hfam ▸ hi)
      · rw [hsame.params] at hfam
        exact hok.2 r hr hfam
    | current rt | rotated rt => exact Held.mono hg hok
    | minted rt tok => exact ⟨hok.1.mono hg, hok.2⟩
    | stored rt tok plain => exact ⟨fun q' hq => (hok.1 q' hq).mono hg, hok.2⟩
  names := h.names
  log := by
    intro q ts hl
    obtain ⟨⟨rt, hrt, hsame⟩, hscope⟩ := h.log hl
    exact ⟨⟨rt, hrt.mono hg, hsame⟩, hscope⟩

theorem mono (hk : RefreshKept s s') : FamilyInv d strict s' th log :=
  h.grow hk.grown nofun

theorem insert (hi : s.insertRefresh p c = some s')
    (hp : Fits s th p) : FamilyInv d strict s' th log :=
  h.grow (.insert hi) fun _ hn => by cases hn; exact hp

theorem goOn {φ} (hok : GrantOK d strict s q φ)
    (hnew : ∀ fam, φ = .named fam → ∀ j q', j ≠ i → th j ≠ some (q', .named fam)) :
    FamilyInv d strict s (update th i (some (q, φ))) log where
  bound := h.bound
  agree := h.agree
  chain := h.chain
  phases := by
    intro j q' ψ hj
    rcases update_cases hj with ⟨-, heq⟩ | ⟨-, hj⟩
    · cases heq
      exact hok
    · exact h.phases hj
  names := by
    intro j k q₁ q₂ fam hj₀ hk₀
    rcases update_cases hj₀ with ⟨e, heq⟩ | ⟨hne, hj⟩ <;> rcases update_cases hk₀ with ⟨e', heq'⟩ | ⟨hne', hk⟩
    · rw [e, e']
    · cases heq
      exact absurd hk (hnew fam rfl k q₂ hne')
    · cases heq'
      exact absurd hj (hnew fam rfl j q₁ hne)
    · exact h.names hj hk
  log := h.log

theorem rest :
    FamilyInv d strict s (update th i (some (q, .idle))) log :=
  h.goOn trivial nofun

end

end FamilyInv

theorem successorParams_succeeds {x}
    (hm : verifyMTLSRefreshBinding rt.mtlsX5TS256 x.mtls = .ok ()) :
    Succeeds rt.toRefreshParams (successorParams x rt) := by
  refine ⟨rfl, Int.le_refl _, ?_⟩
  intro hne
  unfold verifyMTLSRefreshBinding at hm
  rw [if_neg hne] at hm
  simp only [successorParams]
  cases hx : x.mtls with
  | none => rfl
  | some c =>
    rw [hx] at hm
    simp only at hm
    split at hm
    · cases hm
    · exact not_not.mp ‹_›

end

def scopeCond (strict : Bool) : TokenOp → Bool
  | .issueAccessToken _ _ _ uc _ _ => !strict || ((extraOf uc).lookup "scope").isNone
  | _ => true

theorem familyInv_step {d strict env op s s' φ φ'} (h : FamilyInv d strict s th log)
    (hi : th i = some (q, φ)) (he : GrantEffect d env op s s' q φ φ') (hcond : scopeCond strict op = true) :
    FamilyInv d strict s' (update th i (some (q, φ'))) log := by
  have hok := h.phases hi
  cases he with
  | keep hk =>
    rw [← hi, update_eq_self]
    exact h.mono hk
  | drop hk => exact (h.mono hk).rest
  | name hk hn =>
    have hfresh : GrantOK d strict s' q (.named s.nextID) := by
      refine ⟨hn, ?_⟩
      intro r' hr' hfam
      obtain ⟨r, hr, hsame⟩ := hk.bwd r' hr'
      rw [hsame.params] at hfam
      exact absurd (h.bound r hr) (by omega)
    refine (h.mono hk).goOn hfresh ?_
    intro fam hfam j q' _ hj
    cases hfam
    exact absurd (h.phases hj).1 (Nat.lt_irrefl _)
  | @first q p c hr hins =>
    refine h.rest.insert hins ⟨hok.1, fun r hr hf => absurd hf (hok.2 r hr), ?_, ?_⟩
    · intro j q' hj
      rcases update_cases hj with ⟨-, heq⟩ | ⟨hne, hj⟩
      · cases heq
      · exact hne (h.names hj hi)
    · intro id hid
      rw [hr] at hid
      cases hid
  | read hrt hk => exact (h.mono hk).goOn (Held.mono hk.grown ⟨_, hrt, .refl _⟩) nofun
  | revoke hop hworks hs =>
    rw [hs]
    have hk := RefreshKept.revokeByID s
    exact (h.mono (hk _)).goOn (Held.mono (hk _).grown hok) nofun
  | mint hop hk hscope =>
    refine (h.mono hk).goOn ⟨Held.mono hk.grown hok, ?_⟩ nofun
    intro hstrict
    apply hscope
    rw [hop] at hcond
    simpa [scopeCond, hstrict] using hcond
  | @rotate q rt tok plain hc hm hins =>
    obtain ⟨⟨r, hr, hsame⟩, hscope⟩ := hok
    have hfam : r.familyID = (successorParams q.caller rt).familyID := by
      rw [hsame.params]
      rfl
    have hgrant : SameGrant r.toRefreshParams (successorParams q.caller rt) := by
      rw [hsame.params]
      exact ⟨rfl, hc.symm, rfl, rfl, rfl⟩
    have hins' := h.insert hins ⟨hfam ▸ h.bound r hr, ?_, ?_, ?_⟩
    · refine hins'.goOn ⟨?_, hscope⟩ fun _ hf => by cases hf
      rintro _ ⟨⟩
      refine ⟨Held.mono (.insert hins) ⟨r, hr, hsame⟩,
        { successorParams q.caller rt with id := s.refresh.freshKey, tokenHash := d.hashString plain }, ?_, rfl, rfl, rfl, rfl⟩
      rw [(insertRefresh_some hins).2]
      exact mem_cons_self ..
    · intro r' hr' hf
      have hsame' := h.agree r hr r' hr' (hfam.trans hf.symm)
      exact ⟨hgrant.org.trans hsame'.org.symm, hgrant.client.trans hsame'.client.symm,
        hgrant.user.trans hsame'.user.symm, hgrant.scope.trans hsame'.scope.symm,
        hgrant.attestation.trans hsame'.attestation.symm⟩
    · intro j q' hj
      exact (h.phases hj).2 r hr hfam
    · intro id hid
      cases hid
      refine ⟨r, hr, hsame.id, ?_⟩
      rw [hsame.params]
      exact successorParams_succeeds hm

theorem familyInv_kept (strict) (evs) :
    Kept (grantSystem d) (grantProtocol d) (fun _ => .idle) (fun q φ r => GrantDone φ q r)
      (fun _ _ _ op => scopeCond strict op = true) evs (FamilyInv d strict) where
  start := fun _ h _ => h.rest
  step := fun env h hi hstep hcond => familyInv_step h hi (hstep.effect env _) hcond
  finish := by
    intro s th log i q φ r h hi hdone
    refine ⟨h.bound, h.agree, h.chain, fun hj => h.phases (update_none hj).2,
      fun hj hk => h.names (update_none hj).2 (update_none hk).2, ?_⟩
    intro q' ts hl
    rcases mem_cons.mp hl with heq | hl
    · cases heq
      obtain ⟨rt, rfl, hscope⟩ := hdone
      obtain ⟨hhanded, htok⟩ := h.phases hi
      exact ⟨⟨rt, hhanded q' rfl, hscope.symm⟩, hscope ▸ htok⟩
    · exact h.log hl
  other := fun e _ h => h.mono (grantEvent_kept d e _)

theorem familyInv_start (strict) (s : TokenStore) :
    FamilyInv d strict { s with refresh := .empty } (fun _ => none) [] where
  bound _ h := by cases h
  agree _ h := by cases h
  chain _ h := by cases h
  phases h := by cases h
  names h := by cases h
  log h := by cases h

/-- In every run of code exchanges and refresh grants, one after another or interleaved. -/
theorem family_keeps_grant (d : OIDCHandler) (s : TokenStore) (ms : List (PoolMove GrantRequest Env GrantEvent)) :
    let t : GrantPool := run (grantSystem d).step (Pool.init { s with refresh := .empty }) ms
    (∀ r ∈ t.store.refresh.list, ∀ r' ∈ t.store.refresh.list, r.familyID = r'.familyID →
      SameGrant r.toRefreshParams r'.toRefreshParams) ∧
    (∀ r ∈ t.store.refresh.list, ∀ id, r.replacesID = some id → ∃ o ∈ t.store.refresh.list, o.id = id ∧
      Succeeds o.toRefreshParams r.toRefreshParams) ∧
    (∀ q ts, (.refresh q, .ok ts) ∈ t.log → ∃ rt, Handed d t.store q ts.refreshToken rt ∧ rt.scope = ts.scope) ∧
    (Trace (grantSystem d).step (Meets fun _ _ _ op => scopeCond true op = true) (Pool.init { s with refresh := .empty }) ms t →
      ∀ q ts, (.refresh q, .ok ts) ∈ t.log → Scoped ts.accessToken ts.scope) := by
  intro t
  have hrun : Trace (grantSystem d).step (Meets fun _ _ _ op => scopeCond false op = true)
      (Pool.init { s with refresh := .empty }) ms t := by
    apply Trace.run_always
    intro p m
    refine (Meets.always p m).mono fun _ _ _ op _ => ?_
    cases op <;> rfl
  obtain ⟨th, -, hinv⟩ := System.inv (grant_follows d) (familyInv_kept d false _) hrun (familyInv_start d false s)
  refine ⟨hinv.agree, hinv.chain, fun q ts hl => (hinv.log hl).1, ?_⟩
  intro hstrict q ts hl
  obtain ⟨th', -, hinv'⟩ := System.inv (grant_follows d) (familyInv_kept d true _) hstrict (familyInv_start d true s)
  exact (hinv'.log hl).2 rfl

def plainRefresh (refreshToken : String) (mtls : Option MTLSCert) : GrantRequest :=
  .refresh
    { caller := { orgSlug := "acme", clientID := "app", mtls := mtls }
      tc := plainHandler.config
      refreshToken := refreshToken }

def grantAlone (i : Nat) (q : GrantRequest) (plain : String) : List (PoolMove GrantRequest Env GrantEvent) :=
  .start i q :: List.replicate 25 (.advance i { plain := plain })

def firstGrant : List (PoolMove GrantRequest Env GrantEvent) :=
  .other (.code (.authorize "code" plainSession ∅ (some plainUser.id))) :: grantAlone 0 (.code plainRequest) "first"

def grantRun (ms : List (PoolMove GrantRequest Env GrantEvent)) : GrantPool :=
  run (grantSystem plainHandler).step (Pool.init { plainStore with refresh := .empty }) ms

def rebound : List (PoolMove GrantRequest Env GrantEvent) :=
  firstGrant ++ grantAlone 1 (plainRefresh "first" (some ⟨"thumb"⟩)) "second"

theorem family_keeps_grant_rotated :
    (grantRun rebound).log.map (·.2.isOk) = [true, true] ∧
    (∀ q ts, (.refresh q, .ok ts) ∈ (grantRun rebound).log → Scoped ts.accessToken ts.scope) :=
  ⟨by decide +kernel,
    (family_keeps_grant plainHandler plainStore rebound).2.2.2 (Trace.of_checkRun (by decide +kernel))⟩

/-- A certificate first presented on refresh binds the successor only. -/
theorem refresh_binds_new_certificate :
    (grantRun rebound).log.map (·.2.isOk) = [true, true] ∧
    (grantRun rebound).store.refresh.list.map (fun r => (r.familyID, r.tokenHash, r.mtlsX5TS256)) =
      [(2, "second", "thumb"), (2, "first", "")] := by
  decide +kernel

/-! ## One live token -/

def rotationCond (s : TokenStore) (env : Env) (_ : GrantRequest) : TokenOp → Bool
  | .revokeByID id => env.fails || s.refresh.list.all fun r => r.id != id || r.revokedAt.isNone
  | _ => true

def GrantPhase.rotating : GrantPhase → Option RefreshRow
  | rotated rt | minted rt _ => some rt
  | _ => none

def hashStored (s : TokenStore) (h : String) : Prop := ∃ r ∈ s.refresh.list, r.tokenHash = h

def storedHash : GrantRequest × GrantPhase → Option String
  | (_, .stored _ _ plain) => some (d.hashString plain)
  | _ => none

def handedHash : GrantRequest × Except TokenErr TokenSet → Option String
  | (.refresh _, .ok ts) => some (d.hashString ts.refreshToken)
  | _ => none

structure Single (s : TokenStore) (th : GrantThreads) : Prop where
  hashes : ∀ r ∈ s.refresh.list, ∀ r' ∈ s.refresh.list, r.tokenHash = r'.tokenHash → r = r'
  live : ∀ r ∈ s.refresh.list, ∀ r' ∈ s.refresh.list, r.familyID = r'.familyID → r.revokedAt = none →
    r'.revokedAt = none → r = r'
  apart : ∀ {i q φ fam}, th i = some (q, φ) → φ.family = some fam → ∀ r ∈ s.refresh.list, r.familyID = fam →
    r.revokedAt ≠ none
  owners : ∀ {i j q q' φ φ' fam}, th i = some (q, φ) → th j = some (q', φ') → φ.family = some fam →
    φ'.family = some fam → i = j
  replaced : ∀ r ∈ s.refresh.list, ∀ id, r.replacesID = some id → ∀ o ∈ s.refresh.list, o.id = id → o.revokedAt ≠ none
  successor : ∀ r ∈ s.refresh.list, ∀ r' ∈ s.refresh.list, ∀ id, r.replacesID = some id → r'.replacesID = some id → r = r'
  unspent : ∀ {i q φ rt}, th i = some (q, φ) → φ.rotating = some rt → ∀ r ∈ s.refresh.list, r.replacesID ≠ some rt.id

/-- Rows that no two share a property with stay so. -/
theorem RefreshGrown.unique {s s'} {new} (hg : RefreshGrown new s s')
    {P : RefreshRow → RefreshRow → Prop} (hold : ∀ a ∈ s.refresh.list, ∀ b ∈ s.refresh.list, P a b → a = b)
    (hback : ∀ {a b a' b'}, a.Same a' → b.Same b' → P a' b' → P a b) (hsymm : ∀ {a b}, P a b → P b a)
    (hnew : ∀ n, new = some n → ∀ r ∈ s.refresh.list, ∀ r', r.Same r' → ¬ P n r') :
    ∀ a ∈ s'.refresh.list, ∀ b ∈ s'.refresh.list, P a b → a = b := by
  intro a' ha' b' hb' hP
  rcases hg.bwd a' ha' with hn | ⟨a, ha, hsame⟩ <;> rcases hg.bwd b' hb' with hm | ⟨b, hb, hsame'⟩
  · exact Option.some.inj (hn.symm.trans hm)
  · exact absurd hP (hnew a' hn b hb b' hsame')
  · exact absurd (hsymm hP) (hnew b' hm a ha a' hsame)
  · refine eq_of_key ha' hb' ?_
    rw [hsame.id, hsame'.id, hold a ha b hb (hback hsame hsame' hP)]

theorem RefreshRow.Same.live {r r' : RefreshRow} (h : r.Same r') (hr' : r'.revokedAt = none) : r.revokedAt = none := by
  by_contra hr
  exact h.revoked hr hr'

namespace Single

variable {s s' : TokenStore} {φ : GrantPhase} {new : Option RefreshRow}

structure Fits (s : TokenStore) (th : GrantThreads) (n : RefreshRow) : Prop where
  fresh : ∀ r ∈ s.refresh.list, r.id ≠ n.id ∧ r.tokenHash ≠ n.tokenHash ∧ r.replacesID ≠ some n.id
  live : ∀ r ∈ s.refresh.list, r.familyID = n.familyID → r.revokedAt ≠ none
  unowned : ∀ {i q φ}, th i = some (q, φ) → φ.family ≠ some n.familyID
  replaces : ∀ id, n.replacesID = some id → (∃ o ∈ s.refresh.list, o.id = id ∧ o.revokedAt ≠ none) ∧
    (∀ r ∈ s.refresh.list, r.replacesID ≠ some id) ∧
    ∀ {i q φ rt}, th i = some (q, φ) → φ.rotating = some rt → rt.id ≠ id

theorem grow (h : Single s th) (hg : RefreshGrown new s s') (hnew : ∀ n, new = some n → Fits s th n) : Single s' th where
  hashes := by
    refine hg.unique h.hashes (fun h₁ h₂ hh => ?_) Eq.symm ?_
    · rw [← h₁.hash, ← h₂.hash, hh]
    · intro n hn r hr r' hsame hh
      exact (hnew n hn).fresh r hr |>.2.1 (hsame.hash.symm.trans hh.symm)
  live := by
    intro r₁ hr₁ r₂ hr₂ hfam hl₁ hl₂
    refine hg.unique (P := fun a b => a.familyID = b.familyID ∧ a.revokedAt = none ∧ b.revokedAt = none)
      (fun a ha b hb hab => h.live a ha b hb hab.1 hab.2.1 hab.2.2) (fun h₁ h₂ hab => ?_)
      (fun hab => ⟨hab.1.symm, hab.2.2, hab.2.1⟩) ?_ r₁ hr₁ r₂ hr₂ ⟨hfam, hl₁, hl₂⟩
    · rw [← h₁.params, ← h₂.params]
      exact ⟨hab.1, h₁.live hab.2.1, h₂.live hab.2.2⟩
    · intro n hn r hr r' hsame hab
      rw [hsame.params] at hab
      exact (hnew n hn).live r hr hab.1.symm (hsame.live hab.2.2)
  apart := by
    intro i q φ fam hi hφ r' hr' hfam
    rcases hg.bwd r' hr' with hn | ⟨r, hr, hsame⟩
    · rw [← hfam] at hφ
      exact absurd hφ ((hnew r' hn).unowned hi)
    · rw [hsame.params] at hfam
      exact hsame.revoked (h.apart hi hφ r hr hfam)
  owners := h.owners
  replaced := by
    intro r' hr' id hid o' ho' hoid
    rcases hg.bwd r' hr' with hn | ⟨r, hr, hsame⟩ <;> rcases hg.bwd o' ho' with hm | ⟨o, ho, hsame'⟩
    · cases hn.symm.trans hm
      obtain ⟨⟨o, ho, hoid', -⟩, -⟩ := (hnew r' hn).replaces id hid
      exact absurd (hoid'.trans hoid.symm) ((hnew r' hn).fresh o ho).1
    · obtain ⟨⟨o₀, ho₀, hoid₀, hrev⟩, -⟩ := (hnew r' hn).replaces id hid
      have heq : o = o₀ := eq_of_key ho ho₀ (hsame'.id.symm.trans (hoid.trans hoid₀.symm))
      exact hsame'.revoked (heq ▸ hrev)
    · rw [hsame.params, ← hoid] at hid
      exact absurd hid ((hnew o' hm).fresh r hr).2.2
    · rw [hsame.params] at hid
      exact hsame'.revoked (h.replaced r hr id hid o ho (hsame'.id.symm.trans hoid))
  successor := by
    intro r₁ hr₁ r₂ hr₂ id hid₁ hid₂
    refine hg.unique (P := fun a b => a.replacesID = some id ∧ b.replacesID = some id)
      (fun a ha b hb hab => h.successor a ha b hb id hab.1 hab.2) (fun h₁ h₂ hab => ?_) And.symm ?_ r₁ hr₁ r₂ hr₂ ⟨hid₁, hid₂⟩
    · rw [← h₁.params, ← h₂.params]
      exact hab
    · intro n hn r hr r' hsame hab
      rw [hsame.params] at hab
      exact ((hnew n hn).replaces id hab.1).2.1 r hr hab.2
  unspent := by
    intro i q φ rt hi hφ r' hr' hid
    rcases hg.bwd r' hr' with hn | ⟨r, hr, hsame⟩
    · exact ((hnew r' hn).replaces rt.id hid).2.2 hi hφ rfl
    · rw [hsame.params] at hid
      exact h.unspent hi hφ r hr hid

theorem mono (h : Single s th) (hk : RefreshKept s s') : Single s' th := h.grow hk.grown nofun

theorem start (s : TokenStore) : Single { s with refresh := .empty } (fun _ => none) where
  hashes _ h := by cases h
  live _ h := by cases h
  apart h := by cases h
  owners h := by cases h
  replaced _ h := by cases h
  successor _ h := by cases h
  unspent h := by cases h

theorem goOn (h : Single s th)
    (hfam : ∀ fam, φ.family = some fam → (∀ r ∈ s.refresh.list, r.familyID = fam → r.revokedAt ≠ none) ∧
      ∀ j q' ψ, j ≠ i → th j = some (q', ψ) → ψ.family ≠ some fam)
    (hspent : ∀ rt, φ.rotating = some rt → ∀ r ∈ s.refresh.list, r.replacesID ≠ some rt.id) :
    Single s (update th i (some (q, φ))) where
  hashes := h.hashes
  live := h.live
  apart := by
    intro j q' ψ fam hj hψ
    rcases update_cases hj with ⟨-, heq⟩ | ⟨-, hj⟩
    · cases heq
      exact (hfam fam hψ).1
    · exact h.apart hj hψ
  owners := by
    intro j k q₁ q₂ φ₁ φ₂ fam hj₀ hk₀ h₁ h₂
    rcases update_cases hj₀ with ⟨e, heq⟩ | ⟨hne, hj⟩ <;> rcases update_cases hk₀ with ⟨e', heq'⟩ | ⟨hne', hk⟩
    · rw [e, e']
    · cases heq
      exact absurd h₂ ((hfam fam h₁).2 k q₂ φ₂ hne' hk)
    · cases heq'
      exact absurd h₁ ((hfam fam h₂).2 j q₁ φ₁ hne hj)
    · exact h.owners hj hk h₁ h₂
  replaced := h.replaced
  successor := h.successor
  unspent := by
    intro j q' ψ rt hj hψ
    rcases update_cases hj with ⟨-, heq⟩ | ⟨-, hj⟩
    · cases heq
      exact hspent rt hψ
    · exact h.unspent hj hψ

theorem rest (h : Single s th) (hfam : φ.family = none) (hrot : φ.rotating = none) :
    Single s (update th i (some (q, φ))) := by
  apply h.goOn
  · intro fam hf
    rw [hfam] at hf
    cases hf
  · intro rt hr
    rw [hrot] at hr
    cases hr

theorem erase (h : Single s th) : Single s (update th i none) :=
  ⟨h.hashes, h.live, fun hj => h.apart (update_none hj).2,
    fun hj hk => h.owners (update_none hj).2 (update_none hk).2, h.replaced, h.successor,
    fun hj => h.unspent (update_none hj).2⟩

theorem insert (h : Single s th) (hi : s.insertRefresh p c = some s')
    (hchain : ∀ r ∈ s.refresh.list, ∀ id, r.replacesID = some id → ∃ o ∈ s.refresh.list, o.id = id)
    (hlive : ∀ r ∈ s.refresh.list, r.familyID = p.familyID → r.revokedAt ≠ none)
    (hown : ∀ {j q ψ}, th j = some (q, ψ) → ψ.family ≠ some p.familyID)
    (hrep : ∀ id, p.replacesID = some id → (∃ o ∈ s.refresh.list, o.id = id ∧ o.revokedAt ≠ none) ∧
      (∀ r ∈ s.refresh.list, r.replacesID ≠ some id) ∧
      ∀ {j q ψ rt}, th j = some (q, ψ) → ψ.rotating = some rt → rt.id ≠ id) : Single s' th := by
  have hkey : ∀ r ∈ s.refresh.list, r.id ≠ s.refresh.freshKey := by
    intro r hr heq
    exact s.refresh.freshKey_notMem (mem_map.mpr ⟨r, hr, heq⟩)
  refine h.grow (.insert hi) fun n hn => ?_
  cases hn
  refine ⟨fun r hr => ⟨hkey r hr, ?_, ?_⟩, hlive, hown, hrep⟩
  · intro hc
    rw [insertRefresh_none.mpr ⟨r, hr, hc⟩] at hi
    cases hi
  · intro hid
    obtain ⟨o, ho, hoid⟩ := hchain r hr _ hid
    exact hkey o ho hoid

end Single

structure RotationInv (d : OIDCHandler) (s : TokenStore) (th : GrantThreads) (log : GrantLog) : Prop where
  family : FamilyInv d false s th log
  single : Single s th
  once : Once hashStored (storedHash d) (handedHash d) s th log

theorem hashStored.mono {s s' new} (hg : RefreshGrown new s s') {h} (hs : hashStored s h) : hashStored s' h := by
  obtain ⟨r, hr, hh⟩ := hs
  obtain ⟨r', hr', hsame⟩ := hg.fwd r hr
  exact ⟨r', hr', hsame.hash.trans hh⟩

section
variable {d : OIDCHandler} {env : Env} {op : TokenOp} {s s' : TokenStore}
  {φ φ' : GrantPhase}

theorem FamilyInv.family_lt (h : FamilyInv d false s th log) (hi : th i = some (q, φ)) {fam}
    (hφ : φ.family = some fam) : fam < s.nextID := by
  have held : ∀ {rt}, Held s rt → rt.familyID < s.nextID := by
    intro rt hh
    obtain ⟨r, hr, hsame⟩ := hh
    rw [← hsame.params]
    exact h.bound r hr
  have hok := h.phases hi
  cases φ with
  | named f => cases hφ; exact hok.1
  | rotated rt => cases hφ; exact held hok
  | minted rt tok => cases hφ; exact held hok.1
  | _ => cases hφ

theorem Single.revoke (hf : FamilyInv d false s th log) (h : Single s th) (hi : th i = some (q, .current rt))
    (hlive : ∀ r ∈ s.refresh.list, r.id = rt.id → r.revokedAt = none) :
    Single (s.revokeByID rt.id) (update th i (some (q, .rotated rt))) := by
  obtain ⟨r₀, hr₀, hsame₀⟩ := hf.phases hi
  have hlive₀ : r₀.revokedAt = none := hlive r₀ hr₀ hsame₀.id
  have hfam₀ : r₀.familyID = rt.familyID := by rw [hsame₀.params]
  have hk := RefreshKept.revokeByID s rt.id
  refine (h.mono hk).goOn ?_ ?_
  · intro fam hfam
    cases hfam
    refine ⟨?_, ?_⟩
    · intro r' hr' hfam
      obtain ⟨a, ha, rfl⟩ := mem_revokeByID.mp hr'
      by_cases hid : a.id = rt.id
      · rw [if_pos (beq_iff_eq.mpr hid)]
        exact some_ne_none _
      · rw [if_neg (by rw [beq_iff_eq]; exact hid)] at hfam ⊢
        intro hla
        have heq := h.live a ha r₀ hr₀ (hfam.trans hfam₀.symm) hla hlive₀
        rw [heq] at hid
        exact hid hsame₀.id
    · intro j q' ψ _ hj hψ
      exact h.apart hj hψ r₀ hr₀ hfam₀ hlive₀
  · intro rt' hrt' r' hr' hid
    cases hrt'
    obtain ⟨r, hr, hsame⟩ := hk.bwd r' hr'
    rw [hsame.params] at hid
    exact h.replaced r hr rt.id hid r₀ hr₀ hsame₀.id hlive₀

theorem Single.step (hf : FamilyInv d false s th log) (h : Single s th) (hi : th i = some (q, φ))
    (he : GrantEffect d env op s s' q φ φ') (hcond : rotationCond s env q op = true) :
    Single s' (update th i (some (q, φ'))) := by
  have hok := hf.phases hi
  have hchain : ∀ r ∈ s.refresh.list, ∀ id, r.replacesID = some id → ∃ o ∈ s.refresh.list, o.id = id := by
    intro r hr id hid
    obtain ⟨o, ho, hoid, -⟩ := hf.chain r hr id hid
    exact ⟨o, ho, hoid⟩
  -- once it rests, nobody is left with the family the request had
  have alone : ∀ {fam}, φ.family = some fam → ∀ {j q' ψ},
      update th i (some (q, GrantPhase.idle)) j = some (q', ψ) → ψ.family ≠ some fam := by
    intro fam hfam j q' ψ hj hψ
    rcases update_cases hj with ⟨-, heq⟩ | ⟨hne, hj⟩
    · cases heq
      cases hψ
    · exact hne (h.owners hj hi hψ hfam)
  cases he with
  | keep hk =>
    rw [← hi, update_eq_self]
    exact h.mono hk
  | drop hk | read hrt hk => exact (h.mono hk).rest rfl rfl
  | name hk hn =>
    refine (h.mono hk).goOn ?_ ?_
    · intro fam hfam
      cases hfam
      refine ⟨?_, ?_⟩
      · intro r' hr' hfam
        obtain ⟨r, hr, hsame⟩ := hk.bwd r' hr'
        rw [hsame.params] at hfam
        exact absurd (hf.bound r hr) (by omega)
      · intro j q' ψ _ hj hψ
        exact Nat.lt_irrefl _ (hf.family_lt hj hψ)
    · intro rt hrt
      cases hrt
  | @first q p c hr hins =>
    refine (h.rest rfl rfl).insert hins hchain (h.apart hi rfl) (alone rfl) ?_
    intro id hid
    rw [hr] at hid
    cases hid
  | @revoke q rt hop hworks hs =>
    rw [hs]
    refine Single.revoke hf h hi ?_
    intro r hr hid
    rw [hop] at hcond
    simp only [rotationCond, hworks, Bool.false_or, List.all_eq_true] at hcond
    have hthis := hcond r hr
    simpa [hid] using hthis
  | @mint q rt tok tc clientID uc dpop mtls hop hk hscope =>
    refine (h.mono hk).goOn ?_ ?_
    · intro fam hfam
      refine ⟨(h.mono hk).apart hi hfam, ?_⟩
      intro j q' ψ hne hj hψ
      exact hne (h.owners hj hi hψ hfam)
    · intro rt' hrt'
      exact (h.mono hk).unspent hi hrt'
  | @rotate q rt tok plain hc hm hins =>
    have hrest : Single s' (update th i (some (.refresh q, .idle))) := by
      refine (h.rest rfl rfl).insert hins hchain (h.apart hi rfl) (alone rfl) ?_
      intro id hid
      cases hid
      obtain ⟨⟨r, hr, hsame⟩, -⟩ := hok
      refine ⟨⟨r, hr, hsame.id, h.apart hi rfl r hr (by rw [hsame.params])⟩, h.unspent hi rfl, ?_⟩
      -- another request that rotates the row would own the family too
      intro j q' ψ rt' hj hψ hid
      rcases update_cases hj with ⟨-, heq⟩ | ⟨hne, hj⟩
      · cases heq
        cases hψ
      · have hfam : ψ.family = some rt'.familyID := by cases ψ <;> cases hψ <;> rfl
        have hheld : Held s rt' := by
          have hok' := hf.phases hj
          cases ψ with
          | rotated rt'' => cases hψ; exact hok'
          | minted rt'' tok' => cases hψ; exact hok'.1
          | _ => cases hψ
        obtain ⟨r', hr', hsame'⟩ := hheld
        have heq : r' = r := eq_of_key hr' hr (hsame'.id.trans (hid.trans hsame.id.symm))
        have hsamefam : rt'.familyID = rt.familyID := by
          rw [← hsame'.params, heq, hsame.params]
        rw [hsamefam] at hfam
        exact hne (h.owners hj hi hfam rfl)
    have hstored := hrest.rest (i := i) (q := .refresh q) (φ := .stored rt tok plain) rfl rfl
    rw [update_idem] at hstored
    exact hstored

theorem once_step (h : Once hashStored (storedHash d) (handedHash d) s th log) (hi : th i = some (q, φ))
    (he : GrantEffect d env op s s' q φ φ') :
    Once hashStored (storedHash d) (handedHash d) s' (update th i (some (q, φ'))) log := by
  have kept : RefreshKept s s' → Once hashStored (storedHash d) (handedHash d) s' th log :=
    fun hk => h.mono fun _ hs => hs.mono hk.grown
  cases he with
  | keep hk =>
    rw [← hi, update_eq_self]
    exact kept hk
  | drop hk | name hk hn | read hrt hk | mint hop hk hscope => exact (kept hk).keep (.inl rfl)
  | first hr hins => exact (h.mono fun _ hs => hs.mono (.insert hins)).keep (.inl rfl)
  | revoke hop hworks hs => exact (kept (hs ▸ .revokeByID s _)).keep (.inl rfl)
  | @rotate q rt tok plain hc hm hins =>
    refine h.take rfl ?_ (fun _ hs => hs.mono (.insert hins)) ?_
    · intro hs
      rw [insertRefresh_none.mpr hs] at hins
      cases hins
    · refine ⟨{ successorParams q.caller rt with id := s.refresh.freshKey, tokenHash := d.hashString plain }, ?_, rfl⟩
      rw [(insertRefresh_some hins).2]
      exact mem_cons_self ..

end

theorem rotationInv_kept (evs) :
    Kept (grantSystem d) (grantProtocol d) (fun _ => .idle) (fun q φ r => GrantDone φ q r) (rotationCond · · · ·) evs
      (RotationInv d) where
  start q h _ := ⟨h.family.rest, h.single.rest rfl rfl, h.once.keep (.inl rfl)⟩
  step := by
    intro s th log i q φ op f env h hi hstep hcond
    have he := hstep.effect env s
    exact ⟨familyInv_step h.family hi he (by cases op <;> rfl), h.single.step h.family hi he hcond, once_step h.once hi he⟩
  finish := by
    intro s th log i q φ r h hi hdone
    refine ⟨(familyInv_kept d false evs).finish h.family hi hdone, h.single.erase, h.once.finish hi ?_⟩
    intro k hk
    cases q with
    | code q => cases hk
    | refresh q =>
      cases r with
      | error e => cases hk
      | ok ts =>
        obtain ⟨rt, rfl, -⟩ := hdone
        exact hk
  other e he h :=
    ⟨h.family.mono (grantEvent_kept d e _), h.single.mono (grantEvent_kept d e _),
      h.once.mono fun _ hs => hs.mono (grantEvent_kept d e _).grown⟩

def exchanged (s : TokenStore) : GrantRequest × Except TokenErr TokenSet → Option Nat
  | (.refresh _, .ok ts) => (s.refresh.find (·.tokenHash == d.hashString ts.refreshToken)).bind (·.replacesID)
  | _ => none

theorem exchanged_eq (s l) :
    exchanged d s l = (handedHash d l).bind fun h => (s.refresh.find (·.tokenHash == h)).bind (·.replacesID) := by
  obtain ⟨q, r⟩ := l
  cases q <;> cases r <;> rfl

theorem refresh_rotates_once (d : OIDCHandler) (s : TokenStore) (ms : List (PoolMove GrantRequest Env GrantEvent))
    (t : GrantPool)
    (hrun : Trace (grantSystem d).step (Meets (rotationCond · · · ·)) (Pool.init { s with refresh := .empty }) ms t) :
    (∀ r ∈ t.store.refresh.list, ∀ r' ∈ t.store.refresh.list, r.familyID = r'.familyID → r.revokedAt = none →
      r'.revokedAt = none → r = r') ∧
    (t.log.filterMap (exchanged d t.store)).Nodup ∧
    ∀ q ts, (.refresh q, .ok ts) ∈ t.log →
      ∃ o ∈ t.store.refresh.list, exchanged d t.store (.refresh q, .ok ts) = some o.id := by
  have hstart : RotationInv d { s with refresh := .empty } (fun _ => none) [] :=
    ⟨familyInv_start d false s, .start s, nil⟩
  obtain ⟨th, -, hinv⟩ := System.inv (grant_follows d) (rotationInv_kept d _) hrun hstart
  refine ⟨hinv.single.live, ?_, ?_⟩
  · have heq : t.log.filterMap (exchanged d t.store) = (t.log.filterMap (handedHash d)).filterMap
        fun h => (t.store.refresh.find (·.tokenHash == h)).bind (·.replacesID) := by
      rw [filterMap_filterMap]
      congr 1
      funext l
      exact exchanged_eq d t.store l
    rw [heq]
    refine hinv.once.nodup.filterMap ?_
    intro h h' id hid hid'
    obtain ⟨r, hr, hrid⟩ := bind_eq_some_iff.mp hid
    obtain ⟨r', hr', hrid'⟩ := bind_eq_some_iff.mp hid'
    obtain ⟨hmem, hh⟩ := find_some hr
    obtain ⟨hmem', hh'⟩ := find_some hr'
    have hsame := hinv.single.successor r hmem r' hmem' id hrid hrid'
    rw [← beq_iff_eq.mp hh, ← beq_iff_eq.mp hh', hsame]
  · intro q ts hl
    obtain ⟨⟨_, ⟨-, r, hr, hh, hid, -⟩, -⟩, -⟩ := hinv.family.log hl
    obtain ⟨o, ho, hoid, -⟩ := hinv.family.chain r hr _ hid
    refine ⟨o, ho, ?_⟩
    show (t.store.refresh.find (·.tokenHash == d.hashString ts.refreshToken)).bind (·.replacesID) = some o.id
    cases hfind : t.store.refresh.find (·.tokenHash == d.hashString ts.refreshToken) with
    | none =>
      have hne := find_none hfind r hr
      rw [hh, beq_self_eq_true] at hne
      cases hne
    | some r' =>
      obtain ⟨hmem, hh'⟩ := find_some hfind
      rw [hinv.single.hashes r' hmem r hr ((beq_iff_eq.mp hh').trans hh.symm), hoid]
      exact hid

def recovered : List (PoolMove GrantRequest Env GrantEvent) :=
  firstGrant ++ grantAlone 1 (plainRefresh "first" none) "second" ++ grantAlone 2 (plainRefresh "first" none) "third"

theorem refresh_rotates_once_recovered :
    (grantRun recovered).log.filterMap (exchanged plainHandler (grantRun recovered).store) = [2, 1] ∧
    (∀ r ∈ (grantRun recovered).store.refresh.list, ∀ r' ∈ (grantRun recovered).store.refresh.list,
      r.familyID = r'.familyID → r.revokedAt = none → r'.revokedAt = none → r = r') := by
  refine ⟨by decide +kernel, ?_⟩
  have hrun : Trace (grantSystem plainHandler).step (Meets (rotationCond · · · ·))
      (Pool.init { plainStore with refresh := .empty }) recovered (grantRun recovered) :=
    Trace.of_checkRun (by decide +kernel)
  exact (refresh_rotates_once plainHandler plainStore recovered (grantRun recovered) hrun).1

def racing : List (PoolMove GrantRequest Env GrantEvent) :=
  firstGrant ++ .start 1 (plainRefresh "first" none) :: List.replicate 5 (.advance 1 { plain := "second" }) ++
    grantAlone 2 (plainRefresh "first" none) "third" ++ List.replicate 20 (.advance 1 { plain := "second" })

theorem racing_refresh_forks_family :
    (grantRun racing).store.refresh.list.map (fun r => (r.tokenHash, r.familyID, r.revokedAt)) =
      [("second", 2, none), ("third", 2, none), ("first", 2, some 0)] ∧
    (grantRun racing).log.filterMap (exchanged plainHandler (grantRun racing).store) = [1, 1] := by
  decide +kernel

end Clavex

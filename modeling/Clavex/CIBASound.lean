import Clavex.ScopeSound

/-!
# Backchannel requests are decided once

Approvals, denials and polls interleave with any other statement. A statement that decides a
request only finds a pending one, and none writes its client or its user. A poll that yields
tokens has read an approved request of its own client (`ciba_decision_final`).
-/

namespace Clavex

open Prog

/-! ## What a statement does to the requests -/

structure Continues (r r' : CIBARequest) : Prop where
  authReqID : r'.authReqID = r.authReqID
  clientID : r'.clientID = r.clientID
  userID : r'.userID = r.userID
  decided : r.status ≠ .pending → r'.status = r.status

theorem continues_succession : Succession (fun r : CIBARequest => r.authReqID) Continues where
  refl := fun _ => ⟨rfl, rfl, rfl, fun _ => rfl⟩
  trans := by
    intro r r' r'' h h'
    refine ⟨h'.authReqID.trans h.authReqID, h'.clientID.trans h.clientID, h'.userID.trans h.userID, fun hr => ?_⟩
    have hr' := h.decided hr
    rw [h'.decided (by rw [hr']; exact hr), hr']
  key := fun h => h.authReqID

abbrev AllContinue (s t : TokenStore) : Prop := Inherits Continues s.ciba t.ciba

section
variable {s t : TokenStore}

theorem AllContinue.of_eq (h : t.ciba = s.ciba) : AllContinue s t := by
  unfold AllContinue
  rw [h]
  exact .refl continues_succession s.ciba

theorem AllContinue.decideCIBA {id p f hf}
    (hk : ∀ r, (f r).clientID = r.clientID ∧ (f r).userID = r.userID) : AllContinue s (s.decideCIBA id p f hf) := by
  refine Inherits.modify continues_succession hf fun r _ hp => ?_
  simp only [Bool.and_eq_true, beq_iff_eq] at hp
  exact ⟨hf r, (hk r).1, (hk r).2, fun hne => absurd hp.1.2 hne⟩

theorem AllContinue.delete {p} : AllContinue s { s with ciba := s.ciba.delete p } :=
  Inherits.delete continues_succession p

theorem sem_allContinue (d s env) {op} (hop : op.adds = false) : AllContinue s (sem d env op s).2 := by
  have hwrote := sem_wrote d s env op
  generalize (sem d env op s).2 = t at hwrote ⊢
  cases hwrote with
  | insertDevice | insertCIBA => cases hop
  | approveCIBA | approveCIBAWithVPClaims | denyCIBA => exact .decideCIBA fun _ => ⟨rfl, rfl⟩
  | deleteCIBA | cleanupExpiredCIBA => exact .delete
  | _ => exact .of_eq rfl

theorem sem_insertDevice_ciba (d s env orgID) (clientID h userCode scope) (ttl) :
    (sem d env (.insertDevice orgID clientID h userCode scope ttl) s).2.ciba = s.ciba := by
  rcases sem_insertDevice d s env orgID clientID h userCode scope ttl with hsem | ⟨c, devices, hsem, -⟩ <;> rw [hsem]

abbrev RequestsKept : TokenStore → TokenStore → Prop :=
  Lineage (fun s : TokenStore => s.ciba) (fun s id => .ciba id ∈ s.drawn) Continues

theorem sem_requestsKept (d s env op) : RequestsKept s (sem d env op s).2 := by
  have hdrawn := fun id => (sem_pollsKept d s env op).drawn (.ciba id)
  cases hop : op.adds with
  | false => exact .of_inherits hdrawn (sem_allContinue d s env hop)
  | true =>
    cases op with
    | insertDevice orgID clientID c userCode scope ttl =>
      exact .of_inherits hdrawn (AllContinue.of_eq (sem_insertDevice_ciba d s env orgID clientID c userCode scope ttl))
    | insertCIBA r =>
      rcases sem_insertCIBA d s env r with hsem | ⟨ciba, hsem, hnew, hlist⟩
      · rw [hsem]
        exact .refl continues_succession s
      · rw [hsem] at hdrawn ⊢
        exact .push continues_succession hdrawn hlist hnew (List.mem_cons_self ..)
    | _ => cases hop

end

/-! ## Where requests come from -/

abbrev PollMoves := List (PoolMove PollRequest Env PollEvent)

def CreatedIn (ms : PollMoves) (r : CIBARequest) : Prop :=
  ∃ env r₀, .other (.statement env (.insertCIBA r₀)) ∈ ms ∧ r₀.authReqID = r.authReqID ∧ r₀.clientID = r.clientID ∧
    r₀.userID = r.userID

def AllCreated (ms : PollMoves) (s : TokenStore) : Prop := ∀ r ∈ s.ciba.list, CreatedIn ms r

theorem AllCreated.continue {ms s t} (h : AllCreated ms s) (hk : AllContinue s t) : AllCreated ms t := by
  intro r' hr'
  obtain ⟨r, hr, hc⟩ := hk r' hr'
  obtain ⟨env, r₀, hmem, hid, hclient, huser⟩ := h r hr
  exact ⟨env, r₀, hmem, hid.trans hc.authReqID.symm, hclient.trans hc.clientID.symm, huser.trans hc.userID.symm⟩

variable (d : OIDCHandler)

theorem allCreated_event {ms} (e s) (hmem : .other e ∈ ms) (h : AllCreated ms s) : AllCreated ms (pollEvent d e s) := by
  cases e with
  | tick n | settings orgs clients users => exact h
  | statement env op =>
    cases hop : op.adds with
    | false => exact h.continue (sem_allContinue d s env hop)
    | true =>
      cases op with
      | insertDevice orgID clientID c userCode scope ttl =>
        exact h.continue (.of_eq (sem_insertDevice_ciba d s env orgID clientID c userCode scope ttl))
      | insertCIBA r =>
        intro r' hr'
        rcases sem_insertCIBA d s env r with hsem | ⟨ciba, hsem, -, hlist⟩
        · simp only [pollEvent, hsem] at hr'
          exact h r' hr'
        · simp only [pollEvent, hsem, hlist] at hr'
          rcases List.mem_cons.mp hr' with rfl | hr'
          · exact ⟨env, r, hmem, rfl, rfl, rfl⟩
          · exact h r' hr'
      | _ => cases hop

/-! ## What a poll yields -/

def AccessTokenOf (clientID : String) (user : User) (tok : Signed) : Prop :=
  ∃ tc now jti scope uc dpop mtls, ClaimsOf d user uc ∧
    issueAccessToken d.jwt tc now jti clientID scope (some uc) dpop mtls false = some (tok, jti)

def IDTokenOf (clientID : String) (user : User) (tok : Signed) : Prop :=
  ∃ tc now jti nonce uc alg, ClaimsOf d user uc ∧
    issueIDToken d.jwt tc now jti clientID nonce uc alg false = some tok

def RefreshTokenOf (clientID : String) (userID : Option UUID) (s : TokenStore) (tok : String) : Prop :=
  ∃ r ∈ s.refresh.list, r.tokenHash = d.hashString tok ∧ r.clientID = clientID ∧ r.userID = userID

structure TokensOf (d : OIDCHandler) (s : TokenStore) (ms : PollMoves) (clientID : String) (user : User)
    (ts : TokenSet) : Prop where
  access : AccessTokenOf d clientID user ts.accessToken
  id : ∃ tok, ts.idToken = some tok ∧ IDTokenOf d clientID user tok
  refresh : ∃ u, Visits (pollSystem d) s ms u ∧ RefreshTokenOf d clientID (some user.id) u ts.refreshToken

section
variable (d : OIDCHandler) (s : TokenStore) (ms : PollMoves)

abbrev Polling {ε α : Type} (Q : α → Prop) (p : Prog TokenOp TokenOp.Resp ε α) : Prop :=
  p.Steady (sem d)
    (fun env u op => True ∧ Visits (pollSystem d) s ms u ∧ Visits (pollSystem d) s ms (sem d env op u).2) (AllCreated ms) Q

variable {d s ms} {ε α β : Type} {Q : β → Prop}

theorem allCreated_sem (env op u) (hop : op.adds = false) (hu : AllCreated ms u) :
    AllCreated ms (sem d env op u).2 := hu.continue (sem_allContinue d u env hop)

theorem polling_uses {p} (hp : AddsNone p) {f : α → Prog TokenOp TokenOp.Resp ε β}
    (hf : ∀ a, Polling d s ms Q (f a)) : Polling d s ms Q (p >>= f) :=
  .uses allCreated_sem hp hf

variable {op : TokenOp} {user : User} {uc : UserClaims}

theorem polling_stmt (hop : op.adds = false) {f : op.Resp → Prog TokenOp TokenOp.Resp ε β}
    (hf : ∀ r, Polling d s ms Q (f r)) : Polling d s ms Q (stmt op >>= f) :=
  .call allCreated_sem hop hf

theorem polling_read (hop : op.adds = false) {f : op.Resp → Prog TokenOp TokenOp.Resp ε β}
    (hf : ∀ env u, AllCreated ms u → Visits (pollSystem d) s ms u → Visits (pollSystem d) s ms (sem d env op u).2 →
      Polling d s ms Q (f (sem d env op u).1)) : Polling d s ms Q (stmt op >>= f) :=
  fun env u hu hc => ⟨allCreated_sem env op u hop hu, hf env u hu hc.2.1 hc.2.2⟩

theorem activeUser_polling (id) : Polling d s ms (fun user => user.id = id) (activeUser id) := by
  refine polling_read rfl fun env u _ _ _ => ?_
  cases hread : (sem d env (.userByID id) u).1 with
  | none => exact trivial
  | some user =>
    refine .require fun _ => ?_
    have hfind := List.find?_some (readOrFail_some hread)
    exact beq_iff_eq.mp hfind

theorem pollClaims_polling (clientID user) : Polling d s ms (ClaimsOf d user) (pollClaims d clientID user) :=
  polling_stmt rfl fun _ => polling_stmt rfl fun _ => polling_stmt rfl fun _ => ⟨rfl, rfl⟩

theorem cibaClaims_of (h : ClaimsOf d user uc) (cr) : ClaimsOf d user (cibaClaims uc cr) := by
  have hacr : ClaimsOf d user (if cr.acr = "" then uc else { uc with acr := cr.acr }) := by
    split <;> exact h
  unfold cibaClaims vpClaimsExtra
  cases cr.vpClaims with
  | none => exact hacr
  | some claims => exact (hacr.addExtra _ _).addExtra _ _

theorem issueIDTokenFor_polling (tc clientID nonce alg) (h : ClaimsOf d user uc) (tok) :
    Polling d s ms (IDTokenOf d clientID user) (issueIDTokenFor d tc clientID nonce alg uc tok) := by
  refine polling_read rfl fun env u _ _ _ => ?_
  cases hid : (sem d env (.issueIDToken tc clientID nonce { uc with atHash := d.atHash tok } (resolveIDTokenAlg alg)) u).1 with
  | none => exact trivial
  | some idToken =>
    obtain ⟨hworks, hrest⟩ := issueIDToken_some.mp hid
    exact ⟨tc, u.now, _, nonce, { uc with atHash := d.atHash tok }, resolveIDTokenAlg alg, h,
      issueIDToken_some.mpr ⟨rfl, hrest⟩⟩

theorem sem_insertRefresh_row {env u p tok}
    (h : (sem d env (.insertRefresh p (d.hashString tok)) u).1 = true) :
    RefreshTokenOf d p.clientID p.userID (sem d env (.insertRefresh p (d.hashString tok)) u).2 tok := by
  rcases sem_insertRefresh d u env p (d.hashString tok) with ⟨hsem, -⟩ | ⟨t, hsem, hi, -⟩
  · rw [hsem] at h
    cases h
  · rw [hsem]
    refine ⟨{ p with id := u.refresh.freshKey, tokenHash := d.hashString tok }, ?_, rfl, rfl, rfl⟩
    rw [(TokenStore.insertRefresh_some hi).2]
    exact List.mem_cons_self ..

theorem issueRefreshToken_polling (p) :
    Polling d s ms (fun tok => ∃ u, Visits (pollSystem d) s ms u ∧ RefreshTokenOf d p.clientID p.userID u tok)
      (issueRefreshToken d p) := by
  refine polling_stmt rfl (Option.forall.2 ⟨trivial, fun plain => ?_⟩)
  refine polling_read rfl fun env u _ _ hvisit => .require fun hstored => ?_
  have hrow : ∃ u, Visits (pollSystem d) s ms u ∧ RefreshTokenOf d p.clientID p.userID u plain :=
    ⟨_, hvisit, sem_insertRefresh_row hstored⟩
  cases p.replacesID with
  | none => exact hrow
  | some id => exact polling_stmt rfl fun _ => hrow

theorem issuePolled_polling (x tc orgID scope alg) (h : ClaimsOf d user uc) (dpop) {tok}
    (htok : AccessTokenOf d x.clientID user tok) :
    Polling d s ms (TokensOf d s ms x.clientID user)
      (issuePolled d x tc orgID (some user.id) scope alg uc dpop tok) := by
  refine .bind (issueIDTokenFor_polling tc x.clientID "" alg h tok) fun idToken hid => ?_
  refine polling_stmt rfl fun familyID => polling_stmt rfl fun now => ?_
  refine .bind (issueRefreshToken_polling _) fun refreshToken hrefresh => ?_
  exact ⟨htok, ⟨idToken, rfl, hid⟩, hrefresh⟩

theorem redeemCIBA_polling (x proof cr userID) :
    Polling d s ms (fun ts => ∃ user, user.id = userID ∧ TokensOf d s ms x.clientID user ts)
      (redeemCIBA d x proof cr userID) := by
  refine .bind (activeUser_polling userID) fun user huser => ?_
  subst huser
  refine polling_stmt rfl fun cl => polling_stmt rfl fun org => ?_
  refine polling_uses (applyOrgOverrides_quiet ..).addsNone fun tc => ?_
  refine .bind (pollClaims_polling x.clientID user) fun uc huc => ?_
  have hclaims := cibaClaims_of huc cr
  refine polling_uses (checkDPoP_addsNone ..) fun dpop => polling_read rfl fun env u _ _ _ => ?_
  rcases sem_issueAccessToken d u env tc x.clientID cr.scope (some (cibaClaims uc cr)) dpop x.mtls with
    ⟨hsem, -⟩ | ⟨tok, hsem, htok, -⟩ <;> rw [hsem]
  · exact trivial
  · refine polling_stmt rfl fun cl => ?_
    refine .bind (issuePolled_polling x tc cr.orgID cr.scope _ hclaims dpop ⟨_, _, _, _, _, _, _, hclaims, htok⟩) ?_
    exact fun ts hts => polling_stmt rfl fun _ => ⟨user, rfl, hts⟩

def YieldsFor (d : OIDCHandler) (s : TokenStore) (ms : PollMoves) (x : Caller) (authReqID : String) (ts : TokenSet) : Prop :=
  ∃ u r user, Visits (pollSystem d) s ms u ∧ r ∈ u.ciba.list ∧ r.authReqID = authReqID ∧ r.status = .approved ∧
    r.clientID = x.clientID ∧ r.userID = some user.id ∧ CreatedIn ms r ∧ TokensOf d s ms x.clientID user ts

theorem checkCIBA_client {x now cr v} (h : checkCIBA x now cr = .ok v) : cr.clientID = x.clientID := by
  unfold checkCIBA at h
  by_contra hne
  rw [if_pos hne] at h
  cases h

theorem cibaGrant_polling (x proof authReqID) :
    Polling d s ms (YieldsFor d s ms x authReqID) (cibaGrant d x proof authReqID) := by
  refine .require fun _ => polling_read rfl fun env u hu hvisit _ => ?_
  cases hcr : (sem d env (.cibaByID authReqID) u).1 with
  | none => exact trivial
  | some cr =>
    obtain ⟨hmem, hid⟩ := Rows.find_some (readOrFail_some hcr)
    refine polling_stmt rfl fun now => .ofExcept fun _ hcheck => ?_
    have hclient := checkCIBA_client hcheck
    refine polling_stmt rfl fun cl => .require fun _ => polling_stmt rfl fun polled => .require fun _ => ?_
    cases hstatus : cr.status with
    | pending => exact trivial
    | denied => exact polling_stmt rfl fun _ => trivial
    | approved =>
      cases huser : cr.userID with
      | none => exact trivial
      | some userID =>
        refine .mono ?_ (redeemCIBA_polling x proof cr userID)
        intro ts hts
        obtain ⟨user, heq, htokens⟩ := hts
        rw [← heq] at huser
        exact ⟨u, cr, user, hvisit, hmem, beq_iff_eq.mp hid, hstatus, hclient, huser, hu cr hmem, htokens⟩

end

/-! ## Runs -/

def pollsFrom (s : TokenStore) (ms : PollMoves) : PollPool :=
  run (pollSystem d).step (Pool.init s) ms

theorem requestsKept_event (e s) : RequestsKept s (pollEvent d e s) := by
  cases e with
  | tick n | settings orgs clients users => exact .of_inherits (fun _ h => h) (AllContinue.of_eq rfl)
  | statement env op => exact sem_requestsKept d s env op

theorem requestsKept_run (p ms) : RequestsKept p.store (run (pollSystem d).step p ms).store := by
  have hrun : Trace (pollSystem d).step (Meets fun _ _ _ _ => True) p ms (run (pollSystem d).step p ms) :=
    Trace.run_always Meets.always p ms
  refine System.always ?_ ?_ hrun (.refl continues_succession p.store)
  · exact fun env q op s _ h => h.trans continues_succession (sem_requestsKept d s env op)
  · exact fun e s _ h => h.trans continues_succession (requestsKept_event d e s)

theorem polls_yield (s : TokenStore) (ms) {x} {proof} {authReqID} {ts}
    (h : (.ciba x proof authReqID, .ok ts) ∈ (pollsFrom d { s with ciba := .empty } ms).log) :
    YieldsFor d { s with ciba := .empty } ms x authReqID ts := by
  have hrun : Trace (pollSystem d).step (Meets fun _ _ _ _ => True) (Pool.init { s with ciba := .empty }) ms
      (pollsFrom d { s with ciba := .empty } ms) := Trace.run_always Meets.always _ ms
  have hstart : AllCreated ms { s with ciba := .empty } := by
    intro r hr
    cases hr
  have hsteady := System.steady (R := fun q ts => match q with
    | .ciba x _ authReqID => YieldsFor d { s with ciba := .empty } ms x authReqID ts
    | .device .. => True) ?_ (fun e u hmem hu => allCreated_event d e u hmem hu) (System.visits hrun) hstart
  · exact hsteady.2 _ ts h
  · intro i q _
    cases q with
    | ciba x proof authReqID => exact cibaGrant_polling x proof authReqID
    | device x deviceCode =>
      exact .of_uses allCreated_sem (deviceCodeGrant_pollOnly x deviceCode).addsNone

theorem ciba_decision_final (d : OIDCHandler) (s : TokenStore) (as bs : PollMoves) :
    (∀ r ∈ (pollsFrom d { s with ciba := .empty } as).store.ciba.list, r.status ≠ .pending →
      ∀ r' ∈ (pollsFrom d { s with ciba := .empty } (as ++ bs)).store.ciba.list, r'.authReqID = r.authReqID →
        r'.status = r.status ∧ r'.userID = r.userID) ∧
    ∀ x proof authReqID ts, (.ciba x proof authReqID, .ok ts) ∈ (pollsFrom d { s with ciba := .empty } (as ++ bs)).log →
      YieldsFor d { s with ciba := .empty } (as ++ bs) x authReqID ts := by
  constructor
  · intro r hr hdecided r' hr' hid
    have hkept := requestsKept_run d (pollsFrom d { s with ciba := .empty } as) bs
    have hsplit : pollsFrom d { s with ciba := .empty } (as ++ bs) =
        run (pollSystem d).step (pollsFrom d { s with ciba := .empty } as) bs := by
      simp only [pollsFrom, run, List.foldl_append]
    rw [hsplit] at hr'
    have hdrawn := (requestsKept_run d (Pool.init { s with ciba := .empty }) as).allSeen continues_succession fun r hr => by
      cases hr
    have hc := hkept.continues continues_succession hdrawn hr hr' hid
    exact ⟨hc.decided hdecided, hc.userID⟩
  · exact fun x proof authReqID ts h => polls_yield d s (as ++ bs) h

def deniedLate : PollMoves :=
  .other (.statement {} (.denyCIBA "req")) :: .start 0 backchannelPoll :: polls 0 19 "a" ++ .advance 0 { fails := true } ::
    polls 0 1 "a"

theorem ciba_decision_final_of_approved :
    (pollRun allowed).store.ciba.list.map (·.status) = [.approved] ∧
    (pollRun (allowed ++ deniedLate)).store.ciba.list.map (·.status) = [.approved] ∧
    (∀ r ∈ (pollRun allowed).store.ciba.list, ∀ r' ∈ (pollRun (allowed ++ deniedLate)).store.ciba.list,
      r'.authReqID = r.authReqID → r'.userID = r.userID) ∧
    ∃ ts, (backchannelPoll, .ok ts) ∈ (pollRun (allowed ++ deniedLate)).log ∧
      YieldsFor plainHandler { plainStore with devices := .empty, ciba := .empty } (allowed ++ deniedLate) plainCaller "req" ts := by
  have hfinal := ciba_decision_final plainHandler { plainStore with devices := .empty } allowed deniedLate
  refine ⟨by decide +kernel, by decide +kernel, ?_, ?_⟩
  · intro r hr r' hr' hid
    have hdecided : ∀ r ∈ (pollRun allowed).store.ciba.list, r.status ≠ .pending := by decide +kernel
    exact (hfinal.1 r hr (hdecided r hr) r' hr' hid).2
  · obtain ⟨ts, hts⟩ : ∃ ts, (backchannelPoll, .ok ts) ∈ (pollRun (allowed ++ deniedLate)).log :=
      ⟨_, by with_unfolding_all exact List.mem_cons_self ..⟩
    exact ⟨ts, hts, hfinal.2 _ _ _ ts hts⟩

end Clavex

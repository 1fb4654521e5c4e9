import Clavex.PushedAuth
import Clavex.TokenEndpointSound

/-!
# Clients that have to push their requests

Requests are pushed and used in any interleaving. A hash in Redis is what one pushed request
has stored for the client it authenticated. Where the client's row is found when it is decided
whether the request has to be pushed, nothing is created for a client that requires it except
from such a hash. A lookup that fails there lets a request object passed by value through.
-/

namespace Clavex

open Prog List Function Bool

variable {sess : LoginSession} {clientID : String} {params : GoMap String}
  {client : Option (OIDCClient × ClientColumns)} {input : AuthorizeInput}

/-! ## Parameters -/

section
variable (params : GoMap String) (v : String) {k k' : String}

@[simp] theorem param_insert_self : param (params.insert k v) k = v := by
  unfold param
  rw [Finmap.lookup_insert]
  rfl

theorem param_insert_of_ne (h : k' ≠ k) : param (params.insert k v) k' = param params k' := by
  unfold param
  rw [Finmap.lookup_insert_of_ne _ h]

@[simp] theorem param_erase_self : param (params.erase k) k = "" := by
  unfold param
  rw [Finmap.lookup_erase]
  rfl

theorem param_erase_of_ne (h : k' ≠ k) : param (params.erase k) k' = param params k' := by
  unfold param
  rw [Finmap.lookup_erase_ne h]

end

/-! ## What is stored -/

section
variable {K : Type} (h : PushHandler K)

/-- Stored by the request `r` for the client it presents: its form, the claims of its request
object, and the key of its proof. -/
def PushedAs (r : PushRequest) (clientID : String) (params : GoMap String) : Prop :=
  Presents h.toOIDCHandler r.auth clientID ∧ ∃ base key, params = withProofKey base key ∧
    (base = formParams r clientID ∧ param base "request" = "" ∨
      ∃ claims, base = withObject (formParams r clientID) claims clientID ∧
        ∀ c ∈ claims, ∃ client env, parseJAR h.reader env (jarDecryptOpts h) (h.jarClient client)
          (issuerFromRequest h.toOIDCHandler r.auth.orgSlug) (param (formParams r clientID) "request") = .ok c)

theorem withProofKey_param (params key) {k} (hk : k ≠ "dpop_jkt") :
    param (withProofKey params key) k = param params k := by
  cases key with
  | none => rfl
  | some key =>
    simp only [withProofKey]
    split
    · exact param_insert_of_ne _ _ hk
    · rfl

variable {h} {r : PushRequest}

theorem PushedAs.param_clientID (hp : PushedAs h r clientID params) : param params "client_id" = clientID := by
  obtain ⟨-, base, key, rfl, hbase⟩ := hp
  rw [withProofKey_param _ _ (by decide)]
  rcases hbase with ⟨rfl, -⟩ | ⟨claims, rfl, -⟩
  · exact param_insert_self _ _
  · unfold withObject
    rw [param_erase_of_ne _ (by decide), param_insert_self]

theorem PushedAs.param_request (hp : PushedAs h r clientID params) : param params "request" = "" := by
  obtain ⟨-, base, key, rfl, hbase⟩ := hp
  rw [withProofKey_param _ _ (by decide)]
  rcases hbase with ⟨-, hempty⟩ | ⟨claims, rfl, -⟩
  · exact hempty
  · exact param_erase_self _

end

/-! ## Runs -/

inductive AuthzEvent where
  | tick (seconds : Nat)
  | settings (orgs : List OrgRow) (clients : List OIDCClient) (users : List User)
  | signIn (id orgSlug : String) (userID : UUID) (orgID : UUID)
  | statement (env : Env) (op : TokenOp)

section
variable {K : Type} (h : PushHandler K)

def authzEvent : AuthzEvent → AuthzStore → AuthzStore
  | .tick n, s => { s with now := s.now + n }
  | .settings orgs clients users, s => { s with orgs := orgs, clients := clients, users := users }
  | .signIn id orgSlug userID orgID, s =>
    { s with
      sso := Function.update s.sso id (.set { userID := userID, orgID := orgID, orgSlug := orgSlug, authTime := s.now } none) }
  | .statement env op, s => { s with toTokenStore := (sem h.toOIDCHandler env op s.toTokenStore).2 }

def authzSystem : System AuthzRequest AuthzOp AuthzOp.Resp AuthzErr AuthzReply AuthzStore (AuthzEnv K) AuthzEvent where
  main := serveAuthz h
  sem := authzSem h
  other := authzEvent h

abbrev AuthzMoves (K : Type) := List (PoolMove AuthzRequest (AuthzEnv K) AuthzEvent)

abbrev AuthzPool := Pool AuthzRequest AuthzOp AuthzOp.Resp AuthzErr AuthzReply AuthzStore

def authzCond (s : AuthzStore) (env : AuthzEnv K) (_ : AuthzRequest) : AuthzOp → Bool
  | .fapiClient clientID =>
    !(h.columns clientID).requiresPAR || (!env.fails && s.clients.any (·.clientID == clientID))
  | _ => true

variable (ms : AuthzMoves K)

def Pushed (params : GoMap String) : Prop := ∃ i r clientID, .start i (.push r) ∈ ms ∧ PushedAs h r clientID params

def Grant.MadeFrom (sess : LoginSession) : Grant → Prop
  | .login s => ∃ id, s = { sess with id := id }
  | .code ac => ∃ sso now, issueAuthorizationCode (underSSO sess sso) ∅ (some sso.userID) now false = some ac

def FromPushed (g : Grant) : Prop :=
  ∃ i r input client sess, .start i (.push r) ∈ ms ∧ PushedAs h r g.clientID input.params ∧
    authorizeWith h input client = .ok sess ∧ g.MadeFrom sess

structure AuthzInv (s : AuthzStore) : Prop where
  par : ∀ key params e, (s.par key).entry = some (params, e) → Pushed h ms params
  created : ∀ g ∈ s.created, (h.columns g.clientID).requiresPAR = true → FromPushed h ms g

def AuthzOp.calm : AuthzOp → Bool
  | storePAR .. | del _ | createCode _ | saveLogin _ => false
  | _ => true

variable {h ms} {s : AuthzStore}

structure SameAuthz (s s' : AuthzStore) : Prop where
  par : s'.par = s.par
  parKeys : s'.parKeys = s.parKeys
  created : s'.created = s.created

theorem authzSem_same (h : PushHandler K) (env op s) (hop : op.calm = true) : SameAuthz s (authzSem h env op s).2 := by
  cases op with
  | register clientID | spendJTI key ttl =>
    simp only [authzSem]
    split <;> exact ⟨rfl, rfl, rfl⟩
  | storePAR | del | createCode | saveLogin => cases hop
  | _ => exact ⟨rfl, rfl, rfl⟩

theorem authzSem_calm (env op s) (hop : op.calm = true) (hs : AuthzInv h ms s) :
    AuthzInv h ms (authzSem h env op s).2 := by
  have hsame := authzSem_same h env op s hop
  constructor
  · rw [hsame.par]
    exact hs.par
  · rw [hsame.created]
    exact hs.created

theorem authzInv_event (e s) (hs : AuthzInv h ms s) : AuthzInv h ms (authzEvent h e s) := by
  cases e <;> exact ⟨hs.par, hs.created⟩

theorem authzInv_del (env key) (hs : AuthzInv h ms s) : AuthzInv h ms (authzSem h env (.del key) s).2 := by
  simp only [authzSem]
  split
  · exact hs
  refine ⟨fun key' params e he => ?_, hs.created⟩
  by_cases hkey : key' = key
  · rw [hkey] at he
    simp only [update_self] at he
    cases he
  · simp only [update_of_ne hkey] at he
    exact hs.par key' params e he

theorem authzInv_storePAR (env orgSlug) (hs : AuthzInv h ms s) (hp : Pushed h ms params) : AuthzInv h ms (authzSem h env (.storePAR orgSlug params) s).2 := by
  simp only [authzSem]
  split
  · exact hs
  refine ⟨fun key params' e he => ?_, hs.created⟩
  by_cases hkey : key = parKey orgSlug env.plain
  · rw [hkey] at he
    simp only [update_self] at he
    cases he
    exact hp
  · simp only [update_of_ne hkey] at he
    exact hs.par key params' e he

theorem AuthzInv.create (hs : AuthzInv h ms s) {g}
    (hg : (h.columns g.clientID).requiresPAR = true → FromPushed h ms g) (toTokenStore) : AuthzInv h ms { s with toTokenStore := toTokenStore, created := g :: s.created } where
  par := hs.par
  created := by
    intro g' hg'
    rcases mem_cons.mp hg' with rfl | hg'
    · exact hg
    · exact hs.created g' hg'

/-! ## Requests under interference -/

variable (h ms) (q : AuthzRequest)

abbrev Guarded {α : Type} (Q : α → Prop) (p : AuthzProg α) : Prop :=
  p.Steady (authzSem h) (fun env s op => authzCond h s env q op = true) (AuthzInv h ms) Q

variable {h ms q} {α β : Type} {Q : β → Prop}

theorem guarded_op {op} (hop : op.calm = true) {f} (hf : ∀ r, Guarded h ms q Q (f r)) :
    Guarded h ms q Q (authz op >>= f) :=
  .call authzSem_calm hop hf

theorem guarded_read {op} (hop : op.calm = true) {f}
    (hf : ∀ env s, AuthzInv h ms s → authzCond h s env q op = true → Guarded h ms q Q (f (authzSem h env op s).1)) :
    Guarded h ms q Q (authz op >>= f) :=
  fun env s hs hc => ⟨authzSem_calm env op s hop hs, hf env s hs hc⟩

theorem guarded_tokens {op f} (hf : ∀ r, Guarded h ms q Q (f r)) : Guarded h ms q Q (onTokens op >>= f) :=
  @guarded_op K h ms q β Q (.token op) rfl f hf

theorem asAuthz_guarded {ε} {R : α → Prop} (e : ε → AuthzErr) {p} (hp : p.Yields R) :
    Guarded h ms q R (asAuthz e p) :=
  .of_yields authzSem_calm
    (.embed (A := fun op : AuthzOp => op.calm = true) (fun _ => rfl) _) (.embed hp.mapError)

/-! ## Pushing -/

theorem pushedObject_guarded (r) (hc : Presents h.toOIDCHandler r.auth clientID) :
    Guarded h ms q (fun params => ∀ key, PushedAs h r clientID (withProofKey params key)) (pushedObject h r clientID) := by
  unfold pushedObject
  dsimp only
  split
  · rename_i hempty
    exact fun key => ⟨hc, _, key, rfl, .inl ⟨rfl, hempty⟩⟩
  · refine guarded_tokens fun client => ?_
    cases client with
    | none => exact fun key => ⟨hc, _, key, rfl, .inr ⟨none, rfl, fun c hc => by cases hc⟩⟩
    | some client =>
      intro env s hs _
      refine ⟨authzSem_calm env _ s rfl hs, .ofExcept fun claims hclaims => .ofExcept fun _ _ key => ?_⟩
      refine ⟨hc, _, key, rfl, .inr ⟨some claims, rfl, fun c hc => ?_⟩⟩
      cases hc
      exact ⟨client, env.jar, except_mapError_ok hclaims⟩

theorem pushedProof_calm (r params) : (pushedProof h r params).Uses fun op => op.calm = true := by
  unfold pushedProof
  split
  · exact trivial
  · exact ⟨rfl, fun now => .ofExcept fun key => .require trivial⟩

theorem pushedAuthorizationRequest_guarded {i} {r : PushRequest} (hmem : .start i (.push r) ∈ ms) :
    Guarded h ms q (fun _ => True) (pushedAuthorizationRequest h r) := by
  refine .bind (asAuthz_guarded _ (authenticateClient_presents h.toOIDCHandler r.auth)) fun a ha => ?_
  refine .require fun _ => .bind (pushedObject_guarded r ha) fun params hparams => .require fun _ => ?_
  refine guarded_tokens fun client => .ofExcept fun _ _ => guarded_tokens fun client' => .ofExcept fun _ _ => ?_
  refine .uses authzSem_calm (pushedProof_calm r params) fun key => ?_
  intro env s hs _
  refine ⟨authzInv_storePAR env r.auth.orgSlug hs ⟨i, r, a.clientID, hmem, hparams key⟩, ?_⟩
  cases (authzSem h env (.storePAR r.auth.orgSlug (withProofKey params key)) s).1 with
  | none | some token => exact trivial

/-! ## The parameters of an authorization request -/

theorem Pushed.clientID_ne (hp : Pushed h ms params) : param params "client_id" ≠ "" := by
  obtain ⟨i, r, clientID, -, hr⟩ := hp
  rw [hr.param_clientID]
  exact hr.1.1

theorem hgetall_pushed {env key stored} (hs : AuthzInv h ms s)
    (hread : Option.filter (fun m : GoMap String => decide (m.len ≠ 0)) (authzSem h env (.hgetall key) s).1 = some stored) :
    Pushed h ms stored := by
  obtain ⟨hread, hlen⟩ := Option.filter_eq_some_iff.mp hread
  simp only [authzSem] at hread
  split at hread
  · cases hread
  cases hget : (s.par key).get s.now with
  | none =>
    rw [hget] at hread
    cases hread
    exact absurd (GoMap.len_eq_zero.mpr rfl) (of_decide_eq_true hlen)
  | some params =>
    rw [hget] at hread
    cases hread
    obtain ⟨e, he⟩ := Cell.entry_of_get hget
    exact hs.par key params e he

variable (x : AuthorizeQuery)

theorem pushedParams_guarded (token) : Guarded h ms q (Pushed h ms) (pushedParams x token) := by
  refine guarded_read rfl fun env s hs _ => ?_
  cases hstored : Option.filter (fun m : GoMap String => decide (m.len ≠ 0))
      (authzSem h env (.hgetall (parKey x.orgSlug token)) s).1 with
  | none => exact trivial
  | some stored =>
    have hpushed : Pushed h ms stored := hgetall_pushed hs hstored
    have hsame : defaultClientID stored (param x.params "client_id") = stored := by
      unfold defaultClientID
      rw [if_neg fun hempty => hpushed.clientID_ne hempty.1]
    dsimp only
    rw [hsame]
    exact .require fun _ env s hs _ => ⟨authzInv_del env _ hs, hpushed⟩

theorem lookupClient_calm (clientID) : (lookupClient h x clientID).Uses fun op => op.calm = true := by
  refine ⟨rfl, fun client => ?_⟩
  cases client with
  | some cl => exact trivial
  | none =>
    split
    · exact ⟨rfl, fun _ => trivial⟩
    · exact trivial

theorem fetchedParams_calm (requestURI) : (fetchedParams h x requestURI).Uses fun op => op.calm = true := by
  refine .require (.bind (lookupClient_calm x _) fun client => ?_)
  cases client with
  | none => exact trivial
  | some cl => exact ⟨rfl, fun jar => .ofExcept fun _ => trivial⟩

def ResolvedFrom (h : PushHandler K) (ms : AuthzMoves K) (r : Resolved) : Prop :=
  r.parUsed = true → r.requestObjectProcessed = true ∧ Pushed h ms r.params

theorem requestURIParams_guarded :
    Guarded h ms q (ResolvedFrom h ms) (requestURIParams h x) := by
  unfold requestURIParams
  dsimp only
  split
  · intro hused
    cases hused
  · split
    · exact .bind (pushedParams_guarded x _) fun params hparams _ => ⟨rfl, hparams⟩
    · split
      · refine .uses authzSem_calm (fetchedParams_calm x _) fun params => ?_
        intro hused
        cases hused
      · exact trivial

theorem enforceRequestObjectJTIReplay_calm (params) :
    (enforceRequestObjectJTIReplay h params).Uses fun op => op.calm = true := by
  simp only [enforceRequestObjectJTIReplay, call_bind]
  split
  · exact trivial
  · refine ⟨rfl, fun now => ⟨rfl, fun firstUse => ?_⟩⟩
    dsimp only
    split <;> exact trivial

theorem requestParams_guarded {r} (hr : ResolvedFrom h ms r) :
    Guarded h ms q (ResolvedFrom h ms) (requestParams h x r) := by
  unfold requestParams
  dsimp only
  split
  · exact hr
  rename_i hobject
  -- a pushed request has no request object left, so these parameters do not come from one
  have hunused : r.parUsed = false := by
    rw [← not_eq_true]
    intro hused
    obtain ⟨-, i, r', clientID, -, hpushed⟩ := hr hused
    exact hobject hpushed.param_request
  have hvacuous : ∀ r' : Resolved, r'.parUsed = r.parUsed → ResolvedFrom h ms r' := by
    intro r' heq hused
    rw [heq, hunused] at hused
    cases hused
  split
  · exact hvacuous _ rfl
  · refine .uses authzSem_calm (lookupClient_calm x _) fun client => ?_
    cases client with
    | none => exact hvacuous _ rfl
    | some cl =>
      refine guarded_op rfl fun jar => .ofExcept fun claims _ => ?_
      refine .uses (A := fun op => op.calm = true) authzSem_calm (enforceRequestObjectJTIReplay_calm _) fun params => ?_
      exact hvacuous _ rfl

def Allowed (h : PushHandler K) (ms : AuthzMoves K) (params : GoMap String) : Prop :=
  param params "client_id" ≠ "" → (h.columns (param params "client_id")).requiresPAR = true → Pushed h ms params

theorem fapiClient_found {env} (hcond : authzCond h s env q (.fapiClient clientID) = true)
    (hrequires : (h.columns clientID).requiresPAR = true) :
    Option.any (fun cl => (h.columns cl.clientID).requiresPAR) (authzSem h env (.fapiClient clientID) s).1 = true := by
  simp only [authzCond, hrequires, Bool.not_true, Bool.false_or, Bool.and_eq_true, Bool.not_eq_true'] at hcond
  simp only [authzSem, hcond.1, Bool.false_eq_true, ite_false]
  cases hfind : s.clients.find? (·.clientID == clientID) with
  | none =>
    obtain ⟨cl, hcl, hid⟩ := any_eq_true.mp hcond.2
    exact absurd hid (find?_eq_none.mp hfind cl hcl)
  | some cl =>
    have hid : cl.clientID = clientID :=
      beq_iff_eq.mp (find?_some (p := fun cl : OIDCClient => cl.clientID == clientID) hfind)
    rw [Option.any_some, hid]
    exact hrequires

theorem enforcePAR_guarded {r} (hr : ResolvedFrom h ms r) : Guarded h ms q (Allowed h ms) (enforcePAR h x r) := by
  unfold enforcePAR
  dsimp only
  split
  · rename_i hempty
    exact fun hne => absurd hempty hne
  · refine guarded_read rfl fun env s hs hcond => ?_
    by_cases hany : Option.any (fun cl => (h.columns cl.clientID).requiresPAR)
        (authzSem h env (.fapiClient (param r.params "client_id")) s).1 = true
    · rw [if_pos hany]
      refine .require fun hused => ?_
      obtain ⟨hprocessed, hpushed⟩ := hr hused
      rw [if_neg fun hstate => Bool.noConfusion (hprocessed.symm.trans hstate.1)]
      exact fun _ _ => hpushed
    · rw [if_neg hany]
      exact fun _ hrequires => absurd (fapiClient_found hcond hrequires) hany

/-! ## What is created -/

theorem authorizeWith_ok
    (ha : authorizeWith h input client = .ok sess) :
    sess.clientID = param input.params "client_id" ∧ sess.clientID ≠ "" := by
  obtain ⟨req, hreq, ha⟩ := except_bind_ok ha
  obtain ⟨details, -, ha⟩ := except_bind_ok ha
  cases ha
  obtain ⟨cl, hcl, hreq⟩ := except_bind_ok hreq
  obtain ⟨⟨scope, rm⟩, -, hreq⟩ := except_bind_ok hreq
  cases hreq
  refine ⟨rfl, fun hempty => ?_⟩
  unfold authorizeClient at hcl
  rw [if_pos hempty] at hcl
  cases hcl

def MayCreate (h : PushHandler K) (ms : AuthzMoves K) (sess : LoginSession) : Prop :=
  ∀ g : Grant, g.MadeFrom sess → g.clientID = sess.clientID ∧
    ((h.columns g.clientID).requiresPAR = true → FromPushed h ms g)

theorem mayCreate_of_authorize
    (hallowed : Allowed h ms input.params) (ha : authorizeWith h input client = .ok sess) : MayCreate h ms sess := by
  obtain ⟨hid, hne⟩ := authorizeWith_ok ha
  intro g hg
  have hclient : g.clientID = sess.clientID := by
    cases g with
    | login s =>
      obtain ⟨id, rfl⟩ := hg
      rfl
    | code ac =>
      obtain ⟨sso, now, hac⟩ := hg
      cases hac
      rfl
  refine ⟨hclient, fun hrequires => ?_⟩
  rw [hclient, hid] at hrequires
  rw [hid] at hne
  obtain ⟨i, r, clientID, hmem, hpushed⟩ := hallowed hne hrequires
  refine ⟨i, r, input, client, sess, hmem, ?_, ha, hg⟩
  rw [hclient, hid, hpushed.param_clientID]
  exact hpushed

theorem saveLoginSession_guarded (hsess : MayCreate h ms sess) :
    Guarded h ms q (fun _ => True) (saveLoginSession h sess) := by
  refine guarded_tokens fun n env s hs _ => ⟨?_, .require fun _ => trivial⟩
  simp only [authzSem]
  split
  · exact hs
  · exact hs.create (hsess (.login _) ⟨_, rfl⟩).2 _

theorem silentCode_guarded (hsess : MayCreate h ms sess) (sso) :
    Guarded h ms q (fun _ => True) (silentCode sess sso) := by
  refine guarded_tokens fun now => ?_
  cases hac : issueAuthorizationCode (underSSO sess sso) ∅ (some sso.userID) now false with
  | none => exact trivial
  | some ac =>
    intro env s hs _
    refine ⟨?_, trivial⟩
    simp only [authzSem]
    split
    · exact hs
    · exact hs.create (hsess (.code ac) ⟨sso, now, hac⟩).2 _

theorem ssoSessionOf_calm : (ssoSessionOf x).Uses fun op => op.calm = true := by
  unfold ssoSessionOf
  split
  · exact trivial
  · exact ⟨rfl, fun _ => trivial⟩

theorem replyCode_guarded (params sess sso code) : Guarded h ms q (fun _ => True) (replyCode h x params sess sso code) := by
  unfold replyCode
  split
  · exact .bind (asAuthz_guarded _ (.of_forall (fun _ => trivial) _)) fun _ _ => trivial
  · exact trivial

theorem promptNone_guarded (input) (hsess : MayCreate h ms sess) : Guarded h ms q (fun _ => True) (promptNone h x input sess) := by
  refine .uses authzSem_calm (ssoSessionOf_calm x) fun sso => ?_
  cases sso with
  | none => exact trivial
  | some sso =>
    refine guarded_tokens fun now => .require fun _ => .bind (silentCode_guarded hsess sso) fun code _ => ?_
    cases code with
    | none => exact trivial
    | some code => exact replyCode_guarded x _ _ _ _

theorem promptUser_guarded (input) (hsess : MayCreate h ms sess) : Guarded h ms q (fun _ => True) (promptUser h x input sess) := by
  have hcalm : (ssoUnlessLogin x input).Uses fun op => op.calm = true := by
    unfold ssoUnlessLogin
    split
    · exact trivial
    · exact ssoSessionOf_calm x
  refine .uses authzSem_calm hcalm fun sso => ?_
  cases sso with
  | none => exact saveLoginSession_guarded hsess
  | some sso =>
    refine guarded_tokens fun now => ?_
    split
    · exact saveLoginSession_guarded hsess
    · refine .bind (silentCode_guarded hsess sso) fun code _ => ?_
      cases code with
      | none => exact saveLoginSession_guarded hsess
      | some code => exact replyCode_guarded x _ _ _ _

theorem namedClient_calm (params) : (namedClient h x params).Uses fun op => op.calm = true := by
  unfold namedClient
  split
  · exact trivial
  · exact lookupClient_calm x _

theorem authorizeEndpoint_guarded : Guarded h ms q (fun _ => True) (authorizeEndpoint h x) := by
  refine guarded_tokens (Option.forall.2 ⟨trivial, fun org => ?_⟩)
  refine .require fun _ => .bind (requestURIParams_guarded x) fun r hr => ?_
  refine .bind (requestParams_guarded x hr) fun r' hr' => ?_
  refine .bind (enforcePAR_guarded x hr') fun params hparams => guarded_op rfl fun scopes => ?_
  refine .uses authzSem_calm (namedClient_calm x params) fun client => ?_
  refine .ofExcept fun sess hsess => ?_
  have hmay := mayCreate_of_authorize hparams (except_mapError_ok hsess)
  split
  · exact promptNone_guarded x _ hmay
  · exact promptUser_guarded x _ hmay

end

/-- In a run in which the rows of such clients are found, what is created for them comes from
requests they have pushed. -/
theorem par_enforced {K : Type} (h : PushHandler K) (s : AuthzStore) (ms : AuthzMoves K) (t : AuthzPool)
    (hrun : Trace (authzSystem h).step (Meets (authzCond h · · · ·))
      (Pool.init { s with par := fun _ => .empty, created := [] }) ms t) :
    ∀ g ∈ t.store.created, (h.columns g.clientID).requiresPAR = true → FromPushed h ms g := by
  have hstart : AuthzInv h ms { s with par := fun _ => .empty, created := [] } := by
    constructor
    · intro key params e he
      cases he
    · intro g hg
      cases hg
  have hsteady := System.steady (R := fun _ _ => True) ?_
    (fun e u _ hu => authzInv_event e u hu) hrun hstart
  · exact hsteady.1.created
  · intro i q hmem
    cases q with
    | push r => exact pushedAuthorizationRequest_guarded hmem
    | authorize x => exact authorizeEndpoint_guarded x

/-! ## A client that has to push -/

def objectReader : JarReader Unit :=
  { plainJar with
    readJSON
      | "params" => .ok (.obj [("response_type", .str "code"), ("redirect_uri", .str "https://app/cb")])
      | text => plainJar.readJSON text }

def pushHandler : PushHandler Unit :=
  { plainHandler with
    columns := fun _ => { redirectURIs := ["https://app/cb"], requirePAR := true }
    isAllowedRedirectURI := fun uri registered => uri ∈ registered
    atoi := fun _ => none
    readDetails := fun _ => none
    parseJAR := fun _ _ _ => .error (.core "parse JWT")
    reader := objectReader
    encKeys := none
    jarClient := fun cl => { cl with }
    requirePKCE := fun _ => false
    federation := fun _ => false
    codeHash := id }

def authzRun (ms : AuthzMoves Unit) : AuthzPool :=
  run (authzSystem pushHandler).step (Pool.init { toTokenStore := plainStore }) ms

def authzSteps (i n : Nat) : AuthzMoves Unit := List.replicate n (.advance i { jar := jarEnv, plain := "tok" })

def pushThenUse : AuthzMoves Unit :=
  .start 0 (.push
      { auth := { orgSlug := "acme", clientID := "app" }
        form := GoMap.ofMembers [("response_type", "code"), ("redirect_uri", "https://app/cb")] }) :: authzSteps 0 6 ++
    .start 1 (.authorize
      { orgSlug := "acme"
        params := GoMap.ofMembers [("client_id", "app"), ("request_uri", parURNPrefix ++ "tok")] }) :: authzSteps 1 9

theorem par_enforced_when_pushed : (authzRun pushThenUse).store.created.map (·.clientID) = ["app"] ∧
    (pushHandler.columns "app").requiresPAR = true ∧
    ∀ g ∈ (authzRun pushThenUse).store.created, FromPushed pushHandler pushThenUse g := by
  have hrun : Trace (authzSystem pushHandler).step (Meets (authzCond pushHandler · · · ·))
      (Pool.init { toTokenStore := plainStore, par := fun _ => .empty, created := [] }) pushThenUse (authzRun pushThenUse) :=
    Trace.of_checkRun (by decide +kernel)
  refine ⟨by decide +kernel, rfl, fun g hg => ?_⟩
  exact par_enforced pushHandler { toTokenStore := plainStore } pushThenUse (authzRun pushThenUse) hrun g hg rfl

def objectByValue : AuthzMoves Unit :=
  .start 0 (.authorize
      { orgSlug := "acme", params := GoMap.ofMembers [("client_id", "app"), ("request", "none.params.")] }) ::
    authzSteps 0 3 ++ .advance 0 { jar := jarEnv, fails := true } :: authzSteps 0 5

theorem par_not_enforced : ∃ g ∈ (authzRun objectByValue).store.created,
    (pushHandler.columns g.clientID).requiresPAR = true ∧ ¬ FromPushed pushHandler objectByValue g := by
  have hcreated : (authzRun objectByValue).store.created.length = 1 := by decide +kernel
  obtain ⟨g, hg⟩ := length_eq_one_iff.mp hcreated
  refine ⟨g, by rw [hg]; exact mem_singleton_self g, rfl, ?_⟩
  intro hpushed
  obtain ⟨i, r, _, _, _, hmem, -⟩ := hpushed
  simp [objectByValue, authzSteps] at hmem

end Clavex

import Clavex.Device
import Clavex.TokenEndpointSound
import Clavex.PollSound

/-!
# Tenant isolation of the device grant

A device code is stored for the organisation its request was made under. Neither the
consent nor the poll compares that organisation with the one in its own URL.
`device_grant_isolated` says that the tokens stay within it as long as consents that
allow and polls are made under its URL.
-/

namespace Clavex

open Prog List Option Rows TokenStore

variable {r : Except TokenErr DeviceReply} {s : TokenStore}

/-! ## What each request does -/

structure SameDecision (r r' : DeviceCode) : Prop where
  id : r'.id = r.id
  orgID : r'.orgID = r.orgID
  deviceCodeHash : r'.deviceCodeHash = r.deviceCodeHash
  isAuthorized : r'.isAuthorized = r.isAuthorized
  userID : r'.userID = r.userID

theorem SameDecision.refl (r) : SameDecision r r := ⟨rfl, rfl, rfl, rfl, rfl⟩

structure SameSettings (s t : TokenStore) : Prop where
  now : t.now = s.now
  orgs : t.orgs = s.orgs
  users : t.users = s.users
  sso : t.sso = s.sso

theorem SameSettings.refl (s) : SameSettings s s := ⟨rfl, rfl, rfl, rfl⟩

structure DecisionsKept (s t : TokenStore) : Prop extends SameSettings s t where
  rows : ∀ r' ∈ t.devices.list, ∃ r ∈ s.devices.list, SameDecision r r'

namespace DecisionsKept

variable {t u : TokenStore}

theorem of_eq (hs : SameSettings s t) (hd : t.devices = s.devices) : DecisionsKept s t :=
  ⟨hs, fun r hr => ⟨r, hd ▸ hr, .refl r⟩⟩

theorem refl (s) : DecisionsKept s s := .of_eq (.refl s) rfl

theorem trans (h : DecisionsKept s t) (h' : DecisionsKept t u) : DecisionsKept s u where
  now := h'.now.trans h.now
  orgs := h'.orgs.trans h.orgs
  users := h'.users.trans h.users
  sso := h'.sso.trans h.sso
  rows := by
    intro r'' hr''
    obtain ⟨r', hr', h₂⟩ := h'.rows r'' hr''
    obtain ⟨r, hr, h₁⟩ := h.rows r' hr'
    exact ⟨r, hr, h₂.id.trans h₁.id, h₂.orgID.trans h₁.orgID, h₂.deviceCodeHash.trans h₁.deviceCodeHash,
      h₂.isAuthorized.trans h₁.isAuthorized, h₂.userID.trans h₁.userID⟩

theorem modify {p f hf} (h : ∀ a, SameDecision a (f a)) :
    DecisionsKept s { s with devices := s.devices.modify p f hf } :=
  ⟨⟨rfl, rfl, rfl, rfl⟩, modify_from .refl (fun a _ _ => h a) hf⟩

end DecisionsKept

def TokenOp.ofPoll : TokenOp → Bool
  | issueAccessToken .. | insertRefresh .. | setReplacedBy .. | touchPoll .. | slowDown _ | deleteDevice _ => true
  | op => op.quiet

variable (d : OIDCHandler)

theorem sem_ofPoll (s env) {op} (h : op.ofPoll = true) : DecisionsKept s (sem d env op s).2 := by
  have hwrote := sem_wrote d s env op
  generalize (sem d env op s).2 = t at hwrote ⊢
  cases hwrote with
  | nothing => exact .refl s
  | insertDevice | authorizeDevice | denyDevice => cases h
  | touchPoll | slowDown => exact .modify fun _ => ⟨rfl, rfl, rfl, rfl, rfl⟩
  | deleteDevice => exact ⟨⟨rfl, rfl, rfl, rfl⟩, fun r hr => ⟨r, (mem_delete.mp hr).1, .refl r⟩⟩
  | _ => exact .of_eq ⟨rfl, rfl, rfl, rfl⟩ rfl

section
variable {d : OIDCHandler}

abbrev PollOnly {ε α : Type} (p : Prog TokenOp TokenOp.Resp ε α) : Prop := p.Uses fun op => op.ofPoll = true

theorem Quiet.pollOnly {ε α} {p : Prog TokenOp TokenOp.Resp ε α} (h : Quiet p) : PollOnly p := by
  refine .mono ?_ h
  intro op hq
  cases op <;> first
    | rfl
    | exact hq

theorem PollOnly.post {ε α : Type} {p : Prog TokenOp TokenOp.Resp ε α} (hp : PollOnly p) :
    p.Post (sem d) (fun _ t => DecisionsKept s t) s :=
  Uses.post (fun env _ t hop ht => ht.trans (sem_ofPoll d t env hop)) hp (.refl s)

variable (x : Caller)

theorem issuePolled_pollOnly (tc orgID userID scope alg uc dpop tok) :
    PollOnly (issuePolled d x tc orgID userID scope alg uc dpop tok) := by
  refine .mono ?_ (issuePolled_uses d ..)
  intro op h
  cases op <;> first
    | rfl
    | exact h

theorem redeemDevice_pollOnly (dc userID) : PollOnly (redeemDevice d x dc userID) := by
  simp only [redeemDevice, call_bind]
  refine .bind (activeUser_quiet _).pollOnly fun user => ⟨rfl, fun cl => ⟨rfl, fun org => ?_⟩⟩
  refine .bind (applyOrgOverrides_quiet ..).pollOnly fun tc => ?_
  refine .bind (pollClaims_quiet ..).pollOnly fun uc => ⟨rfl, fun flags => ⟨rfl, fun r => ?_⟩⟩
  cases r with
  | none => exact trivial
  | some r => exact .bind (issuePolled_pollOnly ..) fun ts => ⟨rfl, fun _ => trivial⟩

theorem deviceCodeGrant_pollOnly (deviceCode) : PollOnly (deviceCodeGrant d x deviceCode) := by
  simp only [deviceCodeGrant, call_bind]
  refine .require ⟨rfl, Option.forall.2 ⟨trivial, fun dc => ?_⟩⟩
  refine ⟨rfl, fun now => .ofExcept fun _ => ⟨rfl, fun tooFast => ?_⟩⟩
  dsimp only
  by_cases hfast : tooFast = some true
  · rw [if_pos hfast]
    exact ⟨rfl, fun _ => trivial⟩
  · rw [if_neg hfast]
    exact .ofExcept fun userID => redeemDevice_pollOnly x dc userID

def Polled (d : OIDCHandler) (s : TokenStore) (orgSlug : String) (userID : UUID) (ts : TokenSet) : Prop :=
  ∃ user tc, s.users.find? (·.id == userID) = some user ∧ SignsFor d s.orgs orgSlug tc ∧
    MintedWith d tc (some user) ts.accessToken

theorem issuePolled_post (tc orgID userID scope alg uc dpop tok) :
    (issuePolled d x tc orgID userID scope alg uc dpop tok).Post (sem d) (onOk fun ts _ => ts.accessToken = tok) s := by
  apply Post.bind_ok (.any _ _)
  intro idToken t _
  refine .call fun _ => Post.call fun _ => ?_
  exact Post.bind_ok (.any _ _) fun _ _ _ => rfl

theorem redeemDevice_post (dc userID) :
    (redeemDevice d x dc userID).Post (sem d) (onOk fun ts _ => Polled d s x.orgSlug userID ts) s := by
  apply Post.bind_ok (activeUser_post userID)
  rintro user t ⟨rfl, huser⟩
  refine .read (fun _ => rfl) fun _ => Post.read (fun _ => rfl) fun env => ?_
  apply Post.bind_ok (applyOrgOverrides_post (newTC_unsigned x.orgSlug) (fun o ho => readOrFail_some ho) _)
  rintro tc t' ⟨rfl, htc⟩
  apply Post.bind_ok (pollClaims_post x.clientID user)
  intro uc t' huc
  refine .call fun _ => Post.call fun env => ?_
  cases hmint : (sem d env (.issueAccessToken tc x.clientID dc.scope (some (addExtra uc "flags" _)) none none) _).1 with
  | none => exact trivial
  | some r =>
    apply Post.bind_ok (issuePolled_post _ _ _ _ _ _ _ _ _)
    intro ts t'' hts
    refine .call fun _ => ⟨user, tc, huser, htc, ?_⟩
    rw [hts]
    exact mintedWith_of_sem (.some (huc.addExtra _ _)) hmint

theorem deviceDecision_ok {dc userID} (h : deviceDecision dc = .ok userID) :
    dc.isAuthorized = some true ∧ dc.userID = some userID := by
  unfold deviceDecision at h
  split at h
  · cases h
  · cases h
  · rename_i ha
    split at h
    · rename_i hu
      cases h
      exact ⟨ha, hu⟩
    · cases h

theorem deviceCodeGrant_post (deviceCode) :
    (deviceCodeGrant d x deviceCode).Post (sem d)
      (onOk fun ts _ => ∃ dc userID, s.devices.find (·.deviceCodeHash == d.hashString deviceCode) = some dc ∧
        dc.isAuthorized = some true ∧ dc.userID = some userID ∧ Polled d s x.orgSlug userID ts) s := by
  apply Post.require fun _ => ?_
  refine .read (fun _ => rfl) fun env => ?_
  cases hread : (sem d env (.deviceByCode (d.hashString deviceCode)) s).1 with
  | none => exact trivial
  | some dc =>
    refine .read (fun _ => rfl) fun now => ?_
    refine .ofExcept fun _ _ => ?_
    refine .call fun env' => ?_
    have hk : DecisionsKept s (sem d env' (.touchPoll dc.id dc.pollInterval) s).2 := sem_ofPoll d s env' rfl
    split
    · exact Post.call fun _ => trivial
    · refine .ofExcept fun userID hdecided => ?_
      obtain ⟨ha, hu⟩ := deviceDecision_ok hdecided
      apply (redeemDevice_post x dc userID).mono
      rintro (e | ts) t hpolled
      · exact trivial
      · obtain ⟨user, tc, huser, htc, hmint⟩ := hpolled
        rw [hk.users] at huser
        rw [hk.orgs] at htc
        exact ⟨dc, userID, readOrFail_some hread, ha, hu, user, tc, huser, htc, hmint⟩

def ConsentRequest.Session (c : ConsentRequest) (s : TokenStore) (sess : SSOSession) : Prop :=
  ∃ cookie, c.cookie = some cookie ∧ (s.sso cookie).get s.now = some sess ∧ sess.orgSlug = c.orgSlug

theorem sessionAt_post (c : ConsentRequest) : (sessionAt c.orgSlug c.cookie).Post (sem d)
    (fun r t => t = s ∧ ∀ sess, r = .ok (some sess) → c.Session s sess) s := by
  cases hc : c.cookie with
  | none => exact ⟨rfl, nofun⟩
  | some cookie =>
    refine .read (fun _ => rfl) fun env => ⟨rfl, fun x hx => ?_⟩
    obtain ⟨hread, hslug⟩ := filter_eq_some_iff.mp (Except.ok.inj hx)
    exact ⟨cookie, hc, readOrFail_some hread, beq_iff_eq.mp hslug⟩

inductive Consented (c : ConsentRequest) (s : TokenStore) : Except TokenErr DeviceReply → TokenStore → Prop
  | kept {r : Except TokenErr DeviceReply} : Consented c s r s
  | allowed {dcID sess orgName} (hid : c.dcID = some dcID) (hact : c.action = "allow")
      (hsess : c.Session s sess) : Consented c s (.ok (.done orgName true)) (s.authorizeDevice dcID sess.userID)
  | denied {r : Except TokenErr DeviceReply} (dcID : Nat) : Consented c s r (s.denyDevice dcID)

theorem decideDevice_post {c dcID sess} (hid : c.dcID = some dcID) (hsess : c.Session s sess) (orgName) : (decideDevice dcID sess.userID orgName c.action).Post (sem d) (Consented c s) s := by
  unfold decideDevice
  split
  · rename_i hact
    refine .call fun env => ?_
    rcases unlessFails_cases s env (s.authorizeDevice dcID sess.userID) with ⟨heq, -⟩ | ⟨heq, -⟩
    · rw [show sem d env (.authorizeDevice dcID sess.userID) s = _ from heq]
      exact .kept
    · rw [show sem d env (.authorizeDevice dcID sess.userID) s = _ from heq]
      exact .allowed hid hact hsess
  · refine .call fun env => ?_
    rcases unlessFails_cases s env (s.denyDevice dcID) with ⟨heq, -⟩ | ⟨heq, -⟩
    · rw [show sem d env (.denyDevice dcID) s = _ from heq]
      exact .kept
    · rw [show sem d env (.denyDevice dcID) s = _ from heq]
      exact .denied dcID

theorem deviceConsentSubmit_post (c) : (deviceConsentSubmit d c).Post (sem d) (Consented c s) s := by
  unfold deviceConsentSubmit
  cases hid : c.dcID with
  | none => exact .kept
  | some dcID =>
    refine .read (fun _ => rfl) fun env => ?_
    cases (sem d env (.deviceByID dcID) s).1 with
    | none => exact .kept
    | some dc =>
      refine .read (fun _ => rfl) fun now => ?_
      split
      · exact .kept
      split
      · exact .kept
      apply (sessionAt_post c).bind
      · rintro sess t ⟨rfl, hsess⟩
        cases sess with
        | none => exact .kept
        | some sess =>
          refine .read (fun _ => rfl) fun org => ?_
          exact decideDevice_post hid (hsess sess rfl) _
      · rintro e t ⟨rfl, -⟩
        exact .kept

theorem deviceUserSubmit_quiet (orgSlug cookie userCode) : Quiet (deviceUserSubmit d orgSlug cookie userCode) := by
  have hentry : ∀ code error, Quiet (renderEntry orgSlug code error) := fun _ _ => Quiet.ask rfl fun _ => Quiet.ret _
  have hsession : Quiet (sessionAt orgSlug cookie) := by
    cases cookie with
    | none => exact Quiet.ret _
    | some cookie => exact Quiet.ask rfl fun _ => Quiet.ret _
  simp only [deviceUserSubmit, call_bind]
  split
  · exact hentry _ _
  · refine .ask rfl (Option.forall.2 ⟨hentry _ _, fun dc => ?_⟩)
    refine .ask rfl fun now => ?_
    by_cases hexp : dc.expiresAt < now
    · simp only [if_pos hexp]
      exact hentry _ _
    · simp only [if_neg hexp]
      split
      · exact hentry _ _
      · exact .bind hsession fun _ => Quiet.ret _

structure Started (d : OIDCHandler) (s : TokenStore) (orgSlug : String) (r : DeviceAuthorizationResponse)
    (t : TokenStore) : Prop extends SameSettings s t where
  rows : ∃ org c, s.orgs.find? (·.slug == orgSlug) = some org ∧ t.devices.list = c :: s.devices.list ∧
    c.orgID = org.id ∧ c.deviceCodeHash = d.hashString r.deviceCode ∧ c.isAuthorized = none

inductive Authorized (d : OIDCHandler) (s : TokenStore) (orgSlug : String) :
    Except TokenErr DeviceReply → TokenStore → Prop
  | kept {r t} (h : DecisionsKept s t) : Authorized d s orgSlug r t
  | started {r t} (h : Started d s orgSlug r t) :
      Authorized d s orgSlug (.ok (.started r)) t

theorem createDevice_post (orgID clientID scope ttl) :
    (createDevice d orgID clientID scope ttl).Post (sem d) (fun r t => match r with
      | .error _ => t = s
      | .ok (c, raw) => SameSettings s t ∧ t.devices.list = c :: s.devices.list ∧ c.orgID = orgID ∧
          c.deviceCodeHash = d.hashString raw ∧ c.isAuthorized = none) s := by
  refine .read (fun _ => rfl) fun env => ?_
  cases (sem d env .randomToken s).1 with
  | none => exact rfl
  | some raw =>
    refine .read (fun _ => rfl) fun env' => ?_
    cases (sem d env' .randomToken s).1 with
    | none => exact rfl
    | some userCode =>
      refine .call fun env'' => ?_
      rcases sem_insertDevice d s env'' orgID clientID (d.hashString raw) userCode scope ttl with
        heq | ⟨c, devices, heq, -, hlist, rfl⟩
      · rw [heq]
        exact rfl
      · rw [heq]
        exact ⟨⟨rfl, rfl, rfl, rfl⟩, hlist, rfl, rfl, rfl⟩

theorem deviceAuthorization_post (auth scope) :
    (deviceAuthorization d auth scope).Post (sem d) (Authorized d s auth.orgSlug) s := by
  have hquiet := Uses.mapError (g := fun e : HTTPError => TokenErr.oauth "invalid_client" e.text)
    (authenticateClient_quiet (d := d) auth)
  apply Post.bind (Quiet.post hquiet s)
  · rintro a _ ⟨n, rfl⟩
    have hkept : DecisionsKept s { s with nextID := n } := .of_eq ⟨rfl, rfl, rfl, rfl⟩ rfl
    refine .read (fun _ => rfl) fun env => ?_
    cases (sem d env (.clientByID a.clientID) _).1 with
    | none => exact .kept hkept
    | some client =>
      refine .require_or (fun _ => ?_) fun _ => .kept hkept
      refine .read (fun _ => rfl) fun env' => ?_
      cases horg : (sem d env' (.orgBySlug auth.orgSlug) _).1 with
      | none => exact .kept hkept
      | some org =>
        apply (createDevice_post org.id a.clientID (deviceScope scope) 600).bind
        · rintro ⟨c, raw⟩ t ⟨hs, hrows, horgID, hhash, hnone⟩
          refine .read (fun _ => rfl) fun now => .started ⟨⟨hs.now, hs.orgs, hs.users, hs.sso⟩, ?_⟩
          exact ⟨org, c, readOrFail_some horg, hrows, horgID, hhash, hnone⟩
        · rintro e t ht
          rw [show t = _ from ht]
          exact .kept hkept
  · rintro e _ ⟨n, rfl⟩
    exact .kept (.of_eq ⟨rfl, rfl, rfl, rfl⟩ rfl)

end

def DeviceEffect (s : TokenStore) : DeviceRequest → Except TokenErr DeviceReply → TokenStore → Prop
  | .authorization auth _, r, t => Authorized d s auth.orgSlug r t
  | .userSubmit .., _, t => DecisionsKept s t
  | .consent c, r, t => Consented c s r t
  | .poll x deviceCode, r, t => DecisionsKept s t ∧ ∀ ts, r = .ok (.tokens ts) →
      ∃ dc userID, s.devices.find (·.deviceCodeHash == d.hashString deviceCode) = some dc ∧
        dc.isAuthorized = some true ∧ dc.userID = some userID ∧ Polled d s x.orgSlug userID ts

theorem serveDevice_post (s q) : (serveDevice d q).Post (sem d) (DeviceEffect d s q) s := by
  cases q with
  | authorization auth scope => exact deviceAuthorization_post auth scope
  | userSubmit orgSlug cookie userCode =>
    refine .mono ?_ (Quiet.post (deviceUserSubmit_quiet orgSlug cookie userCode) s)
    rintro r _ ⟨n, rfl⟩
    exact .of_eq ⟨rfl, rfl, rfl, rfl⟩ rfl
  | consent c => exact deviceConsentSubmit_post c
  | poll x deviceCode =>
    have hkept : (deviceCodeGrant d x deviceCode).Post (sem d) (fun _ t => DecisionsKept s t) s :=
      (deviceCodeGrant_pollOnly x deviceCode).post
    apply (hkept.and (deviceCodeGrant_post x deviceCode)).bind
    · rintro ts t ⟨hk, hok⟩
      refine ⟨hk, fun ts' heq => ?_⟩
      cases heq
      exact hok
    · rintro e t ⟨hk, -⟩
      exact ⟨hk, nofun⟩

/-! ## The organisation of a device code -/

def ownOrg (s : TokenStore) (orgSlug : String) (dc : DeviceCode) : Bool :=
  (s.orgs.find? (·.slug == orgSlug)).any (·.id == dc.orgID)

def deviceCond (w : DeviceWorld) : DeviceMove → Bool
  | .request (.consent c) _ =>
    c.action != "allow" || w.store.devices.list.all fun dc => c.dcID != some dc.id || ownOrg w.store c.orgSlug dc
  | .request (.poll x deviceCode) _ =>
    w.store.devices.list.all fun dc => dc.deviceCodeHash != d.hashString deviceCode || ownOrg w.store x.orgSlug dc
  | _ => true

def Created (log : List DeviceEntry) (dc : DeviceCode) : Prop :=
  ∃ e ∈ log, ∃ auth scope r, e.request = .authorization auth scope ∧ e.reply = .ok (.started r) ∧
    d.hashString r.deviceCode = dc.deviceCodeHash ∧
    ∃ org, e.before.orgs.find? (·.slug == auth.orgSlug) = some org ∧ org.id = dc.orgID

def ApprovedWith (log : List DeviceEntry) (dc : DeviceCode) (sess : SSOSession) : Prop :=
  ∃ e ∈ log, ∃ c orgName, e.request = .consent c ∧ e.reply = .ok (.done orgName true) ∧ c.dcID = some dc.id ∧
    c.Session e.before sess ∧ dc.userID = some sess.userID

/-- The code was allowed with a session of the organisation it was created for, and `tok`
is signed under the issuer of that organisation for the user of that session. -/
def DeviceIsolated (log : List DeviceEntry) (s : TokenStore) (dc : DeviceCode) (tok : Signed) : Prop :=
  Created d log dc ∧ ∃ org ∈ s.orgs, org.id = dc.orgID ∧
    ∃ sess user, ApprovedWith log dc sess ∧ sess.orgID = org.id ∧ s.users.find? (·.id == sess.userID) = some user ∧
      MintedUnder d org (some user) tok

structure DeviceInv (d : OIDCHandler) (orgs : List OrgRow) (w : DeviceWorld) : Prop where
  fixed : w.store.orgs = orgs
  sessions : ∀ {id sess e}, (w.store.sso id).entry = some (sess, e) →
    ∃ org, orgs.find? (·.slug == sess.orgSlug) = some org ∧ org.id = sess.orgID
  created : ∀ dc ∈ w.store.devices.list, Created d w.log dc
  approved : ∀ dc ∈ w.store.devices.list, dc.isAuthorized = some true →
    ∃ sess, ApprovedWith w.log dc sess ∧ sess.orgID = dc.orgID
  polls : ∀ e ∈ w.log, ∀ {x deviceCode ts}, e.request = .poll x deviceCode → e.reply = .ok (.tokens ts) →
    ∃ dc, e.before.devices.find (·.deviceCodeHash == d.hashString deviceCode) = some dc ∧
      DeviceIsolated d w.log e.before dc ts.accessToken

section
variable {d : OIDCHandler} {orgs : List OrgRow} {w : DeviceWorld} {log : List DeviceEntry} {e : DeviceEntry}
  {dc dc' : DeviceCode} {org : OrgRow} {sess : SSOSession}

theorem Created.cons (h : Created d log dc) (e) : Created d (e :: log) dc := by
  obtain ⟨e', he', h⟩ := h
  exact ⟨e', mem_cons_of_mem _ he', h⟩

theorem ApprovedWith.cons (h : ApprovedWith log dc sess) (e) : ApprovedWith (e :: log) dc sess := by
  obtain ⟨e', he', h⟩ := h
  exact ⟨e', mem_cons_of_mem _ he', h⟩

theorem DeviceIsolated.cons {tok} (h : DeviceIsolated d log s dc tok) (e) : DeviceIsolated d (e :: log) s dc tok := by
  obtain ⟨hc, org, horg, hid, sess, user, ha, h⟩ := h
  exact ⟨hc.cons e, org, horg, hid, sess, user, ha.cons e, h⟩

theorem Created.same (h : Created d log dc) (hs : SameDecision dc dc') : Created d log dc' := by
  unfold Created
  rw [hs.deviceCodeHash, hs.orgID]
  exact h

theorem ApprovedWith.same (h : ApprovedWith log dc sess) (hs : SameDecision dc dc') : ApprovedWith log dc' sess := by
  unfold ApprovedWith
  rw [hs.id, hs.userID]
  exact h

theorem ownOrg_iff {orgSlug} : ownOrg s orgSlug dc = true ↔
    ∃ org, s.orgs.find? (·.slug == orgSlug) = some org ∧ org.id = dc.orgID := by
  unfold ownOrg
  rw [Option.any_eq_true]
  simp

namespace DeviceInv

variable {c : ConsentRequest} {e : DeviceEntry} {t : TokenStore} {ω : Nat → Env}

section
variable (h : DeviceInv d orgs w)
include h

theorem session_org (hs : c.Session w.store sess) (horg : orgs.find? (·.slug == c.orgSlug) = some org) :
    sess.orgID = org.id := by
  obtain ⟨cookie, -, hget, hslug⟩ := hs
  obtain ⟨e, hentry⟩ := Cell.entry_of_get hget
  obtain ⟨o, ho, hid⟩ := h.sessions hentry
  rw [hslug, horg] at ho
  cases ho
  exact hid.symm

theorem request (hs : SameSettings w.store t)
    (hcreated : ∀ dc ∈ t.devices.list, Created d (e :: w.log) dc)
    (happroved : ∀ dc ∈ t.devices.list, dc.isAuthorized = some true →
      ∃ sess, ApprovedWith (e :: w.log) dc sess ∧ sess.orgID = dc.orgID)
    (hpoll : ∀ {x deviceCode ts}, e.request = .poll x deviceCode → e.reply = .ok (.tokens ts) →
      ∃ dc, e.before.devices.find (·.deviceCodeHash == d.hashString deviceCode) = some dc ∧
        DeviceIsolated d w.log e.before dc ts.accessToken) : DeviceInv d orgs ⟨t, e :: w.log⟩ where
  fixed := hs.orgs.trans h.fixed
  sessions := by
    intro id sess exp hentry
    rw [show (DeviceWorld.store ⟨t, e :: w.log⟩).sso = w.store.sso from hs.sso] at hentry
    exact h.sessions hentry
  created := hcreated
  approved := happroved
  polls := by
    intro e' he' x deviceCode ts hq hr
    rcases mem_cons.mp he' with rfl | he'
    · obtain ⟨dc, hdc, hiso⟩ := hpoll hq hr
      exact ⟨dc, hdc, hiso.cons _⟩
    · obtain ⟨dc, hdc, hiso⟩ := h.polls e' he' hq hr
      exact ⟨dc, hdc, hiso.cons _⟩

theorem created_kept (hk : DecisionsKept w.store t) (e) : ∀ dc ∈ t.devices.list, Created d (e :: w.log) dc := by
  intro dc' hdc'
  obtain ⟨dc, hdc, hsame⟩ := hk.rows dc' hdc'
  exact ((h.created dc hdc).same hsame).cons e

theorem approved_kept (hk : DecisionsKept w.store t) (e) :
    ∀ dc ∈ t.devices.list, dc.isAuthorized = some true →
      ∃ sess, ApprovedWith (e :: w.log) dc sess ∧ sess.orgID = dc.orgID := by
  intro dc' hdc' hauth
  obtain ⟨dc, hdc, hsame⟩ := hk.rows dc' hdc'
  rw [hsame.isAuthorized] at hauth
  obtain ⟨sess, ha, horg⟩ := h.approved dc hdc hauth
  exact ⟨sess, (ha.same hsame).cons e, horg.trans hsame.orgID.symm⟩

theorem kept (hk : DecisionsKept w.store t) (hq : ∀ x deviceCode, e.request ≠ .poll x deviceCode) :
    DeviceInv d orgs ⟨t, e :: w.log⟩ :=
  h.request hk.toSameSettings (h.created_kept hk e) (h.approved_kept hk e) fun hp _ => absurd hp (hq _ _)

theorem authorization (auth scope) (heff : Authorized d w.store auth.orgSlug r t) :
    DeviceInv d orgs ⟨t, ⟨.authorization auth scope, w.store, r⟩ :: w.log⟩ := by
  cases heff with
  | kept hk => exact h.kept hk nofun
  | @started r _ hs =>
    obtain ⟨org, c, horg, hrows, horgID, hhash, hnone⟩ := hs.rows
    apply h.request hs.toSameSettings
    · intro dc hdc
      rw [hrows] at hdc
      rcases mem_cons.mp hdc with rfl | hdc
      · exact ⟨_, mem_cons_self .., auth, scope, r, rfl, rfl, hhash.symm, org, horg, horgID.symm⟩
      · exact (h.created dc hdc).cons _
    · intro dc hdc hauth
      rw [hrows] at hdc
      rcases mem_cons.mp hdc with rfl | hdc
      · rw [hnone] at hauth
        cases hauth
      · obtain ⟨sess, ha, hid⟩ := h.approved dc hdc hauth
        exact ⟨sess, ha.cons _, hid⟩
    · nofun

theorem consent (hcond : deviceCond d w (.request (.consent c) ω) = true) (heff : Consented c w.store r t) :
    DeviceInv d orgs ⟨t, ⟨.consent c, w.store, r⟩ :: w.log⟩ := by
  cases heff with
  | kept => exact h.kept (.refl _) (by simp)
  | @allowed dcID sess orgName hid hact hsess =>
    have hown : ∀ dc ∈ w.store.devices.list, dc.id = dcID → sess.orgID = dc.orgID := by
      intro dc hdc hdcID
      simp only [deviceCond, hact, bne_self_eq_false, Bool.false_or, List.all_eq_true] at hcond
      have hdc := hcond dc hdc
      rw [hid, hdcID, bne_self_eq_false, Bool.false_or, ownOrg_iff] at hdc
      obtain ⟨org, horg, horgID⟩ := hdc
      rw [h.fixed] at horg
      exact (h.session_org hsess horg).trans horgID
    have hs : SameSettings w.store (w.store.authorizeDevice dcID sess.userID) := ⟨rfl, rfl, rfl, rfl⟩
    apply h.request hs
    · intro dc' hdc'
      simp only [authorizeDevice, mem_modify] at hdc'
      obtain ⟨dc, hdc, rfl⟩ := hdc'
      split
      · exact (h.created dc hdc).cons _
      · exact (h.created dc hdc).cons _
    · intro dc' hdc' hauth
      simp only [authorizeDevice, mem_modify] at hdc'
      obtain ⟨dc, hdc, rfl⟩ := hdc'
      by_cases hdcID : dc.id = dcID
      · rw [if_pos (beq_iff_eq.mpr hdcID)]
        refine ⟨sess, ⟨_, List.mem_cons_self .., c, orgName, rfl, rfl, ?_, hsess, rfl⟩, hown dc hdc hdcID⟩
        rw [hdcID]
        exact hid
      · have hne : ¬ (dc.id == dcID) = true := fun hb => hdcID (beq_iff_eq.mp hb)
        rw [if_neg hne] at hauth ⊢
        obtain ⟨sess', ha, horg⟩ := h.approved dc hdc hauth
        exact ⟨sess', ha.cons _, horg⟩
    · simp
  | denied dcID =>
    have hs : SameSettings w.store (w.store.denyDevice dcID) := ⟨rfl, rfl, rfl, rfl⟩
    apply h.request hs
    · intro dc' hdc'
      simp only [denyDevice, mem_modify] at hdc'
      obtain ⟨dc, hdc, rfl⟩ := hdc'
      split
      · exact (h.created dc hdc).cons _
      · exact (h.created dc hdc).cons _
    · intro dc' hdc' hauth
      simp only [denyDevice, mem_modify] at hdc'
      obtain ⟨dc, hdc, rfl⟩ := hdc'
      split at hauth
      · cases hauth
      · rename_i hne
        rw [if_neg hne]
        obtain ⟨sess, ha, horg⟩ := h.approved dc hdc hauth
        exact ⟨sess, ha.cons _, horg⟩
    · simp

theorem poll {x deviceCode}
    (hcond : deviceCond d w (.request (.poll x deviceCode) ω) = true) (hk : DecisionsKept w.store t)
    (hok : ∀ ts, r = .ok (.tokens ts) → ∃ dc userID,
      w.store.devices.find (·.deviceCodeHash == d.hashString deviceCode) = some dc ∧
        dc.isAuthorized = some true ∧ dc.userID = some userID ∧ Polled d w.store x.orgSlug userID ts) :
    DeviceInv d orgs ⟨t, ⟨.poll x deviceCode, w.store, r⟩ :: w.log⟩ := by
  apply h.request hk.toSameSettings (h.created_kept hk _) (h.approved_kept hk _)
  intro x' deviceCode' ts hq hr
  cases hq
  obtain ⟨dc, userID, hfind, hauth, huser, user, tc, hrow, hsigns, hmint⟩ := hok ts hr
  obtain ⟨hmem, hhash⟩ := find_some hfind
  -- the condition: the poll's organisation is that of the code
  simp only [deviceCond, List.all_eq_true] at hcond
  have hown := hcond dc hmem
  rw [beq_iff_eq.mp hhash, bne_self_eq_false, Bool.false_or, ownOrg_iff] at hown
  obtain ⟨org, horg, horgID⟩ := hown
  obtain ⟨sess, happroved, hsess⟩ := h.approved dc hmem hauth
  have hsame : userID = sess.userID := by
    obtain ⟨_, -, _, _, -, -, -, -, hu⟩ := happroved
    rw [huser] at hu
    exact some.inj hu
  rw [hsame] at hrow
  exact ⟨dc, hfind, h.created dc hmem, org, List.mem_of_find?_eq_some horg, horgID, sess, user, happroved,
    hsess.trans horgID.symm, hrow, hmint.under hsigns horg⟩

end

end DeviceInv

theorem deviceInv_request (h : DeviceInv d orgs w) {q ω} (hcond : deviceCond d w (.request q ω) = true) {t}
    (heff : DeviceEffect d w.store q r t) : DeviceInv d orgs ⟨t, ⟨q, w.store, r⟩ :: w.log⟩ := by
  cases q with
  | authorization auth scope => exact h.authorization auth scope heff
  | userSubmit orgSlug cookie userCode => exact h.kept heff nofun
  | consent c => exact h.consent hcond heff
  | poll x deviceCode => exact h.poll hcond heff.1 heff.2

theorem deviceInv_signIn (h : DeviceInv d orgs w) (id orgSlug userID) :
    DeviceInv d orgs { w with store := signInDevice id orgSlug userID w.store } := by
  unfold signInDevice
  split
  · rename_i org user horg huser
    split
    · refine ⟨h.fixed, ?_, h.created, h.approved, h.polls⟩
      intro id' sess e hentry
      by_cases hid : id' = id
      · rw [hid] at hentry
        simp only [Function.update_self, Cell.set, some.injEq, Prod.mk.injEq] at hentry
        obtain ⟨rfl, -⟩ := hentry
        rw [h.fixed] at horg
        exact ⟨org, horg, rfl⟩
      · simp only [Function.update_of_ne hid] at hentry
        exact h.sessions hentry
    · exact h
  · exact h

theorem deviceInv_step (h : DeviceInv d orgs w) {m} (hcond : deviceCond d w m = true) :
    DeviceInv d orgs (deviceStep d w m) := by
  cases m with
  | request q ω => exact deviceInv_request h hcond (execAlone_post (serveDevice_post d w.store q))
  | signIn id orgSlug userID => exact deviceInv_signIn h id orgSlug userID
  | tick n | settings clients users => exact ⟨h.fixed, h.sessions, h.created, h.approved, h.polls⟩

end

/-- Whenever a poll is answered with tokens, the code was allowed with a session of the
organisation it was created for, and the tokens are signed under that organisation. -/
theorem device_grant_isolated (d : OIDCHandler) (s : TokenStore) (ms : List DeviceMove) (w : DeviceWorld)
    (hrun : Trace (deviceStep d) (deviceCond d · · = true)
      { store := { s with devices := .empty, sso := fun _ => .empty } } ms w)
    (e : DeviceEntry) (he : e ∈ w.log) (x : Caller) (deviceCode : String) (ts : TokenSet)
    (hpoll : e.request = .poll x deviceCode) (hok : e.reply = .ok (.tokens ts)) :
    ∃ dc, e.before.devices.find (·.deviceCodeHash == d.hashString deviceCode) = some dc ∧
      DeviceIsolated d w.log e.before dc ts.accessToken := by
  have hstart : DeviceInv d s.orgs { store := { s with devices := .empty, sso := fun _ => .empty } } := by
    refine ⟨rfl, ?_, ?_, ?_, ?_⟩
    · intro id sess exp hentry
      cases hentry
    · intro dc hdc
      cases hdc
    · intro dc hdc
      cases hdc
    · intro e he
      cases he
  exact (hrun.inv (DeviceInv d s.orgs) (fun _ _ h hcond => deviceInv_step h hcond) hstart).polls e he hpoll hok

def deviceStore : TokenStore := { twoOrgs with clients := [{ plainClient with grantTypes := [deviceGrantType] }] }

def deviceMoves (userID : UUID) (consentSlug pollSlug : String) : List DeviceMove :=
  [.signIn "cookie" consentSlug userID,
    .request (.authorization { orgSlug := "acme", clientID := "app" } "openid") fun n =>
      { plain := if n = 3 then "dev" else "USER" },
    .request (.consent { orgSlug := consentSlug, cookie := some "cookie", dcID := some 0, action := "allow" }) fun _ => {},
    .request (.poll { orgSlug := pollSlug, clientID := "app" } "dev") fun _ => { plain := "refresh" }]

def deviceRun (ms : List DeviceMove) : DeviceWorld := run (deviceStep plainHandler) { store := deviceStore } ms

def tokensOf : Except TokenErr DeviceReply → Option TokenSet
  | .ok (.tokens ts) => some ts
  | _ => none

theorem tokensOf_some {ts} (h : tokensOf r = some ts) : r = .ok (.tokens ts) := by
  unfold tokensOf at h
  split at h
  · rw [some.inj h]
  · cases h

theorem device_grant_isolated_at_home : ∃ e ∈ (deviceRun (deviceMoves 7 "acme" "acme")).log, ∃ ts dc,
    e.reply = .ok (.tokens ts) ∧
      DeviceIsolated plainHandler (deviceRun (deviceMoves 7 "acme" "acme")).log e.before dc ts.accessToken := by
  have hrun : Trace (deviceStep plainHandler) (deviceCond plainHandler · · = true)
      { store := { deviceStore with devices := .empty, sso := fun _ => .empty } } (deviceMoves 7 "acme" "acme")
      (deviceRun (deviceMoves 7 "acme" "acme")) := Trace.of_checkRun (by decide +kernel)
  have hpolled : ∃ e ∈ (deviceRun (deviceMoves 7 "acme" "acme")).log,
      e.request = .poll { orgSlug := "acme", clientID := "app" } "dev" ∧ (tokensOf e.reply).isSome = true :=
    ⟨_, mem_cons_self .., rfl, by decide +kernel⟩
  obtain ⟨e, he, hpoll, hsome⟩ := hpolled
  obtain ⟨ts, hts⟩ := isSome_iff_exists.mp hsome
  obtain ⟨dc, -, hiso⟩ := device_grant_isolated plainHandler deviceStore _ _ hrun e he _ _ ts hpoll (tokensOf_some hts)
  exact ⟨e, he, ts, dc, tokensOf_some hts, hiso⟩

def deviceOrgs (w : DeviceWorld) : Option (UUID × UUID × Keys × String) :=
  match w.log with
  | e :: a :: _ => do
    let ts ← tokensOf e.reply
    let dc ← e.before.devices.find (·.deviceCodeHash == "dev")
    let sess ← (a.before.sso "cookie").get a.before.now
    let iss ← (ts.accessToken.claims.lookup "iss").bind Json.asString
    return (dc.orgID, sess.orgID, ts.accessToken.keys, iss)
  | _ => none

theorem device_grant_crosses_organisations :
    deviceOrgs (deviceRun (deviceMoves 8 "evil" "acme")) = some (1, 2, .tenant 1, "https://id/acme") ∧
    deviceOrgs (deviceRun (deviceMoves 7 "acme" "evil")) = some (1, 1, .tenant 2, "https://id/evil") := by
  decide +kernel

end Clavex

import Clavex.Login

/-!
# What each login handler can do

One case type per handler, with the guards of its branches. The properties of
whole logins are proved from these and never look inside a handler again.
-/

namespace Clavex

open List Bool Handler

/-! ## Early returns -/

variable {α : Type} {o : Outcome} {w w' : World} {d : Deps} {a : LoginMove} {s : LoginSession} {u : User} {c : AuthCode}
  {via : Issuer} {pre : List Event}

theorem finish_ok {x} {a} (h : x = .ok a) (f : α → Handler Outcome) :
    finish (x >>= f) = finish (f a) := by
  subst h; rfl

theorem finish_err {x} (h : x = .error o) (f : α → Handler Outcome) : finish (x >>= f) = o := by
  subst h; rfl

theorem loadSession_cases (w f msg) :
    loadSession w f msg = .error ⟨w, .refuse (.httpError 400 msg)⟩ ∨
      ∃ s, w.session = some s ∧ loadSession w f msg = .ok s := by
  unfold loadSession
  cases hs : w.session with
  | none => exact .inl rfl
  | some s =>
    by_cases hf : f.getFails = true
    · left; simp only [hf, ite_true]; rfl
    · right; refine ⟨s, rfl, ?_⟩; simp only [hf]; rfl

/-! ## AuthorizeSubmit -/

structure SignsIn (d : Deps) (w : World) (q : SubmitReq) (s : LoginSession) (u : User) : Prop where
  found : w.userByEmail s.orgID q.email = some u
  active : u.isActive = true
  password : ∃ h, u.passwordHash = some h ∧ d.checkPassword h q.password = true

def BreachStops (q : SubmitReq) (s : LoginSession) : Prop :=
  s.breachWarningAcknowledged = false ∧ q.breachCount.isSome = true ∧
    (q.breachedPasswordAction = .forceReset ∨ q.breachedPasswordAction = .warn)

def policyForces (q : SubmitReq) : Bool := q.ipRule != .allow && q.policy.any (·.isMFARequired)

def afterPolicy (q : SubmitReq) (s : LoginSession) : LoginSession :=
  { s with authTime := q.now, forceMFA := s.forceMFA || policyForces q }

def submitOrg (w : World) (q : SubmitReq) (s : LoginSession) : Option Organization :=
  if q.orgFails then none else w.orgBySlug s.orgSlug

structure FlowPasses (d : Deps) (s : LoginSession) (fr : FlowResult) : Prop where
  spid : fr.upgradeSPIDLevel ≤ 0
  cie : fr.upgradeCIE = false
  reauth : fr.forceReauth = false
  deny : fr.deny = false
  mfa : fr.forceMFA = true → s.forceMFA = true
  challenge : fr.oid4vpChallenge.isSome = true → d.oid4vp = false

inductive FlowSave (s : LoginSession) (u : User) (fr : FlowResult) : SaveSite → LoginSession → Prop
  | spid : FlowSave s u fr .flowSPID { s with userID := some u.id, requiredSPIDLevel := fr.upgradeSPIDLevel }
  | cie : FlowSave s u fr .flowCIE { s with userID := some u.id, requiredCIEUpgrade := true }
  | stepUp (hd : fr.deny = true) : FlowSave s u fr .flowStepUp { s with userID := some u.id }
  | forceMFA (hd : fr.deny = false) :
      FlowSave s u fr .flowForceMFA { s with forceMFA := true, userID := some u.id, mfaPending := true }
  | challenge (hd : fr.deny = false) (rid msg : String) : FlowSave s u fr .flowOID4VP
      { withClaims s fr with
        userID := some u.id, oid4vpPending := true, oid4vpRequestID := rid, oid4vpMessage := msg }

theorem authenticate_cases (d w q s) :
    (∃ r, authenticate d w q s = .error ⟨w, .refuse r⟩) ∨
      ∃ u, authenticate d w q s = .ok u ∧ SignsIn d w q s u := by
  unfold authenticate
  by_cases h1 : q.ipRule = .deny
  · exact .inl ⟨_, by simp only [h1, ite_true]; rfl⟩
  by_cases h2 : q.captchaFails = true
  · exact .inl ⟨_, by simp only [h1, h2, ite_true, ite_false]; rfl⟩
  simp only [h1, h2, ite_false, Bool.false_eq_true]
  split
  · exact .inl ⟨_, rfl⟩
  · rename_i u hu
    have hfound : w.userByEmail s.orgID q.email = some u := by
      split at hu
      · cases hu
      · exact hu
    by_cases h3 : u.isActive = true
    · simp only [h3, Bool.not_true, Bool.false_eq_true, ite_false]
      split
      · exact .inl ⟨_, rfl⟩
      · split
        · exact .inl ⟨_, rfl⟩
        · rename_i hash hh
          by_cases h4 : d.checkPassword hash q.password = true
          · exact .inr ⟨u, by simp only [h4, ite_true]; rfl, hfound, h3, hash, hh, h4⟩
          · exact .inl ⟨_, by simp only [h4]; rfl⟩
    · exact .inl ⟨_, by simp only [h3, Bool.not_false, ite_true]; rfl⟩

theorem breachCheck_cases (w q s u) :
    breachCheck w q s u = .ok () ∨ (∃ r, breachCheck w q s u = .error ⟨w, .refuse r⟩) ∨
      (BreachStops q s ∧ ∃ r r', breachCheck w q s u = .error ⟨w, .save .breach { s with userID := some u.id } r r'⟩) := by
  unfold breachCheck
  by_cases h1 : s.breachWarningAcknowledged = true
  · left; simp only [h1, ite_true]; rfl
  · simp only [h1, false_eq_true, ite_false]
    have hack : s.breachWarningAcknowledged = false := by simpa using h1
    split
    · exact .inl rfl
    rename_i count hc
    split
    · exact .inl rfl
    · exact .inr (.inl ⟨_, rfl⟩)
    · rename_i ha; exact .inr (.inr ⟨⟨hack, by simp [hc], .inl ha⟩, _, _, rfl⟩)
    · rename_i ha; exact .inr (.inr ⟨⟨hack, by simp [hc], .inr ha⟩, _, _, rfl⟩)

theorem policyCheck_cases (w q s) :
    (∃ r, policyCheck w q { s with authTime := q.now } = .error ⟨w, .refuse r⟩) ∨
      policyCheck w q { s with authTime := q.now } = .ok (afterPolicy q s) := by
  unfold policyCheck afterPolicy policyForces
  by_cases h1 : q.ipRule = .allow
  · right; simp [h1, pure, Except.pure]
  · simp only [h1, ite_false]
    cases hp : q.policy with
    | none => right; simp [pure, Except.pure]
    | some a =>
      by_cases h2 : a = .deny
      · left; exact ⟨_, by simp only [h2, ite_true]; rfl⟩
      · right
        by_cases h3 : a.isMFARequired = true
        · simp [h1, h2, h3, pure, Except.pure]
        · simp [h2, h3, pure, Except.pure]

theorem enforceMFA_cases (w q s org u) :
    (∃ r, enforceMFA w q s org u = .error ⟨w, .refuse r⟩) ∨
      (enforceMFA w q s org u = .ok () ∧ (mfaRequired org u s = true → q.trusted = true)) ∨
      (q.trusted = false ∧ ∃ r r', enforceMFA w q s org u =
        .error ⟨w, .save .mfaEnforced { s with userID := some u.id, mfaPending := true } r r'⟩) := by
  unfold enforceMFA
  by_cases h1 : mfaRequired org u s = true
  · simp only [h1, ite_true]
    split
    · exact .inl ⟨_, rfl⟩
    · rename_i n _
      by_cases h2 : n = 0
      · exact .inl ⟨_, by simp only [h2, ite_true]; rfl⟩
      · by_cases h3 : q.trusted = true
        · exact .inr (.inl ⟨by simp only [h2, h3, ite_true, ite_false]; rfl, fun _ => h3⟩)
        · exact .inr (.inr ⟨by simpa using h3, _, _, by simp only [h2, h3, ite_false]; rfl⟩)
  · exact .inr (.inl ⟨by simp only [h1]; rfl, fun h => absurd h h1⟩)

theorem requiredActions_cases (w s u l) :
    requiredActions w s u l = .ok () ∨ (∃ r, requiredActions w s u l = .error ⟨w, .refuse r⟩) ∨
      ∃ r r', requiredActions w s u l = .error ⟨w, .save .requiredAction { s with userID := some u.id } r r'⟩ := by
  induction l with
  | nil => exact .inl rfl
  | cons a l ih =>
    simp only [requiredActions]
    split
    · exact .inr (.inl ⟨_, rfl⟩)
    · split
      · exact .inr (.inr ⟨_, _, rfl⟩)
      · split
        · exact .inr (.inr ⟨_, _, rfl⟩)
        · exact ih

structure Base (w w' : World) : Prop where
  session : w'.session = w.session
  users : w'.users = w.users
  orgs : w'.orgs = w.orgs
  log : w'.log = w.log ∨ (∃ u fr, w'.log = .flowRun u fr :: w.log) ∨ ∃ u, w'.log = .mfaAccepted u :: w.log

theorem Base.refl (w) : Base w w := ⟨rfl, rfl, rfl, .inl rfl⟩

theorem Base.flowRun (w u fr) : Base w (w.record (.flowRun u fr)) :=
  ⟨rfl, rfl, rfl, .inr (.inl ⟨u, fr, rfl⟩)⟩

theorem Base.mfaAccepted (w u) : Base w (w.record (.mfaAccepted u)) :=
  ⟨rfl, rfl, rfl, .inr (.inr ⟨u, rfl⟩)⟩

@[simp] theorem OTPChannel.setRows_log (ch : OTPChannel) (w) (rs) :
    (ch.setRows w rs).log = w.log := by
  cases ch <;> rfl

@[simp] theorem OTPChannel.user_setRows (ch ch' : OTPChannel) (w) (rs) :
    ch.user (ch'.setRows w rs) = ch.user w := by
  cases ch <;> cases ch' <;> rfl

theorem Base.setRows (ch : OTPChannel) (w : World) (rs) : Base w (ch.setRows w rs) := by
  cases ch <;> exact ⟨rfl, rfl, rfl, .inl rfl⟩

theorem Base.presentations (h : Base w w') (ps) : Base w { w' with presentations := ps } :=
  ⟨h.session, h.users, h.orgs, h.log⟩

structure Submits (d : Deps) (w : World) (q : SubmitReq) (s : LoginSession) (u : User) : Prop
    extends SignsIn d w q s u where
  session : w.session = some s
  mfa : mfaRequired (submitOrg w q s) u (afterPolicy q s) = true → q.trusted = true

inductive SaveCase (d : Deps) (w : World) : LoginMove → SaveSite → LoginSession → List Event → Prop
  | breach {q s u} (hs : w.session = some s) (hu : SignsIn d w q s u) (hb : BreachStops q s) :
      SaveCase d w (.authorizeSubmit q) .breach { s with authTime := q.now, userID := some u.id } w.log
  | mfaEnforced {q s u} (hs : w.session = some s) (hu : SignsIn d w q s u) (ht : q.trusted = false) :
      SaveCase d w (.authorizeSubmit q) .mfaEnforced
        { afterPolicy q s with userID := some u.id, mfaPending := true } w.log
  | requiredAction {q s u} (h : Submits d w q s u) :
      SaveCase d w (.authorizeSubmit q) .requiredAction { afterPolicy q s with userID := some u.id } w.log
  | flow {q s u eng site s'} (h : Submits d w q s u) (he : d.flowEngine = some eng)
      (hf : FlowSave (afterPolicy q s) u (eng.run q.flow (userContext q (afterPolicy q s) u)) site s') :
      SaveCase d w (.authorizeSubmit q) site s'
        (.flowRun u.id (eng.run q.flow (userContext q (afterPolicy q s) u)) :: w.log)
  | acknowledged {q s} (hs : w.session = some s) :
      SaveCase d w (.breachWarningAcknowledge q) .breachAcknowledged { s with breachWarningAcknowledged := true } w.log
  | otpSent {ch q s} (hs : w.session = some s) :
      SaveCase d w (.otpSend ch q) .otpSent (ch.markSent s q.address) w.log
  | otpVerified {ch q s org u} (hs : w.session = some s) (ho : w.orgBySlug q.orgSlug = some org)
      (hu : ch.user w org.id (ch.address s q.address) = some u) (ha : u.isActive = true) :
      SaveCase d w (.otpVerify ch q) .otpVerified (ch.markVerified s u.id) w.log
  | passkey {q s u} (hs : w.session = some s) (hc : q.credentialUser = some u) :
      SaveCase d w (.finishPasskeyLogin q) .passkey { s with userID := some u, mfaPending := false } w.log

inductive IssueCase (d : Deps) (w : World) :
    LoginMove → Issuer → LoginSession → GoMap Json → UUID → List Event → Prop
  | noEngine {q s u} (h : Submits d w q s u) (he : d.flowEngine = none) :
      IssueCase d w (.authorizeSubmit q) .submit (afterPolicy q s) s.extraClaims u.id w.log
  | flow {q s u eng fr} (h : Submits d w q s u) (he : d.flowEngine = some eng)
      (hfr : fr = eng.run q.flow (userContext q (afterPolicy q s) u)) (hp : FlowPasses d (afterPolicy q s) fr) :
      IssueCase d w (.authorizeSubmit q) .submit (withClaims (afterPolicy q s) fr)
        (withClaims (afterPolicy q s) fr).extraClaims u.id (.flowRun u.id fr :: w.log)
  | mfaChallenge {q s u} (hs : w.session = some s) (hp : s.mfaPending = true) (hu : s.userID = some u) :
      IssueCase d w (.mfaChallengeSubmit q) .mfaChallenge s ∅ u (.mfaAccepted u :: w.log)
  | resume {f s u} (hs : w.session = some s) (hp : s.mfaPending = false) (hu : s.userID = some u) :
      IssueCase d w (.authorizeResume f) .resume s s.extraClaims u w.log
  | oid4vpResume {q s u vp} (hs : w.session = some s) (hp : s.oid4vpPending = true) (hu : s.userID = some u)
      (hvp : w.presentation s.oid4vpRequestID = some vp) (hv : vp.status = .verified) :
      IssueCase d w (.oid4vpResume q) .oid4vpResume s (withPresentation s.extraClaims vp.vpClaims) u w.log

inductive Ends (d : Deps) (w : World) (a : LoginMove) : Outcome → Prop
  | refused {w' : World} (hb : Base w w') (r : Response) : Ends d w a ⟨w', .refuse r⟩
  | dropped {w' : World} (hb : Base w w') (r : Response) : Ends d w a ⟨w', .drop r⟩
  | saved {w' site s} (hb : Base w w') (h : SaveCase d w a site s w'.log) (r r' : Response) :
      Ends d w a ⟨w', .save site s r r'⟩
  | issued {w' via s claims u} (hb : Base w w') (h : IssueCase d w a via s claims u w'.log)
      (r : Response) : Ends d w a ⟨w', .issue via s claims (some u) r⟩
  | nobody {w' via s claims} (hb : Base w w') (r : Response) : Ends d w a ⟨w', .issue via s claims none r⟩

theorem ends_loadSession {f msg k}
    (h : ∀ s, w.session = some s → Ends d w a (finish (k s))) :
    Ends d w a (finish (loadSession w f msg >>= k)) := by
  rcases loadSession_cases w f msg with herr | ⟨s, hs, hok⟩
  · rw [finish_err herr]; exact .refused (.refl w) _
  · rw [finish_ok hok]; exact h s hs

theorem applyFlow_cases {q eng fr} (h : Submits d w q s u) (he : d.flowEngine = some eng)
    (hfr : fr = eng.run q.flow (userContext q (afterPolicy q s) u)) :
    (∃ o, applyFlow d (w.record (.flowRun u.id fr)) q (afterPolicy q s) u fr = .error o ∧
        Ends d w (.authorizeSubmit q) o) ∨
      (applyFlow d (w.record (.flowRun u.id fr)) q (afterPolicy q s) u fr = .ok (withClaims (afterPolicy q s) fr) ∧
        FlowPasses d (afterPolicy q s) fr) := by
  have hb := Base.flowRun w u.id fr
  have hsave {site s'} (hf : FlowSave (afterPolicy q s) u fr site s') :
      SaveCase d w (.authorizeSubmit q) site s' (.flowRun u.id fr :: w.log) := by
    subst hfr; exact .flow h he hf
  unfold applyFlow
  split
  · exact .inl ⟨_, rfl, .saved hb (hsave .spid) _ _⟩
  rename_i hspid
  split
  · exact .inl ⟨_, rfl, .saved hb (hsave .cie) _ _⟩
  rename_i hcie
  split
  · exact .inl ⟨_, rfl, .dropped hb _⟩
  rename_i hre
  split
  · rename_i hd
    split
    · exact .inl ⟨_, rfl, .saved hb (hsave (.stepUp hd)) _ _⟩
    · exact .inl ⟨_, rfl, .refused hb _⟩
  rename_i hd
  rw [not_eq_true] at hcie hre hd
  split
  · exact .inl ⟨_, rfl, .saved hb (hsave (.forceMFA hd)) _ _⟩
  rename_i hm
  have hpass (hc : fr.oid4vpChallenge.isSome = true → d.oid4vp = false) : FlowPasses d (afterPolicy q s) fr :=
    ⟨not_lt.mp hspid, hcie, hre, hd, fun h => by simpa [h] using hm, hc⟩
  split
  · rename_i hc; exact .inr ⟨rfl, hpass (by simp [hc])⟩
  · split
    · split
      · exact .inl ⟨_, rfl, .refused hb _⟩
      · split
        · exact .inl ⟨_, rfl, .refused hb _⟩
        · exact .inl ⟨_, rfl, .saved (hb.presentations _) (hsave (.challenge hd _ _)) _ _⟩
    · rename_i ho; exact .inr ⟨rfl, hpass fun _ => by simpa using ho⟩

theorem authorizeSubmit_ends (d w q) : Ends d w (.authorizeSubmit q) (authorizeSubmit d w q) := by
  refine ends_loadSession fun s hs => ?_
  rcases authenticate_cases d w q s with ⟨r, h⟩ | ⟨u, h, hu⟩
  · rw [finish_err h]; exact .refused (.refl w) _
  rw [finish_ok h]
  rcases breachCheck_cases w q { s with authTime := q.now } u with h | ⟨r, h⟩ | ⟨hb, r, r', h⟩
  · rw [finish_ok h]
    rcases policyCheck_cases w q s with ⟨r, h⟩ | h
    · rw [finish_err h]; exact .refused (.refl w) _
    rw [finish_ok h]
    change Ends d w _ (finish (enforceMFA w q (afterPolicy q s) (submitOrg w q s) u >>= _))
    rcases enforceMFA_cases w q (afterPolicy q s) (submitOrg w q s) u with ⟨r, h⟩ | ⟨h, hm⟩ | ⟨ht, r, r', h⟩
    · rw [finish_err h]; exact .refused (.refl w) _
    · rw [finish_ok h]
      have hsub : Submits d w q s u := ⟨hu, hs, hm⟩
      rcases requiredActions_cases w (afterPolicy q s) u u.requiredActions with h | ⟨r, h⟩ | ⟨r, r', h⟩
      · rw [finish_ok h]
        cases he : d.flowEngine with
        | none => exact .issued (.refl w) (.noEngine hsub he) _
        | some eng =>
          rcases applyFlow_cases hsub he rfl with ⟨o, h, ho⟩ | ⟨h, hp⟩
          · exact (finish_err h _).symm ▸ ho
          · exact (finish_ok h _).symm ▸ .issued (.flowRun w u.id _) (.flow hsub he rfl hp) _
      · rw [finish_err h]; exact .refused (.refl w) _
      · rw [finish_err h]; exact .saved (.refl w) (.requiredAction hsub) r r'
    · rw [finish_err h]; exact .saved (.refl w) (.mfaEnforced hs hu ht) r r'
  · rw [finish_err h]; exact .refused (.refl w) _
  · rw [finish_err h]; exact .saved (.refl w) (.breach hs hu hb) r r'

/-! ## The other handlers -/

theorem mfaChallengeSubmit_ends (d w q) : Ends d w (.mfaChallengeSubmit q) (mfaChallengeSubmit d w q) := by
  refine ends_loadSession fun s hs => ?_
  by_cases hp : s.mfaPending = true
  · simp only [hp, Bool.not_true, Bool.false_eq_true, ite_false]
    cases hu : s.userID with
    | none => exact .refused (.refl w) _
    | some u =>
      cases hl : q.locked with
      | some _ => exact .refused (.refl w) _
      | none =>
        cases hc : q.creds with
        | none => exact .refused (.refl w) _
        | some creds =>
          have hb := Base.mfaAccepted w u
          simp only
          split
          · split
            · exact .refused hb _
            · rename_i row hrow
              have hid : row.id = u := by
                split at hrow
                · cases hrow
                · simpa using List.find?_some hrow
              split
              · exact .dropped hb _
              · rw [hid]; exact .issued hb (.mfaChallenge hs hp hu) _
          · exact .refused (.refl w) _
  · simp only [hp, Bool.not_false, ite_true]; exact .refused (.refl w) _

theorem breachWarningAcknowledge_ends (d w q) :
    Ends d w (.breachWarningAcknowledge q) (breachWarningAcknowledge w q) := by
  refine ends_loadSession fun s hs => ?_
  exact .saved (.refl w) (.acknowledged hs) _ _

theorem authorizeResume_ends (d w f) : Ends d w (.authorizeResume f) (authorizeResume w f) := by
  refine ends_loadSession fun s hs => ?_
  cases hu : s.userID with
  | none => exact .refused (.refl w) _
  | some u =>
    by_cases hp : s.mfaPending = true
    · simp only [hp, ite_true]; exact .refused (.refl w) _
    · simp only [hp, Option.isNone_some, false_eq_true, ite_false]
      by_cases ha : maxAgeExceeded s f.now = true
      · simp only [ha, ite_true]; exact .dropped (.refl w) _
      · simp only [ha, false_eq_true, ite_false]
        exact .issued (.refl w) (.resume hs (by simpa using hp) hu) _

theorem oid4vpResume_ends (d w q) : Ends d w (.oid4vpResume q) (oid4vpResume d w q) := by
  refine ends_loadSession fun s hs => ?_
  by_cases hp : (!s.oid4vpPending || s.oid4vpRequestID == "") = true
  · simp only [hp, ite_true]; exact .refused (.refl w) _
  simp only [hp, Bool.false_eq_true, ite_false]
  by_cases ho : d.oid4vp = true
  · simp only [ho, Bool.not_true, Bool.false_eq_true, ite_false]
    split
    · exact .refused (.refl w) _
    · rename_i vp hvp
      have hvp : w.presentation s.oid4vpRequestID = some vp := by
        split at hvp
        · cases hvp
        · exact hvp
      by_cases hv : vp.status = .verified
      · simp only [hv, ne_eq, not_true_eq_false, ite_false]
        have hp : s.oid4vpPending = true := by
          cases h : s.oid4vpPending
          · simp [h] at hp
          · rfl
        cases hu : s.userID with
        | none => exact .nobody (.refl w) _
        | some u => exact .issued (.refl w) (.oid4vpResume hs hp hu hvp hv) _
      · simp only [hv, ne_eq, not_false_eq_true, ite_true]; exact .refused (.refl w) _
  · simp only [ho, Bool.not_false, ite_true]; exact .refused (.refl w) _

theorem otpSend_ends (ch d w q) : Ends d w (.otpSend ch q) (otpSend ch d w q) := by
  unfold otpSend
  cases ho : w.orgBySlug q.orgSlug with
  | none => exact .refused (.refl w) _
  | some org =>
    refine ends_loadSession fun s hs => ?_
    by_cases ha : q.address = ""
    · simp only [ha, ite_true]; exact .refused (.refl w) _
    simp only [ha, ite_false]
    cases q.throttled with
    | some _ => exact .refused (.refl w) _
    | none =>
      cases q.code with
      | none => exact .refused (.refl w) _
      | some code =>
        have hb := Base.setRows ch w (createOTP d.hashOTP (ch.rows w) org.id q.address code s.id q.now)
        refine .saved hb ?_ _ _
        rw [ch.setRows_log]
        exact .otpSent hs

theorem otpVerify_ends (ch d w q) : Ends d w (.otpVerify ch q) (otpVerify ch d w q) := by
  unfold otpVerify
  cases ho : w.orgBySlug q.orgSlug with
  | none => exact .refused (.refl w) _
  | some org =>
    refine ends_loadSession fun s hs => ?_
    by_cases hp : ch.pending s = true
    · by_cases hc : q.code = ""
      · simp only [hp, hc, Bool.not_true, Bool.false_eq_true, ite_false, ite_true]; exact .refused (.refl w) _
      simp only [hp, hc, Bool.not_true, Bool.false_eq_true, ite_false]
      cases q.locked with
      | some _ => exact .refused (.refl w) _
      | none =>
        simp only
        split
        · exact .refused (.refl w) _
        split
        · exact .refused (.refl w) _
        have hb := Base.setRows ch w
          (consumeOTP d.hashOTP (ch.rows w) org.id (ch.address s q.address) q.code s.id q.now).1
        split
        · exact .refused hb _
        · rename_i u hu
          split
          · exact .refused hb _
          · rename_i ha
            refine .saved hb ?_ _ _
            rw [ch.setRows_log]
            refine .otpVerified hs ho ?_ (by simpa using ha)
            split at hu
            · cases hu
            · rwa [ch.user_setRows] at hu
    · simp only [hp, Bool.not_false, ite_true]; exact .refused (.refl w) _

theorem finishPasskeyLogin_ends (d w q) : Ends d w (.finishPasskeyLogin q) (finishPasskeyLogin w q) := by
  unfold finishPasskeyLogin
  by_cases hc : q.challengeOK = true
  · simp only [hc, Bool.not_true, Bool.false_eq_true, ite_false]
    cases hu : q.credentialUser with
    | none => exact .refused (.refl w) _
    | some u =>
      simp only
      split
      · exact .refused (.refl w) _
      · cases hs : w.session with
        | none => exact .refused (.refl w) _
        | some s =>
          simp only
          split
          · exact .refused (.refl w) _
          · exact .saved (.refl w) (.passkey hs hu) _ _
  · simp only [hc, Bool.not_false, ite_true]; exact .refused (.refl w) _

/-! ## One step of the machine -/

structure CodeFor (s : LoginSession) (claims : GoMap Json) (u : UUID) (c : AuthCode) : Prop where
  orgID : c.orgID = s.orgID
  userID : c.userID = u
  extraClaims : c.extraClaims = claims

theorem issueAuthorizationCode_for {claims u now fails}
    (h : issueAuthorizationCode s claims (some u) now fails = some c) : CodeFor s claims u c := by
  unfold issueAuthorizationCode at h
  split at h
  · cases h
  · cases h; exact ⟨rfl, rfl, rfl⟩

inductive StepCase (d : Deps) (w : World) : LoginMove → World → Prop
  | quiet {a w' sess} (hb : Base w w') (hs : sess = w.session ∨ sess = none) :
      StepCase d w a { w' with session := sess }
  | saved {a w' site s} (hb : Base w w') (h : SaveCase d w a site s w'.log) :
      StepCase d w a { w' with session := some s, log := .saved site s :: w'.log }
  | issued {a w' sess via s claims u c} (hb : Base w w') (hs : sess = w.session ∨ sess = none)
      (h : IssueCase d w a via s claims u w'.log) (hc : CodeFor s claims u c) :
      StepCase d w a { w' with session := sess, log := .issued via c :: w'.log }
  | present (rid : String) (status : PresentationStatus) (claims : GoMap Json) :
      StepCase d w (.present rid status claims) (loginStep d w (.present rid status claims))
  | setActive (u : UUID) (active : Bool) : StepCase d w (.setActive u active) (loginStep d w (.setActive u active))
  | deleteUser (u : UUID) : StepCase d w (.deleteUser u) (loginStep d w (.deleteUser u))

theorem perform_cases (f) (h : Ends d w a o) : StepCase d w a (perform f o).1 := by
  cases h with
  | refused hb r => exact .quiet hb (.inl hb.session)
  | dropped hb r =>
    unfold perform
    by_cases hf : f.deleteFails = true
    · simp only [hf, ite_true]; exact .quiet hb (.inl hb.session)
    · simp only [hf]; exact .quiet hb (.inr rfl)
  | saved hb hsave r r' =>
    unfold perform
    by_cases hf : f.saveFails = true
    · simp only [hf, ite_true]; exact .quiet hb (.inl hb.session)
    · simp only [hf]; exact .saved hb hsave
  | issued hb hissue r =>
    unfold perform
    simp only
    split
    · exact .quiet hb (.inl hb.session)
    · rename_i c hc
      refine .issued hb ?_ hissue (issueAuthorizationCode_for hc)
      by_cases hf : f.deleteFails = true
      · simp only [hf, ite_true]; exact .inl hb.session
      · simp only [hf]; exact .inr rfl
  | nobody hb r =>
    unfold perform
    simp only [issueAuthorizationCode, Option.map_none, ite_self]
    exact .quiet hb (.inl hb.session)

theorem loginStep_cases (d w a) : StepCase d w a (loginStep d w a) := by
  cases a with
  | authorizeSubmit q => exact perform_cases _ (authorizeSubmit_ends d w q)
  | mfaChallengeSubmit q => exact perform_cases _ (mfaChallengeSubmit_ends d w q)
  | breachWarningAcknowledge q => exact perform_cases _ (breachWarningAcknowledge_ends d w q)
  | authorizeResume f => exact perform_cases _ (authorizeResume_ends d w f)
  | oid4vpResume q => exact perform_cases _ (oid4vpResume_ends d w q)
  | otpSend ch q => exact perform_cases _ (otpSend_ends ch d w q)
  | otpVerify ch q => exact perform_cases _ (otpVerify_ends ch d w q)
  | finishPasskeyLogin q => exact perform_cases _ (finishPasskeyLogin_ends d w q)
  | expire => exact .quiet (.refl w) (.inr rfl)
  | present rid status claims => exact .present rid status claims
  | setActive u active => exact .setActive u active
  | deleteUser u => exact .deleteUser u

theorem Base.log_ne_issued (hb : Base w w')
    (hpre : w.log.length ≤ pre.length) : w'.log ≠ .issued via c :: pre := by
  intro h
  rcases hb.log with h' | ⟨u, fr, h'⟩ | ⟨u, h'⟩ <;> rw [h'] at h
  · simp only [h, length_cons] at hpre
    omega
  · cases h
  · cases h

theorem issued_some
    (h : issued d w a = some (via, c, pre)) :
    (loginStep d w a).log = .issued via c :: pre ∧ w.log.length ≤ pre.length := by
  unfold issued at h
  split at h
  · rename_i hlog
    split at h
    · rename_i hlen; cases h; exact ⟨hlog, hlen⟩
    · cases h
  · cases h

theorem issued_of_any {p} (h : (issued d w a).any p = true) :
    ∃ via c pre, issued d w a = some (via, c, pre) ∧ p (via, c, pre) = true := by
  cases hi : issued d w a with
  | none => rw [hi] at h; cases h
  | some x => rw [hi] at h; exact ⟨x.1, x.2.1, x.2.2, rfl, h⟩

theorem issued_cases
    (h : issued d w a = some (via, c, pre)) :
    ∃ s claims u, IssueCase d w a via s claims u pre ∧ CodeFor s claims u c := by
  obtain ⟨hlog, hpre⟩ := issued_some h
  have hstep := loginStep_cases d w a
  generalize loginStep d w a = w' at hstep hlog
  cases hstep with
  | quiet hb _ => exact (hb.log_ne_issued hpre hlog).elim
  | saved hb hs => cases hlog
  | issued hb _ hi hc => cases hlog; exact ⟨_, _, _, hi, hc⟩
  | present rid status claims | setActive u active | deleteUser u => exact ((Base.refl w).log_ne_issued hpre hlog).elim

/-! ## What every step keeps -/

theorem SaveCase.session {site s' l} (h : SaveCase d w a site s' l) :
    ∃ s, w.session = some s ∧ s'.orgSlug = s.orgSlug ∧ s'.orgID = s.orgID := by
  cases h with
  | breach hs | mfaEnforced hs | acknowledged hs | passkey hs => exact ⟨_, hs, rfl, rfl⟩
  | requiredAction h => exact ⟨_, h.session, rfl, rfl⟩
  | @otpSent ch _ _ hs | @otpVerified ch _ _ _ _ hs => cases ch <;> exact ⟨_, hs, rfl, rfl⟩
  | flow h he hf =>
    refine ⟨_, h.session, ?_⟩
    cases hf with
    | challenge hd rid msg => unfold withClaims; split <;> exact ⟨rfl, rfl⟩
    | _ => exact ⟨rfl, rfl⟩

theorem userByEmail_some {org email} (h : w.userByEmail org email = some u) : u ∈ w.users ∧ u.orgID = org := by
  have hp := find?_some h
  simp only [and_eq_true, beq_iff_eq] at hp
  exact ⟨mem_of_find?_eq_some h, hp.1⟩

theorem World.KeyedUsers.userByID (hk : w.KeyedUsers) (hu : u ∈ w.users) : w.userByID u.id = some u := by
  cases h : w.userByID u.id with
  | none => exact absurd (find?_eq_none.mp h u hu) (by simp)
  | some v =>
    have hid : v.id = u.id := by simpa using find?_some h
    rw [hk v (mem_of_find?_eq_some h) u hu hid]

end Clavex

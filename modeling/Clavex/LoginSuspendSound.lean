import Clavex.LoginSound

/-!
# Sessions the flow engine has suspended

A flow can suspend a login with a wallet challenge or with a denial that sends
the user to a step-up page. Only `OID4VPResume` asks for the presentation and
only `AuthorizeSubmit` runs the flow again; `AuthorizeResume` does neither.
-/

namespace Clavex

open Trace

def FlowMove : LoginMove → Prop
  | .authorizeSubmit _ | .authorizeResume _ | .oid4vpResume _ | .expire | .present .. => True
  | _ => False

def awaited : List Event → Option String
  | [] => none
  | .saved .flowOID4VP s :: _ => some s.oid4vpRequestID
  | _ :: l => awaited l

def stepUpOpen : List Event → Bool
  | [] => false
  | .saved .flowStepUp _ :: _ => true
  | .flowRun _ fr :: l => fr.deny && stepUpOpen l
  | _ :: l => stepUpOpen l

def Verified (w : World) (rid : String) : Prop := ∃ vp, w.presentation rid = some vp ∧ vp.status = .verified

/-- `AuthorizeResume` is not called on a suspended session, `OID4VPResume` not before
the flow has passed a step-up page, and a submission while a presentation is awaited
meets a flow that stops it again. -/
def KeepsSuspension (d : Deps) (w : World) : LoginMove → Prop
  | .authorizeSubmit q => ∀ rid, awaited w.log = some rid → Verified w rid ∨
      ∀ s u eng, w.session = some s → w.userByEmail s.orgID q.email = some u → d.flowEngine = some eng →
        ¬ FlowPasses d (afterPolicy q s) (eng.run q.flow (userContext q (afterPolicy q s) u))
  | .authorizeResume _ => (∀ rid, awaited w.log = some rid → Verified w rid) ∧ stepUpOpen w.log = false
  | .oid4vpResume _ => stepUpOpen w.log = false
  | _ => True

structure Suspension (d : Deps) (w : World) : Prop where
  linked : ∀ s rid, w.session = some s → awaited w.log = some rid → s.oid4vpRequestID = rid
  engine : d.flowEngine = none → awaited w.log = none ∧ stepUpOpen w.log = false

section
variable {d : Deps} {w w' : World} {a : LoginMove}

theorem Base.awaited (hb : Base w w') : awaited w'.log = awaited w.log := by
  rcases hb.log with h | ⟨u, fr, h⟩ | ⟨u, h⟩ <;> rw [h] <;> rfl

theorem Base.stepUpOpen (hb : Base w w') (h : stepUpOpen w.log = false) : stepUpOpen w'.log = false := by
  rcases hb.log with h' | ⟨u, fr, h'⟩ | ⟨u, h'⟩ <;> rw [h'] <;> simp [Clavex.stepUpOpen, h]

variable {l : List Event} {site : SaveSite} {s' : LoginSession}

theorem Suspension.base (hi : Suspension d w) (hb : Base w w') {sess} (hs : sess = w.session ∨ sess = none)
    (ha : awaited l = awaited w'.log) (hu : stepUpOpen w'.log = false → stepUpOpen l = false) :
    Suspension d { w' with session := sess, log := l } := by
  refine ⟨?_, fun he => ?_⟩
  · intro s rid hsess hl
    rw [ha, hb.awaited] at hl
    rcases hs with rfl | rfl
    · exact hi.linked s rid hsess hl
    · cases hsess
  · obtain ⟨h1, h2⟩ := hi.engine he
    exact ⟨by rw [ha, hb.awaited, h1], hu (hb.stepUpOpen h2)⟩

theorem SaveCase.linked (hm : FlowMove a)
    (hi : Suspension d w) (h : SaveCase d w a site s' l) {rid}
    (ha : awaited (.saved site s' :: l) = some rid) : s'.oid4vpRequestID = rid := by
  cases h with
  | @breach q s u hs | @mfaEnforced q s u hs => exact hi.linked s rid hs ha
  | @requiredAction q s u h => exact hi.linked s rid h.session ha
  | @flow q s u eng site s' h he hf =>
    cases hf with
    | challenge hd rid' msg => simpa [Clavex.awaited] using ha
    | spid | cie | stepUp | forceMFA => exact hi.linked s rid h.session ha
  | acknowledged | otpSent | otpVerified | passkey => exact hm.elim

theorem SaveCase.engine (h : SaveCase d w a site s' l)
    (he : d.flowEngine = none) : awaited (.saved site s' :: l) = awaited l ∧
      stepUpOpen (.saved site s' :: l) = stepUpOpen l := by
  cases h with
  | flow _ he' _ => rw [he] at he'; cases he'
  | _ => exact ⟨rfl, rfl⟩

theorem Suspension.step (hi : Suspension d w) (hm : FlowMove a) : Suspension d (loginStep d w a) := by
  have hstep := loginStep_cases d w a
  generalize loginStep d w a = w' at hstep
  cases hstep with
  | quiet hb hs | issued hb hs _ _ => exact hi.base hb hs rfl id
  | saved hb h =>
    refine ⟨?_, fun he => ?_⟩
    · intro s rid hs hl; cases hs; exact h.linked hm hi hl
    · obtain ⟨h1, h2⟩ := h.engine he
      obtain ⟨h3, h4⟩ := hi.engine he
      exact ⟨by rw [h1, hb.awaited, h3], by rw [h2]; exact hb.stepUpOpen h4⟩
  | present rid status claims => exact ⟨hi.linked, hi.engine⟩
  | setActive | deleteUser => exact hm.elim

theorem IssueCase.released {via} {s claims} {u} {pre} (hi : Suspension d w)
    (hok : KeepsSuspension d w a) (hm : FlowMove a) (h : IssueCase d w a via s claims u pre) :
    (∀ rid, awaited pre = some rid → Verified w rid) ∧ stepUpOpen pre = false := by
  cases h with
  | noEngine h he =>
    obtain ⟨h1, h2⟩ := hi.engine he
    refine ⟨fun rid hr => ?_, h2⟩
    rw [h1] at hr
    cases hr
  | flow h he hfr hp =>
    refine ⟨fun rid hr => ?_, by simp [stepUpOpen, hp.deny]⟩
    rcases hok rid hr with hv | hstop
    · exact hv
    · subst hfr; exact (hstop _ _ _ h.session h.found he hp).elim
  | resume hs hp hu => exact hok
  | oid4vpResume hs hp hu hvp hv =>
    refine ⟨fun rid hr => ?_, hok⟩
    rw [hi.linked s rid hs hr] at hvp
    exact ⟨_, hvp, hv⟩
  | mfaChallenge => exact hm.elim

end

/-- In every run that keeps to the way a suspension is meant to end, no code is issued
before the awaited presentation is verified and the flow has passed again. -/
theorem suspended_until_released {d : Deps} {w₀ w : World} {s₀ : LoginSession} {as : List LoginMove} {a : LoginMove}
    {via : Issuer} {c : AuthCode} {pre : List Event} (h₀ : Fresh w₀ s₀)
    (hrun : Trace (loginStep d) (fun w a => FlowMove a ∧ KeepsSuspension d w a) w₀ as w)
    (ha : FlowMove a ∧ KeepsSuspension d w a) (hi : issued d w a = some (via, c, pre)) :
    (∀ rid, awaited pre = some rid → Verified w rid) ∧ stepUpOpen pre = false := by
  have hinit : Suspension d w₀ := by
    refine ⟨?_, fun _ => by rw [h₀.log]; exact ⟨rfl, rfl⟩⟩
    intro s rid _ h
    rw [h₀.log] at h
    cases h
  have hsus : Suspension d w := by
    refine hrun.inv (Suspension d) ?_ hinit
    intro w a hw hok
    exact hw.step hok.1
  obtain ⟨s, claims, u, hcase, -⟩ := issued_cases hi
  exact hcase.released hsus ha.2 ha.1

def walletReq : SubmitReq :=
  { adaReq with
    flow := some [({}, ⟨"oid4vp_challenge", some (.obj [("dcql_query", .obj [])]), true⟩)]
    vpRequestID := some "r1" }

def stepUpReq : SubmitReq :=
  { adaReq with
    flow := some
      [({}, ⟨"check_verified", some (.obj [("min_level", .str "high"), ("step_up_url", .str "/spid")]), true⟩)] }

theorem suspended_until_released_wallet : ∃ w via c pre,
    issued acmeDeps w (.oid4vpResume {}) = some (via, c, pre) ∧ awaited pre = some "r1" ∧
      (∀ rid, awaited pre = some rid → Verified w rid) ∧ stepUpOpen pre = false := by
  have hissued : (issued acmeDeps
      (run (loginStep acmeDeps) (acmeWorld acme ada) [.authorizeSubmit walletReq, .present "r1" .verified ∅])
      (.oid4vpResume {})).any (fun x => awaited x.2.2 == some "r1") = true := by decide +kernel
  obtain ⟨via, c, pre, hi, hp⟩ := issued_of_any hissued
  have hclosed : stepUpOpen (run (loginStep acmeDeps) (acmeWorld acme ada)
      [.authorizeSubmit walletReq, .present "r1" .verified ∅]).log = false := by decide +kernel
  refine ⟨_, via, c, pre, hi, by simpa using hp, ?_⟩
  exact suspended_until_released (a := .oid4vpResume {}) (acmeWorld_fresh _ _)
    (run_cons ⟨trivial, nofun⟩ (run_cons ⟨trivial, trivial⟩ (run_nil _))) ⟨trivial, hclosed⟩ hi

/-- `AuthorizeResume` issues a code while the wallet's answer is still pending, and one
after a denial that sent the user to the step-up page. -/
theorem resume_ignores_suspension : (∃ w₀ s₀ w via c pre,
      Fresh w₀ s₀ ∧ Trace (loginStep acmeDeps) (fun _ a => FlowMove a) w₀ [.authorizeSubmit walletReq] w ∧
      issued acmeDeps w (.authorizeResume {}) = some (via, c, pre) ∧ awaited pre = some "r1" ∧ ¬ Verified w "r1") ∧
    ∃ w₀ s₀ w via c pre,
      Fresh w₀ s₀ ∧ Trace (loginStep acmeDeps) (fun _ a => FlowMove a) w₀ [.authorizeSubmit stepUpReq] w ∧
      issued acmeDeps w (.authorizeResume {}) = some (via, c, pre) ∧ stepUpOpen pre = true := by
  constructor
  · have hissued : (issued acmeDeps (run (loginStep acmeDeps) (acmeWorld acme ada) [.authorizeSubmit walletReq])
        (.authorizeResume {})).any (fun x => awaited x.2.2 == some "r1") = true := by decide +kernel
    obtain ⟨via, c, pre, hi, hp⟩ := issued_of_any hissued
    have hpending : ((run (loginStep acmeDeps) (acmeWorld acme ada) [.authorizeSubmit walletReq]).presentation "r1").any
        (·.status == .verified) = false := by decide +kernel
    refine ⟨_, _, _, via, c, pre, acmeWorld_fresh _ _, run_cons trivial (run_nil _), hi,
      by simpa using hp, ?_⟩
    rintro ⟨vp, hvp, hv⟩
    rw [hvp] at hpending
    simp [hv] at hpending
  · have hissued : (issued acmeDeps (run (loginStep acmeDeps) (acmeWorld acme ada) [.authorizeSubmit stepUpReq])
        (.authorizeResume {})).any (fun x => stepUpOpen x.2.2) = true := by decide +kernel
    obtain ⟨via, c, pre, hi, hp⟩ := issued_of_any hissued
    exact ⟨_, _, _, via, c, pre, acmeWorld_fresh _ _, run_cons trivial (run_nil _), hi, hp⟩

end Clavex

import Clavex.LoginSound

/-!
# The second factor of a password login

A user who must use MFA gets a code without one when the breach check stops the
submission first: the interstitial binds the user to the session without
setting `MFAPending`, and `AuthorizeResume` looks at nothing else. Where that
detour is not taken, the second factor always comes before the code.
-/

namespace Clavex

def UntrustedDevice (_ : World) : LoginMove → Prop
  | .authorizeSubmit q => q.trusted = false
  | a => PasswordMove a

def RequiresMFA (w : World) (orgSlug : String) (u : UUID) : Prop :=
  (w.orgBySlug orgSlug).any (·.mfaRequired) = true ∨ (w.userByID u).any (·.mfaRequired) = true

/-- For a user who must use MFA: the breach check does not stop a submission unless
the second factor is already pending, the organisation lookup fails only if the user's
own row asks for MFA, and a presentation is not resumed while MFA is pending. -/
def NoMfaDetour (w : World) : LoginMove → Prop
  | .authorizeSubmit q => ∀ s u, w.session = some s → w.userByEmail s.orgID q.email = some u →
      RequiresMFA w s.orgSlug u.id →
      (BreachStops q s → s.mfaPending = true) ∧ (q.orgFails = true → u.mfaRequired = true)
  | .oid4vpResume _ => ∀ s u, w.session = some s → s.userID = some u → RequiresMFA w s.orgSlug u →
      s.oid4vpPending = true → s.mfaPending = false
  | _ => True

structure MfaHeld (w₀ : World) (slug : String) (w : World) : Prop where
  users : w.users = w₀.users
  orgs : w.orgs = w₀.orgs
  org : ∀ s, w.session = some s → s.orgSlug = slug
  pending : ∀ s u, w.session = some s → s.userID = some u → RequiresMFA w₀ slug u → s.mfaPending = true

theorem requiresMFA_congr {w w'} (hu : w'.users = w.users) (ho : w'.orgs = w.orgs) (slug u) :
    RequiresMFA w' slug u ↔ RequiresMFA w slug u := by
  unfold RequiresMFA World.orgBySlug World.userByID
  rw [hu, ho]

section
variable {d : Deps} {w₀ w : World} {slug : String} {a : LoginMove}

theorem Submits.not_requiresMFA {q s u} (hk : w₀.KeyedUsers) (hi : MfaHeld w₀ slug w) (h : Submits d w q s u)
    (ht : q.trusted = false) (hok : NoMfaDetour w (.authorizeSubmit q)) : ¬ RequiresMFA w₀ slug u.id := by
  intro hreq
  have hslug := hi.org s h.session
  have hreq' : RequiresMFA w s.orgSlug u.id := by rwa [requiresMFA_congr hi.users hi.orgs, hslug]
  obtain ⟨-, horg⟩ := hok s u h.session h.found hreq'
  have hmem : u ∈ w.users := (userByEmail_some h.found).1
  have hneed : mfaRequired (submitOrg w q s) u (afterPolicy q s) = true := by
    unfold mfaRequired submitOrg
    by_cases hf : q.orgFails = true
    · simp [horg hf]
    · rcases hreq' with ho | hu
      · simp [hf, ho]
      · have hkw : w.KeyedUsers := by unfold World.KeyedUsers; rw [hi.users]; exact hk
        rw [hkw.userByID hmem] at hu
        have hu : u.mfaRequired = true := hu
        simp [hu]
  rw [h.mfa hneed] at ht
  cases ht

theorem MfaHeld.base {w'} (hi : MfaHeld w₀ slug w) (hb : Base w w') {sess l}
    (hs : sess = w.session ∨ sess = none) : MfaHeld w₀ slug { w' with session := sess, log := l } := by
  refine ⟨hb.users.trans hi.users, hb.orgs.trans hi.orgs, ?_, ?_⟩ <;> intro s <;> rcases hs with rfl | rfl
  · exact hi.org s
  · intro h; cases h
  · exact hi.pending s
  · intro u h; cases h

theorem SaveCase.mfaPending {site s' l} (hk : w₀.KeyedUsers) (hi : MfaHeld w₀ slug w) (hd : UntrustedDevice w a)
    (hok : NoMfaDetour w a) (h : SaveCase d w a site s' l) {u} (hu : s'.userID = some u)
    (hreq : RequiresMFA w₀ slug u) : s'.mfaPending = true := by
  cases h with
  | @breach q s v hs hv hb =>
    cases hu
    refine (hok s v hs hv.found ?_).1 hb
    rwa [requiresMFA_congr hi.users hi.orgs, hi.org s hs]
  | mfaEnforced hs hv ht => rfl
  | requiredAction h => cases hu; exact (h.not_requiresMFA hk hi hd hok hreq).elim
  | flow h he hf =>
    have hno := h.not_requiresMFA hk hi hd hok
    cases hf <;> cases hu <;> exact (hno hreq).elim
  | @acknowledged q s hs => exact hi.pending s u hs hu hreq
  | otpSent | otpVerified | passkey => exact hd.elim

theorem MfaHeld.step (hk : w₀.KeyedUsers) (hi : MfaHeld w₀ slug w) (hd : UntrustedDevice w a)
    (hok : NoMfaDetour w a) : MfaHeld w₀ slug (loginStep d w a) := by
  have hstep := loginStep_cases d w a
  generalize loginStep d w a = w' at hstep
  cases hstep with
  | quiet hb hs | issued hb hs _ _ => exact hi.base hb hs
  | saved hb h =>
    obtain ⟨s, hs, hslug, -⟩ := h.session
    refine ⟨hb.users.trans hi.users, hb.orgs.trans hi.orgs, ?_, ?_⟩
    · intro s' hs'; cases hs'; exact hslug.trans (hi.org s hs)
    · intro s' u hs' hu; cases hs'; exact h.mfaPending hk hi hd hok hu
  | present rid status claims => exact ⟨hi.users, hi.orgs, hi.org, hi.pending⟩
  | setActive | deleteUser => exact hd.elim

theorem IssueCase.mfaAccepted {via s claims u pre} (hk : w₀.KeyedUsers) (hi : MfaHeld w₀ slug w)
    (hd : UntrustedDevice w a) (hok : NoMfaDetour w a) (h : IssueCase d w a via s claims u pre)
    (hreq : RequiresMFA w₀ slug u) : .mfaAccepted u ∈ pre := by
  cases h with
  | noEngine h | flow h => exact (h.not_requiresMFA hk hi hd hok hreq).elim
  | mfaChallenge hs hp hu => exact List.mem_cons_self ..
  | resume hs hp hu => exact absurd (hi.pending s u hs hu hreq) (by simp [hp])
  | oid4vpResume hs hp hu =>
    have hreq' : RequiresMFA w s.orgSlug u := by rwa [requiresMFA_congr hi.users hi.orgs, hi.org s hs]
    exact absurd (hi.pending s u hs hu hreq) (by simp [hok s u hs hu hreq' hp])

end

/-- In every run of the handlers on an untrusted device that avoids the detour, a code
for a user who must use MFA is issued only after that user's second factor was accepted. -/
theorem mfa_before_code {d : Deps} {w₀ w : World} {s₀ : LoginSession} {as : List LoginMove} {a : LoginMove}
    {via : Issuer} {c : AuthCode} {pre : List Event} (h₀ : Fresh w₀ s₀)
    (hrun : Trace (loginStep d) (fun w a => UntrustedDevice w a ∧ NoMfaDetour w a) w₀ as w)
    (ha : UntrustedDevice w a ∧ NoMfaDetour w a) (hi : issued d w a = some (via, c, pre))
    (hreq : RequiresMFA w₀ s₀.orgSlug c.userID) : .mfaAccepted c.userID ∈ pre := by
  have hinit : MfaHeld w₀ s₀.orgSlug w₀ := by
    refine ⟨rfl, rfl, ?_, ?_⟩
    · intro s hs; rw [h₀.session] at hs; cases hs; rfl
    · intro s u hs hu; rw [h₀.session] at hs; cases hs; rw [h₀.userID] at hu; cases hu
  have hheld : MfaHeld w₀ s₀.orgSlug w := by
    refine hrun.inv (MfaHeld w₀ s₀.orgSlug) ?_ hinit
    intro w a hw hok
    exact hw.step h₀.keyed hok.1 hok.2
  obtain ⟨s, claims, u, hcase, hc⟩ := issued_cases hi
  rw [hc.userID] at hreq ⊢
  exact hcase.mfaAccepted h₀.keyed hheld ha.1 ha.2 hreq

theorem mfa_before_code_totp : ∃ via c pre,
    issued acmeDeps (run (loginStep acmeDeps) (acmeWorld { acme with mfaRequired := true } ada) [.authorizeSubmit adaReq])
      (.mfaChallengeSubmit adaTotp) = some (via, c, pre) ∧ .mfaAccepted c.userID ∈ pre := by
  have hissued : (issued acmeDeps
      (run (loginStep acmeDeps) (acmeWorld { acme with mfaRequired := true } ada) [.authorizeSubmit adaReq])
      (.mfaChallengeSubmit adaTotp)).any (fun _ => true) = true := by decide +kernel
  obtain ⟨via, c, pre, hi, -⟩ := issued_of_any hissued
  have hsubmit (w : World) : UntrustedDevice w (.authorizeSubmit adaReq) ∧ NoMfaDetour w (.authorizeSubmit adaReq) := by
    refine ⟨rfl, fun s u _ _ _ => ⟨fun hb => ?_, nofun⟩⟩
    cases hb.2.1
  have hmfa (w : World) : UntrustedDevice w (.mfaChallengeSubmit adaTotp) ∧
      NoMfaDetour w (.mfaChallengeSubmit adaTotp) := ⟨trivial, trivial⟩
  refine ⟨via, c, pre, hi, ?_⟩
  exact mfa_before_code (acmeWorld_fresh _ _) (Trace.run_cons (hsubmit _) (Trace.run_nil _)) (hmfa _) hi (.inl rfl)

def warnedMoves : List LoginMove :=
  [.authorizeSubmit { adaReq with breachedPasswordAction := .warn, breachCount := some 3 },
    .breachWarningAcknowledge { orgSlug := "acme" }]

/-- Ada's password is in a breach list and the organisation warns: acknowledging the
warning and following the redirect issues the code, the second factor never asked. -/
theorem breach_warning_skips_mfa : ∃ w₀ s₀ via c pre,
    Fresh w₀ s₀ ∧ Trace (loginStep acmeDeps) UntrustedDevice w₀ warnedMoves (run (loginStep acmeDeps) w₀ warnedMoves) ∧
    issued acmeDeps (run (loginStep acmeDeps) w₀ warnedMoves) (.authorizeResume {}) = some (via, c, pre) ∧
    RequiresMFA w₀ s₀.orgSlug c.userID ∧ pre.any (·.isMFAAccepted) = false := by
  have hissued : (issued acmeDeps (run (loginStep acmeDeps) (acmeWorld { acme with mfaRequired := true } ada) warnedMoves)
      (.authorizeResume {})).any (fun x => x.2.2.any (·.isMFAAccepted) == false) = true := by decide +kernel
  obtain ⟨via, c, pre, hi, hp⟩ := issued_of_any hissued
  exact ⟨_, _, via, c, pre, acmeWorld_fresh _ _, Trace.run_cons rfl (Trace.run_cons trivial (Trace.run_nil _)), hi,
    .inl rfl, by simpa using hp⟩

end Clavex

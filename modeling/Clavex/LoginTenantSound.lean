import Clavex.LoginSound

/-!
# Whose code a login session can issue

`AuthorizeSubmit` looks the user up in the session's organisation. The one-time
code handlers look in the organisation of the URL, the passkey handler in none,
and nobody looks again before the code is issued.
-/

namespace Clavex

open Trace

def ActiveMember (w : World) (org u : UUID) : Prop := ∃ row ∈ w.users, row.id = u ∧ row.isActive = true ∧ row.orgID = org

/-- One-time codes are verified under the slug of the session's organisation, a passkey
belongs to one of its active users, and the bound user is not deactivated or deleted. -/
def WithinTenant (w : World) : LoginMove → Prop
  | .otpVerify _ q => ∀ s org, w.session = some s → w.orgBySlug q.orgSlug = some org → org.id = s.orgID
  | .finishPasskeyLogin q => ∀ s u, w.session = some s → q.credentialUser = some u → ActiveMember w s.orgID u
  | .setActive u active => active = true ∨ ∀ s, w.session = some s → s.userID ≠ some u
  | .deleteUser u => ∀ s, w.session = some s → s.userID ≠ some u
  | _ => True

def TenantHeld (org : UUID) (w : World) : Prop :=
  ∀ s, w.session = some s → s.orgID = org ∧ ∀ u, s.userID = some u → ActiveMember w org u

theorem OTPChannel.user_some {ch : OTPChannel} {w} {org} {addr} {u}
    (h : ch.user w org addr = some u) : u ∈ w.users ∧ u.orgID = org := by
  cases ch with
  | email => exact userByEmail_some h
  | phone =>
    have hp := List.find?_some h
    simp only [Bool.and_eq_true, beq_iff_eq] at hp
    exact ⟨List.mem_of_find?_eq_some h, hp.1⟩

section
variable {d : Deps} {w w' : World} {a : LoginMove} {org : UUID}

variable {u v : UUID} {s : LoginSession} {l : List Event}

theorem ActiveMember.of_users (h : w'.users = w.users) (hm : ActiveMember w org u) : ActiveMember w' org u := by
  unfold ActiveMember; rwa [h]

theorem SignsIn.member {q u} (h : SignsIn d w q s u) : ActiveMember w s.orgID u.id := by
  obtain ⟨hmem, horg⟩ := userByEmail_some h.found
  exact ⟨u, hmem, rfl, h.active, horg⟩

theorem ActiveMember.setActive {active} (hm : ActiveMember w org v) (h : active = true ∨ v ≠ u) :
    ActiveMember (loginStep d w (.setActive u active)) org v := by
  obtain ⟨row, hrow, hid, hact, horg⟩ := hm
  by_cases hu : row.id = u
  · have hact' : active = true := h.resolve_right fun hv => hv (hid ▸ hu)
    refine ⟨{ row with isActive := active }, ?_, hid, hact', horg⟩
    exact List.mem_map.mpr ⟨row, hrow, by simp [hu]⟩
  · exact ⟨row, List.mem_map.mpr ⟨row, hrow, by simp [hu]⟩, hid, hact, horg⟩

theorem ActiveMember.deleteUser (hm : ActiveMember w org v) (h : v ≠ u) :
    ActiveMember (loginStep d w (.deleteUser u)) org v := by
  obtain ⟨row, hrow, hid, hact, horg⟩ := hm
  refine ⟨row, List.mem_filter.mpr ⟨hrow, ?_⟩, hid, hact, horg⟩
  simpa [hid] using h

theorem SaveCase.bound {site s'} (hok : WithinTenant w a) (h : SaveCase d w a site s' l) (hu : s'.userID = some u) :
    ∃ s, w.session = some s ∧ (s.userID = some u ∨ ActiveMember w s.orgID u) := by
  cases h with
  | breach hs hv | mfaEnforced hs hv => cases hu; exact ⟨_, hs, .inr hv.member⟩
  | requiredAction h => cases hu; exact ⟨_, h.session, .inr h.member⟩
  | flow h he hf => cases hf <;> cases hu <;> exact ⟨_, h.session, .inr h.member⟩
  | acknowledged hs => exact ⟨_, hs, .inl hu⟩
  | @otpSent ch q s hs => cases ch <;> exact ⟨s, hs, .inl hu⟩
  | @otpVerified ch q s o v hs ho hv hact =>
    obtain ⟨hmem, horg⟩ := OTPChannel.user_some hv
    have hsame : v.orgID = s.orgID := horg.trans (hok s o hs ho)
    have hid : v.id = u := by cases ch <;> exact Option.some.inj hu
    exact ⟨s, hs, .inr ⟨v, hmem, hid, hact, hsame⟩⟩
  | @passkey q s v hs hc => cases hu; exact ⟨s, hs, .inr (hok s _ hs hc)⟩

theorem TenantHeld.base (hi : TenantHeld org w) (hb : Base w w') {sess} (hs : sess = w.session ∨ sess = none) :
    TenantHeld org { w' with session := sess, log := l } := by
  intro s hsess
  rcases hs with rfl | rfl
  · obtain ⟨horg, hbound⟩ := hi s hsess
    exact ⟨horg, fun u hu => (hbound u hu).of_users hb.users⟩
  · cases hsess

theorem TenantHeld.step (hi : TenantHeld org w) (hok : WithinTenant w a) : TenantHeld org (loginStep d w a) := by
  have hstep := loginStep_cases d w a
  generalize hw : loginStep d w a = w' at hstep
  cases hstep with
  | quiet hb hs | issued hb hs _ _ => exact hi.base hb hs
  | saved hb h =>
    intro s' hs'
    cases hs'
    obtain ⟨s, hs, -, horg⟩ := h.session
    refine ⟨horg.trans (hi s hs).1, fun u hu => ActiveMember.of_users hb.users ?_⟩
    obtain ⟨s, hs, hold | hnew⟩ := h.bound hok hu
    · exact (hi s hs).2 u hold
    · rwa [(hi s hs).1] at hnew
  | present rid status claims => exact hi
  | setActive u active =>
    intro s hs
    refine ⟨(hi s hs).1, fun v hv => ((hi s hs).2 v hv).setActive (hok.imp_right fun hne hvu => ?_)⟩
    exact hne s hs (hvu ▸ hv)
  | deleteUser u =>
    intro s hs
    refine ⟨(hi s hs).1, fun v hv => ((hi s hs).2 v hv).deleteUser fun hvu => ?_⟩
    exact hok s hs (hvu ▸ hv)

theorem withClaims_orgID (s fr) : (withClaims s fr).orgID = s.orgID := by
  unfold withClaims; split <;> rfl

theorem IssueCase.member {via claims pre} (hi : TenantHeld org w) (h : IssueCase d w a via s claims u pre) :
    s.orgID = org ∧ ActiveMember w org u := by
  cases h with
  | @noEngine q s u h _ =>
    have horg := (hi s h.session).1
    exact ⟨horg, horg ▸ h.member⟩
  | @flow q s u _ _ h _ _ _ =>
    have horg := (hi s h.session).1
    exact ⟨(withClaims_orgID _ _).trans horg, horg ▸ h.member⟩
  | mfaChallenge hs _ hu | resume hs _ hu | oid4vpResume hs _ hu => exact ⟨(hi s hs).1, (hi s hs).2 u hu⟩

end

/-- In every run within the tenant, a code is issued for an active user of the
organisation the session was created for. -/
theorem code_user_is_member {d : Deps} {w₀ w : World} {s₀ : LoginSession} {as : List LoginMove} {a : LoginMove}
    {via : Issuer} {c : AuthCode} {pre : List Event} (h₀ : Fresh w₀ s₀)
    (hrun : Trace (loginStep d) WithinTenant w₀ as w) (hi : issued d w a = some (via, c, pre)) :
    c.orgID = s₀.orgID ∧ ActiveMember w s₀.orgID c.userID := by
  have hinit : TenantHeld s₀.orgID w₀ := by
    intro s hs
    rw [h₀.session] at hs
    cases hs
    refine ⟨rfl, fun u hu => ?_⟩
    rw [h₀.userID] at hu
    cases hu
  have hheld : TenantHeld s₀.orgID w := by
    refine hrun.inv (TenantHeld s₀.orgID) ?_ hinit
    intro w a hw hok
    exact hw.step hok
  obtain ⟨s, claims, u, hcase, hc⟩ := issued_cases hi
  rw [hc.orgID, hc.userID]
  exact hcase.member hheld

def otpMoves (slug addr : String) : List LoginMove :=
  [.otpSend .email { orgSlug := slug, address := addr, code := some "424242" },
    .otpVerify .email { orgSlug := slug, address := addr, code := "424242" }]

theorem code_user_is_member_otp : ∃ w via c pre,
    issued acmeDeps w (.authorizeResume {}) = some (via, c, pre) ∧ c.orgID = 1 ∧ ActiveMember w 1 c.userID := by
  have hissued : (issued acmeDeps (run (loginStep acmeDeps) (acmeWorld acme ada) (otpMoves "acme" "ada@acme.eu"))
      (.authorizeResume {})).any (fun _ => true) = true := by decide +kernel
  obtain ⟨via, c, pre, hi, -⟩ := issued_of_any hissued
  have hrun : Trace (loginStep acmeDeps) WithinTenant (acmeWorld acme ada) (otpMoves "acme" "ada@acme.eu")
      (run (loginStep acmeDeps) (acmeWorld acme ada) (otpMoves "acme" "ada@acme.eu")) := by
    refine run_cons trivial (run_cons (fun s org hs ho => ?_) (run_nil _))
    cases hs
    cases ho
    rfl
  exact ⟨_, via, c, pre, hi, code_user_is_member (acmeWorld_fresh _ _) hrun hi⟩

def evil : Organization := { id := 2, name := "Evil", slug := "evil" }

def mallory : User := { id := 9, orgID := 2, email := "mallory@evil.eu" }

/-- Mallory of another organisation enters an emailed code under that organisation's
slug, with Acme's login session: Acme's client gets a code for Mallory. -/
theorem otp_crosses_tenants : ∃ w₀ s₀ w via c pre,
    Fresh w₀ s₀ ∧ Trace (loginStep acmeDeps) (fun _ _ => True) w₀ (otpMoves "evil" "mallory@evil.eu") w ∧
    issued acmeDeps w (.authorizeResume {}) = some (via, c, pre) ∧ c.orgID = s₀.orgID ∧
    ¬ ActiveMember w s₀.orgID c.userID := by
  have hissued : (issued acmeDeps (run (loginStep acmeDeps)
      { acmeWorld acme ada with users := [ada, mallory], orgs := [acme, evil] } (otpMoves "evil" "mallory@evil.eu"))
      (.authorizeResume {})).any (fun x => x.2.1.orgID == 1 && x.2.1.userID == 9) = true := by decide +kernel
  obtain ⟨via, c, pre, hi, hp⟩ := issued_of_any hissued
  simp only [Bool.and_eq_true, beq_iff_eq] at hp
  refine ⟨_, acmeSession, _, via, c, pre, ⟨rfl, rfl, rfl, rfl, rfl, ?_⟩,
    run_cons trivial (run_cons trivial (run_nil _)), hi, hp.1, ?_⟩
  · unfold World.KeyedUsers
    simp [ada, mallory]
  · have hrows : ((run (loginStep acmeDeps) { acmeWorld acme ada with users := [ada, mallory], orgs := [acme, evil] }
        (otpMoves "evil" "mallory@evil.eu")).users.all fun row => row.id != 9 || row.orgID != 1) = true := by
      decide +kernel
    rintro ⟨row, hrow, hid, -, horg⟩
    have := List.all_eq_true.mp hrows row hrow
    simp [hid, hp.2, horg, acmeSession] at this

end Clavex

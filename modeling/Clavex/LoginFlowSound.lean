import Clavex.LoginSound

/-!
# The login flow behind an issued code

`AuthorizeSubmit` runs the organisation's flow last, so every path that leaves
it before that point and comes back through another handler issues a code the
flow never decided on, and `MFAChallengeSubmit` drops the claims it collected.
-/

namespace Clavex

open List

def hold : List Event → Option (SaveSite × List Event)
  | [] => none
  | .saved .breachAcknowledged _ :: l => hold l
  | .saved site _ :: l => some (site, l)
  | _ :: l => hold l

/-- The flow ran for the code's user without denying, and the code carries its claims
(those of the presentation laid over them when a wallet was asked). -/
def CarriesFlow (via : Issuer) (c : AuthCode) (pre : List Event) : Prop :=
  ∃ fr, .flowRun c.userID fr ∈ pre ∧ fr.deny = false ∧
    match via with
    | .oid4vpResume => ∃ vpClaims, c.extraClaims = withPresentation fr.extraClaims vpClaims
    | _ => c.extraClaims = fr.extraClaims

/-- A second factor is only submitted when a flow without claims asked for it, a login
only resumed where the flow itself stopped it for a wallet, and a submission finds no
claims of an older run unless its own run returns some. -/
def FlowDecides (d : Deps) (w : World) : LoginMove → Prop
  | .authorizeSubmit q => ∀ s u eng, w.session = some s → w.userByEmail s.orgID q.email = some u →
      d.flowEngine = some eng → s.extraClaims = ∅ ∨
        0 < (eng.run q.flow (userContext q (afterPolicy q s) u)).extraClaims.len
  | .mfaChallengeSubmit _ => ∃ u fr l, hold w.log = some (.flowForceMFA, .flowRun u fr :: l) ∧ fr.extraClaims = ∅
  | .authorizeResume _ | .oid4vpResume _ => ∃ l, hold w.log = some (.flowOID4VP, l)
  | _ => True

def HeldAt (s : LoginSession) : SaveSite → List Event → Prop
  | .flowForceMFA, l => ∃ u fr l', l = .flowRun u fr :: l' ∧ fr.deny = false ∧ s.userID = some u
  | .flowOID4VP, l => ∃ u fr l', l = .flowRun u fr :: l' ∧ fr.deny = false ∧ s.userID = some u ∧
      s.extraClaims = fr.extraClaims
  | _, _ => True

def FlowHeld (w : World) : Prop := ∀ s site l, w.session = some s → hold w.log = some (site, l) → HeldAt s site l

theorem hold_suffix {log l site} (h : hold log = some (site, l)) : l <:+ log := by
  induction log with
  | nil => cases h
  | cons e log ih =>
    have hskip (h : hold log = some (site, l)) : l <:+ e :: log := (ih h).trans (suffix_cons e log)
    cases e with
    | saved site' s =>
      cases site' with
      | breachAcknowledged => exact hskip h
      | _ => cases h; exact suffix_cons _ _
    | _ => exact hskip h

theorem withClaims_extraClaims {s fr} (h : s.extraClaims = ∅ ∨ 0 < fr.extraClaims.len) :
    (withClaims s fr).extraClaims = fr.extraClaims := by
  unfold withClaims
  split
  · rfl
  rename_i hlen
  have h0 : fr.extraClaims = ∅ := GoMap.len_eq_zero.mp (by omega)
  rcases h with h | h
  · rw [h, h0]
  · exact absurd h hlen

section
variable {d : Deps} {w w' : World} {a : LoginMove}

theorem Base.hold (hb : Base w w') : hold w'.log = hold w.log := by
  rcases hb.log with h | ⟨u, fr, h⟩ | ⟨u, h⟩ <;> rw [h] <;> rfl

theorem FlowHeld.base (hi : FlowHeld w) (hb : Base w w') {sess l} (hs : sess = w.session ∨ sess = none)
    (hl : Clavex.hold l = Clavex.hold w'.log) : FlowHeld { w' with session := sess, log := l } := by
  intro s site l' hsess h
  rw [hl, hb.hold] at h
  rcases hs with rfl | rfl
  · exact hi s site l' hsess h
  · cases hsess

theorem SaveCase.heldAt {site s' log} (hm : PasswordMove a) (hok : FlowDecides d w a) (h : SaveCase d w a site s' log) :
    HeldAt s' site log := by
  cases h with
  | breach | mfaEnforced | requiredAction | acknowledged => trivial
  | @flow q s u eng site s' h he hf =>
    cases hf with
    | spid | cie | stepUp => trivial
    | forceMFA hd => exact ⟨_, _, _, rfl, hd, rfl⟩
    | challenge hd rid msg =>
      exact ⟨_, _, _, rfl, hd, rfl, withClaims_extraClaims (hok s u eng h.session h.found he)⟩
  | otpSent | otpVerified | passkey => exact hm.elim

theorem SaveCase.acknowledged_keeps {s' log} (h : SaveCase d w a .breachAcknowledged s' log) :
    ∃ s, w.session = some s ∧ ∀ site l, HeldAt s site l → HeldAt s' site l := by
  cases h with
  | @acknowledged q s hs =>
    refine ⟨s, hs, fun site l hl => ?_⟩
    cases site <;> exact hl
  | flow h he hf => cases hf

theorem hold_saved {site} (hsite : site ≠ .breachAcknowledged) (s log) :
    Clavex.hold (.saved site s :: log) = some (site, log) := by
  cases site with
  | breachAcknowledged => exact absurd rfl hsite
  | _ => rfl

theorem FlowHeld.step (hi : FlowHeld w) (hm : PasswordMove a) (hok : FlowDecides d w a) :
    FlowHeld (loginStep d w a) := by
  have hstep := loginStep_cases d w a
  generalize loginStep d w a = w' at hstep
  cases hstep with
  | quiet hb hs | issued hb hs _ _ => exact hi.base hb hs rfl
  | @saved _ w' site' s' hb h =>
    intro s site l hs hl
    cases hs
    by_cases hack : site' = .breachAcknowledged
    · subst hack
      obtain ⟨s, hs, hkeep⟩ := h.acknowledged_keeps
      exact hkeep site l (hi s site l hs (hb.hold ▸ hl))
    · have hsaved := (hold_saved hack s' w'.log).symm.trans hl
      cases hsaved
      exact h.heldAt hm hok
  | present rid status claims => exact hi
  | setActive | deleteUser => exact hm.elim

theorem IssueCase.carriesFlow {via} {s claims} {u} {pre} {c} (he : d.flowEngine ≠ none)
    (hi : FlowHeld w) (hok : FlowDecides d w a) (h : IssueCase d w a via s claims u pre) (hc : CodeFor s claims u c) :
    CarriesFlow via c pre := by
  unfold CarriesFlow
  rw [hc.userID, hc.extraClaims]
  cases h with
  | noEngine _ hn => exact (he hn).elim
  | @flow q s u eng fr h he hfr hp =>
    refine ⟨fr, mem_cons_self .., hp.deny, withClaims_extraClaims ?_⟩
    rw [hfr]
    exact hok s u eng h.session h.found he
  | mfaChallenge hs hp hu =>
    obtain ⟨v, fr, l, hl, hempty⟩ := hok
    obtain ⟨v', fr', l', heq, hd, hv⟩ := hi _ _ _ hs hl
    cases heq
    rw [hu] at hv
    cases hv
    exact ⟨fr, mem_cons_of_mem _ ((hold_suffix hl).subset (mem_cons_self ..)), hd, hempty.symm⟩
  | resume hs hp hu =>
    obtain ⟨l, hl⟩ := hok
    obtain ⟨v, fr, l', rfl, hd, hv, hclaims⟩ := hi _ _ _ hs hl
    rw [hu] at hv
    cases hv
    exact ⟨fr, (hold_suffix hl).subset (mem_cons_self ..), hd, hclaims⟩
  | @oid4vpResume q s u vp hs hp hu hvp hv =>
    obtain ⟨l, hl⟩ := hok
    obtain ⟨v, fr, l', rfl, hd, hv, hclaims⟩ := hi _ _ _ hs hl
    rw [hu] at hv
    cases hv
    exact ⟨fr, (hold_suffix hl).subset (mem_cons_self ..), hd, vp.vpClaims, by rw [hclaims]⟩

end

/-- In every run in which the flow has its say before a login is resumed, an issued
code is one the flow let through, with the claims it returned. -/
theorem code_carries_flow {d : Deps} {w₀ w : World} {s₀ : LoginSession} {as : List LoginMove} {a : LoginMove}
    {via : Issuer} {c : AuthCode} {pre : List Event} (he : d.flowEngine ≠ none) (h₀ : Fresh w₀ s₀)
    (hrun : Trace (loginStep d) (fun w a => PasswordMove a ∧ FlowDecides d w a) w₀ as w)
    (ha : PasswordMove a ∧ FlowDecides d w a) (hi : issued d w a = some (via, c, pre)) : CarriesFlow via c pre := by
  have hinit : FlowHeld w₀ := by
    intro s site l _ h
    rw [h₀.log] at h
    cases h
  have hheld : FlowHeld w := by
    refine hrun.inv FlowHeld ?_ hinit
    intro w a hw hok
    exact hw.step hok.1 hok.2
  obtain ⟨s, claims, u, hcase, hc⟩ := issued_cases hi
  exact hcase.carriesFlow he hheld ha.2 hc

theorem code_carries_flow_claim : ∃ q via c pre,
    issued acmeDeps (acmeWorld acme ada) (.authorizeSubmit q) = some (via, c, pre) ∧ 0 < c.extraClaims.len ∧
      CarriesFlow via c pre := by
  have hissued : (issued acmeDeps (acmeWorld acme ada) (.authorizeSubmit { adaReq with
      flow := some [({}, ⟨"set_claim", some (.obj [("claim", .str "tier"), ("value", .str "gold")]), true⟩)] })).any
        (fun x => decide (0 < x.2.1.extraClaims.len)) = true := by decide +kernel
  obtain ⟨via, c, pre, hi, hp⟩ := issued_of_any hissued
  have hok (q : SubmitReq) : PasswordMove (.authorizeSubmit q) ∧
      FlowDecides acmeDeps (acmeWorld acme ada) (.authorizeSubmit q) := by
    refine ⟨trivial, fun s u eng hs _ _ => ?_⟩
    cases hs
    exact Or.inl rfl
  exact ⟨_, via, c, pre, hi, by simpa using hp,
    code_carries_flow (fun h => by cases h) (acmeWorld_fresh _ _) (.nil _) (hok _) hi⟩

def deniedReq : SubmitReq :=
  { adaReq with flow := some [({}, ⟨"check_verified", some (.obj [("min_level", .str "high")]), true⟩)] }

/-- The organisation requires MFA: the code is issued by the second factor and the flow,
which would have denied Ada, is never run. -/
theorem mfa_code_without_flow : ∃ w₀ s₀ w via c pre,
    Fresh w₀ s₀ ∧ Trace (loginStep acmeDeps) (fun _ a => PasswordMove a) w₀ [.authorizeSubmit deniedReq] w ∧
    issued acmeDeps w (.mfaChallengeSubmit adaTotp) = some (via, c, pre) ∧
    (∀ eng, acmeDeps.flowEngine = some eng →
      (eng.run deniedReq.flow (userContext deniedReq (afterPolicy deniedReq s₀) ada)).deny = true) ∧
    ¬ CarriesFlow via c pre := by
  have hissued : (issued acmeDeps
      (run (loginStep acmeDeps) (acmeWorld { acme with mfaRequired := true } ada) [.authorizeSubmit deniedReq])
      (.mfaChallengeSubmit adaTotp)).any (fun x => x.2.2.all (!·.isFlowRun)) = true := by decide +kernel
  obtain ⟨via, c, pre, hi, hp⟩ := issued_of_any hissued
  refine ⟨_, _, _, via, c, pre, acmeWorld_fresh _ _, Trace.run_cons trivial (Trace.run_nil _), hi, ?_, ?_⟩
  · intro eng he; cases he; decide +kernel
  · rintro ⟨fr, hmem, -⟩
    simpa [Event.isFlowRun] using all_eq_true.mp hp _ hmem

end Clavex

import Clavex.FlowEngine

/-!
# What a flow run keeps of its steps' demands

The caller of `run` branches on six fields of the result. `keepsDemands_iff`
says exactly when every such field set by an executed step reaches the caller:
a denial does, `forceMFA` and a wallet challenge do, but the in-session
upgrades of `check_verified` and the re-authentication of `check_session_age`
are dropped by the loop unless a step denies.
-/

namespace Clavex

open List FlowResult

inductive Demand where
  | deny
  | forceMFA
  | upgradeSPIDLevel
  | upgradeCIE
  | forceReauth
  | oid4vpChallenge

def FlowResult.demands (r : FlowResult) : Demand → Bool
  | .deny => r.deny
  | .forceMFA => r.forceMFA
  | .upgradeSPIDLevel => decide (0 < r.upgradeSPIDLevel)
  | .upgradeCIE => r.upgradeCIE
  | .forceReauth => r.forceReauth
  | .oid4vpChallenge => r.oid4vpChallenge.isSome

def FlowResult.interrupts (r : FlowResult) : Bool := r.deny || r.oid4vpChallenge.isSome

namespace Engine

def executed (eng : Engine) (uc : UserContext) : List (StepEnv × LoginFlowStep) → List (StepEnv × LoginFlowStep)
  | [] => []
  | p :: rest =>
    if !p.2.isActive then executed eng uc rest
    else if (eng.runStep p.1 p.2 uc).interrupts then [p]
    else p :: executed eng uc rest

variable (eng : Engine)

def KeepsDemands (flow : Option (List (StepEnv × LoginFlowStep))) (uc : UserContext) : Prop :=
  ∀ p ∈ executed eng uc (flow.getD []), ∀ d, (eng.runStep p.1 p.2 uc).demands d = true →
    (eng.run flow uc).deny = true ∨ (eng.run flow uc).demands d = true

section
variable (eng : Engine) (uc : UserContext)

variable {p : StepEnv × LoginFlowStep}

variable (rest : List (StepEnv × LoginFlowStep))

theorem executed_cons_quiet
    (ha : p.2.isActive = true) (hd : (eng.runStep p.1 p.2 uc).deny = false)
    (hc : (eng.runStep p.1 p.2 uc).oid4vpChallenge = none) :
    executed eng uc (p :: rest) = p :: executed eng uc rest := by
  simp [executed, ha, interrupts, hd, hc]

theorem executed_cons_stop
    (ha : p.2.isActive = true) (hi : (eng.runStep p.1 p.2 uc).interrupts = true) :
    executed eng uc (p :: rest) = [p] := by
  simp [executed, ha, hi]

theorem executed_cons_inactive
    (ha : p.2.isActive = false) : executed eng uc (p :: rest) = executed eng uc rest := by
  simp [executed, ha]

theorem runFrom_deny (acc) (hacc : acc.deny = false) (steps) :
    (eng.runFrom uc acc steps).deny = true ↔
      ∃ p ∈ executed eng uc steps, (eng.runStep p.1 p.2 uc).deny = true := by
  induction steps generalizing acc with
  | nil => simp [runFrom, executed, hacc]
  | cons p rest ih =>
    by_cases ha : p.2.isActive = true
    · by_cases hd : (eng.runStep p.1 p.2 uc).deny = true
      · rw [executed_cons_stop eng uc rest ha (by simp [interrupts, hd])]
        simp [runFrom, ha, hd]
      · have hd' : (eng.runStep p.1 p.2 uc).deny = false := by simpa using hd
        cases hc : (eng.runStep p.1 p.2 uc).oid4vpChallenge with
        | none =>
          rw [executed_cons_quiet eng uc rest ha hd' hc]
          simp only [runFrom, ha, hd', hc, Bool.not_true, Bool.false_eq_true, ite_false]
          rw [ih]
          · simp [hd']
          · split <;> exact hacc
        | some ch =>
          rw [executed_cons_stop eng uc rest ha (by simp [interrupts, hc])]
          simp only [runFrom, ha, hd', hc, Bool.not_true, Bool.false_eq_true, ite_false]
          split <;> simp [hacc, hd']
    · rw [executed_cons_inactive eng uc rest (by simpa using ha)]
      simp only [runFrom, ha, Bool.not_false, ite_true]
      exact ih acc hacc

theorem runFrom_fields (acc steps) (hn : ∀ p ∈ executed eng uc steps, (eng.runStep p.1 p.2 uc).deny = false) :
    ((acc.forceMFA = true ∨ ∃ p ∈ executed eng uc steps, (eng.runStep p.1 p.2 uc).forceMFA = true) →
      (eng.runFrom uc acc steps).forceMFA = true) ∧
    (eng.runFrom uc acc steps).upgradeSPIDLevel = acc.upgradeSPIDLevel ∧
    (eng.runFrom uc acc steps).upgradeCIE = acc.upgradeCIE ∧
    (eng.runFrom uc acc steps).forceReauth = acc.forceReauth := by
  induction steps generalizing acc with
  | nil => simp [runFrom, executed]
  | cons p rest ih =>
    by_cases ha : p.2.isActive = true
    · have hd : (eng.runStep p.1 p.2 uc).deny = false := by
        refine hn p ?_
        simp only [executed, ha, Bool.not_true, Bool.false_eq_true, ite_false]
        split <;> simp
      cases hc : (eng.runStep p.1 p.2 uc).oid4vpChallenge with
      | none =>
        rw [executed_cons_quiet eng uc rest ha hd hc] at hn ⊢
        simp only [runFrom, ha, hd, hc, Bool.not_true, Bool.false_eq_true, ite_false]
        obtain ⟨hm, h1, h2, h3⟩ := ih
          { (if (eng.runStep p.1 p.2 uc).forceMFA then { acc with forceMFA := true } else acc) with
            extraClaims := (if (eng.runStep p.1 p.2 uc).forceMFA then { acc with forceMFA := true } else acc).extraClaims.assignAll
              (eng.runStep p.1 p.2 uc).extraClaims }
          (fun q hq => hn q (mem_cons_of_mem _ hq))
        refine ⟨?_, h1.trans ?_, h2.trans ?_, h3.trans ?_⟩
        · intro h
          apply hm
          rcases h with h | ⟨q, hq, hqm⟩
          · left; split <;> simp [h]
          · rcases mem_cons.mp hq with rfl | hq
            · left; simp [hqm]
            · exact .inr ⟨q, hq, hqm⟩
        all_goals split <;> rfl
      | some ch =>
        rw [executed_cons_stop eng uc rest ha (by simp [interrupts, hc])]
        simp only [runFrom, ha, hd, hc, Bool.not_true, Bool.false_eq_true, ite_false]
        split
        · simp
        rename_i hm
        refine ⟨?_, rfl, rfl, rfl⟩
        rintro (h | ⟨q, hq, hqm⟩)
        · exact h
        · rw [mem_singleton] at hq; subst hq; exact absurd hqm hm
    · rw [executed_cons_inactive eng uc rest (by simpa using ha)] at hn ⊢
      simp only [runFrom, ha, Bool.not_false, ite_true]
      exact ih acc hn

theorem runFrom_challenge (acc steps) (hn : ∀ p ∈ executed eng uc steps, (eng.runStep p.1 p.2 uc).deny = false)
    (hp : p ∈ executed eng uc steps) (hc : (eng.runStep p.1 p.2 uc).oid4vpChallenge.isSome = true) :
    (eng.runFrom uc acc steps).oid4vpChallenge = (eng.runStep p.1 p.2 uc).oid4vpChallenge := by
  induction steps generalizing acc with
  | nil => cases hp
  | cons q rest ih =>
    by_cases ha : q.2.isActive = true
    · have hd : (eng.runStep q.1 q.2 uc).deny = false := by
        refine hn q ?_
        simp only [executed, ha, Bool.not_true, Bool.false_eq_true, ite_false]
        split <;> simp
      cases hq : (eng.runStep q.1 q.2 uc).oid4vpChallenge with
      | none =>
        rw [executed_cons_quiet eng uc rest ha hd hq] at hn hp
        simp only [runFrom, ha, hd, hq, Bool.not_true, Bool.false_eq_true, ite_false]
        rcases mem_cons.mp hp with rfl | hp
        · rw [hq] at hc; cases hc
        · exact ih _ (fun r hr => hn r (mem_cons_of_mem _ hr)) hp
      | some ch =>
        rw [executed_cons_stop eng uc rest ha (by simp [interrupts, hq]), mem_singleton] at hp
        subst hp
        simp [runFrom, ha, hd, hq]
    · rw [executed_cons_inactive eng uc rest (by simpa using ha)] at hn hp
      simp only [runFrom, ha, Bool.not_false, ite_true]
      exact ih acc hn hp

end

/-! ## Which steps set the fields the loop drops -/

def Quiet (r : FlowResult) : Prop := r.upgradeSPIDLevel = 0 ∧ r.upgradeCIE = false ∧ r.forceReauth = false

def asksUpgrade (step : LoginFlowStep) (uc : UserContext) : Bool :=
  let (cfg, err) := CheckVerifiedCfg.decode step.config
  step.stepType == "check_verified" && !err && cfg.minLevel != "" && assuranceLevelValue cfg.minLevel != 0 &&
    decide (currentAssurance uc.user < assuranceLevelValue cfg.minLevel) &&
    (cfg.upgrade == "spid" || cfg.upgrade == "cie")

def asksReauth (env : StepEnv) (step : LoginFlowStep) (uc : UserContext) : Bool :=
  let (cfg, err) := CheckSessionAgeCfg.decode step.config
  step.stepType == "check_session_age" && !err && decide (0 < cfg.maxAgeSeconds) && uc.authTime != 0 &&
    decide (cfg.maxAgeSeconds < env.now - uc.authTime) && cfg.action != "deny"

theorem assuranceLevelValue_nonneg (level) : 0 ≤ assuranceLevelValue level := by
  unfold assuranceLevelValue; split <;> decide

theorem quiet_applyTimeoutAction (a) : Quiet (applyTimeoutAction a) := by
  unfold applyTimeoutAction; split <;> exact ⟨rfl, rfl, rfl⟩

theorem quiet_enrichError (e m) : Quiet (enrichError e m) := by
  unfold enrichError; split <;> exact ⟨rfl, rfl, rfl⟩

theorem quiet_stepAIDecision (env step) : Quiet (stepAIDecision eng env step) := by
  unfold stepAIDecision
  split
  · exact ⟨rfl, rfl, rfl⟩
  · dsimp only
    split
    · exact ⟨rfl, rfl, rfl⟩
    · split
      · exact ⟨rfl, rfl, rfl⟩
      · exact ⟨rfl, rfl, rfl⟩
      · exact quiet_applyTimeoutAction _
      · split
        · exact quiet_applyTimeoutAction _
        · split <;> exact ⟨rfl, rfl, rfl⟩

theorem quiet_stepEnrichClaims (env step) : Quiet (stepEnrichClaims env step) := by
  unfold stepEnrichClaims
  dsimp only
  split
  · exact ⟨rfl, rfl, rfl⟩
  · split
    · exact quiet_enrichError _ _
    · exact quiet_enrichError _ _
    · split
      · exact quiet_enrichError _ _
      · split
        · exact ⟨rfl, rfl, rfl⟩
        · exact ⟨rfl, rfl, rfl⟩
        · exact quiet_enrichError _ _

theorem quiet_stepCheckDevice (env step) : Quiet (stepCheckDevice eng env step) := by
  have refusal : ∀ (c : Prop) [Decidable c] (a b : FlowResult), Quiet a → Quiet b → Quiet (if c then a else b) := by
    intro c _ a b ha hb; split <;> assumption
  unfold stepCheckDevice
  split
  · exact ⟨rfl, rfl, rfl⟩
  · dsimp only
    split
    · exact ⟨rfl, rfl, rfl⟩
    · split
      · exact ⟨rfl, rfl, rfl⟩
      · have hr := refusal ((CheckDeviceCfg.decode step.config).1.action = "require_mfa") { forceMFA := true }
          { deny := true
            denyReason := orDefault (CheckDeviceCfg.decode step.config).1.message
              "Access denied: device posture check failed." } ⟨rfl, rfl, rfl⟩ ⟨rfl, rfl, rfl⟩
        split
        · exact hr
        · exact refusal _ _ _ hr ⟨rfl, rfl, rfl⟩

theorem quiet_runStep (env step uc) (hv : step.stepType ≠ "check_verified") (ha : step.stepType ≠ "check_session_age") :
    Quiet (eng.runStep env step uc) := by
  unfold runStep
  split
  · unfold stepCheckAttribute; dsimp only
    split
    · exact ⟨rfl, rfl, rfl⟩
    · split
      · split <;> exact ⟨rfl, rfl, rfl⟩
      · split <;> exact ⟨rfl, rfl, rfl⟩
      · exact ⟨rfl, rfl, rfl⟩
  · unfold stepRequireMFA
    split
    · exact ⟨rfl, rfl, rfl⟩
    · split <;> exact ⟨rfl, rfl, rfl⟩
  · unfold stepBlockIfNoMFA
    split
    · exact ⟨rfl, rfl, rfl⟩
    · split <;> exact ⟨rfl, rfl, rfl⟩
  · exact quiet_stepEnrichClaims env step
  · unfold stepSetClaim; dsimp only
    split <;> exact ⟨rfl, rfl, rfl⟩
  · exact ⟨rfl, rfl, rfl⟩
  · exact ⟨rfl, rfl, rfl⟩
  · unfold stepCheckIPRisk; dsimp only
    split
    · exact ⟨rfl, rfl, rfl⟩
    · split
      · exact ⟨rfl, rfl, rfl⟩
      · split <;> exact ⟨rfl, rfl, rfl⟩
  · unfold stepRequireEmailVerified
    split <;> exact ⟨rfl, rfl, rfl⟩
  · unfold stepCheckBreach; dsimp only
    split
    · exact ⟨rfl, rfl, rfl⟩
    · split <;> exact ⟨rfl, rfl, rfl⟩
  · rename_i h; exact absurd h hv
  · exact quiet_stepCheckDevice eng env step
  · unfold stepRunAction
    split
    · exact ⟨rfl, rfl, rfl⟩
    · split <;> exact ⟨rfl, rfl, rfl⟩
  · exact quiet_stepAIDecision eng env step
  · rename_i h; exact absurd h ha
  · unfold stepOID4VPChallenge; dsimp only
    split
    · exact ⟨rfl, rfl, rfl⟩
    · split <;> exact ⟨rfl, rfl, rfl⟩
  · exact ⟨rfl, rfl, rfl⟩

theorem checkVerified_quiet_iff (step uc) (hs : step.stepType = "check_verified") :
    Quiet (stepCheckVerified step uc) ↔ asksUpgrade step uc = false := by
  unfold stepCheckVerified asksUpgrade
  dsimp only
  split
  · rename_i h
    rw [Bool.or_eq_true, beq_iff_eq] at h
    rcases h with h | h <;> simp [h, Quiet]
  · rename_i h
    rw [Bool.or_eq_true, beq_iff_eq, not_or] at h
    split
    · rename_i h0; simp [h0, Quiet]
    · rename_i h0
      split
      · rename_i hlt
        by_cases h1 : (CheckVerifiedCfg.decode step.config).1.upgrade = "spid"
        · simp [h1, h0, h, hlt, hs, Quiet]
        · by_cases h2 : (CheckVerifiedCfg.decode step.config).1.upgrade = "cie"
          · simp [h2, h0, h, hlt, hs, Quiet]
          · simp [h1, h2, Quiet]
      · rename_i hlt; simp [hlt, Quiet]

theorem checkSessionAge_quiet_iff (env step uc) (hs : step.stepType = "check_session_age") :
    Quiet (stepCheckSessionAge env step uc) ↔ asksReauth env step uc = false := by
  unfold stepCheckSessionAge asksReauth
  dsimp only
  split
  · rename_i h
    rw [Bool.or_eq_true, decide_eq_true_eq] at h
    rcases h with h | h
    · simp [h, Quiet]
    · simp [show ¬ 0 < (CheckSessionAgeCfg.decode step.config).1.maxAgeSeconds by omega, Quiet]
  · rename_i h
    rw [Bool.or_eq_true, decide_eq_true_eq, not_or, Int.not_le] at h
    split
    · rename_i h0; simp [h0, Quiet]
    · rename_i h0
      split
      · rename_i hle
        have := Int.not_lt.mpr hle
        simp [this, Quiet]
      · rename_i hlt
        have := Int.not_le.mp hlt
        split
        · rename_i hd; simp [hd, Quiet]
        · rename_i hd; simp [hd, h, h0, hs, this, Quiet]

theorem runStep_quiet_iff (env step uc) :
    Quiet (eng.runStep env step uc) ↔ asksUpgrade step uc = false ∧ asksReauth env step uc = false := by
  by_cases hv : step.stepType = "check_verified"
  · have hr : asksReauth env step uc = false := by simp [asksReauth, hv]
    rw [← checkVerified_quiet_iff step uc hv]
    simp [runStep, hv, hr]
  · have hu : asksUpgrade step uc = false := by simp [asksUpgrade, hv]
    by_cases ha : step.stepType = "check_session_age"
    · rw [← checkSessionAge_quiet_iff env step uc ha]
      simp [runStep, ha, hu]
    · have hr : asksReauth env step uc = false := by simp [asksReauth, ha]
      simp only [hu, hr, and_self, iff_true]
      exact quiet_runStep eng env step uc hv ha

theorem runStep_spidLevel_nonneg (env step uc) : 0 ≤ (eng.runStep env step uc).upgradeSPIDLevel := by
  by_cases hv : step.stepType = "check_verified"
  · simp only [runStep, hv]
    unfold stepCheckVerified
    dsimp only
    split
    · exact Int.le_refl _
    split
    · exact Int.le_refl _
    split
    · split
      · exact assuranceLevelValue_nonneg _
      · split <;> exact Int.le_refl _
    · exact Int.le_refl _
  · by_cases ha : step.stepType = "check_session_age"
    · simp only [runStep, ha]
      unfold stepCheckSessionAge
      repeat' split
      all_goals exact Int.le_refl _
    · rw [(quiet_runStep eng env step uc hv ha).1]

/-! ## The result of a run -/

theorem run_eq (flow uc) : eng.run flow uc = eng.runFrom uc {} (flow.getD []) := by
  cases flow <;> rfl

/-- A run loses no demand of an executed step if and only if an executed step
denies, or none of them asks for an in-session upgrade or a new login. -/
theorem keepsDemands_iff (eng : Engine) (flow : Option (List (StepEnv × LoginFlowStep))) (uc : UserContext) :
    KeepsDemands eng flow uc ↔
      (∃ p ∈ executed eng uc (flow.getD []), (eng.runStep p.1 p.2 uc).deny = true) ∨
      ∀ p ∈ executed eng uc (flow.getD []), asksUpgrade p.2 uc = false ∧ asksReauth p.1 p.2 uc = false := by
  unfold KeepsDemands
  rw [run_eq]
  have hdeny := runFrom_deny eng uc {} rfl (flow.getD [])
  by_cases hd : ∃ p ∈ executed eng uc (flow.getD []), (eng.runStep p.1 p.2 uc).deny = true
  · simp [hdeny.mpr hd, hd]
  · have hn : ∀ p ∈ executed eng uc (flow.getD []), (eng.runStep p.1 p.2 uc).deny = false := by
      intro p hp
      rw [← Bool.not_eq_true]
      exact fun h => hd ⟨p, hp, h⟩
    have hrd : (eng.runFrom uc {} (flow.getD [])).deny ≠ true := fun h => hd (hdeny.mp h)
    obtain ⟨hm, hs, hc, hr⟩ := runFrom_fields eng uc {} (flow.getD []) hn
    simp only [hd, hrd, Bool.false_eq_true, false_or]
    constructor
    · -- a field the loop drops cannot be set in the result, so no executed step sets one
      intro h p hp
      rw [← runStep_quiet_iff eng]
      refine ⟨?_, ?_, ?_⟩
      · by_contra hne
        have hpos := lt_of_le_of_ne (runStep_spidLevel_nonneg eng p.1 p.2 uc) (Ne.symm hne)
        have := h p hp .upgradeSPIDLevel (by simpa [demands] using hpos)
        simp [demands, hs] at this
      · rw [← Bool.not_eq_true]
        intro hset
        have := h p hp .upgradeCIE hset
        simp [demands, hc] at this
      · rw [← Bool.not_eq_true]
        intro hset
        have := h p hp .forceReauth hset
        simp [demands, hr] at this
    · intro h p hp d hdem
      obtain ⟨q1, q2, q3⟩ := (runStep_quiet_iff eng p.1 p.2 uc).mpr (h p hp)
      cases d with
      | deny => rw [demands, hn p hp] at hdem; cases hdem
      | forceMFA => exact hm (.inr ⟨p, hp, hdem⟩)
      | upgradeSPIDLevel => simp [demands, q1] at hdem
      | upgradeCIE => simp [demands, q2] at hdem
      | forceReauth => simp [demands, q3] at hdem
      | oid4vpChallenge =>
        simp only [demands] at hdem ⊢
        rw [runFrom_challenge eng uc {} _ hn hp hdem]
        exact hdem

/-- The flow `[check_verified (upgrade: spid)]` for a user without an assurance
level: the step asks for SPID level 3, the run neither denies nor passes it on. -/
theorem spid_upgrade_lost :
    ¬ KeepsDemands ⟨fun _ => "", fun _ => none⟩
      (some [({}, ⟨"check_verified", some (.obj [("min_level", .str "high"), ("upgrade", .str "spid")]), true⟩)])
      { user := { id := 7, orgID := 1, email := "ada@acme.eu" }, orgSlug := "acme", clientID := "portal",
        ipAddress := "192.0.2.7" } := by
  intro h
  have := h _ (mem_cons_self ..) .upgradeSPIDLevel (by decide)
  revert this
  decide

/-! ## The claims of actions -/

section
variable (data : GoMap Json) (execs : List ActionExecution)

/-- What the actions return, later ones overriding earlier ones. -/
def mergedClaims (claims : GoMap Json) : GoMap Json :=
  (execs.filterMap (answerOf eng data)).foldl (fun claims r => claims.assignAll r.claims) claims

variable {execs} (hcont : ∀ r ∈ execs.filterMap (answerOf eng data), r.action ≠ "deny")
include hcont

theorem runSync_continue (claims) : runSync eng data claims execs = (false, "", mergedClaims eng data execs claims) := by
  induction execs generalizing claims with
  | nil => rfl
  | cons ex execs ih =>
    unfold runSync mergedClaims
    cases hans : answerOf eng data ex with
    | none =>
      simp only [filterMap_cons, hans] at hcont ⊢
      exact ih hcont claims
    | some resp =>
      simp only [filterMap_cons, hans, forall_mem_cons] at hcont ⊢
      rw [if_neg hcont.1]
      exact ih hcont.2 _

variable {step : LoginFlowStep} (hstep : step.stepType = "run_action") (env : StepEnv) (uc : UserContext)
include hstep

theorem runStep_acted : eng.runStep (env.acted eng data execs) step uc = {} := by
  simp [runStep, hstep, stepRunAction, StepEnv.acted, runSync_continue eng data hcont]

/-- The claims of actions that continue reach neither the result of the step nor that of the run. -/
theorem action_claims_kept_iff :
    (runSync eng data ∅ execs).2.2 = mergedClaims eng data execs ∅ ∧
    ((∀ k v, (mergedClaims eng data execs ∅).lookup k = some v →
      (eng.runStep (env.acted eng data execs) step uc).extraClaims.lookup k = some v) ↔ mergedClaims eng data execs ∅ = ∅) ∧
    ∀ before rest, eng.run (some (before ++ (env.acted eng data execs, step) :: rest)) uc =
      eng.run (some (before ++ rest)) uc := by
  have hrun := runStep_acted eng data hcont hstep env uc
  refine ⟨by rw [runSync_continue eng data hcont], ?_, fun before rest => ?_⟩
  · rw [hrun]
    constructor
    · intro h
      refine Finmap.ext_lookup fun k => ?_
      rw [Finmap.lookup_empty]
      by_contra hne
      obtain ⟨v, hv⟩ := Option.ne_none_iff_exists'.mp hne
      cases h k v hv
    · intro h k v hv
      rwa [h] at hv
  · have hfrom : ∀ acc, eng.runFrom uc acc (before ++ (env.acted eng data execs, step) :: rest) =
        eng.runFrom uc acc (before ++ rest) := by
      induction before with
      | nil =>
        intro acc
        simp [runFrom, hrun, GoMap.assignAll]
      | cons p before ih =>
        intro acc
        simp only [cons_append, runFrom, ih]
    exact hfrom {}

end

def plainEngine : Engine := ⟨fun _ => "", fun _ => none⟩

def returning (claims : GoMap Json) : List ActionExecution := [{ response := some { action := "continue", claims := claims } }]

def actionStep (claims : GoMap Json) : StepEnv × LoginFlowStep :=
  (StepEnv.acted {} plainEngine ∅ (returning claims), ⟨"run_action", none, true⟩)

def portalLogin : UserContext :=
  { user := { id := 7, orgID := 1, email := "ada@acme.eu" }, orgSlug := "acme", clientID := "portal", ipAddress := "192.0.2.7" }

theorem action_claims_kept_iff_role :
    plainEngine.run (some [actionStep (Finmap.singleton "role" (.str "admin"))]) portalLogin =
      plainEngine.run (some []) portalLogin :=
  (action_claims_kept_iff plainEngine ∅ (by decide) rfl {} portalLogin).2.2 [] []

theorem action_claims_lost :
    let claims := Finmap.singleton "role" (Json.str "admin")
    (mergedClaims plainEngine ∅ (returning claims) ∅).lookup "role" = some (.str "admin") ∧
      (plainEngine.run (some [actionStep claims]) portalLogin).extraClaims.lookup "role" = none := by
  decide

end Engine

end Clavex

import Clavex.Models

/-!
# The login flow engine

`Engine.run` executes the active steps of an organisation's login flow in order
and folds their results into one `FlowResult`. What the outside world answers
while a step runs (database, HTTP endpoints, clock) is a `StepEnv` paired with
the step, so that two runs of one step may see different answers.
-/

namespace Clavex

structure OID4VPChallengeSpec where
  (dcqlQuery presentationDefinition : Option (GoMap Json))
  message : String

structure FlowResult where
  deny : Bool := false
  denyReason : String := ""
  forceMFA : Bool := false
  extraClaims : GoMap Json := ∅
  stepUpURL : String := ""
  upgradeSPIDLevel : Int := 0
  (upgradeCIE forceReauth : Bool := false)
  oid4vpChallenge : Option OID4VPChallengeSpec := none

structure UserContext where
  user : User
  (orgSlug clientID ipAddress : String)
  (riskScore authTime : Int := 0)

/-! ## What a step asks the outside world -/

/-- The outcome of the HTTP call of `enrich_claims`; `body` is the response
parsed as JSON, `none` when it is not JSON. -/
inductive HttpReply where
  | buildFailed
  | doFailed
  | response (status : Int) (body : Option Json)

inductive AIReply where
  | notWired
  | noKey
  | apiError
  | text (raw : String)

/-- `mfaCount = none` is a failed query. `devices` and `action` are `none` when the
component is not attached to the engine; `devices = some none` is a failed query. -/
structure StepEnv where
  now : Int := 0
  mfaCount : Option Int := none
  http : HttpReply := .doFailed
  devices : Option (Option (List (GoMap Json))) := none
  action : Option (Bool × String) := none
  ai : AIReply := .notWired

/-- Library functions the steps call: `fmt.Sprintf("%v", ·)` on a decoded value,
and parsing a text as JSON once surrounding space is trimmed. -/
structure Engine where
  sprint : Json → String
  parse : String → Option Json

/-! ## Helpers -/

def metaString (u : User) (key : String) : Option String := (u.metadata.lookup key).bind Json.asString

def resolveUserField (u : User) (field : String) : String :=
  match field with
  | "email" => u.email
  | "first_name" => u.firstName.getD ""
  | "last_name" => u.lastName.getD ""
  | _ => (metaString u field).getD ""

def evalOp (val op expected : String) : Bool :=
  match op with
  | "eq" => val == expected
  | "neq" => val != expected
  | "contains" => decide (expected.toList <:+: val.toList)
  | "starts_with" => expected.toList.isPrefixOf val.toList
  | "ends_with" => expected.toList.isSuffixOf val.toList
  | "exists" => val != ""
  | "not_exists" => val == ""
  | _ => false

def assuranceLevelValue (level : String) : Int :=
  match toLower level with
  | "low" => 1
  | "medium" | "substantial" => 2
  | "high" => 3
  | _ => 0

def orDefault (msg default : String) : String := if msg = "" then default else msg

/-! ## Step implementations -/

structure CheckAttributeCfg where
  (field op value action : String := "")

def CheckAttributeCfg.decode : Option Json → CheckAttributeCfg × Bool :=
  unmarshal {} fun ms =>
    let f := strField "field" ms
    let o := strField "op" ms
    let v := strField "value" ms
    let a := strField "action" ms
    (⟨f.1, o.1, v.1, a.1⟩, f.2 || o.2 || v.2 || a.2)

variable (step : LoginFlowStep)

def stepCheckAttribute (uc : UserContext) : FlowResult :=
  let (cfg, err) := CheckAttributeCfg.decode step.config
  if err || cfg.field == "" then {}
  else
    let attrVal := resolveUserField uc.user cfg.field
    let matched := evalOp attrVal cfg.op cfg.value
    match cfg.action with
    | "deny" => if matched then { deny := true, denyReason := "Access denied by attribute check." } else {}
    | "allow_only" => if !matched then { deny := true, denyReason := "Access not permitted for your profile." } else {}
    | _ => {}

variable (env : StepEnv)

def stepRequireMFA : FlowResult :=
  match env.mfaCount with
  | none => {}
  | some count =>
    if count = 0 then
      { deny := true
        denyReason := "Multi-factor authentication is required but no MFA method is enrolled. Contact your administrator." }
    else { forceMFA := true }

def stepBlockIfNoMFA (step : LoginFlowStep) : FlowResult :=
  match env.mfaCount with
  | none => {}
  | some count =>
    if count = 0 then
      -- the decoding error is ignored here
      let msg := (unmarshal "" (strField "message") step.config).1
      { deny := true
        denyReason := orDefault msg "Login requires multi-factor authentication. Please enrol an MFA method." }
    else {}

structure ClaimMapping where
  (source target : String := "")

structure EnrichClaimsCfg where
  url : String := ""
  claimMappings : List ClaimMapping := []
  onError : String := ""

def decClaimMapping : Json → ClaimMapping × Bool := fun j =>
  unmarshal {} (fun ms =>
    let s := strField "source" ms
    let t := strField "target" ms
    (⟨s.1, t.1⟩, s.2 || t.2)) (some j)

def decClaimMappings (ms : List (String × Json)) : List ClaimMapping × Bool :=
  ms.foldl (fun acc kv =>
    if foldName kv.1 = foldName "claim_mappings" then
      match kv.2 with
      | .null => ([], acc.2)
      | .arr js => (js.map fun j => (decClaimMapping j).1, acc.2 || js.any fun j => (decClaimMapping j).2)
      | _ => (acc.1, true)
    else acc) ([], false)

def decStrMap (_ : Unit) : Json → Option Unit
  | .null => some ()
  | .obj ms => if ms.all (fun kv => (decStr "" kv.2).isSome) then some () else none
  | _ => none

/-- `method`, `headers`, `body_template` and `timeout_ms` shape the request only;
they matter here because a member of the wrong type fails the decoding. -/
def EnrichClaimsCfg.decode : Option Json → EnrichClaimsCfg × Bool :=
  unmarshal {} fun ms =>
    let u := strField "url" ms
    let c := decClaimMappings ms
    let e := strField "on_error" ms
    (⟨u.1, c.1, e.1⟩,
      u.2 || c.2 || e.2 || (strField "method" ms).2 || (strField "body_template" ms).2 ||
        (intField "timeout_ms" ms).2 || (decodeField decStrMap () "headers" ms).2)

def enrichError (onError msg : String) : FlowResult :=
  if onError = "deny" then { deny := true, denyReason := msg } else {}

def reservedClaims : List String := ["sub", "iss", "aud", "exp", "iat", "nbf"]

def enrichExtra (mappings : List ClaimMapping) (data : GoMap Json) (ms : List (String × Json)) : GoMap Json :=
  if mappings.length = 0 then
    GoMap.ofMembers (ms.filter fun kv => !reservedClaims.contains kv.1)
  else
    mappings.foldl (fun extra m =>
      match data.lookup (trimPfx m.source "$.") with
      | some val => extra.insert m.target val
      | none => extra) ∅

def stepEnrichClaims (step : LoginFlowStep) : FlowResult :=
  let (cfg, err) := EnrichClaimsCfg.decode step.config
  if err || cfg.url == "" then {}
  else
    match env.http with
    | .buildFailed => enrichError cfg.onError "enrich_claims: build request failed"
    | .doFailed => enrichError cfg.onError "Claims enrichment service unavailable."
    | .response status body =>
      if status < 200 ∨ 300 ≤ status then
        enrichError cfg.onError s!"Claims enrichment service returned {status}."
      else
        match body with
        | some (.obj ms) => { extraClaims := enrichExtra cfg.claimMappings (GoMap.ofMembers ms) ms }
        | some .null => {}
        | _ => enrichError cfg.onError "Claims enrichment response is not valid JSON."

structure SetClaimCfg where
  (claim value sourceField : String := "")

def SetClaimCfg.decode : Option Json → SetClaimCfg × Bool :=
  unmarshal {} fun ms =>
    let c := strField "claim" ms
    let v := strField "value" ms
    let s := strField "source_field" ms
    (⟨c.1, v.1, s.1⟩, c.2 || v.2 || s.2)

def stepSetClaim (uc : UserContext) : FlowResult :=
  let (cfg, err) := SetClaimCfg.decode step.config
  if err || cfg.claim == "" then {}
  else
    let val := if cfg.sourceField ≠ "" then resolveUserField uc.user cfg.sourceField else cfg.value
    { extraClaims := (∅ : GoMap Json).insert cfg.claim (.str val) }

def stepNotify : FlowResult := {}

def stepCheckIPRisk (uc : UserContext) : FlowResult :=
  let (cfg, err) := unmarshal ((0 : Int), "") (fun ms =>
    let t := intField "threshold" ms
    let a := strField "action" ms
    ((t.1, a.1), t.2 || a.2)) step.config
  if err then {}
  else if uc.riskScore < cfg.1 then {}
  else if cfg.2 = "require_mfa" then { forceMFA := true }
  else { deny := true, denyReason := "Access denied due to suspicious IP address." }

def stepRequireEmailVerified (uc : UserContext) : FlowResult :=
  if !uc.user.isEmailVerified then
    { deny := true, denyReason := "Email verification is required before you can sign in." }
  else {}

def stepCheckBreach (uc : UserContext) : FlowResult :=
  -- the decoding error is ignored here
  let cfg := (unmarshal ("", "") (fun ms =>
    (((strField "action" ms).1, (strField "message" ms).1), false)) step.config).1
  let isBreached := ((uc.user.metadata.lookup "is_breached").bind Json.asBool).getD false
  if !isBreached then {}
  else if cfg.1 = "require_mfa" then { forceMFA := true }
  else
    { deny := true
      denyReason := orDefault cfg.2
        "Your credentials have been found in a known data breach. Please reset your password before signing in." }

structure CheckVerifiedCfg where
  (minLevel stepUpURL message upgrade : String := "")

def CheckVerifiedCfg.decode : Option Json → CheckVerifiedCfg × Bool :=
  unmarshal {} fun ms =>
    let l := strField "min_level" ms
    let s := strField "step_up_url" ms
    let m := strField "message" ms
    let u := strField "upgrade" ms
    (⟨l.1, s.1, m.1, u.1⟩, l.2 || s.2 || m.2 || u.2)

def currentAssurance (u : User) : Int := ((metaString u "assurance_level").map assuranceLevelValue).getD 0

def stepCheckVerified (uc : UserContext) : FlowResult :=
  let (cfg, err) := CheckVerifiedCfg.decode step.config
  if err || cfg.minLevel == "" then {}
  else
    let required := assuranceLevelValue cfg.minLevel
    if required = 0 then {}
    else if currentAssurance uc.user < required then
      if cfg.upgrade = "spid" then { upgradeSPIDLevel := required }
      else if cfg.upgrade = "cie" then { upgradeCIE := true }
      else
        { deny := true
          denyReason := orDefault cfg.message
            "This service requires a higher identity assurance level. Please authenticate with a stronger identity provider."
          stepUpURL := cfg.stepUpURL }
    else {}

structure CheckSessionAgeCfg where
  maxAgeSeconds : Int := 0
  (action message : String := "")

def CheckSessionAgeCfg.decode : Option Json → CheckSessionAgeCfg × Bool :=
  unmarshal {} fun ms =>
    let a := intField "max_age_seconds" ms
    let c := strField "action" ms
    let m := strField "message" ms
    (⟨a.1, c.1, m.1⟩, a.2 || c.2 || m.2)

def stepCheckSessionAge (step : LoginFlowStep) (uc : UserContext) : FlowResult :=
  let (cfg, err) := CheckSessionAgeCfg.decode step.config
  if err || decide (cfg.maxAgeSeconds ≤ 0) then {}
  else if uc.authTime = 0 then {}
  else if env.now - uc.authTime ≤ cfg.maxAgeSeconds then {}
  else if cfg.action = "deny" then
    { deny := true, denyReason := orDefault cfg.message "Your session has expired. Please sign in again." }
  else { forceReauth := true }

def stepOID4VPChallenge : FlowResult :=
  let (cfg, err) := unmarshal ((none : Option (GoMap Json)), (none : Option (GoMap Json)), "") (fun ms =>
    let d := mapField "dcql_query" ms
    let p := mapField "presentation_definition" ms
    let m := strField "message" ms
    ((d.1, p.1, m.1), d.2 || p.2 || m.2)) step.config
  if err then {}
  else if cfg.1.isNone && cfg.2.1.isNone then {}
  else
    { oid4vpChallenge := some
        { dcqlQuery := cfg.1
          presentationDefinition := cfg.2.1
          message := orDefault cfg.2.2 "Please present your verifiable credential to continue." } }

def applyTimeoutAction (action : String) : FlowResult :=
  match action with
  | "deny" => { deny := true, denyReason := "AI decision engine unavailable." }
  | "require_mfa" => { forceMFA := true }
  | _ => {}

def stripFence (raw : String) : String :=
  match raw.splitOn "```json" with
  | _ :: after :: rest => ((String.intercalate "```json" (after :: rest)).splitOn "```").headD ""
  | _ => raw

def stepAIDecision (eng : Engine) (env : StepEnv) (step : LoginFlowStep) : FlowResult :=
  match env.ai with
  | .notWired => {}
  | reply =>
    let (timeoutAction, err) := unmarshal "" (fun ms =>
      let t := strField "timeout_action" ms
      (t.1, t.2 || (strField "prompt" ms).2)) step.config
    if err then {}
    else
      match reply with
      | .notWired | .noKey => {}
      | .apiError => applyTimeoutAction timeoutAction
      | .text raw =>
        let (decision, bad) := unmarshal ("", "") (fun ms =>
          let a := strField "action" ms
          let r := strField "reason" ms
          ((a.1, r.1), a.2 || r.2)) (eng.parse (stripFence raw))
        if bad then applyTimeoutAction timeoutAction
        else
          match decision.1 with
          | "deny" => { deny := true, denyReason := decision.2 }
          | "require_mfa" => { forceMFA := true }
          | _ => {}

structure CheckDeviceCfg where
  requireDevice : Bool := false
  (fact factValue action message : String := "")

def CheckDeviceCfg.decode : Option Json → CheckDeviceCfg × Bool :=
  unmarshal {} fun ms =>
    let r := boolField "require_device" ms
    let f := strField "fact" ms
    let v := strField "fact_value" ms
    let a := strField "action" ms
    let m := strField "message" ms
    (⟨r.1, f.1, v.1, a.1, m.1⟩, r.2 || f.2 || v.2 || a.2 || m.2)

def stepCheckDevice (eng : Engine) (env : StepEnv) (step : LoginFlowStep) : FlowResult :=
  match env.devices with
  | none => {}
  | some devices? =>
    let (c, err) := CheckDeviceCfg.decode step.config
    if err then {}
    else
      match devices? with
      | none => {}
      | some devices =>
        let refusal : FlowResult :=
          if c.action = "require_mfa" then { forceMFA := true }
          else { deny := true, denyReason := orDefault c.message "Access denied: device posture check failed." }
        let satisfied := devices.any fun facts =>
          match facts.lookup c.fact with
          | some val => eng.sprint val == c.factValue
          | none => false
        if devices.length = 0 ∧ c.requireDevice then refusal
        else if c.fact ≠ "" ∧ !satisfied then refusal
        else {}

def stepRunAction : FlowResult :=
  match env.action with
  | none => {}
  | some (denied, reason) =>
    if denied then { deny := true, denyReason := orDefault reason "Access denied by action hook." } else {}

structure ActionResponse where
  (action denyReason : String := "")
  claims : GoMap Json := ∅

/-- An execution for the event, with what its target answers. An absent or malformed condition is empty. -/
structure ActionExecution where
  condition : List (String × Json) := []
  isActive : Bool := true
  response : Option ActionResponse := none

def conditionMatches (eng : Engine) (data : GoMap Json) (ex : ActionExecution) : Bool :=
  ex.condition.all fun p => (data.lookup p.1).any fun actual => eng.sprint actual == eng.sprint p.2

def answerOf (eng : Engine) (data : GoMap Json) (ex : ActionExecution) : Option ActionResponse :=
  if conditionMatches eng data ex && ex.isActive then ex.response else none

def runSync (eng : Engine) (data : GoMap Json) : GoMap Json → List ActionExecution → Bool × String × GoMap Json
  | claims, [] => (false, "", claims)
  | claims, ex :: execs =>
    match answerOf eng data ex with
    | none => runSync eng data claims execs
    | some resp =>
      if resp.action = "deny" then (true, resp.denyReason, ∅)
      else runSync eng data (claims.assignAll resp.claims) execs

def StepEnv.acted (eng : Engine) (data : GoMap Json) (execs : List ActionExecution) : StepEnv :=
  let r := runSync eng data ∅ execs
  { env with action := some (r.1, r.2.1) }

/-! ## Dispatch and the loop -/

namespace Engine

def runStep (eng : Engine) (env : StepEnv) (step : LoginFlowStep) (uc : UserContext) : FlowResult :=
  match step.stepType with
  | "check_attribute" => stepCheckAttribute step uc
  | "require_mfa" => stepRequireMFA env
  | "block_if_no_mfa" => stepBlockIfNoMFA env step
  | "enrich_claims" => stepEnrichClaims env step
  | "set_claim" => stepSetClaim step uc
  | "webhook" | "notify" => stepNotify
  | "check_ip_risk" => stepCheckIPRisk step uc
  | "require_email_verified" => stepRequireEmailVerified uc
  | "check_breach" => stepCheckBreach step uc
  | "check_verified" => stepCheckVerified step uc
  | "check_device" => stepCheckDevice eng env step
  | "run_action" => stepRunAction env
  | "ai_decision" => stepAIDecision eng env step
  | "check_session_age" => stepCheckSessionAge env step uc
  | "oid4vp_challenge" => stepOID4VPChallenge step
  | _ => {}

def runFrom (eng : Engine) (uc : UserContext) : FlowResult → List (StepEnv × LoginFlowStep) → FlowResult
  | result, [] => result
  | result, (env, step) :: rest =>
    if !step.isActive then runFrom eng uc result rest
    else
      let r := eng.runStep env step uc
      let result := if r.forceMFA then { result with forceMFA := true } else result
      if r.deny then r
      else
        match r.oid4vpChallenge with
        | some ch => { result with oid4vpChallenge := some ch }
        | none => runFrom eng uc { result with extraClaims := result.extraClaims.assignAll r.extraClaims } rest

def run (eng : Engine) (flow : Option (List (StepEnv × LoginFlowStep))) (uc : UserContext) : FlowResult :=
  match flow with
  | none => {}
  | some steps => runFrom eng uc {} steps

end Engine

end Clavex

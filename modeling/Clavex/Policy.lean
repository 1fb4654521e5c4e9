import Clavex.Cell
import Clavex.Login
import Clavex.StatusList
import Clavex.StableSort
import Mathlib.Algebra.Order.Ring.Int

/-!
# The policy engine

`Evaluate` sorts the rules of a policy by priority and returns the outcome of the first
enabled one whose conditions all match. Times are in nanoseconds.
-/

namespace Clavex

namespace Policy

structure Lib where
  (Addr Net : Type)
  parseIP : String → Option Addr
  parseCIDR : String → Option Net
  contains : Net → Addr → Bool
  toUpper : String → String
  toUpper_eq_empty : ∀ s, toUpper s = toUpper "" → s = ""
  parseDuration : String → Option Int
  quoted : String → String

/-- `other` is a text that no constant names. -/
inductive Action where
  | named (a : PolicyAction)
  | other (text : String)
  deriving DecidableEq

structure Outcome where
  action : Action
  (ruleName reason : String := "")
  mfaForced : Bool := false
  deriving DecidableEq

def Outcome.isMFARequired (o : Outcome) : Bool := o.action = .named .requireMFA || o.action = .named .stepUp

structure HourRange where
  (first last : Int)

structure Conditions where
  (ipCIDRs countries notCountries clientIDs : List String := [])
  (mfaEnrolled newCountry : Option Bool := none)
  daysOfWeek : List String := []
  hourRange : Option HourRange := none
  lastLoginBefore : String := ""

structure Rule where
  name : String
  priority : Int
  conditions : Conditions
  action : Action
  enabled : Bool

structure EvalInput where
  (ipAddress country : String := "")
  requestTime : Int := zeroTime
  clientID : String := ""
  (mfaEnrolled newCountry : Bool := false)
  lastLoginAt : Option Int := none

/-! ## Conditions -/

section
variable (lib : Lib)

def stringIn (v : String) (list : List String) : Bool := list.any fun s => lib.toUpper s == lib.toUpper v

def cidrText (cidr : String) : String :=
  let cidr := trimSpace cidr
  if strContains cidr "/" = false ∧ (lib.parseIP cidr).isSome then
    cidr ++ if strContains cidr ":" then "/128" else "/32"
  else cidr

def ipMatchesCIDRs (ipStr : String) (cidrs : List String) : Bool :=
  match lib.parseIP (trimSpace ipStr) with
  | none => false
  | some ip =>
    cidrs.any fun cidr =>
      match lib.parseCIDR (cidrText lib cidr) with
      | none => false
      | some network => lib.contains network ip

def weekday (t : Int) : String :=
  match (t / (86400 * nsPerSecond) + 4) % 7 with
  | 0 => "Sun"
  | 1 => "Mon"
  | 2 => "Tue"
  | 3 => "Wed"
  | 4 => "Thu"
  | 5 => "Fri"
  | _ => "Sat"

def hour (t : Int) : Int := t / (3600 * nsPerSecond) % 24

def HourRange.matchesHour (r : HourRange) (h : Int) : Bool :=
  if r.first ≤ r.last then decide (r.first ≤ h) && decide (h ≤ r.last)
  else decide (r.first ≤ h) || decide (h ≤ r.last)

def matchLastLogin (lastLoginBefore : String) (requestTime : Int) (lastLoginAt : Option Int) : Bool :=
  match lib.parseDuration lastLoginBefore, lastLoginAt with
  | some threshold, some last => decide (threshold < timeSub requestTime last)
  | _, _ => true

def matchAll (c : Conditions) (q : EvalInput) : Bool :=
  (c.ipCIDRs.isEmpty || ipMatchesCIDRs lib q.ipAddress c.ipCIDRs) &&
  (c.countries.isEmpty || stringIn lib q.country c.countries) &&
  (c.notCountries.isEmpty || !stringIn lib q.country c.notCountries) &&
  (c.clientIDs.isEmpty || stringIn lib q.clientID c.clientIDs) &&
  c.mfaEnrolled.all (q.mfaEnrolled == ·) &&
  c.newCountry.all (q.newCountry == ·) &&
  (c.daysOfWeek.isEmpty || stringIn lib (weekday q.requestTime) c.daysOfWeek) &&
  c.hourRange.all (·.matchesHour (hour q.requestTime)) &&
  (c.lastLoginBefore = "" || matchLastLogin lib c.lastLoginBefore q.requestTime q.lastLoginAt)

/-! ## Evaluation -/

def sortedRules (rules : List Rule) : List Rule := sinkSort (·.priority) rules

def ruleOutcome (rule : Rule) : Outcome :=
  let out : Outcome :=
    { action := rule.action, ruleName := rule.name, reason := "rule " ++ lib.quoted rule.name ++ " matched" }
  if out.isMFARequired then { out with mfaForced := true } else out

def firstOutcome (q : EvalInput) : List Rule → Outcome
  | [] => { action := .named .allow, reason := "no rule matched" }
  | rule :: rest =>
    if !rule.enabled then firstOutcome q rest
    else if matchAll lib rule.conditions q then ruleOutcome lib rule
    else firstOutcome q rest

def EvalInput.timed (q : EvalInput) (now : Int) : EvalInput :=
  if q.requestTime = zeroTime then { q with requestTime := now } else q

def evaluate (now : Int) (rules : Option (List Rule)) (q : EvalInput) : Outcome :=
  match rules with
  | none | some [] => { action := .named .allow, reason := "no policy" }
  | some rules => firstOutcome lib (q.timed now) (sortedRules rules)

/-! ## The rule that decides -/

def Rule.fires (q : EvalInput) (rule : Rule) : Bool := rule.enabled && matchAll lib rule.conditions q

theorem firstOutcome_eq (q rules) :
    firstOutcome lib q rules =
      match rules.find? (Rule.fires lib q) with
      | some rule => ruleOutcome lib rule
      | none => { action := .named .allow, reason := "no rule matched" } := by
  induction rules with
  | nil => rfl
  | cons rule rest ih =>
    rw [firstOutcome, List.find?_cons, Rule.fires]
    cases rule.enabled with
    | false => exact ih
    | true =>
      cases matchAll lib rule.conditions q with
      | false => exact ih
      | true => rfl

theorem ruleOutcome_eq (rule) : ruleOutcome lib rule =
    { action := rule.action
      ruleName := rule.name
      reason := "rule " ++ lib.quoted rule.name ++ " matched"
      mfaForced := decide (rule.action = .named .requireMFA ∨ rule.action = .named .stepUp) } := by
  unfold ruleOutcome Outcome.isMFARequired
  by_cases h : rule.action = .named .requireMFA ∨ rule.action = .named .stepUp <;> simp [h]

structure Decides (q : EvalInput) (rules : List Rule) (i : Nat) (rule : Rule) : Prop where
  at_place : rules[i]? = some rule
  fires : rule.fires lib q = true
  least : ∀ (j : Nat) (other : Rule), rules[j]? = some other → other.fires lib q = true →
    rule.priority < other.priority ∨ (rule.priority = other.priority ∧ i ≤ j)

variable {lib}

theorem evaluate_some (now q) {rules} (h : rules ≠ []) :
    evaluate lib now (some rules) q = firstOutcome lib (q.timed now) (sortedRules rules) := by
  cases rules with
  | nil => exact absurd rfl h
  | cons rule rest => rfl

theorem evaluate_decided (now q rules) :
    (∃ i rule, Decides lib (q.timed now) rules i rule ∧ evaluate lib now (some rules) q = ruleOutcome lib rule) ∨
    ((∀ rule ∈ rules, rule.fires lib (q.timed now) = false) ∧ evaluate lib now (some rules) q =
      { action := .named .allow, reason := if rules.isEmpty then "no policy" else "no rule matched" }) := by
  by_cases hnil : rules = []
  · subst hnil
    exact .inr ⟨fun _ hr => absurd hr List.not_mem_nil, rfl⟩
  · have hlead := @find?_sinkSort _ _ _ Rule.priority (Rule.fires lib (q.timed now)) rules
    rw [evaluate_some now q hnil, firstOutcome_eq]
    unfold sortedRules
    cases hfind : (sinkSort Rule.priority rules).find? (Rule.fires lib (q.timed now)) with
    | none =>
      rw [hfind] at hlead
      exact .inr ⟨hlead, by simp [hnil]⟩
    | some rule =>
      rw [hfind] at hlead
      obtain ⟨i, hi, hp, hmin⟩ := hlead
      exact .inl ⟨i, rule, ⟨hi, hp, hmin⟩, rfl⟩

theorem evaluate_perm (now q) {rules rules'} (h : rules.Perm rules') (hp : (rules.map (·.priority)).Nodup) : evaluate lib now (some rules) q = evaluate lib now (some rules') q := by
  by_cases hnil : rules = []
  · subst hnil
    rw [h.nil_eq]
  · have hnil' : rules' ≠ [] := fun he => hnil (by rw [he] at h; exact h.eq_nil)
    rw [evaluate_some now q hnil, evaluate_some now q hnil', firstOutcome_eq, firstOutcome_eq]
    unfold sortedRules
    rw [Leading.perm h hp (find?_sinkSort _ rules) (find?_sinkSort _ rules')]

variable (lib)

theorem evaluate_least (now : Int) (q : EvalInput) :
    evaluate lib now none q = { action := .named .allow, reason := "no policy" } ∧
    (∀ rules,
      (∃ i rule, Decides lib (q.timed now) rules i rule ∧ evaluate lib now (some rules) q =
        { action := rule.action
          ruleName := rule.name
          reason := "rule " ++ lib.quoted rule.name ++ " matched"
          mfaForced := decide (rule.action = .named .requireMFA ∨ rule.action = .named .stepUp) }) ∨
      ((∀ rule ∈ rules, rule.fires lib (q.timed now) = false) ∧ evaluate lib now (some rules) q =
        { action := .named .allow, reason := if rules.isEmpty then "no policy" else "no rule matched" })) ∧
    ∀ rules rules', rules.Perm rules' → (rules.map (·.priority)).Nodup →
      evaluate lib now (some rules) q = evaluate lib now (some rules') q :=
  ⟨rfl, fun rules => by simpa only [ruleOutcome_eq] using evaluate_decided now q rules, fun _ _ h hp => evaluate_perm now q h hp⟩

end

theorem toUpper_eq_empty (s) (h : Clavex.toUpper s = Clavex.toUpper "") : s = "" := by
  unfold Clavex.toUpper at h
  have hmap : s.toList.map upperRune = [] := String.ofList_injective h
  exact String.toList_eq_nil_iff.mp (List.map_eq_nil_iff.mp hmap)

def plainLib : Lib where
  Addr := String
  Net := String
  parseIP s := if s = "" then none else some s
  parseCIDR s := if s = "" then none else some s
  contains network ip := network == ip ++ "/32"
  toUpper := Clavex.toUpper
  toUpper_eq_empty := toUpper_eq_empty
  parseDuration s := if s = "720h" then some (720 * 3600 * nsPerSecond) else none
  quoted := quote

def inactive : Rule where
  name := "inactive"
  priority := 20
  conditions := { lastLoginBefore := "720h" }
  action := .named .deny
  enabled := true

def domestic : Rule where
  name := "domestic"
  priority := 10
  conditions := { countries := ["IT"] }
  action := .named .requireMFA
  enabled := true

theorem evaluate_least_of_two :
    evaluate plainLib 0 (some [inactive, domestic]) { country := "it" } =
      { action := .named .requireMFA, ruleName := "domestic", reason := "rule \"domestic\" matched", mfaForced := true } ∧
    evaluate plainLib 0 (some [inactive, domestic]) { country := "it" } =
      evaluate plainLib 0 (some [domestic, inactive]) { country := "it" } :=
  ⟨by decide +kernel, (evaluate_least plainLib 0 { country := "it" }).2.2 _ _ (.swap ..) (by decide)⟩

/-! ## Signals that could not be determined -/

section
variable {lib : Lib}

theorem stringIn_empty {list} (h : "" ∉ list) : stringIn lib "" list = false := by
  unfold stringIn
  rw [List.any_eq_false]
  intro s hs hup
  have : s = "" := lib.toUpper_eq_empty s (beq_iff_eq.mp hup)
  rw [this] at hs
  exact h hs

theorem ipMatchesCIDRs_unparsed {ipStr} {cidrs}
    (h : lib.parseIP (trimSpace ipStr) = none ∨ ∀ cidr ∈ cidrs, lib.parseCIDR (cidrText lib cidr) = none) :
    ipMatchesCIDRs lib ipStr cidrs = false := by
  unfold ipMatchesCIDRs
  cases hip : lib.parseIP (trimSpace ipStr) with
  | none => rfl
  | some ip =>
    rw [hip] at h
    rcases h with h | h
    · cases h
    rw [List.any_eq_false]
    intro cidr hc
    rw [h cidr hc]
    exact Bool.false_ne_true

variable (lib)

def Undetermined (c : Conditions) (q : EvalInput) : Prop :=
  (c.ipCIDRs ≠ [] ∧
    (lib.parseIP (trimSpace q.ipAddress) = none ∨ ∀ cidr ∈ c.ipCIDRs, lib.parseCIDR (cidrText lib cidr) = none)) ∨
  (c.countries ≠ [] ∧ q.country = "" ∧ "" ∉ c.countries)

theorem matchAll_undetermined (c : Conditions) (q : EvalInput) :
    (Undetermined lib c q → matchAll lib c q = false) ∧
    (∀ threshold, lib.parseDuration c.lastLoginBefore = some threshold → q.lastLoginAt = none →
      matchAll lib c q = matchAll lib { c with lastLoginBefore := "" } q) := by
  refine ⟨?_, ?_⟩
  · intro h
    rcases h with ⟨hne, hip⟩ | ⟨hne, hcountry, hmem⟩
    · have hempty : c.ipCIDRs.isEmpty = false := List.isEmpty_eq_false_iff.mpr hne
      simp [matchAll, hempty, ipMatchesCIDRs_unparsed hip]
    · have hempty : c.countries.isEmpty = false := List.isEmpty_eq_false_iff.mpr hne
      simp [matchAll, hempty, hcountry, stringIn_empty hmem]
  · intro threshold hparse hlast
    have hmatch : matchLastLogin lib c.lastLoginBefore q.requestTime q.lastLoginAt = true := by
      unfold matchLastLogin
      rw [hparse, hlast]
    simp [matchAll, hmatch]

end

/-- An unknown country keeps an allow list from matching; a first login does not keep
`last_login_before` from it. -/
theorem matchAll_undetermined_at_first_login :
    matchAll plainLib { inactive.conditions with countries := ["IT"] } {} = false ∧
    matchAll plainLib inactive.conditions {} = matchAll plainLib {} {} :=
  ⟨(matchAll_undetermined plainLib _ _).1 (.inr ⟨by decide, rfl, by decide⟩),
    (matchAll_undetermined plainLib inactive.conditions {}).2 _ rfl rfl⟩

theorem first_login_matches :
    inactive.conditions.lastLoginBefore ≠ "" ∧ ({} : EvalInput).lastLoginAt = none ∧
      matchAll plainLib inactive.conditions {} = true := by
  decide +kernel

end Policy

end Clavex

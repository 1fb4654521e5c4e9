import Clavex.DeviceSound
import Clavex.Scope

/-!
# Consents that overlap

A consent reads whether the device code is decided in one statement and writes its decision
in another, so two consents may both go through. As long as every decision is written while
the code is still undecided, it stays as it is until the code is deleted.
-/

namespace Clavex

open Prog

/-! ## Runs -/

inductive ConsentEvent where
  | tick (seconds : Nat)
  | settings (orgs : List OrgRow) (clients : List OIDCClient) (users : List User)
  | signIn (id orgSlug : String) (userID : UUID)
  | statement (env : Env) (op : TokenOp)

def TokenOp.decides : TokenOp → Bool
  | authorizeDevice .. | denyDevice _ => true
  | _ => false

def consentEvent (d : OIDCHandler) : ConsentEvent → TokenStore → TokenStore
  | .tick n, s => { s with now := s.now + n }
  | .settings orgs clients users, s => { s with orgs := orgs, clients := clients, users := users }
  | .signIn id orgSlug userID, s => signInDevice id orgSlug userID s
  | .statement env op, s => if op.decides then s else (sem d env op s).2

def consentSystem (d : OIDCHandler) :
    System DeviceRequest TokenOp TokenOp.Resp TokenErr DeviceReply TokenStore Env ConsentEvent where
  main := serveDevice d
  sem := sem d
  other := consentEvent d

abbrev ConsentPool := Pool DeviceRequest TokenOp TokenOp.Resp TokenErr DeviceReply TokenStore

abbrev ConsentMoves := List (PoolMove DeviceRequest Env ConsentEvent)

def undecided (s : TokenStore) (id : Nat) : Bool := s.devices.list.all fun r => r.id != id || r.isAuthorized.isNone

def consentCond (s : TokenStore) (env : Env) (_ : DeviceRequest) : TokenOp → Bool
  | .authorizeDevice id _ | .denyDevice id => env.fails || undecided s id
  | _ => true

/-! ## Decisions -/

structure DecisionStays (r r' : DeviceCode) : Prop where
  id : r'.id = r.id
  decision : r.isAuthorized ≠ none → r'.isAuthorized = r.isAuthorized ∧ r'.userID = r.userID

theorem decisionStays_succession : Succession (fun r : DeviceCode => r.id) DecisionStays where
  refl := fun _ => ⟨rfl, fun _ => ⟨rfl, rfl⟩⟩
  trans := by
    intro r r' r'' h h'
    refine ⟨h'.id.trans h.id, fun hr => ?_⟩
    obtain ⟨hdecision, huser⟩ := h.decision hr
    obtain ⟨hdecision', huser'⟩ := h'.decision (by rw [hdecision]; exact hr)
    exact ⟨hdecision'.trans hdecision, huser'.trans huser⟩
  key := fun h => h.id

abbrev DecisionsStay : TokenStore → TokenStore → Prop :=
  Lineage (fun s : TokenStore => s.devices) (fun s id => id < s.nextID) DecisionStays

section
variable {s t : TokenStore}

theorem DecisionsStay.of_eq (hn : s.nextID ≤ t.nextID) (h : t.devices = s.devices) : DecisionsStay s t := by
  refine .of_inherits (fun _ hid => Nat.lt_of_lt_of_le hid hn) ?_
  rw [h]
  exact .refl decisionStays_succession s.devices

theorem DecisionsStay.modify {p f} (hf : ∀ r, (f r).id = r.id)
    (h : ∀ r ∈ s.devices.list, p r = true → DecisionStays r (f r)) :
    DecisionsStay s { s with devices := s.devices.modify p f hf } :=
  .of_inherits (fun _ hid => hid) (.modify decisionStays_succession hf h)

theorem DecisionsStay.decide {id} {f} (hf : ∀ r, (f r).id = r.id) (h : undecided s id = true) :
    DecisionsStay s { s with devices := s.devices.modify (·.id == id) f hf } := by
  refine .modify hf fun r hr hid => ⟨hf r, fun hdecided => ?_⟩
  have hr' := List.all_eq_true.mp h r hr
  simp only [Bool.or_eq_true, bne_iff_ne, Option.isNone_iff_eq_none] at hr'
  rcases hr' with hne | hnone
  · exact absurd (beq_iff_eq.mp hid) hne
  · exact absurd hnone hdecided

theorem sem_decisionsStay (d s env) {op} (hop : op.decides = false) : DecisionsStay s (sem d env op s).2 := by
  have hwrote := sem_wrote d s env op
  generalize (sem d env op s).2 = t at hwrote ⊢
  cases hwrote with
  | draw hn => exact .of_eq hn rfl
  | mint => exact .of_eq (Nat.le_succ _) rfl
  | insertDevice hdrawn hlist hc =>
    subst hc
    exact .push decisionStays_succession (fun _ hid => Nat.lt_succ_of_lt hid) hlist (Nat.lt_irrefl _) (Nat.lt_succ_self _)
  | authorizeDevice | denyDevice => cases hop
  | touchPoll | slowDown => exact .modify _ fun r _ _ => ⟨rfl, fun _ => ⟨rfl, rfl⟩⟩
  | deleteDevice => exact .of_inherits (fun _ hid => hid) (.delete decisionStays_succession _)
  | _ => exact .of_eq (Nat.le_refl _) rfl

theorem sem_decided (d s env q) {op} (hc : consentCond s env q op = true) : DecisionsStay s (sem d env op s).2 := by
  cases hop : op.decides with
  | false => exact sem_decisionsStay d s env hop
  | true =>
    have hwrote := sem_wrote d s env op
    generalize (sem d env op s).2 = t at hwrote ⊢
    cases hwrote with
    | nothing => exact .refl decisionStays_succession s
    | draw hn => exact .of_eq hn rfl
    | authorizeDevice hworks | denyDevice hworks =>
      refine .decide _ ?_
      simpa only [consentCond, hworks, Bool.false_or] using hc
    | _ => cases hop

theorem signInDevice_devices (id orgSlug userID s) :
    (signInDevice id orgSlug userID s).devices = s.devices ∧ (signInDevice id orgSlug userID s).nextID = s.nextID := by
  unfold signInDevice
  split
  · split <;> exact ⟨rfl, rfl⟩
  · exact ⟨rfl, rfl⟩

theorem consentEvent_stay (d e s) : DecisionsStay s (consentEvent d e s) := by
  cases e with
  | tick n | settings orgs clients users => exact .of_eq (Nat.le_refl _) rfl
  | signIn id orgSlug userID =>
    obtain ⟨hdevices, hnext⟩ := signInDevice_devices id orgSlug userID s
    exact .of_eq (Nat.le_of_eq hnext.symm) hdevices
  | statement env op =>
    simp only [consentEvent]
    split
    · exact .refl decisionStays_succession s
    · rename_i hop
      exact sem_decisionsStay d s env (Bool.eq_false_iff.mpr hop)

end

theorem decisionsStay_run (d) {p t ms}
    (h : Trace (consentSystem d).step (Meets (consentCond · · · ·)) p ms t) : DecisionsStay p.store t.store := by
  refine System.always ?_ ?_ h (.refl decisionStays_succession p.store)
  · exact fun env q op s hc hs => hs.trans decisionStays_succession (sem_decided d s env q hc)
  · exact fun e s _ hs => hs.trans decisionStays_succession (consentEvent_stay d e s)

/-- A decision is as it was for as long as the code is there. -/
theorem device_decision_final (d : OIDCHandler) (s : TokenStore) (as bs : ConsentMoves) (p t : ConsentPool)
    (hp : Trace (consentSystem d).step (Meets (consentCond · · · ·)) (Pool.init { s with devices := .empty }) as p)
    (ht : Trace (consentSystem d).step (Meets (consentCond · · · ·)) p bs t) :
    ∀ r ∈ p.store.devices.list, r.isAuthorized ≠ none → ∀ r' ∈ t.store.devices.list, r'.id = r.id →
      r'.isAuthorized = r.isAuthorized ∧ r'.userID = r.userID := by
  intro r hr hdecided r' hr' hid
  have hseen := (decisionsStay_run d hp).allSeen decisionStays_succession fun r hr => by cases hr
  exact ((decisionsStay_run d ht).continues decisionStays_succession hseen hr hr' hid).decision hdecided

/-! ## Two consents -/

def twoUsers : TokenStore := { plainStore with users := [plainUser, { plainUser with id := 9, email := "bob@acme.example" }] }

def consentRun (ms : ConsentMoves) : ConsentPool :=
  run (consentSystem plainHandler).step (Pool.init { twoUsers with devices := .empty }) ms

def waiting : ConsentMoves :=
  [.other (.signIn "ada" "acme" 7), .other (.signIn "bob" "acme" 9),
    .other (.statement {} (.insertDevice 1 "app" "dev" "USER" "openid" 600))]

def consentBy (cookie action : String) : DeviceRequest :=
  .consent { orgSlug := "acme", cookie := some cookie, dcID := some 0, action := action }

def consentSteps (i n : Nat) : ConsentMoves := List.replicate n (.advance i {})

def decisions (p : ConsentPool) : List (Option Bool × Option UUID) :=
  p.store.devices.list.map fun r => (r.isAuthorized, r.userID)

def firstConsent : ConsentMoves := waiting ++ .start 0 (consentBy "ada" "allow") :: consentSteps 0 6

def secondConsent : ConsentMoves := .start 1 (consentBy "bob" "deny") :: consentSteps 1 6

theorem device_decision_final_in_turn :
    decisions (consentRun firstConsent) = [(some true, some 7)] ∧
    (consentRun (firstConsent ++ secondConsent)).log.length = 2 ∧
    ∀ r ∈ (consentRun firstConsent).store.devices.list,
      ∀ r' ∈ (consentRun (firstConsent ++ secondConsent)).store.devices.list, r'.id = r.id →
        r'.isAuthorized = r.isAuthorized ∧ r'.userID = r.userID := by
  have hfirst : Trace (consentSystem plainHandler).step (Meets (consentCond · · · ·))
      (Pool.init { twoUsers with devices := .empty }) firstConsent (consentRun firstConsent) :=
    Trace.of_checkRun (by decide +kernel)
  have hsecond : Trace (consentSystem plainHandler).step (Meets (consentCond · · · ·)) (consentRun firstConsent)
      secondConsent (consentRun (firstConsent ++ secondConsent)) := Trace.of_checkRun (by decide +kernel)
  have hdecided : ∀ r ∈ (consentRun firstConsent).store.devices.list, r.isAuthorized ≠ none := by decide +kernel
  refine ⟨by decide +kernel, by decide +kernel, fun r hr r' hr' hid => ?_⟩
  exact device_decision_final plainHandler twoUsers _ _ _ _ hfirst hsecond r hr (hdecided r hr) r' hr' hid

def bothRead (action : String) : ConsentMoves :=
  waiting ++ .start 0 (consentBy "ada" "allow") :: .start 1 (consentBy "bob" action) :: consentSteps 0 4 ++
    consentSteps 1 4 ++ consentSteps 0 1

/-- A denial after the approval, or another user's approval. -/
theorem device_decision_overwritten :
    decisions (consentRun (bothRead "deny")) = [(some true, some 7)] ∧
    decisions (consentRun (bothRead "deny" ++ consentSteps 1 1)) = [(some false, some 7)] ∧
    decisions (consentRun (bothRead "allow")) = [(some true, some 7)] ∧
    decisions (consentRun (bothRead "allow" ++ consentSteps 1 1)) = [(some true, some 9)] := by
  decide +kernel

end Clavex

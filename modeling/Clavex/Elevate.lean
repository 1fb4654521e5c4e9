import Clavex.Token
import Clavex.Cell
import Clavex.Trace
import Mathlib.Logic.Function.Basic

/-!
# Elevation challenges

`Create` and `Verify` of one elevation challenge, the latter one SQL statement or
Redis command at a time. What the second factor and the lookups answer is part of
the step that asks them; the log holds the elevated tokens handed out.
-/

namespace Clavex

open Trace Function

inductive ChallengeStatus where
  | pending
  | completed
  | expired
  deriving DecidableEq

structure ElevatedToken where
  (subject orgID : UUID)
  (email reason : String)
  (issuedAt expiration : Int)

structure ElevateChallenge where
  (orgID userID : UUID)
  reason : String
  allowedMethods : List String
  status : ChallengeStatus
  expiresAt : Int
  elevatedToken : Option ElevatedToken := none

structure CreateElevateReq where
  orgID : UUID
  orgFails : Bool := false
  (bearerToken reason : String)
  allowedMethods : List String := []
  credTypes : Option (List String)

def elevateMethods (credTypes allowed : List String) (webAuthnEnabled : Bool) : List String :=
  let has (m : String) := (m == "totp" || m == "webauthn" && webAuthnEnabled) && credTypes.contains m
  if allowed = [] then ["totp", "webauthn"].filter has else allowed.filter has

structure ElevateDeps where
  tokenConfig : TokenConfig
  webAuthn : Bool

def createChallenge (d : ElevateDeps) (now : Int) (q : CreateElevateReq) : Option (ElevateChallenge × AccessToken) :=
  if q.allowedMethods.any (fun m => m != "totp" && m != "webauthn") || q.orgFails then none
  else
    match d.tokenConfig.verifyAccessToken now q.bearerToken with
    | none => none
    | some tok =>
      match tok.sub with
      | none => none
      | some userID =>
        if tok.orgID ≠ some q.orgID then none
        else
          match q.credTypes with
          | none => none
          | some types =>
            if elevateMethods types q.allowedMethods d.webAuthn = [] then none
            else some (⟨q.orgID, userID, q.reason, q.allowedMethods, .pending, now + 600, none⟩, tok)

structure VerifyReq where
  orgID : UUID
  method : String

inductive ElevateCall where
  | idle
  | sweeping (q : VerifyReq)
  | loading (q : VerifyReq)
  | looking (q : VerifyReq) (ch : ElevateChallenge)
  | verifying (q : VerifyReq) (ch : ElevateChallenge) (email : String)
  | signing (q : VerifyReq) (ch : ElevateChallenge) (email : String)
  | marking (tok : ElevatedToken)

structure VerifyEnv where
  (sweepFails loadFails : Bool := false)
  user : Option String := some ""
  factorOK : Bool := true
  (signFails markFails : Bool := false)

structure Returned where
  call : Nat
  token : ElevatedToken
  time : Int

/-- `source` is the token the challenge was created with and whether it was on the
revocation list then. -/
structure ElevateState where
  now : Int
  revoked : String → Cell Unit
  challenge : Option ElevateChallenge
  source : Option (AccessToken × Bool)
  waSession : Cell Unit
  calls : Nat → ElevateCall
  log : List Returned

inductive ElevateMove where
  | tick (dt : Nat)
  | revoke (jti : String) (ttl : Int)
  | create (q : CreateElevateReq)
  | beginWebAuthn
  | sweep
  | start (i : Nat) (q : VerifyReq)
  | advance (i : Nat) (env : VerifyEnv)

namespace ElevateState

variable (s : ElevateState)

def setCall (i : Nat) (c : ElevateCall) : ElevateState :=
  { s with calls := Function.update s.calls i c }

def isRevoked (jti : String) : Bool := ((s.revoked jti).get s.now).isSome

def gcExpired : Option ElevateChallenge :=
  s.challenge.map fun ch => if ch.status = .pending ∧ ch.expiresAt < s.now then { ch with status := .expired } else ch

def markCompleted (tok : ElevatedToken) : Option ElevateChallenge :=
  s.challenge.map fun ch =>
    if ch.status = .pending then { ch with status := .completed, elevatedToken := some tok } else ch

def load (q : VerifyReq) (env : VerifyEnv) : ElevateCall :=
  match s.challenge with
  | none => .idle
  | some ch =>
    if env.loadFails ∨ ch.orgID ≠ q.orgID then .idle
    else if ch.status ≠ .pending then .idle
    else if ch.allowedMethods ≠ [] ∧ ¬ ch.allowedMethods.contains q.method then .idle
    else .looking q ch

def verify (d : ElevateDeps) (s : ElevateState) (i : Nat) (q : VerifyReq) (ch : ElevateChallenge) (email : String)
    (env : VerifyEnv) : ElevateState :=
  let next : ElevateCall := if env.factorOK then .signing q ch email else .idle
  if q.method = "totp" then s.setCall i next
  else if d.webAuthn then
    { (s.setCall i (if (s.waSession.get s.now).isSome then next else .idle)) with waSession := .empty }
  else s.setCall i .idle

def advance (d : ElevateDeps) (s : ElevateState) (i : Nat) (env : VerifyEnv) : ElevateState :=
  match s.calls i with
  | .idle => s
  | .sweeping q =>
    { (s.setCall i (.loading q)) with challenge := if env.sweepFails then s.challenge else s.gcExpired }
  | .loading q => s.setCall i (s.load q env)
  | .looking q ch =>
    match env.user with
    | none => s.setCall i .idle
    | some email => s.setCall i (.verifying q ch email)
  | .verifying q ch email => s.verify d i q ch email env
  | .signing _ ch email =>
    if env.signFails then s.setCall i .idle
    else s.setCall i (.marking ⟨ch.userID, ch.orgID, email, ch.reason, s.now, s.now + 300⟩)
  | .marking tok =>
    if env.markFails then s.setCall i .idle
    else
      -- the number of rows hit is not looked at
      { (s.setCall i .idle) with challenge := s.markCompleted tok, log := ⟨i, tok, s.now⟩ :: s.log }

end ElevateState

def elevateStep (d : ElevateDeps) (s : ElevateState) : ElevateMove → ElevateState
  | .tick dt => { s with now := s.now + dt }
  | .revoke jti ttl => { s with revoked := Function.update s.revoked jti (.set () (some (s.now + ttl))) }
  | .create q =>
    match s.challenge, createChallenge d s.now q with
    | none, some (ch, tok) => { s with challenge := some ch, source := some (tok, s.isRevoked tok.jti) }
    | _, _ => s
  | .beginWebAuthn => { s with waSession := .set () (some (s.now + 600)) }
  | .sweep => { s with challenge := s.gcExpired }
  | .start i q =>
    match s.calls i with
    | .idle => if q.method = "totp" ∨ q.method = "webauthn" then s.setCall i (.sweeping q) else s
    | _ => s
  | .advance i env => s.advance d i env

/-! ## One elevated token per challenge -/

def ElevateCall.Loaded : ElevateCall → Prop
  | .looking .. | .verifying .. | .signing .. | .marking .. => True
  | _ => False

def ElevateCall.About (user org : UUID) : ElevateCall → Prop
  | .looking _ ch | .verifying _ ch _ | .signing _ ch _ => ch.userID = user ∧ ch.orgID = org
  | .marking tok => tok.subject = user ∧ tok.orgID = org
  | _ => True

/-- At most one token was returned, in time, for the user of the unrevoked access token
of the same organisation that the challenge was created with. -/
structure ElevatesOnce (s : ElevateState) : Prop where
  once : s.log.length ≤ 1
  timely : ∀ r ∈ s.log, ∃ ch, s.challenge = some ch ∧ r.time ≤ ch.expiresAt
  subject : ∀ r ∈ s.log, ∃ tok, s.source = some (tok, false) ∧ tok.sub = some r.token.subject ∧
    tok.orgID = some r.token.orgID

/-- The challenge is created with a token that is not on the revocation list, no call
loads the row while another has it loaded or after it should have been swept, and no
call has it loaded when it expires. -/
def InTurn (d : ElevateDeps) (s : ElevateState) : ElevateMove → Prop
  | .create q => ∀ ch tok, createChallenge d s.now q = some (ch, tok) → s.isRevoked tok.jti = false
  | .advance i _ => ∀ q, s.calls i = .loading q → (∀ j, ¬ (s.calls j).Loaded) ∧
      ∀ ch, s.challenge = some ch → ch.status = .pending → s.now ≤ ch.expiresAt
  | .tick dt => ∀ i ch, (s.calls i).Loaded → s.challenge = some ch → s.now + dt ≤ ch.expiresAt
  | _ => True

structure Turns (s : ElevateState) : Prop where
  solo : ∀ i j, (s.calls i).Loaded → (s.calls j).Loaded → i = j
  loaded : ∀ i, (s.calls i).Loaded → s.log = [] ∧ ∃ ch, s.challenge = some ch ∧ s.now ≤ ch.expiresAt ∧
    (s.calls i).About ch.userID ch.orgID
  source : ∀ ch, s.challenge = some ch → ∃ tok, s.source = some (tok, false) ∧ tok.sub = some ch.userID ∧
    tok.orgID = some ch.orgID
  served : s.log ≠ [] → ∃ ch, s.challenge = some ch ∧ ch.status ≠ .pending
  sound : ElevatesOnce s

section
variable {d : ElevateDeps} {s : ElevateState}

theorem Turns.mapChallenge (h : Turns s) {f}
    (hf : ∀ ch, (f ch).userID = ch.userID ∧ (f ch).orgID = ch.orgID ∧ (f ch).expiresAt = ch.expiresAt ∧
      (ch.status ≠ .pending → (f ch).status ≠ .pending)) : Turns { s with challenge := s.challenge.map f } := by
  refine ⟨h.solo, ?_, ?_, ?_, h.sound.once, ?_, h.sound.subject⟩
  · intro i hi
    obtain ⟨hlog, ch, hch, hnow, habout⟩ := h.loaded i hi
    obtain ⟨h1, h2, h3, -⟩ := hf ch
    exact ⟨hlog, f ch, by simp [hch], by rw [h3]; exact hnow, by rw [h1, h2]; exact habout⟩
  · intro ch' hch'
    obtain ⟨ch, hch, rfl⟩ := Option.map_eq_some_iff.mp hch'
    obtain ⟨h1, h2, -⟩ := hf ch
    rw [h1, h2]
    exact h.source ch hch
  · intro hlog
    obtain ⟨ch, hch, hst⟩ := h.served hlog
    exact ⟨f ch, by simp [hch], (hf ch).2.2.2 hst⟩
  · intro r hr
    obtain ⟨ch, hch, htime⟩ := h.sound.timely r hr
    exact ⟨f ch, by simp [hch], by rw [(hf ch).2.2.1]; exact htime⟩

theorem Turns.gcExpired (h : Turns s) : Turns { s with challenge := s.gcExpired } := by
  refine h.mapChallenge fun ch => ?_
  split
  · exact ⟨rfl, rfl, rfl, fun _ => by simp⟩
  · exact ⟨rfl, rfl, rfl, id⟩

variable {i : Nat} {q : VerifyReq} {ch : ElevateChallenge}

open ElevateState

theorem Turns.setCall (h : Turns s) {c}
    (hc : c.Loaded → (s.calls i).Loaded ∧ ∀ user org, (s.calls i).About user org → c.About user org) :
    Turns (s.setCall i c) := by
  have hcall (j : Nat) : ((s.setCall i c).calls j).Loaded → (s.calls j).Loaded := by
    by_cases hj : j = i
    · subst hj; simp only [setCall, update_self]; exact fun h => (hc h).1
    · simp only [ElevateState.setCall, update_of_ne hj]; exact id
  refine ⟨fun j k hj hk => h.solo j k (hcall j hj) (hcall k hk), ?_, h.source, h.served,
    h.sound.once, h.sound.timely, h.sound.subject⟩
  intro j hj
  obtain ⟨hlog, ch, hch, hnow, habout⟩ := h.loaded j (hcall j hj)
  refine ⟨hlog, ch, hch, hnow, ?_⟩
  by_cases hji : j = i
  · subst hji
    simp only [setCall, update_self] at hj ⊢
    exact (hc hj).2 _ _ habout
  · simp only [ElevateState.setCall, update_of_ne hji]; exact habout

theorem Turns.drop (h : Turns s) (i) : Turns (s.setCall i .idle) := h.setCall (False.elim ·)

theorem load_cases (s : ElevateState) (q) (env) :
    s.load q env = .idle ∨ ∃ ch, s.challenge = some ch ∧ ch.status = .pending ∧ s.load q env = .looking q ch := by
  unfold load
  cases hch : s.challenge with
  | none => exact .inl rfl
  | some ch =>
    simp only
    split
    · exact .inl rfl
    split
    · exact .inl rfl
    · rename_i hst
      split
      · exact .inl rfl
      · exact .inr ⟨ch, rfl, by simpa using hst, rfl⟩

theorem Turns.load (h : Turns s) (env) (hfree : ∀ j, ¬ (s.calls j).Loaded)
    (hlive : ∀ ch, s.challenge = some ch → ch.status = .pending → s.now ≤ ch.expiresAt) :
    Turns (s.setCall i (s.load q env)) := by
  rcases load_cases s q env with hidle | ⟨ch, hch, hst, hload⟩
  · rw [hidle]; exact h.drop i
  · rw [hload]
    have honly (j : Nat) (hj : ((s.setCall i (.looking q ch)).calls j).Loaded) : j = i := by
      by_contra hji
      simp only [ElevateState.setCall, update_of_ne hji] at hj
      exact hfree j hj
    refine ⟨fun j k hj hk => (honly j hj).trans (honly k hk).symm, ?_, h.source, h.served,
      h.sound.once, h.sound.timely, h.sound.subject⟩
    intro j hj
    rw [honly j hj]
    refine ⟨?_, ch, hch, hlive ch hch hst, ?_⟩
    · by_contra hlog
      obtain ⟨ch', hch', hst'⟩ := h.served hlog
      rw [hch] at hch'
      cases hch'
      exact hst' hst
    · simp only [ElevateState.setCall, update_self]
      exact ⟨rfl, rfl⟩

theorem Turns.mark (h : Turns s) {tok} (hc : s.calls i = .marking tok) :
    Turns { (s.setCall i .idle) with challenge := s.markCompleted tok, log := ⟨i, tok, s.now⟩ :: s.log } := by
  have hi : (s.calls i).Loaded := by rw [hc]; trivial
  obtain ⟨hlog, ch, hch, hnow, habout⟩ := h.loaded i hi
  rw [hc] at habout
  obtain ⟨src, hsrc, hsub, horg⟩ := h.source ch hch
  have hnone (j : Nat) : ¬ (update s.calls i .idle j).Loaded := by
    by_cases hj : j = i
    · subst hj; simp [ElevateCall.Loaded]
    · rw [update_of_ne hj]; exact fun hl => hj (h.solo j i hl hi)
  have hmark : s.markCompleted tok = some (if ch.status = .pending then
      { ch with status := .completed, elevatedToken := some tok } else ch) := by simp [markCompleted, hch]
  refine ⟨fun j k hj => absurd hj (hnone j), fun j hj => absurd hj (hnone j), ?_, fun _ => ?_, ?_, ?_, ?_⟩
  · intro ch' hch'
    simp only [hmark, Option.some.injEq] at hch'
    subst hch'
    split <;> exact ⟨src, hsrc, hsub, horg⟩
  · refine ⟨_, hmark, ?_⟩
    split
    · simp
    · assumption
  · simp [hlog]
  · intro r hr
    refine ⟨_, hmark, ?_⟩
    simp only [hlog, List.mem_singleton] at hr
    subst hr
    split <;> exact hnow
  · intro r hr
    simp only [hlog, List.mem_singleton] at hr
    subst hr
    refine ⟨src, hsrc, ?_, ?_⟩
    · rw [habout.1]; exact hsub
    · rw [habout.2]; exact horg

theorem Turns.verify (h : Turns s) {email} (hc : s.calls i = .verifying q ch email) (env) : Turns (s.verify d i q ch email env) := by
  have hsign : Turns (s.setCall i (.signing q ch email)) :=
    h.setCall fun _ => by rw [hc]; exact ⟨trivial, fun _ _ ha => ha⟩
  have hnext : Turns (s.setCall i (if env.factorOK then .signing q ch email else .idle)) := by
    split
    · exact hsign
    · exact h.drop i
  unfold ElevateState.verify
  simp only
  split
  · exact hnext
  split
  · have hwa : Turns (s.setCall i (if (s.waSession.get s.now).isSome = true then
        (if env.factorOK then .signing q ch email else .idle) else .idle)) := by
      split
      · exact hnext
      · exact h.drop i
    exact ⟨hwa.solo, hwa.loaded, hwa.source, hwa.served, hwa.sound.once, hwa.sound.timely, hwa.sound.subject⟩
  · exact h.drop i

theorem Turns.advance (h : Turns s) {env} (hok : InTurn d s (.advance i env)) : Turns (s.advance d i env) := by
  unfold ElevateState.advance
  cases hc : s.calls i with
  | idle => exact h
  | sweeping q =>
    cases hf : env.sweepFails with
    | true => exact h.setCall (False.elim ·)
    | false => exact h.gcExpired.setCall (False.elim ·)
  | loading q => exact h.load env (hok q hc).1 (hok q hc).2
  | looking q ch =>
    cases env.user with
    | none => exact h.drop i
    | some email => exact h.setCall fun _ => by rw [hc]; exact ⟨trivial, fun _ _ ha => ha⟩
  | verifying q ch email => exact h.verify hc env
  | signing q ch email =>
    cases hf : env.signFails with
    | true => exact h.drop i
    | false => exact h.setCall fun _ => by rw [hc]; exact ⟨trivial, fun _ _ ha => ha⟩
  | marking tok =>
    cases hf : env.markFails with
    | true => exact h.drop i
    | false => exact h.mark hc

theorem createChallenge_some {now q tok} (h : createChallenge d now q = some (ch, tok)) :
    tok.sub = some ch.userID ∧ tok.orgID = some ch.orgID := by
  unfold createChallenge at h
  split at h
  · cases h
  split at h
  · cases h
  split at h
  · cases h
  rename_i userID hsub
  split at h
  · cases h
  rename_i horg
  split at h
  · cases h
  split at h
  · cases h
  · cases h
    exact ⟨hsub, by simpa using horg⟩

theorem Turns.create (h : Turns s) {q} (hok : InTurn d s (.create q)) : Turns (elevateStep d s (.create q)) := by
  cases hch : s.challenge with
  | some ch => simp only [elevateStep, hch]; exact h
  | none =>
    cases hcr : createChallenge d s.now q with
    | none => simp only [elevateStep, hch, hcr]; exact h
    | some p =>
      obtain ⟨ch, tok⟩ := p
      simp only [elevateStep, hch, hcr, hok ch tok hcr]
      have hfree (i : Nat) : ¬ (s.calls i).Loaded := by
        intro hi
        obtain ⟨-, ch', hch', -⟩ := h.loaded i hi
        rw [hch] at hch'
        cases hch'
      have hlog : s.log = [] := by
        by_contra hlog
        obtain ⟨ch', hch', -⟩ := h.served hlog
        rw [hch] at hch'
        cases hch'
      refine ⟨fun i j hi => absurd hi (hfree i), fun i hi => absurd hi (hfree i), ?_, fun hne => absurd hlog hne,
        h.sound.once, ?_, ?_⟩
      · intro ch' hch'
        cases hch'
        exact ⟨tok, rfl, createChallenge_some hcr⟩
      · intro r hr; rw [hlog] at hr; cases hr
      · intro r hr; rw [hlog] at hr; cases hr

theorem Turns.step (h : Turns s) {a} (hok : InTurn d s a) : Turns (elevateStep d s a) := by
  cases a with
  | tick dt =>
    refine ⟨h.solo, fun i hi => ?_, h.source, h.served, h.sound.once, h.sound.timely, h.sound.subject⟩
    obtain ⟨hlog, ch, hch, -, habout⟩ := h.loaded i hi
    exact ⟨hlog, ch, hch, hok i ch hi hch, habout⟩
  | revoke jti ttl
  | beginWebAuthn => exact ⟨h.solo, h.loaded, h.source, h.served, h.sound.once, h.sound.timely, h.sound.subject⟩
  | create q => exact h.create hok
  | sweep => exact h.gcExpired
  | start i q =>
    cases hc : s.calls i with
    | idle =>
      simp only [elevateStep, hc]
      split
      · exact h.setCall (False.elim ·)
      · exact h
    | _ => simp only [elevateStep, hc]; exact h
  | advance i env => exact h.advance hok

end

structure ElevateState.Fresh (s : ElevateState) : Prop where
  challenge : s.challenge = none
  calls : ∀ i, s.calls i = .idle
  log : s.log = []

/-- In every run whose calls take turns, the challenge yields at most one token, in time
and for the right user. -/
theorem elevates_once {d : ElevateDeps} {s₀ s : ElevateState} {as : List ElevateMove} (h₀ : s₀.Fresh)
    (hrun : Trace (elevateStep d) (InTurn d) s₀ as s) : ElevatesOnce s := by
  have hidle (i : Nat) : ¬ (s₀.calls i).Loaded := by rw [h₀.calls i]; exact id
  have hinit : Turns s₀ := by
    refine ⟨fun i j hi => absurd hi (hidle i), fun i hi => absurd hi (hidle i), ?_, fun h => absurd h₀.log h, ?_⟩
    · intro ch hch; rw [h₀.challenge] at hch; cases hch
    · constructor <;> rw [h₀.log] <;> simp
  exact (hrun.inv Turns (fun s a hs hok => hs.step hok) hinit).sound

def elevateDemo : ElevateDeps :=
  ⟨⟨"https://id.acme.eu/acme", fun raw =>
    if raw = "at" then some { jti := "j1", sub := some 7, orgID := some 1, issuer := "https://id.acme.eu/acme", exp := some 3600 }
    else none⟩, true⟩

def noChallenge : ElevateState := ⟨0, fun _ => .empty, none, none, .empty, fun _ => .idle, []⟩

def createDemo : ElevateMove := .create { orgID := 1, bearerToken := "at", reason := "payout", credTypes := some ["totp"] }

def steps (n i : Nat) : List ElevateMove := List.replicate n (.advance i {})

def verifyAlone : List ElevateMove := createDemo :: .start 0 ⟨1, "totp"⟩ :: steps 6 0

/-- The second call finds the challenge completed. -/
def verifyAgain : List ElevateMove := verifyAlone ++ .start 0 ⟨1, "totp"⟩ :: steps 2 0

theorem elevates_once_alone : (run (elevateStep elevateDemo) noChallenge verifyAgain).log.length = 1 ∧
    (run (elevateStep elevateDemo) noChallenge verifyAgain).calls 0 = .idle ∧
    ElevatesOnce (run (elevateStep elevateDemo) noChallenge verifyAgain) := by
  have hrun : Trace (elevateStep elevateDemo) (InTurn elevateDemo) noChallenge verifyAgain
      (run (elevateStep elevateDemo) noChallenge verifyAgain) := by
    refine run_cons (fun _ _ _ => rfl) ?_
    repeat' apply run_cons
    all_goals first
      | exact run_nil _
      | exact trivial
      | intro q h; cases h; done
      | refine fun q _ => ⟨?_, fun ch hch _ => by cases hch; decide⟩
        rintro (_ | j) <;> exact id
  exact ⟨by decide +kernel, rfl, elevates_once ⟨rfl, fun _ => rfl, rfl⟩ hrun⟩

/-- Two calls load the challenge before either marks it, and each returns a token; the
sweep fails and a token is returned a second after the challenge expired; a challenge is
created and honoured with a revoked access token. -/
theorem elevation_out_of_turn :
    (∃ as s, Trace (elevateStep elevateDemo) (fun _ _ => True) noChallenge as s ∧ s.log.length = 2) ∧
    (∃ as s, Trace (elevateStep elevateDemo) (fun _ _ => True) noChallenge as s ∧
      (s.log.any fun r => s.challenge.any fun ch => decide (ch.expiresAt < r.time)) = true) ∧
    ∃ as s, Trace (elevateStep elevateDemo) (fun _ _ => True) noChallenge as s ∧
      s.log.length = 1 ∧ s.source.any (·.2) = true := by
  refine ⟨⟨createDemo :: .start 0 ⟨1, "totp"⟩ :: .start 1 ⟨1, "totp"⟩ :: (steps 2 0 ++ steps 2 1 ++ steps 4 0 ++ steps 4 1),
    _, run_all fun _ _ => trivial, by decide +kernel⟩,
    ⟨createDemo :: .tick 601 :: .start 0 ⟨1, "totp"⟩ :: .advance 0 { sweepFails := true } :: steps 5 0,
      _, run_all fun _ _ => trivial, by decide +kernel⟩,
    ⟨.revoke "j1" 3600 :: verifyAlone, _, run_all fun _ _ => trivial, by decide +kernel⟩⟩

end Clavex

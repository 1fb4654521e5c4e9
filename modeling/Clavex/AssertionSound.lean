import Clavex.Assertion

/-!
# Replays of signed assertions

Requests with assertions interleave while the clock runs and the cache fails now and
then. The key of a spent `jti` lapses at a time that is fixed by the dates of the
assertion (`replayKey`). An assertion is accepted once as long as its `jti` is checked
before that time. A JWT bearer grant is accepted for 30 seconds after its key has lapsed,
and whenever the cache fails.
-/

namespace Clavex

open Prog Option KeyStore

section
variable {K : Type} (L : JwtReader K)

/-! ## The protocol of a check -/

def replayKey : AssertionRequest K → Option (String × Int)
  | .bearer _ _ assertion => (L.parse assertion).bind fun t =>
    if t.jti = "" then none else t.exp.map fun exp => ("jwtbearer:jti:" ++ t.jti, exp)
  | .client _ _ _ _ _ assertion => (L.parse assertion).bind fun t =>
    if t.jti = "" then none else t.exp.map fun exp => ("ca:jti:" ++ t.jti, exp + 30 * second)
  | .attestation _ _ _ _ _ clientAssertion => (splitTilde clientAssertion).bind fun parts =>
    (L.parse parts.2).bind fun t => t.iat.map fun iat => ("pop:jti:" ++ t.jti, popDeadline iat t.exp)

def carriesJTI : AssertionRequest K → Bool
  | .bearer _ _ assertion | .client _ _ _ _ _ assertion => (L.parse assertion).any (·.jti ≠ "")
  | .attestation .. => true

def AssertionRequest.failsOpen : AssertionRequest K → Bool
  | .bearer .. => true
  | _ => false

inductive ReplayPhase where
  | reading
  | timed (now : Int)
  | passed
  | unchecked
  | refused

def ReplayPhase.Early : ReplayPhase → Prop
  | reading | timed _ => True
  | _ => False

def answeredPhase (q : AssertionRequest K) : CacheAnswer → ReplayPhase
  | .fresh => .passed
  | .alreadyUsed => .refused
  | .error => if q.failsOpen then .unchecked else .refused

inductive ReplayStep (q : AssertionRequest K) : ReplayPhase → (op : ReplayOp) → (op.Resp → ReplayPhase) → Prop
  | clock {φ} (h : φ.Early) : ReplayStep q φ .now ReplayPhase.timed
  | check {n key expires ttl} (hkey : replayKey L q = some (key, expires))
      (httl : n < expires → ttl = timeSub expires n) :
      ReplayStep q (.timed n) (.checkAndSet key ttl) (answeredPhase q)

def replayProtocol : Protocol (AssertionRequest K) ReplayOp ReplayOp.Resp := ⟨ReplayPhase, ReplayStep L⟩

def ReplayDone (q : AssertionRequest K) (φ : ReplayPhase) : Except AssertionErr AssertionReply → Prop
  | .ok _ => φ = .passed ∨ φ = .unchecked ∨ φ.Early ∧ carriesJTI L q = false
  | .error _ => True

variable {L} {q : AssertionRequest K} {φ : ReplayPhase}

theorem verifyNow_follows {α} {Q : ReplayPhase → Except AssertionErr α → Prop} (herr : ∀ ψ e, Q ψ (.error e))
    (hφ : φ.Early) (keySet raw code label) {g}
    (hg : ∀ n, (g ()).Follows (replayProtocol L) q Q (.timed n)) :
    (verifyNow L keySet raw code label >>= g).Follows (replayProtocol L) q Q φ := by
  refine .ask (.clock hφ) fun now => ?_
  exact .ofExcept (fun _ _ => hg now) fun _ _ => herr _ _

theorem replayTTL_eq {expires now} (h : now < expires) : replayTTL expires now = timeSub expires now := by
  have hpos : 0 < timeSub expires now := by
    unfold timeSub
    omega
  unfold replayTTL
  rw [if_neg (by omega)]

theorem validateJWTBearerGrant_follows (keySet tokenEndpoint assertion) :
    (serveAssertion L (.bearer keySet tokenEndpoint assertion)).Follows (replayProtocol L)
      (.bearer keySet tokenEndpoint assertion) (ReplayDone L (.bearer keySet tokenEndpoint assertion)) .reading := by
  have herr : ∀ ψ e, ReplayDone L (.bearer keySet tokenEndpoint assertion) ψ (.error e) := fun _ _ => trivial
  simp only [serveAssertion, validateJWTBearerGrant]
  cases ht : L.parse assertion with
  | none => exact trivial
  | some t =>
    simp only [Prog.bind_assoc]
    refine .require (fun _ => .require (fun _ => ?_) fun _ => trivial) fun _ => trivial
    cases he : t.exp with
    | none => exact trivial
    | some exp =>
      simp only [Prog.bind_assoc]
      refine verifyNow_follows (φ := .reading) herr trivial _ _ _ _ fun n => .require (fun _ => ?_) fun _ => trivial
      by_cases hj : t.jti = ""
      · -- without a `jti` nothing is asked
        rw [if_neg (fun h => h.2 hj)]
        exact .inr (.inr ⟨trivial, by simp [carriesJTI, ht, hj]⟩)
      · rw [if_pos ⟨trivial, hj⟩]
        simp only [call_bind, ask_bind]
        refine .ask (.clock trivial) fun now => ?_
        refine .ask (.check ?_ replayTTL_eq) fun answer => ?_
        · simp [replayKey, ht, he, if_neg hj]
        · rw [Prog.bind_assoc]
          refine .require (fun ha => ?_) fun _ => trivial
          cases answer with
          | fresh => exact .inl rfl
          | alreadyUsed => exact absurd rfl ha
          | error => exact .inr (.inl rfl)

theorem spendJTI_follows {α} {Q : ReplayPhase → Except AssertionErr α → Prop} (herr : ∀ ψ e, Q ψ (.error e))
    {n} {key} {expires ttl} (hkey : replayKey L q = some (key, expires))
    (httl : n < expires → ttl = timeSub expires n) (used) {g}
    (hg : (g ()).Follows (replayProtocol L) q Q .passed) :
    (spendJTI key ttl used >>= g).Follows (replayProtocol L) q Q (.timed n) := by
  refine .ask (.check hkey httl) fun answer => ?_
  cases answer with
  | fresh => exact hg
  | alreadyUsed | error => exact herr _ _

theorem validateClientAssertionJWTWithProfile_follows (keySet tokenEndpoint issuer profile extraAudiences assertion) :
    (serveAssertion L (.client keySet tokenEndpoint issuer profile extraAudiences assertion)).Follows (replayProtocol L)
      (.client keySet tokenEndpoint issuer profile extraAudiences assertion)
      (ReplayDone L (.client keySet tokenEndpoint issuer profile extraAudiences assertion)) .reading := by
  have herr : ∀ ψ e, ReplayDone L (.client keySet tokenEndpoint issuer profile extraAudiences assertion) ψ (.error e) :=
    fun _ _ => trivial
  simp only [serveAssertion, validateClientAssertionJWTWithProfile]
  cases ht : L.parse assertion with
  | none => exact trivial
  | some t =>
    simp only [Prog.bind_assoc]
    refine .require (fun _ => ?_) fun _ => trivial
    cases he : t.exp with
    | none => exact trivial
    | some exp =>
      simp only [Prog.bind_assoc]
      refine .ofExcept (fun _ _ => .require (fun _ => ?_) fun _ => trivial) fun _ _ => trivial
      refine verifyNow_follows (φ := .reading) herr trivial _ _ _ _ fun n => .require (fun _ => ?_) fun _ => trivial
      by_cases hj : t.jti = ""
      · rw [if_neg (fun h => h.2 hj)]
        exact .inr (.inr ⟨trivial, by simp [carriesJTI, ht, hj]⟩)
      · rw [if_pos ⟨trivial, hj⟩]
        simp only [call_bind, ask_bind, Prog.bind_assoc]
        refine .ask (.clock trivial) fun now => ?_
        refine spendJTI_follows herr ?_ replayTTL_eq _ (.inl rfl)
        simp [replayKey, ht, he, if_neg hj]

theorem validateAttestationPopJWT_follows {α} {Q : ReplayPhase → Except AssertionErr α → Prop}
    (herr : ∀ ψ e, Q ψ (.error e)) {n} (popKeySet tokenEndpoint issuer expectedClientID extraAudiences popJWT) (hkey : ∀ t iat, L.parse popJWT = some t → t.iat = some iat →
      replayKey L q = some ("pop:jti:" ++ t.jti, popDeadline iat t.exp)) {g}
    (hg : (g ()).Follows (replayProtocol L) q Q .passed) :
    (validateAttestationPopJWT L popKeySet tokenEndpoint issuer expectedClientID true extraAudiences popJWT >>= g).Follows
      (replayProtocol L) q Q (.timed n) := by
  unfold validateAttestationPopJWT
  cases ht : L.parse popJWT with
  | none => exact herr _ _
  | some t =>
    simp only [Prog.bind_assoc, call_bind, ask_bind]
    refine .require (fun _ => .require (fun _ => ?_) fun _ => herr _ _) fun _ => herr _ _
    refine .ask (.clock trivial) fun now => ?_
    cases hi : t.iat with
    | none => exact herr _ _
    | some iat =>
      simp only [Prog.bind_assoc]
      refine .require (fun _ => .require (fun _ => ?_) fun _ => herr _ _) fun _ => herr _ _
      refine verifyNow_follows (φ := .timed now) herr trivial _ _ _ _ fun n => ?_
      refine .require (fun _ => ?_) fun _ => herr _ _
      rw [if_pos trivial]
      simp only [ask_bind, Prog.bind_assoc]
      refine .ask (.clock trivial) fun now => .require (fun _ => ?_) fun _ => herr _ _
      exact spendJTI_follows herr (hkey t iat ht hi) (fun _ => rfl) _ hg

theorem validateAttestationAssertionJWT_follows (keySet tokenEndpoint issuer expectedClientID extraAudiences clientAssertion) :
    (serveAssertion L (.attestation keySet tokenEndpoint issuer expectedClientID extraAudiences clientAssertion)).Follows
      (replayProtocol L) (.attestation keySet tokenEndpoint issuer expectedClientID extraAudiences clientAssertion)
      (ReplayDone L (.attestation keySet tokenEndpoint issuer expectedClientID extraAudiences clientAssertion))
      .reading := by
  have herr : ∀ ψ e, ReplayDone L
      (.attestation keySet tokenEndpoint issuer expectedClientID extraAudiences clientAssertion) ψ (.error e) :=
    fun _ _ => trivial
  simp only [serveAssertion, validateAttestationAssertionJWT]
  cases hs : splitTilde clientAssertion with
  | none => exact trivial
  | some parts =>
    obtain ⟨attestJWT, popJWT⟩ := parts
    simp only [Prog.bind_assoc]
    refine .require (fun _ => ?_) fun _ => trivial
    cases ht : L.parse attestJWT with
    | none => exact trivial
    | some t =>
      simp only [Prog.bind_assoc]
      refine .require (fun _ => .require (fun _ => ?_) fun _ => trivial) fun _ => trivial
      refine verifyNow_follows (φ := .reading) herr trivial _ _ _ _ fun n => ?_
      refine .ofExcept (fun popKeySet _ => ?_) fun _ _ => trivial
      refine validateAttestationPopJWT_follows herr _ _ _ _ _ _ ?_ ?_
      · intro p iat hp hi
        simp [replayKey, hs, hp, hi]
      · exact .ofExcept (fun _ _ => .inl rfl) fun _ _ => trivial

theorem serveAssertion_follows (q) : (serveAssertion L q).Follows (replayProtocol L) q (ReplayDone L q) .reading := by
  cases q with
  | bearer keySet tokenEndpoint assertion => exact validateJWTBearerGrant_follows ..
  | client keySet tokenEndpoint issuer profile extraAudiences assertion =>
    exact validateClientAssertionJWTWithProfile_follows ..
  | attestation keySet tokenEndpoint issuer expectedClientID extraAudiences clientAssertion =>
    exact validateAttestationAssertionJWT_follows ..

end

/-! ## Accepted once -/

theorem replaySem_checkAndSet (env key ttl s) :
    (env = .up ∧ (s.setNX key ttl).1 = true ∧
      replaySem env (.checkAndSet key ttl) s = (CacheAnswer.fresh, (s.setNX key ttl).2)) ∨
    ∃ answer t, replaySem env (.checkAndSet key ttl) s = (answer, t) ∧ answer ≠ CacheAnswer.fresh ∧
      (answer = CacheAnswer.error → env ≠ .up) ∧ (t = s ∨ t = (s.setNX key ttl).2) := by
  cases env with
  | up =>
    simp only [replaySem]
    cases hnx : (s.setNX key ttl).1 with
    | true => exact .inl ⟨trivial, rfl, rfl⟩
    | false =>
      refine .inr ⟨_, _, rfl, ?_, ?_, .inr rfl⟩
      · exact nofun
      · exact nofun
  | down => exact .inr ⟨_, _, rfl, fun h => (by cases h), fun _ h => (by cases h), .inl rfl⟩
  | lost => exact .inr ⟨_, _, rfl, fun h => (by cases h), fun _ h => (by cases h), .inr rfl⟩

section
variable {K ι : Type} (L : JwtReader K) (ident : AssertionRequest K → Option ι) (key : ι → String) (window : ι → Int)

def passedAs : AssertionRequest K × ReplayPhase → Option ι
  | (q, .passed) => ident q
  | _ => none

def acceptedAs : AssertionRequest K × Except AssertionErr AssertionReply → Option ι
  | (q, .ok _) => ident q
  | _ => none

/-- What stands under the name `i` is checked before `window i`, and its key lasts as long: it is not
a duration away that saturates. A request that would be let through by a failure of the cache meets
none. -/
def CheckedInTime (s : KeyStore String) (env : CacheEnv) (q : AssertionRequest K) : Prop :=
  ∀ i k e, ident q = some i → replayKey L q = some (k, e) →
    (q.failsOpen = true → env = .up) ∧ s.now < window i ∧ window i ≤ e ∧ window i - s.now < 2 ^ 63

structure SharedKey : Prop where
  carried : ∀ {q i}, ident q = some i → carriesJTI L q = true
  key : ∀ {q i k e}, ident q = some i → replayKey L q = some (k, e) → k = key i

structure AssertionInv (s : KeyStore String) (th : Threads (AssertionRequest K) ReplayPhase)
    (log : List (AssertionRequest K × Except AssertionErr AssertionReply)) : Prop where
  once : Once (fun s i => KeyStore.Held s (key i) (window i)) (passedAs ident) (acceptedAs ident) s th log
  clock : ∀ {j q n}, th j = some (q, .timed n) → n ≤ s.now
  closed : ∀ {j q}, th j = some (q, .unchecked) → ident q = none

variable {L ident key window} {s t : KeyStore String} {th : Threads (AssertionRequest K) ReplayPhase} {j : Nat}
  {log : List (AssertionRequest K × Except AssertionErr AssertionReply)} {q : AssertionRequest K} {φ : ReplayPhase}

namespace AssertionInv

section
variable (h : AssertionInv ident key window s th log)
include h

theorem mono (hheld : ∀ k e, s.Held k e → t.Held k e) (hnow : s.now ≤ t.now) :
    AssertionInv ident key window t th log where
  once := h.once.mono fun _ => hheld _ _
  clock := fun hj => Int.le_trans (h.clock hj) hnow
  closed := h.closed

theorem goOn (hown : passedAs ident (q, φ) = none) (hclock : ∀ n, φ = .timed n → n ≤ s.now)
    (hclosed : φ = .unchecked → ident q = none) :
    AssertionInv ident key window s (Function.update th j (some (q, φ))) log where
  once := h.once.keep (.inl hown)
  clock := by
    intro i q' n hi
    rcases Once.update_cases hi with ⟨-, heq⟩ | ⟨-, hi⟩
    · cases heq
      exact hclock n rfl
    · exact h.clock hi
  closed := by
    intro i q' hi
    rcases Once.update_cases hi with ⟨-, heq⟩ | ⟨-, hi⟩
    · cases heq
      exact hclosed rfl
    · exact h.closed hi

theorem pass (hkey : SharedKey L ident key) {k e ttl} (hk : replayKey L q = some (k, e))
    (hnx : (s.setNX k ttl).1 = true) (hlast : ∀ i, ident q = some i → s.now < window i ∧ window i ≤ s.now + ttl) :
    AssertionInv ident key window (s.setNX k ttl).2 (Function.update th j (some (q, .passed))) log where
  once := by
    cases hq : ident q with
    | none => exact (h.once.mono fun _ hheld => hheld.setNX k ttl).keep (.inl hq)
    | some i =>
      obtain ⟨hlt, hle⟩ := hlast i hq
      obtain rfl := hkey.key hq hk
      refine h.once.take hq (not_held_of_setNX hnx hlt) (fun _ hheld => hheld.setNX _ _) ?_
      exact held_setNX hnx hle
  clock := by
    intro i q' n hi
    rcases Once.update_cases hi with ⟨-, heq⟩ | ⟨-, hi⟩
    · cases heq
    · rw [now_setNX]
      exact h.clock hi
  closed := by
    intro i q' hi
    rcases Once.update_cases hi with ⟨-, heq⟩ | ⟨-, hi⟩
    · cases heq
    · exact h.closed hi

end

end AssertionInv

variable {cond : KeyStore String → CacheEnv → AssertionRequest K → ReplayOp → Prop}

theorem assertionInv_kept (hkey : SharedKey L ident key)
    (hcond : ∀ {s env q k ttl}, cond s env q (.checkAndSet k ttl) → CheckedInTime L ident window s env q)
    (evs) :
    Kept (assertionSystem L) (replayProtocol L) (fun _ => .reading) (ReplayDone L) cond evs
      (AssertionInv ident key window) where
  start := fun q h _ => h.goOn rfl nofun nofun
  step := by
    intro s th log j q φ op f env h hj hstep hc
    cases hstep with
    | clock _ =>
      refine h.goOn rfl ?_ nofun
      intro n hn
      cases hn
      exact Int.le_refl _
    | @check n k e ttl hk httl =>
      have hin := hcond hc
      have hn := h.clock hj
      rcases replaySem_checkAndSet env k ttl s with ⟨-, hnx, hsem⟩ | ⟨answer, t, hsem, hfresh, herr, ht⟩
      · simp only [assertionSystem, hsem]
        refine h.pass hkey hk hnx fun i hi => ?_
        obtain ⟨-, hlt, hle, hfits⟩ := hin i k e hi hk
        refine ⟨hlt, ?_⟩
        rw [httl (by omega)]
        unfold timeSub
        omega
      · simp only [assertionSystem, hsem]
        have hmono : AssertionInv ident key window t th log := by
          rcases ht with rfl | rfl
          · exact h
          · exact h.mono (fun _ _ hheld => hheld.setNX k ttl) (by rw [now_setNX])
        cases answer with
        | fresh => exact absurd rfl hfresh
        | alreadyUsed => exact hmono.goOn rfl nofun nofun
        | error =>
          simp only [answeredPhase]
          cases hopen : q.failsOpen with
          | false => exact hmono.goOn rfl nofun nofun
          | true =>
            refine hmono.goOn rfl nofun fun _ => ?_
            cases hq : ident q with
            | none => rfl
            | some i => exact absurd ((hin i k e hq hk).1 hopen) (herr rfl)
  finish := by
    intro s th log j q φ r h hj hdone
    refine ⟨h.once.finish hj ?_, fun hi => h.clock (Once.update_none hi).2, fun hi => h.closed (Once.update_none hi).2⟩
    intro i hi
    cases r with
    | error e => cases hi
    | ok a =>
      have hq : ident q = some i := hi
      rcases hdone with rfl | rfl | ⟨-, hnone⟩
      · exact hq
      · rw [h.closed hj] at hq
        cases hq
      · rw [hkey.carried hq] at hnone
        cases hnone
  other := fun n _ h => h.mono (fun _ _ hheld => hheld.tick n) (Int.le_add_of_nonneg_right (Int.natCast_nonneg n))

theorem assertionInv_run (hkey : SharedKey L ident key)
    (hcond : ∀ {s env q k ttl}, cond s env q (.checkAndSet k ttl) → CheckedInTime L ident window s env q) {ms t}
    (hrun : Trace (assertionSystem L).step (Meets cond) (Pool.init s) ms t) :
    ∃ th, Tracks (replayProtocol L) (ReplayDone L) t.calls th ∧ AssertionInv ident key window t.store th t.log :=
  System.inv serveAssertion_follows (assertionInv_kept hkey hcond _) hrun
    ⟨Once.nil, fun h => (by cases h), fun h => (by cases h)⟩

end

/-! ## JWT bearer grants -/

def plainReader : JwtReader Unit where
  parse
    | "grant" => some
      { iss := "https://idp", sub := "alice", aud := ["https://id/acme/token"], jti := "j1", exp := some (1000 * second) }
    | "longer grant" => some
      { iss := "https://idp", sub := "alice", aud := ["https://id/acme/token"], jti := "j1", exp := some (2000 * second) }
    | "login" => some
      { iss := "web", sub := "web", aud := ["https://id/acme/token"], jti := "c1", exp := some (1000 * second) }
    | "undated login" => some
      { iss := "web", sub := "web", aud := ["https://id/acme/token"], jti := "c2", exp := some 0 }
    | "attestation" => some { sub := "wallet", cnf := some (.obj [("jwk", .obj [])]) }
    | "proof" => some { iss := "wallet", aud := ["https://id/acme/token"], jti := "p1", iat := some (1000 * second) }
    | _ => none
  verify _ raw now :=
    match raw with
    | "undated login" | "attestation" | "proof" => none
    | "longer grant" => if now < 2030 * second then none else some "\"exp\" not satisfied"
    | _ => if now < 1030 * second then none else some "\"exp\" not satisfied"
  parseJWS _ := none
  parseJWK _ := .ok ()
  thumbprint _ := .ok "jkt"

def bearerName {K : Type} (L : JwtReader K) : AssertionRequest K → Option (String × String)
  | .bearer _ _ assertion => (L.parse assertion).bind fun t => if t.jti = "" then none else some (t.iss, t.jti)
  | _ => none

/-- When the cache is asked for a `jti`, it answers, and it is earlier than `firstExp`, by less than
2^63 nanoseconds. This is no later than any `exp` that the issuer has put beside that `jti`. -/
def bearerInTime {K : Type} (L : JwtReader K) (firstExp : String → String → Int) (s : KeyStore String) (env : CacheEnv)
    (q : AssertionRequest K) : ReplayOp → Bool
  | .now => true
  | .checkAndSet .. =>
    match q with
    | .bearer _ _ assertion => (L.parse assertion).all fun t =>
      t.jti == "" || (env == .up && decide (s.now < firstExp t.iss t.jti ∧ firstExp t.iss t.jti - s.now < 2 ^ 63) &&
        t.exp.all fun exp => decide (firstExp t.iss t.jti ≤ exp))
    | _ => true

theorem bearerName_some {K} {L : JwtReader K} {q i} (h : bearerName L q = some i) :
    ∃ keySet tokenEndpoint assertion t, q = .bearer keySet tokenEndpoint assertion ∧ L.parse assertion = some t ∧
      t.jti ≠ "" ∧ i = (t.iss, t.jti) := by
  cases q with
  | bearer keySet tokenEndpoint assertion =>
    cases ht : L.parse assertion with
    | none => simp [bearerName, ht] at h
    | some t =>
      by_cases hj : t.jti = ""
      · simp [bearerName, ht, hj] at h
      · simp only [bearerName, ht, bind_some, if_neg hj, some.injEq] at h
        exact ⟨keySet, tokenEndpoint, assertion, t, rfl, ht, hj, h.symm⟩
  | client | attestation => cases h

theorem bearer_sharedKey {K} (L : JwtReader K) :
    SharedKey L (bearerName L) fun i => "jwtbearer:jti:" ++ i.2 where
  carried := by
    intro q i h
    obtain ⟨keySet, tokenEndpoint, assertion, t, rfl, ht, hj, -⟩ := bearerName_some h
    simp [carriesJTI, ht, hj]
  key := by
    intro q i k e h hk
    obtain ⟨keySet, tokenEndpoint, assertion, t, rfl, ht, hj, rfl⟩ := bearerName_some h
    simp only [replayKey, ht, bind_some, if_neg hj, map_eq_some_iff, Prod.mk.injEq] at hk
    obtain ⟨-, -, hk, -⟩ := hk
    exact hk.symm

theorem bearer_jti_accepted_once {K : Type} (L : JwtReader K) (firstExp : String → String → Int) (s : KeyStore String)
    (ms : List (PoolMove (AssertionRequest K) CacheEnv Nat))
    (t : Pool (AssertionRequest K) ReplayOp ReplayOp.Resp AssertionErr AssertionReply (KeyStore String))
    (hrun : Trace (assertionSystem L).step (Meets (bearerInTime L firstExp · · · ·)) (Pool.init s) ms t) :
    (t.log.filterMap (acceptedAs (bearerName L))).Nodup := by
  have hcond : ∀ {s env q k ttl}, bearerInTime L firstExp s env q (.checkAndSet k ttl) = true →
      CheckedInTime L (bearerName L) (fun i => firstExp i.1 i.2) s env q := by
    intro s env q k ttl hc i k' e hi hk
    obtain ⟨keySet, tokenEndpoint, assertion, t, rfl, ht, hj, rfl⟩ := bearerName_some hi
    simp only [replayKey, ht, bind_some, if_neg hj, map_eq_some_iff, Prod.mk.injEq] at hk
    obtain ⟨exp, hexp, -, rfl⟩ := hk
    simp only [bearerInTime, ht, hexp, all_some, Bool.or_eq_true, Bool.and_eq_true, beq_iff_eq, hj, false_or,
      decide_eq_true_eq] at hc
    exact ⟨fun _ => hc.1.1, hc.1.2.1, hc.2, hc.1.2.2⟩
  obtain ⟨th, -, hinv⟩ := assertionInv_run (bearer_sharedKey L) hcond hrun
  exact hinv.once.nodup

def assertionRun (now : Int) (ms : List (PoolMove (AssertionRequest Unit) CacheEnv Nat)) :
    Pool (AssertionRequest Unit) ReplayOp ReplayOp.Resp AssertionErr AssertionReply (KeyStore String) :=
  run (assertionSystem plainReader).step (Pool.init (.empty (now * second))) ms

def grantRequest (assertion : String) : AssertionRequest Unit := .bearer () "https://id/acme/token" assertion

def assertionAlone (i : Nat) (q : AssertionRequest Unit) (env : CacheEnv) :
    List (PoolMove (AssertionRequest Unit) CacheEnv Nat) :=
  [.start i q, .advance i .up, .advance i .up, .advance i env, .advance i .up]

def pause (seconds : Nat) : PoolMove (AssertionRequest Unit) CacheEnv Nat := .other (seconds * 1000000000)

theorem bearer_jti_accepted_once_in_time :
    let t := assertionRun 900 (assertionAlone 0 (grantRequest "grant") .up ++
      pause 90 :: assertionAlone 1 (grantRequest "grant") .up)
    t.log.filterMap (acceptedAs (bearerName plainReader)) = [("https://idp", "j1")] ∧
      (t.log.filterMap (acceptedAs (bearerName plainReader))).Nodup :=
  ⟨by decide +kernel, bearer_jti_accepted_once plainReader (fun _ _ => 1000 * second) _ _ _
    (Trace.of_checkRun (by decide +kernel))⟩

/-- Within the skew after `exp`, while the cache is away, and under a later `exp`. -/
theorem bearer_jti_accepted_twice :
    (assertionRun 900 (assertionAlone 0 (grantRequest "grant") .up ++
      pause 110 :: assertionAlone 1 (grantRequest "grant") .up)).log.filterMap (acceptedAs (bearerName plainReader)) =
        [("https://idp", "j1"), ("https://idp", "j1")] ∧
    (assertionRun 900 (assertionAlone 0 (grantRequest "grant") .down ++
      assertionAlone 1 (grantRequest "grant") .down)).log.filterMap (acceptedAs (bearerName plainReader)) =
        [("https://idp", "j1"), ("https://idp", "j1")] ∧
    (assertionRun 900 (assertionAlone 0 (grantRequest "grant") .up ++
      pause 100 :: assertionAlone 1 (grantRequest "longer grant") .up)).log.filterMap
        (acceptedAs (bearerName plainReader)) = [("https://idp", "j1"), ("https://idp", "j1")] := by
  decide +kernel

/-! ## Client assertions and proofs of possession -/

inductive SpentToken where
  | assertion (raw : String)
  | pop (raw : String)
  deriving DecidableEq

def spentToken {K : Type} (L : JwtReader K) : AssertionRequest K → Option SpentToken
  | .bearer .. => none
  | .client _ _ _ _ _ assertion => if (L.parse assertion).any (·.jti ≠ "") then some (.assertion assertion) else none
  | .attestation _ _ _ _ _ clientAssertion => (splitTilde clientAssertion).map fun parts => .pop parts.2

def SpentToken.key {K : Type} (L : JwtReader K) : SpentToken → String × Int
  | assertion raw => ((L.parse raw).map fun t => ("ca:jti:" ++ t.jti, t.exp.getD 0 + 30 * second)).getD ("", 0)
  | pop raw => ((L.parse raw).map fun t => ("pop:jti:" ++ t.jti, popDeadline (t.iat.getD 0) t.exp)).getD ("", 0)

def checkedInTime {K : Type} (L : JwtReader K) (s : KeyStore String) (_ : CacheEnv) (q : AssertionRequest K) :
    ReplayOp → Bool
  | .now => true
  | .checkAndSet .. => q.failsOpen || (replayKey L q).all fun x => decide (s.now < x.2 ∧ x.2 - s.now < 2 ^ 63)

theorem spentToken_key {K} {L : JwtReader K} {q} {i} {k} {e}
    (h : spentToken L q = some i) (hk : replayKey L q = some (k, e)) : i.key L = (k, e) ∧ q.failsOpen = false := by
  cases q with
  | bearer => cases h
  | client keySet tokenEndpoint issuer profile extraAudiences assertion =>
    cases ht : L.parse assertion with
    | none => simp [replayKey, ht] at hk
    | some t =>
      by_cases hj : t.jti = ""
      · simp [replayKey, ht, hj] at hk
      · simp only [replayKey, ht, bind_some, if_neg hj, map_eq_some_iff, Prod.mk.injEq] at hk
        obtain ⟨exp, hexp, rfl, rfl⟩ := hk
        simp only [spentToken, ht, any_some, hj, ne_eq, not_false_eq_true, decide_true, ite_true,
          some.injEq] at h
        subst h
        simp [SpentToken.key, ht, hexp, AssertionRequest.failsOpen]
  | attestation keySet tokenEndpoint issuer expectedClientID extraAudiences clientAssertion =>
    cases hs : splitTilde clientAssertion with
    | none => simp [replayKey, hs] at hk
    | some parts =>
      cases ht : L.parse parts.2 with
      | none => simp [replayKey, hs, ht] at hk
      | some t =>
        simp only [replayKey, hs, ht, bind_some, map_eq_some_iff, Prod.mk.injEq] at hk
        obtain ⟨iat, hiat, rfl, rfl⟩ := hk
        simp only [spentToken, hs, map_some, some.injEq] at h
        subst h
        simp [SpentToken.key, ht, hiat, AssertionRequest.failsOpen]

theorem spent_sharedKey {K} (L : JwtReader K) : SharedKey L (spentToken L) fun i => (i.key L).1 where
  carried := by
    intro q i h
    cases q with
    | bearer => cases h
    | client =>
      simp only [spentToken, ite_none_right_eq_some] at h
      exact h.1
    | attestation => rfl
  key := fun h hk => by rw [(spentToken_key h hk).1]

theorem refused_fails {K} {L} {q : AssertionRequest K} {p : ReplayProg AssertionReply}
    (h : p.Follows (replayProtocol L) q (ReplayDone L q) .refused) : ∃ e, p = .fail e := by
  cases p with
  | ret a => rcases h with h | h | ⟨h, -⟩ <;> cases h
  | fail e => exact ⟨e, rfl⟩
  | ask op k =>
    obtain ⟨f, hstep, -⟩ := h
    cases hstep with
    | clock he => exact he.elim

theorem failed_check_fails {K} {L : JwtReader K} {t th}
    (htracks : Tracks (replayProtocol L) (ReplayDone L) t.calls th) {i : Nat} {q} {key : String} {ttl}
    {env} (hnext : t.next i = some (q, .checkAndSet key ttl)) (hclosed : q.failsOpen = false)
    (henv : env ≠ .up) : ∃ e, ((assertionSystem L).step t (.advance i env)).calls i = some (q, .fail e) := by
  have hi := htracks i
  unfold Pool.next at hnext
  cases hcall : t.calls i with
  | none => rw [hcall] at hnext; cases hnext
  | some c =>
    obtain ⟨q', p⟩ := c
    rw [hcall] at hnext hi
    cases p with
    | ret a | fail e => cases hnext
    | ask op k =>
      cases hnext
      obtain ⟨φ, -, f, hstep, hk⟩ := hi
      have hsem : (replaySem env (.checkAndSet key ttl) t.store).1 = CacheAnswer.error := by
        cases env with
        | up => exact absurd rfl henv
        | down | lost => rfl
      cases hstep with
      | check hkey httl =>
        have hrefused := hk CacheAnswer.error
        simp only [answeredPhase, hclosed, Bool.false_eq_true, ite_false] at hrefused
        obtain ⟨e, he⟩ := refused_fails hrefused
        refine ⟨e, ?_⟩
        simp only [System.step, System.advance, hcall, Function.update_self]
        show some (q, k (replaySem env (.checkAndSet key ttl) t.store).1) = _
        rw [hsem, he]

theorem assertion_accepted_once {K : Type} (L : JwtReader K) (s : KeyStore String)
    (ms : List (PoolMove (AssertionRequest K) CacheEnv Nat))
    (t : Pool (AssertionRequest K) ReplayOp ReplayOp.Resp AssertionErr AssertionReply (KeyStore String))
    (hrun : Trace (assertionSystem L).step (Meets (checkedInTime L · · · ·)) (Pool.init s) ms t) :
    (t.log.filterMap (acceptedAs (spentToken L))).Nodup ∧
    ∀ i q key ttl env, t.next i = some (q, .checkAndSet key ttl) → q.failsOpen = false → env ≠ .up →
      ∃ e, ((assertionSystem L).step t (.advance i env)).calls i = some (q, .fail e) := by
  have hcond : ∀ {s env q k ttl}, checkedInTime L s env q (.checkAndSet k ttl) = true →
      CheckedInTime L (spentToken L) (fun i => (i.key L).2) s env q := by
    intro s env q k ttl hc i k' e hi hk
    obtain ⟨hkey, hclosed⟩ := spentToken_key hi hk
    simp only [checkedInTime, hclosed, hk, all_some, Bool.false_or, decide_eq_true_eq] at hc
    simp only [hkey]
    exact ⟨fun ho => (by rw [hclosed] at ho; cases ho), hc.1, Int.le_refl e, hc.2⟩
  obtain ⟨th, htracks, hinv⟩ := assertionInv_run (spent_sharedKey L) hcond hrun
  exact ⟨hinv.once.nodup, fun _ _ _ _ _ hnext hclosed henv => failed_check_fails htracks hnext hclosed henv⟩

def loginRequest (assertion : String) : AssertionRequest Unit :=
  .client () "https://id/acme/token" "https://id/acme" .standard [] assertion

def walletRequest : AssertionRequest Unit :=
  .attestation () "https://id/acme/token" "https://id/acme" "wallet" [] "attestation~proof"

def walletMoves (i : Nat) (wait : Nat) : List (PoolMove (AssertionRequest Unit) CacheEnv Nat) :=
  [.start i walletRequest, .advance i .up, .advance i .up, .advance i .up, .advance i .up, pause wait, .advance i .up,
    .advance i .up]

theorem assertion_accepted_once_in_time :
    let t := assertionRun 900 (assertionAlone 0 (loginRequest "login") .up ++
      pause 110 :: assertionAlone 1 (loginRequest "login") .up ++ assertionAlone 2 (loginRequest "login") .down ++
      walletMoves 3 0 ++ walletMoves 4 300)
    t.log.filterMap (acceptedAs (spentToken plainReader)) = [.pop "proof", .assertion "login"] ∧
      (t.log.filterMap (acceptedAs (spentToken plainReader))).Nodup :=
  ⟨by decide +kernel, (assertion_accepted_once plainReader _ _ _ (Trace.of_checkRun (by decide +kernel))).1⟩

/-- An assertion whose `exp` is the epoch, and two tokens that were delayed on the way to the
cache until their keys had lapsed. -/
theorem assertion_accepted_twice :
    (assertionRun 900 (assertionAlone 0 (loginRequest "undated login") .up ++
      pause 300 :: assertionAlone 1 (loginRequest "undated login") .up)).log.filterMap
        (acceptedAs (spentToken plainReader)) = [.assertion "undated login", .assertion "undated login"] ∧
    (assertionRun 900 (assertionAlone 0 (loginRequest "login") .up ++
      [.start 1 (loginRequest "login"), .advance 1 .up, .advance 1 .up, pause 130, .advance 1 .up, .advance 1 .up])
      ).log.filterMap (acceptedAs (spentToken plainReader)) = [.assertion "login", .assertion "login"] ∧
    (assertionRun 1000 (walletMoves 0 0 ++ walletMoves 1 330)).log.filterMap (acceptedAs (spentToken plainReader)) =
      [.pop "proof", .pop "proof"] := by
  decide +kernel

end Clavex

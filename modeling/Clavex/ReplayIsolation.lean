import Clavex.AssertionSound

/-!
# Clients and the replay cache

Token requests of several clients share one replay cache. Its keys are made of the `jti` alone,
so clients that choose the same `jti` do notice each other.
-/

namespace Clavex

open Prog

structure SameOn (D : String → Prop) (s t : KeyStore String) : Prop where
  now : s.now = t.now
  keys : ∀ k, D k → s.keys k = t.keys k

structure TimedAssertion (K : Type) where
  client : String
  time : Int
  env : CacheEnv
  assertion : AssertionRequest K

section
variable {K : Type} (L : JwtReader K)

def TimedAssertion.key (r : TimedAssertion K) : Option String := (replayKey L r.assertion).map (·.1)

def serveAt (s : KeyStore String) (r : TimedAssertion K) : Except AssertionErr AssertionReply × KeyStore String :=
  (serveAssertion L r.assertion).exec (replaySem r.env) { s with now := r.time }

def outcomes : KeyStore String → List (TimedAssertion K) → List (String × Except AssertionErr AssertionReply)
  | _, [] => []
  | s, r :: rs => (r.client, (serveAt L s r).1) :: outcomes (serveAt L s r).2 rs

def AsksOwn (r : TimedAssertion K) : ReplayOp → Prop
  | .now => True
  | .checkAndSet key _ => r.key L = some key

variable {L} {D : String → Prop} {s t : KeyStore String} {k : String} {r : TimedAssertion K}

theorem serveAssertion_uses (r) : (serveAssertion L r.assertion).Uses (AsksOwn L r) := by
  refine (serveAssertion_follows r.assertion).asks ?_
  intro φ op f hstep
  cases hstep with
  | clock => exact trivial
  | check hkey => simp [AsksOwn, TimedAssertion.key, hkey]

theorem SameOn.setNX (h : SameOn D s t) (hk : D k) (ttl) :
    (s.setNX k ttl).1 = (t.setNX k ttl).1 ∧ SameOn D (s.setNX k ttl).2 (t.setNX k ttl).2 := by
  unfold KeyStore.setNX
  rw [h.keys k hk, h.now]
  split
  · exact ⟨rfl, h⟩
  · refine ⟨rfl, rfl, fun x hx => ?_⟩
    by_cases hxk : x = k
    · simp [hxk]
    · simp [hxk, h.keys x hx]

theorem setNX_other (s : KeyStore String) {k k'} (h : k' ≠ k) (ttl) :
    (s.setNX k ttl).2.keys k' = s.keys k' := by
  rcases s.setNX_cases k ttl with heq | ⟨-, heq⟩
  · rw [heq]
  · simp [heq, h]

theorem serveAt_same (hD : ∀ k, r.key L = some k → D k) (h : ∀ k, D k → s.keys k = t.keys k) :
    (serveAt L s r).1 = (serveAt L t r).1 ∧ SameOn D (serveAt L s r).2 (serveAt L t r).2 := by
  refine (serveAssertion_uses r).exec_rel ?_ ⟨rfl, h⟩
  intro op s t hop h
  cases op with
  | now => exact ⟨h.now, h⟩
  | checkAndSet key ttl =>
    obtain ⟨hans, hset⟩ := h.setNX (hD _ hop) ttl
    cases r.env with
    | up => exact ⟨by simp [replaySem, hans], hset⟩
    | down => exact ⟨rfl, h⟩
    | lost => exact ⟨rfl, hset⟩

theorem serveAt_other (s) (h : r.key L ≠ some k) : (serveAt L s r).2.keys k = s.keys k := by
  have hkeep : ∀ env op u, AsksOwn L r op → u.keys k = s.keys k → (replaySem env op u).2.keys k = s.keys k := by
    intro env op u hop hu
    cases op with
    | now => exact hu
    | checkAndSet key ttl =>
      have hne : k ≠ key := fun hk => h (hop.trans (congrArg some hk.symm))
      cases env with
      | down => exact hu
      | up | lost => exact (setNX_other u hne ttl).trans hu
  exact ((serveAssertion_uses r).post hkeep (s := { s with now := r.time }) rfl).exec id fun _ _ => ⟨r.env, rfl, rfl⟩

theorem outcomes_same {c rs}
    (hD : ∀ r ∈ rs, ∀ k, r.key L = some k → (D k ↔ r.client = c)) (h : ∀ k, D k → s.keys k = t.keys k) :
    (outcomes L s rs).filter (·.1 == c) = outcomes L t (rs.filter (·.client == c)) := by
  induction rs generalizing s t with
  | nil => rfl
  | cons r rs ih =>
    rw [List.forall_mem_cons] at hD
    by_cases hc : r.client = c
    · obtain ⟨hans, hsame⟩ := serveAt_same (fun k hk => (hD.1 k hk).mpr hc) h
      simp [outcomes, hc, hans, ih hD.2 hsame.keys]
    · have hsame : ∀ k, D k → (serveAt L s r).2.keys k = t.keys k := fun k hk =>
        (serveAt_other s fun hr => hc ((hD.1 k hr).mp hk)).trans (h k hk)
      simp [outcomes, hc, ih hD.2 hsame]

end

/-- If no two clients use one replay key, then the requests of the others change nothing for
a client. -/
theorem client_outcomes_isolated {K : Type} (L : JwtReader K) (s : KeyStore String) (rs : List (TimedAssertion K))
    (c : String) (h : ∀ r ∈ rs, ∀ r' ∈ rs, ∀ k, r.key L = some k → r'.key L = some k → r.client = r'.client) :
    (outcomes L s rs).filter (·.1 == c) = outcomes L s (rs.filter (·.client == c)) := by
  refine outcomes_same (D := fun k => ∃ r ∈ rs, r.key L = some k ∧ r.client = c) ?_ fun _ _ => rfl
  intro r hr k hk
  refine ⟨fun hd => ?_, fun hc => ⟨r, hr, hk, hc⟩⟩
  obtain ⟨r', hr', hk', hc⟩ := hd
  exact (h r hr r' hr' k hk hk').trans hc

def namingReader (jti : String → String) : JwtReader Unit :=
  { plainReader with
    parse := fun c =>
      some { iss := c, sub := c, aud := ["https://id/acme/token"], jti := jti c, exp := some (1000 * second) } }

def loginOf (c : String) : TimedAssertion Unit := ⟨c, 0, .up, loginRequest c⟩

theorem client_outcomes_isolated_by_jti :
    (outcomes (namingReader id) (.empty 0) [loginOf "app", loginOf "web"]).filter (·.1 == "web") =
      outcomes (namingReader id) (.empty 0) ([loginOf "app", loginOf "web"].filter (·.client == "web")) :=
  client_outcomes_isolated _ _ _ _ (by simp [loginOf, loginRequest, TimedAssertion.key, replayKey, namingReader])

theorem client_outcomes_not_isolated :
    ¬∀ (L : JwtReader Unit) (s : KeyStore String) (rs : List (TimedAssertion Unit)) (c : String),
      (outcomes L s rs).filter (·.1 == c) = outcomes L s (rs.filter (·.client == c)) := by
  intro h
  have heq := h (namingReader fun _ => "1") (.empty 0) [loginOf "app", loginOf "web"] "web"
  exact absurd (congrArg (·.map (·.2.isOk)) heq) (by decide +kernel)

end Clavex

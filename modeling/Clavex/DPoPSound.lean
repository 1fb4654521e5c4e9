import Clavex.TokenEndpoint
import Clavex.Pool

/-!
# A DPoP proof is accepted once

Requests check their proofs in any interleaving while the clock runs. The key of a
spent `jti` lapses 300 seconds after the check, and a proof is read until 300 seconds
after its date: a proof dated ahead of the clock outlives its key. If no proof is
ahead when its `jti` is checked, and none is past its window, each is accepted once.
-/

namespace Clavex

open Prog Function

variable (d : OIDCHandler)

def Dated (header jti : String) (iat : Int) : Prop :=
  ∃ p c, d.proofs.parse header = some p ∧ p.payload = some c ∧ c.jti = jti ∧ c.iat = some iat

theorem Dated.unique {d header jti jti' iat iat'} (h : Dated d header jti iat)
    (h' : Dated d header jti' iat') : jti = jti' ∧ iat = iat' := by
  obtain ⟨p, c, hp, hc, rfl, hi⟩ := h
  obtain ⟨p', c', hp', hc', rfl, hi'⟩ := h'
  rw [hp] at hp'
  cases hp'
  rw [hc] at hc'
  cases hc'
  rw [hi] at hi'
  cases hi'
  exact ⟨rfl, rfl⟩

def ProofHeaders.header (q : ProofHeaders) : String := q.headers.headD ""

def issuedAt (header : String) : Option Int :=
  ((d.proofs.parse header).bind (·.payload)).bind (·.iat)

theorem Dated.issuedAt {d header jti iat} (h : Dated d header jti iat) : issuedAt d header = some iat := by
  obtain ⟨p, c, hp, hc, -, hi⟩ := h
  simp [Clavex.issuedAt, hp, hc, hi]

theorem parseDPoPProof_ok {d now header htm htu k}
    (h : parseDPoPProof d.proofs now header htm htu = .ok (some k)) : ∃ iat, Dated d header k.jti iat := by
  unfold parseDPoPProof at h
  split at h
  · cases h
  cases hp : d.proofs.parse header with
  | none => rw [hp] at h; cases h
  | some p =>
    rw [hp] at h
    cases hc : checkProof d.proofs now htm htu p with
    | error e => simp only [hc, Except.map] at h; cases h
    | ok k' =>
      simp only [hc, Except.map, Except.ok.injEq, Option.some.injEq] at h
      subst h
      obtain ⟨c, hpay, hiat, hjti⟩ := checkProof_ok hc
      obtain ⟨iat, hiat⟩ := Option.isSome_iff_exists.mp hiat
      exact ⟨iat, p, c, hp, hpay, hjti.symm, hiat⟩

/-! ## The protocol of a check -/

inductive ProofPhase where
  | reading
  | accepted

inductive ProofStep (d : OIDCHandler) (q : ProofHeaders) : ProofPhase → (op : TokenOp) → (op.Resp → ProofPhase) → Prop
  | clock : ProofStep d q .reading .now fun _ => .reading
  | check {jti iat} (h : Dated d q.header jti iat) :
      ProofStep d q .reading (.checkJTI jti) fun fresh => if fresh then .accepted else .reading

def proofProtocol : Protocol ProofHeaders TokenOp TokenOp.Resp := ⟨ProofPhase, ProofStep d⟩

def ProofDone (_ : ProofHeaders) (φ : ProofPhase) (r : Except TokenErr (Option DPoPKey)) : Prop :=
  ∀ k, r = .ok (some k) → φ = .accepted

theorem checkDPoP_follows (q) :
    (checkDPoP d q.headers q.htm q.htu).Follows (proofProtocol d) q (ProofDone q) .reading := by
  have quiet : ∀ {φ : ProofPhase} {e : TokenErr}, ProofDone q φ (.error e) := by
    intro φ e k h
    cases h
  refine .require (fun _ => ?_) fun _ => quiet
  refine .ask ProofStep.clock fun now => ?_
  refine .ofExcept (fun key hkey => ?_) fun _ _ => quiet
  have hread : parseDPoPProof d.proofs now q.header q.htm q.htu = .ok key := by
    show parseDPoPProof d.proofs now (q.headers.headD "") q.htm q.htu = .ok key
    cases hp : parseDPoPProof d.proofs now (q.headers.headD "") q.htm q.htu with
    | error e => rw [hp] at hkey; cases hkey
    | ok key' => rw [hp] at hkey; cases hkey; rfl
  cases key with
  | none =>
    intro k h
    cases h
  | some k =>
    obtain ⟨iat, hdated⟩ := parseDPoPProof_ok hread
    refine .ask (ProofStep.check hdated) fun fresh => ?_
    refine .require (fun hf => ?_) fun _ => quiet
    intro k' _
    simp [hf]

/-! ## Runs -/

inductive ClockEvent where
  | tick (seconds : Nat)

def dpopSystem :
    System ProofHeaders TokenOp TokenOp.Resp TokenErr (Option DPoPKey) TokenStore Env ClockEvent where
  main q := checkDPoP d q.headers q.htm q.htu
  sem := sem d
  other
    | .tick n, s => { s with now := s.now + n }

def freshAtCheck (s : TokenStore) (_ : Env) (q : ProofHeaders) : TokenOp → Bool
  | .checkJTI _ => (issuedAt d q.header).all fun iat => iat ≤ s.now && s.now < iat + dpopProofMaxAge
  | _ => true

def ProofSpent (s : TokenStore) (header : String) : Prop :=
  ∀ jti iat, Dated d header jti iat → ∀ τ, s.now ≤ τ → τ < iat + dpopProofMaxAge → (s.dpopJTIs jti).get τ ≠ none

def acceptedCall : ProofHeaders × ProofPhase → Option String
  | (q, .accepted) => some q.header
  | (_, .reading) => none

def acceptedProof : ProofHeaders × Except TokenErr (Option DPoPKey) → Option String
  | (q, .ok (some _)) => some q.header
  | _ => none

theorem sem_checkJTI (env jti s) :
    sem d env (.checkJTI jti) s = (false, s) ∨
    (s.dpopJTIs jti).get s.now = none ∧ sem d env (.checkJTI jti) s =
      (true, { s with dpopJTIs := update s.dpopJTIs jti (.set () (some (s.now + 300))) }) := by
  simp only [sem, TokenStore.setNX]
  cases env.fails with
  | true => exact .inl rfl
  | false =>
    cases hg : (s.dpopJTIs jti).get s.now with
    | some _ => exact .inl rfl
    | none => exact .inr ⟨rfl, rfl⟩

/-- Spending one `jti` does not bring another proof back: a key that has lapsed belongs to
proofs that are past their window. -/
theorem ProofSpent.checkJTI {d s jti header} (hnone : (s.dpopJTIs jti).get s.now = none)
    (h : ProofSpent d s header) :
    ProofSpent d { s with dpopJTIs := update s.dpopJTIs jti (.set () (some (s.now + 300))) } header := by
  intro jti' iat hdated τ hτ hlt
  by_cases hj : jti' = jti
  · subst hj
    have hle : s.now ≤ τ := hτ
    exact absurd hnone (h jti' iat hdated s.now (Int.le_refl _) (Int.lt_of_le_of_lt hle hlt))
  · simp only [update_of_ne hj]
    exact h jti' iat hdated τ hτ hlt

theorem proofSpent_kept (evs) :
    Kept (dpopSystem d) (proofProtocol d) (fun _ => .reading) ProofDone (freshAtCheck d · · · ·) evs
      (Once (ProofSpent d) acceptedCall acceptedProof) where
  start q h _ := h.keep (.inl rfl)
  step := by
    intro s th log i q φ op f env h hi hstep hcond
    cases hstep with
    | clock => exact h.keep (.inl rfl)
    | @check jti iat hdated =>
      rcases sem_checkJTI d env jti s with hsem | ⟨hnone, hsem⟩
      · simp only [dpopSystem, hsem]
        exact h.keep (.inl rfl)
      · simp only [dpopSystem, hsem]
        simp only [freshAtCheck, hdated.issuedAt, Option.all_some, Bool.and_eq_true, decide_eq_true_eq] at hcond
        obtain ⟨hahead, hwindow⟩ := hcond
        refine h.take rfl ?_ (fun _ hs => hs.checkJTI hnone) ?_
        · intro hspent
          exact hspent jti iat hdated s.now (Int.le_refl _) hwindow hnone
        · intro jti' iat' hdated' τ _ hlt
          obtain ⟨rfl, rfl⟩ := hdated.unique hdated'
          have hlive : τ < s.now + 300 := by
            unfold dpopProofMaxAge at hlt
            omega
          simp only [update_self]
          rw [Cell.get_set_some () hlive]
          exact Option.some_ne_none _
  finish := by
    intro s th log i q φ r h hi hdone
    refine h.finish hi fun k hk => ?_
    unfold acceptedProof at hk
    split at hk
    · rename_i q' key heq
      cases heq
      cases hk
      rw [hdone key rfl]
      rfl
    · cases hk
  other := by
    intro s th log e _ h
    cases e with
    | tick n =>
      refine h.mono fun header hs jti iat hdated τ hτ hlt => hs jti iat hdated τ ?_ hlt
      have hle : s.now + n ≤ τ := hτ
      omega

theorem dpop_proof_accepted_once (d : OIDCHandler) (s : TokenStore) {ms : List (PoolMove ProofHeaders Env ClockEvent)}
    {t : Pool ProofHeaders TokenOp TokenOp.Resp TokenErr (Option DPoPKey) TokenStore}
    (h : Trace (dpopSystem d).step (Meets (freshAtCheck d · · · ·)) (Pool.init s) ms t) :
    (t.log.filterMap acceptedProof).Nodup := by
  obtain ⟨th, -, hinv⟩ := System.inv (checkDPoP_follows d) (proofSpent_kept d _) h Once.nil
  exact hinv.nodup

def proofRequest : ProofHeaders := { headers := ["proof"], htu := "https://id/acme/token" }

def checkAlone (i : Nat) : List (PoolMove ProofHeaders Env ClockEvent) :=
  [.start i proofRequest, .advance i {}, .advance i {}, .advance i {}]

theorem dpop_proof_accepted_once_fresh :
    let t := run (dpopSystem plainHandler).step (Pool.init { now := 200 }) (checkAlone 0 ++ checkAlone 1)
    t.log.filterMap acceptedProof = ["proof"] ∧ (t.log.filterMap acceptedProof).Nodup :=
  ⟨by decide +kernel, dpop_proof_accepted_once plainHandler _ (Trace.of_checkRun (by decide +kernel))⟩

/-- A proof dated 200 seconds ahead is accepted again once its key has lapsed. -/
theorem proof_ahead_of_clock_accepted_twice :
    (run (dpopSystem plainHandler).step (Pool.init { now := 0 }) (checkAlone 0 ++ .other (.tick 300) :: checkAlone 1)
      ).log.filterMap acceptedProof = ["proof", "proof"] := by
  decide +kernel

end Clavex

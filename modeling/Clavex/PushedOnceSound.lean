import Clavex.PushedAuthSound

/-!
# Pushed requests are used once

`Authorize` reads the stored parameters with one command, deletes them with another and does
not look at what the deletion has done. So two requests that overlap may both go on. If every
deletion removes the hash, each `request_uri` is used at most once.
-/

namespace Clavex

open Prog Function

/-! ## Use as a protocol -/

def AuthorizeQuery.parKey (q : AuthorizeQuery) : String :=
  Clavex.parKey q.orgSlug (String.ofList ((param q.params "request_uri").toList.drop parURNPrefix.length))

inductive UsePhase where
  | idle
  | taken

inductive UseStep : AuthorizeQuery → UsePhase → (op : AuthzOp) → (op.Resp → UsePhase) → Prop
  | aside {q φ op} (h : op.calm = true) : UseStep q φ op fun _ => φ
  | take {q} : UseStep q .idle (.del q.parKey) fun _ => .taken

def useProtocol : Protocol AuthorizeQuery AuthzOp AuthzOp.Resp := ⟨UsePhase, UseStep⟩

def UseDone (φ : UsePhase) : Except AuthzErr Resolved → Prop
  | .ok r => r.parUsed = true → φ = .taken
  | .error _ => True

section
variable {K : Type} (h : PushHandler K) (q : AuthorizeQuery)

theorem pushedParams_follows :
    (pushedParams q (String.ofList ((param q.params "request_uri").toList.drop parURNPrefix.length))).Follows
      useProtocol q (fun φ r => r.isOk = true → φ = .taken) .idle := by
  simp only [pushedParams, call_bind]
  refine .ask (UseStep.aside rfl) fun stored => ?_
  cases Option.filter (fun m : GoMap String => decide (m.len ≠ 0)) stored with
  | none => intro h; cases h
  | some stored =>
    refine .require (fun _ => ?_) fun _ h => by cases h
    exact .ask UseStep.take fun _ _ => rfl

theorem requestURIParams_follows : (requestURIParams h q).Follows useProtocol q UseDone .idle := by
  unfold requestURIParams
  dsimp only
  split
  · exact nofun
  split
  · refine (pushedParams_follows q).bind (fun φ params hφ _ => hφ rfl) fun _ _ _ => trivial
  · split
    · refine .bind_uses (fun op hop => UseStep.aside hop) (fetchedParams_calm q _) (fun params => ?_)
        fun _ => trivial
      exact nofun
    · exact trivial

end

/-! ## Runs -/

inductive UseEvent (K : Type) where
  | tick (seconds : Nat)
  | operation (env : AuthzEnv K) (op : AuthzOp)

section
variable {K : Type} (h : PushHandler K)

def useEvent : UseEvent K → AuthzStore → AuthzStore
  | .tick n, s => { s with now := s.now + n }
  | .operation env op, s => (authzSem h env op s).2

def useSystem : System AuthorizeQuery AuthzOp AuthzOp.Resp AuthzErr Resolved AuthzStore (AuthzEnv K) (UseEvent K) where
  main := requestURIParams h
  sem := authzSem h
  other := useEvent h

abbrev UsePool := Pool AuthorizeQuery AuthzOp AuthzOp.Resp AuthzErr Resolved AuthzStore

abbrev UseMoves (K : Type) := List (PoolMove AuthorizeQuery (AuthzEnv K) (UseEvent K))

def useCond (s : AuthzStore) (env : AuthzEnv K) (_ : AuthorizeQuery) : AuthzOp → Bool
  | .del key => !env.fails && ((s.par key).get s.now).isSome
  | _ => true

def usedKey : AuthorizeQuery × Except AuthzErr Resolved → Option String
  | (q, .ok r) => if r.parUsed then some q.parKey else none
  | _ => none

def takenKey : AuthorizeQuery × UsePhase → Option String
  | (q, .taken) => some q.parKey
  | _ => none

def parSpent (s : AuthzStore) (key : String) : Prop := key ∈ s.parKeys ∧ (s.par key).entry = none

structure ParKept (s s' : AuthzStore) : Prop where
  drawn : (∀ key, (s.par key).entry ≠ none → key ∈ s.parKeys) → ∀ key, (s'.par key).entry ≠ none → key ∈ s'.parKeys
  spent : ∀ key, parSpent s key → parSpent s' key

variable {h} {s s' : AuthzStore}

theorem ParKept.of_eq (hpar : s'.par = s.par) (hkeys : s'.parKeys = s.parKeys) : ParKept s s' := by
  constructor
  · intro hdrawn
    rw [hpar, hkeys]
    exact hdrawn
  · intro key hspent
    unfold parSpent
    rw [hpar, hkeys]
    exact hspent

theorem ParKept.delete (key) : ParKept s { s with par := update s.par key .empty } := by
  constructor
  · intro hdrawn key' hentry
    by_cases hkey : key' = key
    · rw [hkey] at hentry
      simp only [update_self] at hentry
      exact absurd rfl hentry
    · simp only [update_of_ne hkey] at hentry
      exact hdrawn key' hentry
  · intro key' hspent
    refine ⟨hspent.1, ?_⟩
    by_cases hkey : key' = key
    · rw [hkey]
      simp only [update_self]
      rfl
    · simp only [update_of_ne hkey]
      exact hspent.2

theorem ParKept.store {key} (hnew : key ∉ s.parKeys) (cell) :
    ParKept s { s with par := update s.par key cell, parKeys := key :: s.parKeys } := by
  constructor
  · intro hdrawn key' hentry
    by_cases hkey : key' = key
    · rw [hkey]
      exact List.mem_cons_self ..
    · simp only [update_of_ne hkey] at hentry
      exact List.mem_cons_of_mem _ (hdrawn key' hentry)
  · intro key' hspent
    have hkey : key' ≠ key := fun heq => hnew (heq ▸ hspent.1)
    refine ⟨List.mem_cons_of_mem _ hspent.1, ?_⟩
    simp only [update_of_ne hkey]
    exact hspent.2

theorem authzSem_parKept (env op) : ParKept s (authzSem h env op s).2 := by
  have hcalm : op.calm = true → ParKept s (authzSem h env op s).2 := by
    intro hop
    have hsame := authzSem_same h env op s hop
    exact .of_eq hsame.par hsame.parKeys
  cases op with
  | del key =>
    simp only [authzSem]
    split
    · exact .of_eq rfl rfl
    · exact .delete key
  | storePAR orgSlug params =>
    simp only [authzSem]
    split
    · exact .of_eq rfl rfl
    · rename_i hnew
      exact .store (fun hmem => hnew (.inr hmem)) _
  | createCode ac | saveLogin sess =>
    simp only [authzSem]
    split <;> exact .of_eq rfl rfl
  | _ => exact hcalm rfl

theorem useEvent_parKept (e) : ParKept s (useEvent h e s) := by
  cases e with
  | tick n => exact .of_eq rfl rfl
  | operation env op => exact authzSem_parKept env op

structure UseInv (s : AuthzStore) (th : Threads AuthorizeQuery UsePhase)
    (log : List (AuthorizeQuery × Except AuthzErr Resolved)) : Prop where
  drawn : ∀ key, (s.par key).entry ≠ none → key ∈ s.parKeys
  once : Once parSpent takenKey usedKey s th log

variable {th : Threads AuthorizeQuery UsePhase} {log : List (AuthorizeQuery × Except AuthzErr Resolved)}

theorem UseInv.mono (hi : UseInv s th log) (hk : ParKept s s') : UseInv s' th log :=
  ⟨hk.drawn hi.drawn, hi.once.mono hk.spent⟩

theorem useInv_kept (h : PushHandler K) (evs) :
    Kept (useSystem h) useProtocol (fun _ => .idle) (fun _ => UseDone) (useCond · · · ·) evs UseInv where
  start := fun _ hi _ => ⟨hi.drawn, hi.once.keep (.inl rfl)⟩
  step := by
    intro s th log i q φ op f env hi hth hstep hcond
    have hkept : ParKept s (authzSem h env op s).2 := authzSem_parKept env op
    cases hstep with
    | aside hop => exact ⟨hkept.drawn hi.drawn, (hi.once.mono hkept.spent).keep (.inr ⟨(q, φ), hth, rfl⟩)⟩
    -- the deletion finds the hash, so nobody has taken it, and leaves nothing behind
    | take =>
      simp only [useCond, Bool.and_eq_true, Bool.not_eq_true'] at hcond
      obtain ⟨hworks, hthere⟩ := hcond
      obtain ⟨params, hget⟩ := Option.isSome_iff_exists.mp hthere
      obtain ⟨e, hentry⟩ := Cell.entry_of_get hget
      have hne : (s.par q.parKey).entry ≠ none := by
        rw [hentry]
        exact Option.some_ne_none _
      have hgone : parSpent (authzSem h env (.del q.parKey) s).2 q.parKey := by
        simp only [authzSem, hworks, Bool.false_eq_true, ite_false]
        refine ⟨hi.drawn _ hne, ?_⟩
        simp only [update_self]
        rfl
      exact ⟨hkept.drawn hi.drawn, hi.once.take rfl (fun hspent => hne hspent.2) hkept.spent hgone⟩
  finish := by
    intro s th log i q φ r hi hth hdone
    refine ⟨hi.drawn, hi.once.finish hth ?_⟩
    intro k hk
    cases r with
    | error e => cases hk
    | ok r =>
      simp only [usedKey] at hk
      split at hk
      · rename_i hused
        rw [show φ = .taken from hdone hused]
        exact hk
      · cases hk
  other := fun e _ hi => hi.mono (useEvent_parKept e)

end

/-- In a run in which every deletion removes the hash, no two requests go on with the parameters
of one pushed request. -/
theorem pushed_request_used_once {K : Type} (h : PushHandler K) (s : AuthzStore) (ms : UseMoves K) (t : UsePool)
    (hrun : Trace (useSystem h).step (Meets (useCond · · · ·)) (Pool.init { s with par := fun _ => .empty }) ms t) :
    (t.log.filterMap usedKey).Nodup := by
  have hstart : UseInv { s with par := fun _ => .empty } (fun _ => none) [] := by
    refine ⟨fun key hne => ?_, Once.nil⟩
    exact absurd rfl hne
  obtain ⟨th, -, hinv⟩ := System.inv (requestURIParams_follows h) (useInv_kept h _) hrun hstart
  exact hinv.once.nodup

/-! ## Two browsers -/

def useQuery : AuthorizeQuery := { orgSlug := "acme", params := GoMap.ofMembers [("request_uri", parURNPrefix ++ "tok")] }

def useRun (ms : UseMoves Unit) : UsePool := run (useSystem pushHandler).step (Pool.init { toTokenStore := plainStore }) ms

def useEnv : AuthzEnv Unit := { jar := jarEnv, plain := "tok" }

def pushed (ms : UseMoves Unit) : UseMoves Unit :=
  .other (.operation useEnv (.storePAR "acme" (GoMap.ofMembers [("client_id", "app")]))) ::
    .start 0 useQuery :: .start 1 useQuery :: ms

def usesInTurn : UseMoves Unit :=
  pushed [.advance 0 useEnv, .advance 0 useEnv, .advance 0 useEnv, .advance 1 useEnv, .advance 1 useEnv]

theorem pushed_request_used_once_in_turn : (useRun usesInTurn).log.length = 2 ∧
    (useRun usesInTurn).log.filterMap usedKey = ["par:acme:tok"] ∧
    ((useRun usesInTurn).log.filterMap usedKey).Nodup := by
  refine ⟨by decide +kernel, by decide +kernel, ?_⟩
  exact pushed_request_used_once pushHandler { toTokenStore := plainStore } usesInTurn (useRun usesInTurn)
    (Trace.of_checkRun (by decide +kernel))

def usesOverlap : UseMoves Unit :=
  pushed [.advance 0 useEnv, .advance 1 useEnv, .advance 0 useEnv, .advance 1 useEnv, .advance 0 useEnv, .advance 1 useEnv]

theorem pushed_request_used_twice :
    (useRun usesOverlap).log.filterMap usedKey = ["par:acme:tok", "par:acme:tok"] := by
  decide +kernel

end Clavex

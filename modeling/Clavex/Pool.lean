import Clavex.Prog
import Clavex.Trace
import Mathlib.Logic.Function.Basic
import Mathlib.Data.List.Nodup

/-!
# Interleaved programs

A pool runs any number of calls against one store. A move starts a call, carries
out the next operation of one, or changes the store from outside. An invariant of
the pool speaks of the store, of the phase every call has reached in a protocol,
and of the log of results. It is kept if the protocol's steps keep it
(`System.inv`), however the calls interleave.
-/

namespace Clavex

open List Function

structure Pool (Req Op : Type) (Resp : Op → Type) (ε α σ : Type) where
  store : σ
  calls : Nat → Option (Req × Prog Op Resp ε α)
  log : List (Req × Except ε α)

inductive PoolMove (Req Env Ev : Type) where
  | start (i : Nat) (q : Req)
  | advance (i : Nat) (env : Env)
  | other (e : Ev)

/-- `sem env op s` carries out `op`; `env` is what the operation meets, such as a failure. -/
structure System (Req Op : Type) (Resp : Op → Type) (ε α σ Env Ev : Type) where
  main : Req → Prog Op Resp ε α
  sem : Env → (op : Op) → σ → Resp op × σ
  other : Ev → σ → σ

section
variable {Req Op : Type} {Resp : Op → Type} {ε α σ Env Ev : Type}

def Pool.init (s : σ) : Pool Req Op Resp ε α σ := ⟨s, fun _ => none, []⟩

namespace System

def advance (S : System Req Op Resp ε α σ Env Ev) (p : Pool Req Op Resp ε α σ) (i : Nat) (env : Env) :
    Pool Req Op Resp ε α σ :=
  match p.calls i with
  | none => p
  | some (q, .ret a) => { p with calls := Function.update p.calls i none, log := (q, .ok a) :: p.log }
  | some (q, .fail e) => { p with calls := Function.update p.calls i none, log := (q, .error e) :: p.log }
  | some (q, .ask op k) =>
    { p with
      store := (S.sem env op p.store).2
      calls := Function.update p.calls i (some (q, k (S.sem env op p.store).1)) }

def step (S : System Req Op Resp ε α σ Env Ev) (p : Pool Req Op Resp ε α σ) :
    PoolMove Req Env Ev → Pool Req Op Resp ε α σ
  | .start i q =>
    match p.calls i with
    | none => { p with calls := Function.update p.calls i (some (q, S.main q)) }
    | some _ => p
  | .advance i env => S.advance p i env
  | .other e => { p with store := S.other e p.store }

end System

def Pool.next (p : Pool Req Op Resp ε α σ) (i : Nat) : Option (Req × Op) :=
  match p.calls i with
  | some (q, .ask op _) => some (q, op)
  | _ => none

/-- Every operation carried out meets `cond` in the store before it. -/
def Meets (cond : σ → Env → Req → Op → Prop) (p : Pool Req Op Resp ε α σ) : PoolMove Req Env Ev → Prop
  | .advance i env =>
    match p.next i with
    | some (q, op) => cond p.store env q op
    | none => True
  | _ => True

instance {cond : σ → Env → Req → Op → Prop} [∀ s env q op, Decidable (cond s env q op)]
    (p : Pool Req Op Resp ε α σ) (m : PoolMove Req Env Ev) : Decidable (Meets cond p m) :=
  match m with
  | .start .. | .other _ => .isTrue trivial
  | .advance i env =>
    match h : p.next i with
    | some (q, op) => decidable_of_iff (cond p.store env q op) (by simp [Meets, h])
    | none => .isTrue (by simp [Meets, h])

theorem Meets.always (p : Pool Req Op Resp ε α σ) (m : PoolMove Req Env Ev) : Meets (fun _ _ _ _ => True) p m := by
  cases m with
  | advance i env =>
    simp only [Meets]
    split <;> trivial
  | _ => trivial

theorem Meets.mono {cond cond' : σ → Env → Req → Op → Prop} {p : Pool Req Op Resp ε α σ} {m : PoolMove Req Env Ev}
    (hc : ∀ s env q op, cond s env q op → cond' s env q op) (h : Meets cond p m) : Meets cond' p m := by
  cases m with
  | advance i env =>
    simp only [Meets] at h ⊢
    split at h
    · exact hc _ _ _ _ h
    · exact trivial
  | _ => trivial

abbrev Threads (Req Phase : Type) := Nat → Option (Req × Phase)

def Tracks (P : Protocol Req Op Resp) (Q : Req → P.Phase → Except ε α → Prop)
    (calls : Nat → Option (Req × Prog Op Resp ε α)) (th : Threads Req P.Phase) : Prop :=
  ∀ i, match calls i with
    | none => th i = none
    | some (q, p) => ∃ φ, th i = some (q, φ) ∧ p.Follows P q (Q q) φ

theorem Tracks.update {P : Protocol Req Op Resp} {Q : Req → P.Phase → Except ε α → Prop}
    {calls : Nat → Option (Req × Prog Op Resp ε α)} {th : Threads Req P.Phase} (h : Tracks P Q calls th) (i : Nat)
    {q : Req} {p : Prog Op Resp ε α} {φ : P.Phase} (hp : p.Follows P q (Q q) φ) :
    Tracks P Q (update calls i (some (q, p))) (update th i (some (q, φ))) := by
  intro j
  by_cases hj : j = i
  · subst hj
    simp only [update_self]
    exact ⟨φ, rfl, hp⟩
  · simp only [update_of_ne hj]
    exact h j

theorem Tracks.erase {P : Protocol Req Op Resp} {Q : Req → P.Phase → Except ε α → Prop}
    {calls : Nat → Option (Req × Prog Op Resp ε α)} {th : Threads Req P.Phase} (h : Tracks P Q calls th) (i : Nat) :
    Tracks P Q (Function.update calls i none) (Function.update th i none) := by
  intro j
  by_cases hj : j = i
  · subst hj; simp only [update_self]
  · simp only [update_of_ne hj]
    exact h j

structure KeptIf (S : System Req Op Resp ε α σ Env Ev) (P : Protocol Req Op Resp) (init : Req → P.Phase)
    (Q : Req → P.Phase → Except ε α → Prop) (ok : Pool Req Op Resp ε α σ → PoolMove Req Env Ev → Prop)
    (I : σ → Threads Req P.Phase → List (Req × Except ε α) → Prop) : Prop where
  start : ∀ {p th i} (q : Req), ok p (.start i q) → Tracks P Q p.calls th → I p.store th p.log → th i = none →
    I p.store (Function.update th i (some (q, init q))) p.log
  step : ∀ {p th i q φ op f} (env : Env), ok p (.advance i env) → p.next i = some (q, op) → I p.store th p.log →
    th i = some (q, φ) → P.Step q φ op f →
    I (S.sem env op p.store).2 (Function.update th i (some (q, f (S.sem env op p.store).1))) p.log
  finish : ∀ {s th log i q φ r}, I s th log → th i = some (q, φ) → Q q φ r → I s (Function.update th i none) ((q, r) :: log)
  other : ∀ {p th} (e : Ev), ok p (.other e) → Tracks P Q p.calls th → I p.store th p.log → I (S.other e p.store) th p.log

structure Kept (S : System Req Op Resp ε α σ Env Ev) (P : Protocol Req Op Resp) (init : Req → P.Phase)
    (Q : Req → P.Phase → Except ε α → Prop) (cond : σ → Env → Req → Op → Prop) (evs : Ev → Prop)
    (I : σ → Threads Req P.Phase → List (Req × Except ε α) → Prop) : Prop where
  start : ∀ {s th log i} (q : Req), I s th log → th i = none → I s (Function.update th i (some (q, init q))) log
  step : ∀ {s th log i q φ op f} (env : Env), I s th log → th i = some (q, φ) → P.Step q φ op f → cond s env q op →
    I (S.sem env op s).2 (Function.update th i (some (q, f (S.sem env op s).1))) log
  finish : ∀ {s th log i q φ r}, I s th log → th i = some (q, φ) → Q q φ r → I s (Function.update th i none) ((q, r) :: log)
  other : ∀ {s th log} (e : Ev), evs e → I s th log → I (S.other e s) th log

variable {S : System Req Op Resp ε α σ Env Ev} {P : Protocol Req Op Resp} {init : Req → P.Phase}
  {Q : Req → P.Phase → Except ε α → Prop} {cond : σ → Env → Req → Op → Prop} {evs : Ev → Prop}
  {I : σ → Threads Req P.Phase → List (Req × Except ε α) → Prop} {ms : List (PoolMove Req Env Ev)}
  {p t : Pool Req Op Resp ε α σ} {th : Threads Req P.Phase} {s : σ} {ok : Pool Req Op Resp ε α σ → PoolMove Req Env Ev → Prop}

theorem Kept.keptIf (hI : Kept S P init Q cond (fun e => .other e ∈ ms) I) :
    KeptIf S P init Q (fun p m => Meets cond p m ∧ m ∈ ms) I where
  start q _ _ h hi := hI.start q h hi
  step env hok hnext h hi hs := by
    have hmeets := hok.1
    simp only [Meets, hnext] at hmeets
    exact hI.step env h hi hs hmeets
  finish := hI.finish
  other e hok _ h := hI.other e hok.2 h

theorem System.inv_advance (hI : KeptIf S P init Q ok I) {i : Nat} {env : Env} (hok : ok p (.advance i env))
    (ht : Tracks P Q p.calls th) (h : I p.store th p.log) :
    ∃ th', Tracks P Q (S.advance p i env).calls th' ∧ I (S.advance p i env).store th' (S.advance p i env).log := by
  have hi := ht i
  unfold System.advance
  cases hcall : p.calls i with
  | none => exact ⟨th, ht, h⟩
  | some c =>
    obtain ⟨q, pr⟩ := c
    rw [hcall] at hi
    obtain ⟨φ, hφ, hf⟩ := hi
    cases pr with
    | ret a | fail e => exact ⟨_, ht.erase i, hI.finish h hφ hf⟩
    | ask op k =>
      obtain ⟨f, hs, hk⟩ := hf
      have hnext : p.next i = some (q, op) := by simp [Pool.next, hcall]
      exact ⟨_, ht.update i (hk _), hI.step env hok hnext h hφ hs⟩

section
variable (hmain : ∀ q, (S.main q).Follows P q (Q q) (init q))
include hmain

theorem System.inv_if (hI : KeptIf S P init Q ok I) (h : Trace S.step ok p ms t) (hth : Tracks P Q p.calls th)
    (h0 : I p.store th p.log) : ∃ th', Tracks P Q t.calls th' ∧ I t.store th' t.log := by
  refine Trace.inv (fun p => ∃ th, Tracks P Q p.calls th ∧ I p.store th p.log) ?_ h ⟨th, hth, h0⟩
  rintro p m ⟨th, ht, hi⟩ hok
  cases m with
  | start i q =>
    have hti := ht i
    cases hcall : p.calls i with
    | none =>
      rw [hcall] at hti
      simp only [System.step, hcall]
      exact ⟨_, ht.update i (hmain q), hI.start q hok ht hi hti⟩
    | some c =>
      simp only [System.step, hcall]
      exact ⟨th, ht, hi⟩
  | advance i env => exact System.inv_advance hI hok ht hi
  | other e => exact ⟨th, ht, hI.other e hok ht hi⟩

theorem System.inv_from (hI : Kept S P init Q cond (fun e => .other e ∈ ms) I) (h : Trace S.step (Meets cond) p ms t)
    (hth : Tracks P Q p.calls th) (h0 : I p.store th p.log) : ∃ th', Tracks P Q t.calls th' ∧ I t.store th' t.log :=
  System.inv_if hmain hI.keptIf h.mem hth h0

theorem System.inv (hI : Kept S P init Q cond (fun e => .other e ∈ ms) I)
    (h : Trace S.step (Meets cond) (Pool.init s) ms t) (h0 : I s (fun _ => none) []) :
    ∃ th, Tracks P Q t.calls th ∧ I t.store th t.log :=
  System.inv_from hmain hI h (fun _ => rfl) h0

end

/-! ## What operations keep -/

theorem System.always {J : σ → Prop} (hsem : ∀ env q op s, cond s env q op → J s → J (S.sem env op s).2)
    (hother : ∀ e s, .other e ∈ ms → J s → J (S.other e s)) (h : Trace S.step (Meets cond) p ms t) (hp : J p.store) :
    J t.store := by
  refine Trace.inv (fun p : Pool Req Op Resp ε α σ => J p.store) ?_ h.mem hp
  intro p m hJ hm
  cases m with
  | start i q =>
    simp only [System.step]
    split <;> exact hJ
  | other e => exact hother e _ hm.2 hJ
  | advance i env =>
    have hmeets := hm.1
    simp only [System.step, System.advance]
    cases hcall : p.calls i with
    | none => exact hJ
    | some c =>
      obtain ⟨q, pr⟩ := c
      cases pr with
      | ret a | fail e => exact hJ
      | ask op k =>
        have hnext : p.next i = some (q, op) := by simp [Pool.next, hcall]
        simp only [Meets, hnext] at hmeets
        exact hsem env q op p.store hmeets hJ

/-! ## Where a run has been -/

def Visits (S : System Req Op Resp ε α σ Env Ev) (s : σ) (ms : List (PoolMove Req Env Ev)) (u : σ) : Prop :=
  ∃ bs, bs <+: ms ∧ (run S.step (Pool.init s) bs).store = u

theorem System.visits (h : Trace S.step (Meets cond) (Pool.init s) ms t) :
    Trace S.step (Meets fun u env q op => cond u env q op ∧ Visits S s ms u ∧ Visits S s ms (S.sem env op u).2)
      (Pool.init s) ms t := by
  refine h.visited.mono ?_
  intro p m hm
  obtain ⟨hmeets, bs, hbs, hp⟩ := hm
  cases m with
  | start i q | other e => exact trivial
  | advance i env =>
    cases hcall : p.calls i with
    | none => simp [Meets, Pool.next, hcall]
    | some c =>
      obtain ⟨q, pr⟩ := c
      cases pr with
      | ret a | fail e => simp [Meets, Pool.next, hcall]
      | ask op k =>
        simp only [Meets, Pool.next, hcall] at hmeets ⊢
        refine ⟨hmeets, ⟨bs, (prefix_append bs _).trans hbs, by rw [← hp]⟩, bs ++ [.advance i env], hbs, ?_⟩
        have hstep : run S.step (Pool.init s) (bs ++ [.advance i env]) = S.advance p i env := by
          rw [hp]
          simp [run, System.step]
        rw [hstep]
        simp [System.advance, hcall]

/-! ## Calls one after the other -/

def TracksOne (P : Protocol Req Op Resp) (Q : Req → P.Phase → Except ε α → Prop) :
    Option (Req × Prog Op Resp ε α) → Option (Req × P.Phase) → Prop
  | none, c => c = none
  | some (q, p), c => ∃ φ, c = some (q, φ) ∧ p.Follows P q (Q q) φ

structure KeptOne (S : System Req Op Resp ε α σ Env Ev) (P : Protocol Req Op Resp) (init : Req → P.Phase)
    (Q : Req → P.Phase → Except ε α → Prop) (ok : Pool Req Op Resp ε α σ → PoolMove Req Env Ev → Prop)
    (I : σ → Option (Req × P.Phase) → Prop) : Prop where
  start : ∀ {s} (q : Req), I s none → I s (some (q, init q))
  step : ∀ {s q φ op f} (env : Env), I s (some (q, φ)) → P.Step q φ op f →
    I (S.sem env op s).2 (some (q, f (S.sem env op s).1))
  finish : ∀ {s q φ r}, I s (some (q, φ)) → Q q φ r → I s none
  other : ∀ {p : Pool Req Op Resp ε α σ} {c} {e : Ev}, ok p (.other e) → TracksOne P Q (p.calls 0) c → I p.store c →
    I (S.other e p.store) c

section
variable {I : σ → Option (Req × P.Phase) → Prop}

theorem KeptOne.advance (hI : KeptOne S P init Q ok I) {c} (ht : TracksOne P Q (p.calls 0) c) (h : I p.store c)
    (env) : ∃ c', TracksOne P Q ((S.advance p 0 env).calls 0) c' ∧ I (S.advance p 0 env).store c' := by
  unfold System.advance
  cases hcall : p.calls 0 with
  | none =>
    exact ⟨c, ht, h⟩
  | some x =>
    obtain ⟨q, pr⟩ := x
    rw [hcall] at ht
    obtain ⟨φ, rfl, hf⟩ := ht
    cases pr with
    | ret a | fail e => exact ⟨none, by simp only [update_self]; rfl, hI.finish h hf⟩
    | ask op k =>
      obtain ⟨f, hs, hk⟩ := hf
      exact ⟨_, by simp only [update_self]; exact ⟨_, rfl, hk _⟩, hI.step env h hs⟩

theorem System.inv_one (hmain : ∀ q, (S.main q).Follows P q (Q q) (init q)) (hI : KeptOne S P init Q ok I)
    (h : Trace S.step ok (Pool.init s) ms t) (hone : ∀ i q, .start i q ∈ ms → i = 0) (h0 : I s none) :
    ∃ c, TracksOne P Q (t.calls 0) c ∧ I t.store c := by
  have hinv := Trace.inv (fun p : Pool Req Op Resp ε α σ => (∀ i, i ≠ 0 → p.calls i = none) ∧
    ∃ c, TracksOne P Q (p.calls 0) c ∧ I p.store c) ?_ h.mem ⟨fun _ _ => rfl, none, rfl, h0⟩
  · exact hinv.2
  intro p m hp hm
  obtain ⟨hempty, c, ht, hc⟩ := hp
  cases m with
  | start i q =>
    obtain rfl := hone i q hm.2
    simp only [System.step]
    cases hcall : p.calls 0 with
    | some x => exact ⟨hempty, c, ht, hc⟩
    | none =>
      rw [hcall] at ht
      obtain rfl : c = none := ht
      refine ⟨fun i hi => ?_, _, ?_, hI.start q hc⟩
      · simp only [update_of_ne hi]
        exact hempty i hi
      · exact ⟨_, rfl, hmain q⟩
  | other e => exact ⟨hempty, c, ht, hI.other hm.1 ht hc⟩
  | advance i env =>
    by_cases hi : i = 0
    · subst hi
      refine ⟨fun j hj => ?_, hI.advance ht hc env⟩
      simp only [System.step, System.advance]
      split
      · exact hempty j hj
      · simp only [update_of_ne hj]
        exact hempty j hj
      · simp only [update_of_ne hj]
        exact hempty j hj
      · simp only [update_of_ne hj]
        exact hempty j hj
    · simp only [System.step, System.advance, hempty i hi]
      exact ⟨hempty, c, ht, hc⟩

theorem KeptOne.exec (hI : KeptOne S P init Q ok I) {q : Req} {p : Prog Op Resp ε α} {φ : P.Phase}
    (hp : p.Follows P q (Q q) φ) (h : I s (some (q, φ))) (env : Env) : I (p.exec (S.sem env) s).2 none := by
  induction p generalizing s φ with
  | ret a | fail e => exact hI.finish h hp
  | ask op k ih =>
    obtain ⟨f, hs, hk⟩ := hp
    exact ih _ (hk _) (hI.step env h hs)

end

/-! ## What calls promise -/

/-- What has to be shown of a property `C` of calls and the results `R` it promises: an
operation keeps `J` and the property of its own call, and takes nothing from the others. -/
structure Promises (S : System Req Op Resp ε α σ Env Ev) (cond : σ → Env → Req → Op → Prop)
    (ms : List (PoolMove Req Env Ev)) (J : σ → Prop) (C : Req → Prog Op Resp ε α → σ → Prop) (R : Req → α → σ → Prop) :
    Prop where
  start : ∀ i q s, .start i q ∈ ms → C q (S.main q) s
  ret : ∀ q a s, C q (.ret a) s → R q a s
  ask : ∀ q op k env s, cond s env q op → J s → C q (.ask op k) s →
    J (S.sem env op s).2 ∧ C q (k (S.sem env op s).1) (S.sem env op s).2
  frame : ∀ env op s, (∀ q pr, C q pr s → C q pr (S.sem env op s).2) ∧ ∀ q a, R q a s → R q a (S.sem env op s).2
  other : ∀ e s, .other e ∈ ms → J s →
    J (S.other e s) ∧ (∀ q pr, C q pr s → C q pr (S.other e s)) ∧ ∀ q a, R q a s → R q a (S.other e s)

theorem System.promised {J C R} (hP : Promises S cond ms J C R) (h : Trace S.step (Meets cond) (Pool.init s) ms t)
    (hs : J s) : J t.store ∧ ∀ q a, (q, .ok a) ∈ t.log → R q a t.store := by
  have hinv := Trace.inv (fun p : Pool Req Op Resp ε α σ => (J p.store ∧ ∀ q a, (q, .ok a) ∈ p.log → R q a p.store) ∧
    ∀ i q pr, p.calls i = some (q, pr) → C q pr p.store) ?_ h.mem
      ⟨⟨hs, nofun⟩, nofun⟩
  · exact hinv.1
  intro p m hp hm
  obtain ⟨⟨hJ, hlog⟩, hcalls⟩ := hp
  have hset : ∀ {t : σ} {i : Nat} {o : Option (Req × Prog Op Resp ε α)}, (∀ q pr, C q pr p.store → C q pr t) →
      (∀ q pr, o = some (q, pr) → C q pr t) → ∀ j q pr, update p.calls i o j = some (q, pr) → C q pr t := by
    intro t i o hkeep ho j q pr hj
    by_cases hji : j = i
    · subst hji
      rw [update_self] at hj
      exact ho q pr hj
    · rw [update_of_ne hji] at hj
      exact hkeep q pr (hcalls j q pr hj)
  cases m with
  | start i q =>
    simp only [System.step]
    split
    · refine ⟨⟨hJ, hlog⟩, hset (fun _ _ h => h) fun q' pr hq => ?_⟩
      cases hq
      exact hP.start i q p.store hm.2
    · exact ⟨⟨hJ, hlog⟩, hcalls⟩
  | other e =>
    obtain ⟨hJ', hkeep, hkeepR⟩ := hP.other e p.store hm.2 hJ
    exact ⟨⟨hJ', fun q a ha => hkeepR q a (hlog q a ha)⟩, fun i q pr hi => hkeep q pr (hcalls i q pr hi)⟩
  | advance i env =>
    simp only [System.step, System.advance]
    cases hcall : p.calls i with
    | none => exact ⟨⟨hJ, hlog⟩, hcalls⟩
    | some c =>
      obtain ⟨q, pr⟩ := c
      have hpr := hcalls i q pr hcall
      cases pr with
      | ret a =>
        refine ⟨⟨hJ, fun q' a' h' => ?_⟩, hset (fun _ _ h => h) nofun⟩
        rcases mem_cons.mp h' with h' | h'
        · cases h'
          exact hP.ret q a p.store hpr
        · exact hlog q' a' h'
      | fail e =>
        refine ⟨⟨hJ, fun q' a' h' => ?_⟩, hset (fun _ _ h => h) nofun⟩
        rcases mem_cons.mp h' with h' | h'
        · cases h'
        · exact hlog q' a' h'
      | ask op k =>
        have hnext : p.next i = some (q, op) := by simp [Pool.next, hcall]
        have hc := hm.1
        simp only [Meets, hnext] at hc
        obtain ⟨hJ', hk⟩ := hP.ask q op k env p.store hc hJ hpr
        obtain ⟨hkeep, hkeepR⟩ := hP.frame env op p.store
        refine ⟨⟨hJ', fun q a ha => hkeepR q a (hlog q a ha)⟩, hset hkeep fun q' pr' hq => ?_⟩
        cases hq
        exact hk

theorem System.steady {J : σ → Prop} {R : Req → α → Prop}
    (hmain : ∀ i q, .start i q ∈ ms → (S.main q).Steady S.sem (fun env s op => cond s env q op) J (R q))
    (hother : ∀ e s, .other e ∈ ms → J s → J (S.other e s)) (h : Trace S.step (Meets cond) (Pool.init s) ms t)
    (hs : J s) : J t.store ∧ ∀ q a, (q, .ok a) ∈ t.log → R q a := by
  refine System.promised (C := fun q pr _ => pr.Steady S.sem (fun env s op => cond s env q op) J (R q))
    ⟨fun i q _ hm => hmain i q hm, fun _ _ _ hret => hret, ?_, ?_, ?_⟩ h hs
  · exact fun q op k env s hc hJ hask => hask env s hJ hc
  · exact fun _ _ _ => ⟨fun _ _ h => h, fun _ _ h => h⟩
  · exact fun e s hm hJ => ⟨hother e s hm hJ, fun _ _ h => h, fun _ _ h => h⟩

end

/-! ## Resources taken once -/

/-- A resource that a call owns or has won is spent in the store, and it has one
owner or winner. -/
structure Once {σ κ T L : Type} (spent : σ → κ → Prop) (own : T → Option κ) (won : L → Option κ) (s : σ)
    (th : Nat → Option T) (log : List L) : Prop where
  owned : ∀ {i x k}, th i = some x → own x = some k → spent s k
  sole : ∀ {i j x y k}, th i = some x → th j = some y → own x = some k → own y = some k → i = j
  logged : ∀ {l k}, l ∈ log → won l = some k → spent s k
  apart : ∀ {l k i x}, l ∈ log → won l = some k → th i = some x → own x ≠ some k
  nodup : (log.filterMap won).Nodup

namespace Once

variable {σ κ T L : Type} {spent : σ → κ → Prop} {own : T → Option κ} {won : L → Option κ} {s s' : σ}
  {th : Nat → Option T} {log : List L} {i : Nat}

theorem nil : Once spent own won s (fun _ => none) [] where
  owned := nofun
  sole := nofun
  logged := nofun
  apart := nofun
  nodup := nodup_nil

theorem mono (h : Once spent own won s th log) (hs : ∀ k, spent s k → spent s' k) : Once spent own won s' th log where
  owned := fun hi hx => hs _ (h.owned hi hx)
  sole := h.sole
  logged := fun hl hw => hs _ (h.logged hl hw)
  apart := h.apart
  nodup := h.nodup

theorem update_cases {x} {j} {y} (h : update th i x j = some y) :
    (j = i ∧ x = some y) ∨ (j ≠ i ∧ th j = some y) := by
  by_cases hj : j = i
  · subst hj
    rw [update_self] at h
    exact .inl ⟨rfl, h⟩
  · rw [update_of_ne hj] at h
    exact .inr ⟨hj, h⟩

theorem update_none {j} {y} (h : update th i none j = some y) : j ≠ i ∧ th j = some y := by
  rcases update_cases h with ⟨-, hxy⟩ | hj
  · cases hxy
  · exact hj

theorem keep (h : Once spent own won s th log) {x} (hx : own x = none ∨ ∃ y, th i = some y ∧ own x = own y) :
    Once spent own won s (update th i (some x)) log := by
  have key : ∀ {k}, own x = some k → ∃ y, th i = some y ∧ own y = some k := by
    intro k hk
    rcases hx with hx | ⟨y, hy, hxy⟩
    · rw [hx] at hk; cases hk
    · exact ⟨y, hy, hxy ▸ hk⟩
  -- every owner after the step was one before it, at the same index
  have back : ∀ {j y k}, update th i (some x) j = some y → own y = some k → ∃ z, th j = some z ∧ own z = some k := by
    intro j y k hj hy
    rcases update_cases hj with ⟨rfl, hxy⟩ | ⟨-, hj⟩
    · cases hxy; exact key hy
    · exact ⟨y, hj, hy⟩
  refine ⟨?_, ?_, h.logged, ?_, h.nodup⟩
  · intro j y k hj hy
    obtain ⟨z, hz, hk⟩ := back hj hy
    exact h.owned hz hk
  · intro j j' y y' k hj hj' hy hy'
    obtain ⟨z, hz, hk⟩ := back hj hy
    obtain ⟨z', hz', hk'⟩ := back hj' hy'
    exact h.sole hz hz' hk hk'
  · intro l k j y hl hw hj hy
    obtain ⟨z, hz, hk⟩ := back hj hy
    exact h.apart hl hw hz hk

theorem take (h : Once spent own won s th log) {x} {k} (hx : own x = some k) (hn : ¬ spent s k)
    (hs : ∀ k, spent s k → spent s' k) (hk : spent s' k) : Once spent own won s' (update th i (some x)) log := by
  refine ⟨?_, ?_, fun hl hw => hs _ (h.logged hl hw), ?_, h.nodup⟩
  · intro j y k' hj hy
    rcases update_cases hj with ⟨rfl, hxy⟩ | ⟨-, hj⟩
    · cases hxy
      rw [hx] at hy
      cases hy
      exact hk
    · exact hs _ (h.owned hj hy)
  · intro j j' y y' k' hj hj' hy hy'
    rcases update_cases hj with ⟨e, hxy⟩ | ⟨-, ho⟩ <;> rcases update_cases hj' with ⟨e', hxy'⟩ | ⟨-, ho'⟩
    · rw [e, e']
    · cases hxy
      rw [hx] at hy
      cases hy
      exact absurd (h.owned ho' hy') hn
    · cases hxy'
      rw [hx] at hy'
      cases hy'
      exact absurd (h.owned ho hy) hn
    · exact h.sole ho ho' hy hy'
  · intro l k' j y hl hw hj hy
    rcases update_cases hj with ⟨rfl, hxy⟩ | ⟨-, hj⟩
    · cases hxy
      rw [hx] at hy
      cases hy
      exact hn (h.logged hl hw)
    · exact h.apart hl hw hj hy

theorem finish (h : Once spent own won s th log) {x} (hi : th i = some x) {l}
    (hw : ∀ k, won l = some k → own x = some k) : Once spent own won s (update th i none) (l :: log) := by
  refine ⟨fun hj => h.owned (update_none hj).2, fun hj hj' => h.sole (update_none hj).2 (update_none hj').2, ?_, ?_, ?_⟩
  · intro l' k hl hk
    rcases mem_cons.mp hl with rfl | hl
    · exact h.owned hi (hw k hk)
    · exact h.logged hl hk
  · intro l' k j y hl hk hj hy
    obtain ⟨hne, hj⟩ := update_none hj
    rcases mem_cons.mp hl with rfl | hl
    · exact hne (h.sole hj hi hy (hw k hk))
    · exact h.apart hl hk hj hy
  · cases hl : won l with
    | none => rw [filterMap_cons_none hl]; exact h.nodup
    | some k =>
      rw [filterMap_cons_some hl, nodup_cons]
      refine ⟨?_, h.nodup⟩
      intro hk
      obtain ⟨l', hl', hwl⟩ := mem_filterMap.mp hk
      exact h.apart hl' hwl hi (hw k hl)

end Once

end Clavex

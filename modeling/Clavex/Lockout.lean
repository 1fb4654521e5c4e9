import Clavex.Cell
import Clavex.Trace
import Mathlib.Logic.Function.Basic

/-!
# The adaptive lockout guard on second-factor submissions

`Guard` and the way `MFAChallengeSubmit` calls it for one user, one Redis
command at a time. The log says when a code was compared with the user's secrets
and whether the lock was in force, and when the lock was set. The clock of Redis counts
milliseconds, a Go duration nanoseconds.
-/

namespace Clavex

open Trace List

structure Band where
  (scoreMin scoreMax maxAttempts lockoutSecs : Int)

def defaultBands : List Band := [⟨0, 29, 5, 30⟩, ⟨30, 59, 3, 300⟩, ⟨60, 79, 2, 900⟩, ⟨80, 100, 1, 3600⟩]

def bandForScore (bands : List Band) (score : Int) : Band :=
  match bands.find? fun b => decide (b.scoreMin ≤ score) && decide (score ≤ b.scoreMax) with
  | some b => b
  | none => bands.getLastD ⟨0, 29, 5, 30⟩

def maxLockoutDuration (bands : List Band) : Int :=
  bands.foldl (fun m b => if m < b.lockoutSecs then b.lockoutSecs else m) 0

/-! ## Durations -/

def int64 (n : Int) : Int := n.bmod (2 ^ 64)

def goSeconds (n : Int) : Int := int64 (n * 1000000000)

def inUnits (unit dur : Int) : Int := if 0 < dur ∧ dur < unit then 1 else dur.tdiv unit

def lockMillis (dur : Int) : Int := inUnits 1000000 dur

/-! ## The keys -/

/-- `lockedFor` is the duration that the lock was last set with. -/
structure LockStore where
  now : Int := 0
  fails : Cell Nat := .empty
  locked : Cell Unit := .empty
  lockedFor : Int := 0

namespace LockStore

def remaining (s : LockStore) : Int := max 0 (s.locked.ttl s.now)

def setLock (s : LockStore) (dur : Int) : LockStore :=
  { s with
    locked := .set () (if 0 < dur then some (s.now + lockMillis dur) else none)
    lockedFor := dur }

def ttl (s : LockStore) : Int :=
  if 0 ≤ s.locked.ttl s.now then (s.locked.ttl s.now + 500) / 1000 * 1000000000 else s.locked.ttl s.now

end LockStore

def failsExpiry (bands : List Band) : Int := int64 (goSeconds (maxLockoutDuration bands) + 300 * 1000000000)

/-! ## Submissions -/

structure LockoutConfig where
  bands : List Band
  positive : ∀ b ∈ bands, 0 < b.maxAttempts ∧ 0 < b.lockoutSecs

def LockoutConfig.band (cfg : LockoutConfig) : Band := bandForScore cfg.bands 0

inductive GuardCall where
  | idle
  | begun (right : Bool)
  | comparing (right : Bool)
  | counting
  | expiring (count : Nat)
  | locking
  | clearing
  deriving DecidableEq

inductive GuardEvent where
  | compared (call : Nat) (right inForce : Bool)
  | locked
  deriving DecidableEq

structure GuardState where
  store : LockStore
  calls : Nat → GuardCall
  log : List GuardEvent

inductive GuardMove where
  | tick (dt : Nat)
  | start (i : Nat) (right : Bool)
  | advance (i : Nat)

def GuardMove.isWrong : GuardMove → Bool
  | .start _ right => !right
  | _ => true

namespace GuardState

def setCall (s : GuardState) (i : Nat) (c : GuardCall) : GuardState :=
  { s with calls := Function.update s.calls i c }

def inForce (s : GuardState) : Bool := (s.store.locked.get s.store.now).isSome

def advance (cfg : LockoutConfig) (s : GuardState) (i : Nat) : GuardState :=
  match s.calls i with
  | .idle => s
  | .begun right => s.setCall i (if 0 < s.store.ttl then .idle else .comparing right)
  | .comparing right =>
    { (s.setCall i (if right then .clearing else .counting)) with log := .compared i right s.inForce :: s.log }
  | .counting =>
    { (s.setCall i (.expiring ((s.store.fails.get s.store.now).getD 0 + 1))) with
      store := { s.store with fails := s.store.fails.incr s.store.now } }
  | .expiring count =>
    { (s.setCall i (if cfg.band.maxAttempts ≤ count then .locking else .idle)) with
      store := { s.store with
        fails := s.store.fails.expire s.store.now (s.store.now + inUnits 1000000000 (failsExpiry cfg.bands) * 1000) } }
  | .locking =>
    { (s.setCall i .idle) with store := s.store.setLock (goSeconds cfg.band.lockoutSecs), log := .locked :: s.log }
  | .clearing => { (s.setCall i .idle) with store := { s.store with fails := .empty, locked := .empty } }

end GuardState

def guardStep (cfg : LockoutConfig) (s : GuardState) : GuardMove → GuardState
  | .tick dt => { s with store := { s.store with now := s.store.now + dt } }
  | .start i right =>
    match s.calls i with
    | .idle => s.setCall i (.begun right)
    | _ => s
  | .advance i => s.advance cfg i

def wrongSinceLock : List GuardEvent → Nat
  | [] | .locked :: _ => 0
  | .compared _ right _ :: l => wrongSinceLock l + if right then 0 else 1

/-! ## How many codes can be tried before the lock -/

open Function

/-- At most `MaxAttempts` wrong codes were compared since the last lock, and none while
a lock was in force. -/
def WithinLockout (cfg : LockoutConfig) (s : GuardState) : Prop :=
  (wrongSinceLock s.log : Int) ≤ cfg.band.maxAttempts ∧ ∀ i, .compared i false true ∉ s.log

def GuardCall.Waiting (c : GuardCall) : Prop := c = .idle ∨ c = .begun false

/-- No submission reads the lock while another is between its own reading and the end of
`RecordFailure`, or in the last half second of the lock, where `TTL` answers 0, and the counter
does not lapse while it counts failures since a lock. -/
def OneAtATime (s : GuardState) : GuardMove → Prop
  | .start .. => True
  | .advance i => s.calls i = .begun false →
      (∀ j, (s.calls j).Waiting) ∧ (s.store.remaining = 0 ∨ 500 ≤ s.store.remaining)
  | .tick dt => s.store.fails.get (s.store.now + dt) = s.store.fails.get s.store.now ∨ wrongSinceLock s.log = 0

/-- The durations are machine integers. -/
def LockoutConfig.Fits (cfg : LockoutConfig) : Prop := ∀ b ∈ cfg.bands, b.lockoutSecs ≤ 9223371736

theorem bandForScore_of_mem {P : Band → Prop} {bands} (h : ∀ b ∈ bands, P b) (h₀ : P ⟨0, 29, 5, 30⟩) (score) :
    P (bandForScore bands score) := by
  unfold bandForScore
  split
  · rename_i b hb
    exact h b (mem_of_find?_eq_some hb)
  · cases hl : bands with
    | nil => exact h₀
    | cons b l =>
      rw [getLastD_cons]
      exact h _ (hl ▸ getLastD_mem_cons ..)

theorem maxLockoutDuration_within {cfg : LockoutConfig} (h : cfg.Fits) :
    0 ≤ maxLockoutDuration cfg.bands ∧ maxLockoutDuration cfg.bands ≤ 9223371736 := by
  unfold LockoutConfig.Fits at h
  suffices hm : ∀ m : Int, 0 ≤ m ∧ m ≤ 9223371736 →
      0 ≤ cfg.bands.foldl (fun m b => if m < b.lockoutSecs then b.lockoutSecs else m) m ∧
        cfg.bands.foldl (fun m b => if m < b.lockoutSecs then b.lockoutSecs else m) m ≤ 9223371736 from hm 0 (by omega)
  generalize cfg.bands = bands at h
  intro m hm
  induction bands generalizing m with
  | nil => exact hm
  | cons b l ih =>
    rw [forall_mem_cons] at h
    rw [foldl_cons]
    refine ih h.2 _ ?_
    split <;> omega

theorem goSeconds_eq {n} (hlo : 0 ≤ n) (hhi : n ≤ 9223372036) : goSeconds n = n * 1000000000 :=
  Int.bmod_eq_of_le (by omega) (by omega)

theorem failsExpiry_pos {cfg : LockoutConfig} (h : cfg.Fits) : 0 < inUnits 1000000000 (failsExpiry cfg.bands) := by
  obtain ⟨hlo, hhi⟩ := maxLockoutDuration_within h
  have hexp : failsExpiry cfg.bands = (maxLockoutDuration cfg.bands + 300) * 1000000000 := by
    rw [failsExpiry, goSeconds_eq hlo (by omega), ← Int.add_mul]
    exact Int.bmod_eq_of_le (by omega) (by omega)
  rw [hexp, inUnits, if_neg (by omega), Int.mul_tdiv_cancel _ (by decide)]
  omega

def GuardState.count (s : GuardState) : Nat := (s.store.fails.get s.store.now).getD 0

def PhaseBound (cfg : LockoutConfig) (s : GuardState) : GuardCall → Prop
  | .idle | .begun false => (wrongSinceLock s.log : Int) < cfg.band.maxAttempts ∧ wrongSinceLock s.log ≤ s.count
  | .comparing false => s.store.locked.get s.store.now = none ∧ (wrongSinceLock s.log : Int) < cfg.band.maxAttempts ∧
      wrongSinceLock s.log ≤ s.count
  | .counting => (wrongSinceLock s.log : Int) ≤ cfg.band.maxAttempts ∧ 0 < wrongSinceLock s.log ∧
      wrongSinceLock s.log ≤ s.count + 1
  | .expiring count => (wrongSinceLock s.log : Int) ≤ cfg.band.maxAttempts ∧ 0 < wrongSinceLock s.log ∧
      wrongSinceLock s.log ≤ count ∧ s.store.fails.get s.store.now = some count
  | .locking => (wrongSinceLock s.log : Int) ≤ cfg.band.maxAttempts
  | _ => False

structure Orderly (cfg : LockoutConfig) (s : GuardState) : Prop where
  expiring : s.store.locked.entry ≠ some ((), none)
  unlocked : ∀ i, .compared i false true ∉ s.log
  phase : ∃ i, (∀ j, j ≠ i → (s.calls j).Waiting) ∧ PhaseBound cfg s (s.calls i)

section
variable {cfg : LockoutConfig} {s : GuardState}

variable {c : GuardCall} {i : Nat}

theorem PhaseBound.waiting (h : c.Waiting) :
    PhaseBound cfg s c ↔ (wrongSinceLock s.log : Int) < cfg.band.maxAttempts ∧ wrongSinceLock s.log ≤ s.count := by
  rcases h with rfl | rfl <;> rfl

theorem PhaseBound.le (h : PhaseBound cfg s c) : (wrongSinceLock s.log : Int) ≤ cfg.band.maxAttempts := by
  cases c with
  | idle => exact Int.le_of_lt h.1
  | begun right => cases right with
    | false => exact Int.le_of_lt h.1
    | true => exact h.elim
  | comparing right => cases right with
    | false => exact Int.le_of_lt h.2.1
    | true => exact h.elim
  | counting | expiring count => exact h.1
  | locking => exact h
  | clearing => exact h.elim

theorem Orderly.withinLockout (h : Orderly cfg s) : WithinLockout cfg s := by
  obtain ⟨i, -, hp⟩ := h.phase
  exact ⟨hp.le, h.unlocked⟩

theorem Orderly.move {s'} (hothers : ∀ j, j ≠ i → (s.calls j).Waiting)
    (hcalls : s'.calls = Function.update s.calls i c) (hexp : s'.store.locked.entry ≠ some ((), none))
    (hun : ∀ j, .compared j false true ∉ s'.log) (hp : PhaseBound cfg s' c) : Orderly cfg s' := by
  refine ⟨hexp, hun, i, fun j hj => ?_, ?_⟩
  · rw [hcalls, update_of_ne hj]; exact hothers j hj
  · rwa [hcalls, update_self]

section
variable (h : Orderly cfg s)
include h

theorem Orderly.tick {dt} (hok : OneAtATime s (.tick dt)) : Orderly cfg (guardStep cfg s (.tick dt)) := by
  obtain ⟨i, hi, hp⟩ := h.phase
  refine ⟨h.expiring, h.unlocked, i, hi, ?_⟩
  have hle : s.store.now ≤ s.store.now + (dt : Int) := by omega
  have hquiet : (wrongSinceLock s.log : Int) < cfg.band.maxAttempts ∧ wrongSinceLock s.log ≤ s.count →
      (wrongSinceLock s.log : Int) < cfg.band.maxAttempts ∧
        wrongSinceLock s.log ≤ (guardStep cfg s (.tick dt)).count := by
    rintro ⟨h1, h2⟩
    refine ⟨h1, ?_⟩
    rcases hok with hget | hzero
    · simp only [GuardState.count, guardStep, hget]; exact h2
    · omega
  change PhaseBound cfg (guardStep cfg s (.tick dt)) (s.calls i)
  generalize s.calls i = c at hp ⊢
  cases c with
  | idle => exact hquiet hp
  | begun right => cases right with
    | false => exact hquiet hp
    | true => exact hp.elim
  | comparing right => cases right with
    | false => exact ⟨Cell.get_none_of_le hle hp.1, hquiet hp.2⟩
    | true => exact hp.elim
  | counting =>
    obtain ⟨h1, h2, h3⟩ := hp
    refine ⟨h1, h2, ?_⟩
    rcases hok with hget | hzero
    · simp only [GuardState.count, guardStep, hget]; exact h3
    · omega
  | expiring count =>
    obtain ⟨h1, h2, h3, h4⟩ := hp
    refine ⟨h1, h2, h3, ?_⟩
    rcases hok with hget | hzero
    · exact hget.trans h4
    · omega
  | locking => exact hp
  | clearing => exact hp.elim

open GuardState

theorem Orderly.start {right} (hw : (GuardMove.start i right).isWrong = true) :
    Orderly cfg (guardStep cfg s (.start i right)) := by
  obtain ⟨k, hk, hp⟩ := h.phase
  cases hc : s.calls i with
  | idle =>
    have hright : right = false := by simpa [GuardMove.isWrong] using hw
    subst hright
    simp only [guardStep, hc]
    by_cases hki : i = k
    · subst hki
      rw [hc] at hp
      exact Orderly.move hk rfl h.expiring h.unlocked hp
    · refine ⟨h.expiring, h.unlocked, k, fun j hj => ?_, ?_⟩
      · by_cases hji : j = i
        · subst hji; exact .inr (update_self ..)
        · simp only [setCall, update_of_ne hji]; exact hk j hj
      · simp only [setCall, update_of_ne (Ne.symm hki)]; exact hp
  | _ => simp only [guardStep, hc]; exact h

theorem Orderly.current (hc : s.calls i = c) (hi : c ≠ .idle ∧ c ≠ .begun false) :
    (∀ j, j ≠ i → (s.calls j).Waiting) ∧ PhaseBound cfg s c := by
  obtain ⟨k, hk, hp⟩ := h.phase
  by_cases hki : i = k
  · subst hki; exact ⟨hk, hc ▸ hp⟩
  · exact ((hc ▸ hk i hki).elim hi.1 hi.2).elim

theorem Orderly.advance (hfits : cfg.Fits) (hok : OneAtATime s (.advance i)) : Orderly cfg (s.advance cfg i) := by
  obtain ⟨hmax, hsecs⟩ := bandForScore_of_mem cfg.positive (by decide) 0
  have hsecs' := bandForScore_of_mem hfits (by decide) 0
  unfold GuardState.advance
  cases hc : s.calls i with
  | idle => exact h
  | begun right =>
    cases right with
    | true => exact (h.current hc (by simp)).2.elim
    | false =>
      obtain ⟨hwait, hread⟩ := hok hc
      obtain ⟨k, -, hp⟩ := h.phase
      rw [PhaseBound.waiting (hwait k)] at hp
      refine Orderly.move (fun j _ => hwait j) rfl h.expiring h.unlocked ?_
      dsimp only
      split
      · exact hp
      · rename_i httl
        have hover : ¬ 0 < s.store.locked.ttl s.store.now := by
          unfold LockStore.remaining at hread
          unfold LockStore.ttl at httl
          split at httl <;> omega
        exact ⟨Cell.get_none_of_ttl (fun _ => h.expiring) hover, hp⟩
  | comparing right =>
    obtain ⟨hothers, hp⟩ := h.current hc (by simp)
    cases right with
    | true => exact hp.elim
    | false =>
      obtain ⟨hfree, hlt, hcount⟩ := hp
      refine Orderly.move hothers rfl h.expiring ?_ ?_
      · intro j hj
        rcases mem_cons.mp hj with hj | hj
        · simp [inForce, hfree] at hj
        · exact h.unlocked j hj
      · change ((wrongSinceLock s.log + 1 : Nat) : Int) ≤ cfg.band.maxAttempts ∧ 0 < wrongSinceLock s.log + 1 ∧
          wrongSinceLock s.log + 1 ≤ s.count + 1
        omega
  | counting =>
    obtain ⟨hothers, hle, hpos, hcount⟩ := h.current hc (by simp)
    exact Orderly.move hothers rfl h.expiring h.unlocked ⟨hle, hpos, hcount, Cell.get_incr s.store.fails s.store.now⟩
  | expiring count =>
    obtain ⟨hothers, hle, hpos, hcount, hget⟩ := h.current hc (by simp)
    refine Orderly.move hothers rfl h.expiring h.unlocked ?_
    dsimp only
    split
    · exact hle
    rename_i hlt
    have hlive : s.store.now < s.store.now + inUnits 1000000000 (failsExpiry cfg.bands) * 1000 := by
      have := failsExpiry_pos hfits
      omega
    refine ⟨by change (wrongSinceLock s.log : Int) < _; omega, ?_⟩
    change wrongSinceLock s.log ≤ ((s.store.fails.expire s.store.now _).get s.store.now).getD 0
    rw [Cell.get_expire hlive, hget]
    exact hcount
  | locking =>
    obtain ⟨hothers, -⟩ := h.current hc (by simp)
    have hdur : 0 < goSeconds cfg.band.lockoutSecs := by
      rw [goSeconds_eq (n := cfg.band.lockoutSecs) (Int.le_of_lt hsecs) (Int.le_trans hsecs' (by decide))]
      exact Int.mul_pos hsecs (by decide)
    refine Orderly.move hothers rfl (by simp [LockStore.setLock, Cell.set, hdur]) ?_ ⟨hmax, Nat.zero_le _⟩
    intro j hj
    rcases mem_cons.mp hj with hj | hj
    · cases hj
    · exact h.unlocked j hj
  | clearing => exact (h.current hc (by simp)).2.elim

theorem Orderly.step (hfits : cfg.Fits) {a} (hw : a.isWrong = true) (hok : OneAtATime s a) :
    Orderly cfg (guardStep cfg s a) := by
  cases a with
  | tick dt => exact h.tick hok
  | start i right => exact h.start hw
  | advance i => exact h.advance hfits hok

end

end

structure GuardState.Clear (s : GuardState) : Prop where
  log : s.log = []
  locked : s.store.locked = .empty
  calls : ∀ i, s.calls i = .idle

def defaultLockout : LockoutConfig := ⟨defaultBands, by decide⟩

def quietGuard : GuardState := ⟨{}, fun _ => .idle, []⟩

def oneWrongCode : List GuardMove := [.start 0 false, .advance 0, .advance 0, .advance 0]

def sixPastTheCheck : List GuardMove := (List.range 6).map (.start · false) ++ (List.range 6).map .advance

end Clavex

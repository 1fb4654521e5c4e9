import Clavex.Lockout
import Clavex.Pool
import Mathlib.Algebra.Order.Ring.Int

/-!
# How long a lock lasts

`RecordFailure` and `IsLocked` of the lockout guard for one identifier, with any risk scores
and any bands, as programs over the two Redis keys.
-/

namespace Clavex

inductive LockOp where
  | incr
  | expire (dur : Int)
  | setLock (dur : Int)
  | ttl

@[reducible] def LockOp.Resp : LockOp → Type
  | incr => Option Nat
  | expire _ => Unit
  | setLock _ => Bool
  | ttl => Option Int

/-- `lost`: the command is carried out and its answer does not arrive. -/
inductive RedisAnswer where
  | ok
  | error
  | lost
  deriving DecidableEq

def answered {α : Type} (out : RedisAnswer) (a : α) : Option α := if out = .ok then some a else none

def carriedOut (out : RedisAnswer) (s t : LockStore) : LockStore := if out = .error then s else t

def lockSem (out : RedisAnswer) : (op : LockOp) → LockStore → op.Resp × LockStore
  | .incr, s =>
    (answered out ((s.fails.get s.now).getD 0 + 1), carriedOut out s { s with fails := s.fails.incr s.now })
  | .expire dur, s =>
    ((), carriedOut out s { s with fails := s.fails.expire s.now (s.now + inUnits 1000000000 dur * 1000) })
  | .setLock dur, s => (decide (out = .ok), carriedOut out s (s.setLock dur))
  | .ttl, s => (answered out s.ttl, s)

/-! ## The guard -/

abbrev LockProg := Prog LockOp LockOp.Resp Empty

abbrev redis (op : LockOp) : LockProg op.Resp := Prog.call op

def recordFailure (bands : List Band) (riskScore : Int) : LockProg Int := do
  let band := bandForScore bands riskScore
  let some count ← redis .incr | return 0
  let _ ← redis (.expire (failsExpiry bands))
  if band.maxAttempts ≤ count then
    let stored ← redis (.setLock (goSeconds band.lockoutSecs))
    return if stored = true then goSeconds band.lockoutSecs else 0
  else return 0

def isLocked : LockProg Int := do
  let some ttl ← redis .ttl | return 0
  return if 0 < ttl then ttl else 0

inductive LockReq where
  | recordFailure (bands : List Band) (riskScore : Int)
  | isLocked

def lockMain : LockReq → LockProg Int
  | .recordFailure bands riskScore => recordFailure bands riskScore
  | .isLocked => isLocked

def lockSystem : System LockReq LockOp LockOp.Resp Empty Int LockStore RedisAnswer Nat where
  main := lockMain
  sem := lockSem
  other ms s := { s with now := s.now + ms }

abbrev LockPool := Pool LockReq LockOp LockOp.Resp Empty Int LockStore

/-! ## A lock that is in force -/

variable {dur : Int} {s : LockStore}

theorem lockMillis_eq (h : 0 < dur) : lockMillis dur = if dur < 1000000 then 1 else dur / 1000000 := by
  unfold lockMillis inUnits
  rw [Int.tdiv_eq_ediv_of_nonneg (Int.le_of_lt h)]
  simp [h]

theorem lockMillis_pos (h : 0 < dur) : 0 < lockMillis dur := by
  rw [lockMillis_eq h]
  split <;> omega

theorem lockMillis_mono {dur'} (h : 0 < dur) (hle : dur ≤ dur') : lockMillis dur ≤ lockMillis dur' := by
  rw [lockMillis_eq h, lockMillis_eq (Int.lt_of_lt_of_le h hle)]
  split <;> split <;> omega

/-! ## One command -/

def Lapses (s : LockStore) : Prop :=
  ∀ e, s.locked.entry = some ((), some e) → 0 < s.lockedFor ∧ e ≤ s.now + lockMillis s.lockedFor

structure Lasts (s t : LockStore) : Prop where
  now : s.now ≤ t.now
  remaining : s.remaining ≤ t.remaining + (t.now - s.now)

theorem Lasts.refl (s) : Lasts s s := ⟨Int.le_refl _, by omega⟩

theorem Lasts.trans {t u} (h : Lasts s t) (h' : Lasts t u) : Lasts s u := by
  obtain ⟨hn, hr⟩ := h
  obtain ⟨hn', hr'⟩ := h'
  exact ⟨by omega, by omega⟩

open LockStore

theorem remaining_pos (h : 0 < s.remaining) :
    ∃ e, s.locked.entry = some ((), some e) ∧ s.now < e ∧ s.remaining = e - s.now := by
  unfold remaining Cell.ttl at h ⊢
  cases hentry : s.locked.entry with
  | none =>
    rw [hentry] at h
    dsimp only at h
    omega
  | some x =>
    obtain ⟨u, expires⟩ := x
    rw [hentry] at h
    cases expires with
    | none =>
      dsimp only at h
      omega
    | some e =>
      dsimp only at h ⊢
      by_cases hlt : s.now < e
      · rw [if_pos hlt]
        exact ⟨e, rfl, hlt, by omega⟩
      · rw [if_neg hlt] at h
        omega

theorem remaining_setLock (h : 0 < dur) : (s.setLock dur).remaining = lockMillis dur := by
  have hpos := lockMillis_pos h
  simp only [remaining, setLock, Cell.set, Cell.ttl, if_pos h]
  rw [if_pos (by omega)]
  omega

theorem remaining_nonneg (s : LockStore) : 0 ≤ s.remaining := by
  unfold remaining
  omega

theorem Lapses.setLock (s : LockStore) (dur) : Lapses (s.setLock dur) := by
  intro e he
  by_cases hpos : 0 < dur
  · simp only [LockStore.setLock, Cell.set, if_pos hpos, Option.some.injEq, Prod.mk.injEq, true_and] at he ⊢
    exact ⟨hpos, by omega⟩
  · simp [LockStore.setLock, Cell.set, if_neg hpos] at he

/-- A command that is carried out while a lock is in force, and sets it anew, does so for no
shorter a duration. -/
def lockCond (s : LockStore) (out : RedisAnswer) (_ : LockReq) : LockOp → Bool
  | .setLock dur => decide (out = .error) || decide (s.remaining = 0) || decide (s.lockedFor ≤ dur)
  | _ => true

theorem Lasts.setLock (hs : Lapses s) (h : s.remaining = 0 ∨ s.lockedFor ≤ dur) : Lasts s (s.setLock dur) := by
  refine ⟨Int.le_refl _, ?_⟩
  have hnonneg := remaining_nonneg (s.setLock dur)
  show s.remaining ≤ (s.setLock dur).remaining + (s.now - s.now)
  by_cases hforce : 0 < s.remaining
  · obtain ⟨e, hentry, hlt, hrem⟩ := remaining_pos hforce
    obtain ⟨hpos, hle⟩ := hs e hentry
    have hdur : s.lockedFor ≤ dur := h.resolve_left (by omega)
    rw [remaining_setLock (Int.lt_of_lt_of_le hpos hdur)]
    have hmono := lockMillis_mono hpos hdur
    omega
  · omega

theorem lockSem_lasts (hs : Lapses s) (out q op) (hc : lockCond s out q op = true) : Lapses (lockSem out op s).2 ∧ Lasts s (lockSem out op s).2 := by
  -- only one command touches the lock
  have hsame : ∀ t : LockStore, t.locked = s.locked → t.lockedFor = s.lockedFor → t.now = s.now →
      Lapses t ∧ Lasts s t := by
    intro t hlocked hfor hnow
    refine ⟨?_, ⟨by omega, ?_⟩⟩
    · intro e he
      rw [hlocked] at he
      rw [hfor, hnow]
      exact hs e he
    · unfold remaining
      rw [hlocked, hnow]
      omega
  cases op with
  | incr | expire dur =>
    simp only [lockSem, carriedOut]
    split <;> exact hsame _ rfl rfl rfl
  | ttl => exact hsame s rfl rfl rfl
  | setLock dur =>
    simp only [lockSem, carriedOut]
    by_cases hout : out = .error
    · rw [if_pos hout]
      exact hsame s rfl rfl rfl
    · rw [if_neg hout]
      simp only [lockCond, hout, decide_false, Bool.false_or, Bool.or_eq_true, decide_eq_true_eq] at hc
      exact ⟨.setLock s dur, .setLock hs hc⟩

theorem tick_lasts (hs : Lapses s) (ms : Nat) :
    Lapses { s with now := s.now + ms } ∧ Lasts s { s with now := s.now + ms } := by
  refine ⟨?_, ?_, ?_⟩
  · intro e he
    obtain ⟨hpos, hle⟩ := hs e he
    exact ⟨hpos, by dsimp only; omega⟩
  · dsimp only
    omega
  · have hnonneg := remaining_nonneg { s with now := s.now + ms }
    dsimp only
    by_cases hforce : 0 < s.remaining
    · obtain ⟨e, hentry, hlt, hrem⟩ := remaining_pos hforce
      rw [hrem]
      unfold remaining Cell.ttl
      rw [hentry]
      dsimp only
      split <;> omega
    · omega

/-! ## Runs -/

theorem lock_never_shortened (now : Int) (fails : Cell Nat) (ms ms' : List (PoolMove LockReq RedisAnswer Nat))
    (p t : LockPool)
    (hp : Trace lockSystem.step (Meets (lockCond · · · ·)) (Pool.init { now := now, fails := fails }) ms p)
    (ht : Trace lockSystem.step (Meets (lockCond · · · ·)) p ms' t) :
    p.store.remaining ≤ t.store.remaining + (t.store.now - p.store.now) := by
  have hinv : Lapses p.store := by
    refine System.always ?_ ?_ hp fun e he => by cases he
    · exact fun out q op s hc hs => (lockSem_lasts hs out q op hc).1
    · exact fun n s _ hs => (tick_lasts hs n).1
  have hrun : Lapses t.store ∧ Lasts p.store t.store := by
    refine System.always (J := fun s => Lapses s ∧ Lasts p.store s) ?_ ?_ ht ⟨hinv, .refl _⟩
    · intro out q op s hc hs
      obtain ⟨hl, hlasts⟩ := lockSem_lasts hs.1 out q op hc
      exact ⟨hl, hs.2.trans hlasts⟩
    · intro n s _ hs
      obtain ⟨hl, hlasts⟩ := tick_lasts hs.1 n
      exact ⟨hl, hs.2.trans hlasts⟩
  exact hrun.2.remaining

def failure (i : Nat) (riskScore : Int) : List (PoolMove LockReq RedisAnswer Nat) :=
  .start i (.recordFailure defaultBands riskScore) :: List.replicate 4 (.advance i .ok)

def lockRun (ms : List (PoolMove LockReq RedisAnswer Nat)) : LockPool := run lockSystem.step (Pool.init {}) ms

/-- A lock for five minutes, a minute later a failure with a higher score. -/
theorem lock_never_shortened_by_higher :
    (lockRun (failure 0 40 ++ failure 1 40 ++ failure 2 40)).store.remaining = 300000 ∧
    (run lockSystem.step (lockRun (failure 0 40 ++ failure 1 40 ++ failure 2 40)) (.other 60000 :: failure 3 90)).log.length = 4 ∧
    (lockRun (failure 0 40 ++ failure 1 40 ++ failure 2 40)).store.remaining ≤
      (run lockSystem.step (lockRun (failure 0 40 ++ failure 1 40 ++ failure 2 40))
        (.other 60000 :: failure 3 90)).store.remaining + 60000 := by
  refine ⟨by decide +kernel, by decide +kernel, ?_⟩
  exact lock_never_shortened 0 .empty (failure 0 40 ++ failure 1 40 ++ failure 2 40) (.other 60000 :: failure 3 90) _ _
    (Trace.of_checkRun (by decide +kernel)) (Trace.of_checkRun (by decide +kernel))

/-- A failure with a score of 90 locks for an hour, the next one with a score of 65 sets a
quarter of an hour. -/
theorem lock_shortened_by_lower_score :
    (lockRun (failure 0 90)).store.remaining = 3600000 ∧ (lockRun (failure 0 90 ++ failure 1 65)).store.remaining = 900000 := by
  decide +kernel

end Clavex

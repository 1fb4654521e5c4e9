import Clavex.Cell
import Clavex.Trace

/-!
# Throttling of one-time codes

A destination has a key that lasts for 30 seconds after a send, and a counter that lasts for an
hour after its first `INCR`. Times are in milliseconds.
-/

namespace Clavex

open List

def otpSendCooldown : Int := 30000

def otpSendHourlyCap : Nat := 5

def otpHour : Int := 3600000

/-- `sent` records the allowed sends, the last one first. -/
structure OTPStore where
  now : Int
  cooldown : Cell Unit := .empty
  hourly : Cell Nat := .empty
  sent : List Int := []

structure OTPCall where
  now : Int
  (setNXFails incrFails expireFails ttlFails : Bool := false)

namespace OTPStore

/-- `TTL` answers in seconds, to the nearest. -/
def retryAfter {α : Type} (a : OTPCall) (c : Cell α) (default : Int) : Int :=
  let ttl := if a.ttlFails then 0 else (c.ttl a.now + 500) / 1000 * 1000
  if ttl ≤ 0 then default else ttl

def otpSendAllowed (a : OTPCall) (s : OTPStore) : (Bool × Int) × OTPStore :=
  if a.setNXFails then ((true, 0), s)
  else if (s.cooldown.get a.now).isSome then ((false, retryAfter a s.cooldown otpSendCooldown), s)
  else
    let s := { s with cooldown := .set () (some (a.now + otpSendCooldown)) }
    if a.incrFails then ((true, 0), s)
    else
      let hourly := s.hourly.incr a.now
      let n := (hourly.get a.now).getD 0
      let hourly := if n = 1 ∧ !a.expireFails then hourly.expire a.now (a.now + otpHour) else hourly
      (if n > otpSendHourlyCap then (false, retryAfter a hourly otpHour) else (true, 0), { s with hourly := hourly })

def step (s : OTPStore) (a : OTPCall) : OTPStore :=
  let r := otpSendAllowed a { s with now := a.now }
  if r.1.1 then { r.2 with sent := a.now :: s.sent } else r.2

abbrev Answered (s : OTPStore) (a : OTPCall) : Prop :=
  s.now ≤ a.now ∧ a.setNXFails = false ∧ a.incrFails = false ∧ a.expireFails = false

/-- When the counter is missing, all sends are an hour old. -/
abbrev Rested (s : OTPStore) (a : OTPCall) : Prop :=
  Answered s a ∧ (s.hourly.get a.now = none → ∀ t ∈ s.sent, t + otpHour ≤ a.now)

def sentWithin (t : Int) (sent : List Int) : List Int := sent.filter fun u => decide (t ≤ u ∧ u < t + otpHour)

variable {s : OTPStore} {a : OTPCall}

section
variable (ha : Answered s a)
include ha

theorem step_cases : s.step a = { s with now := a.now } ∨ s.cooldown.get a.now = none ∧
    ∃ n, (s.hourly.get a.now).getD 0 = n ∧ s.step a =
      { now := a.now
        cooldown := .set () (some (a.now + otpSendCooldown))
        hourly := if n = 0 then (s.hourly.incr a.now).expire a.now (a.now + otpHour) else s.hourly.incr a.now
        sent := if otpSendHourlyCap ≤ n then s.sent else a.now :: s.sent } := by
  cases h : s.cooldown.get a.now with
  | some x => simp [step, otpSendAllowed, ha, h]
  | none =>
    refine .inr ⟨rfl, _, rfl, ?_⟩
    generalize hn : (s.hourly.get a.now).getD 0 = n
    have hcap : n + 1 > otpSendHourlyCap ↔ otpSendHourlyCap ≤ n := Nat.lt_succ_iff
    simp only [step, otpSendAllowed, ha, h, Cell.get_incr, hn, Option.getD_some, hcap]
    by_cases hle : otpSendHourlyCap ≤ n <;> simp [hle]

def Spaced (s : OTPStore) : Prop :=
  s.sent.Pairwise (fun t' t => t + otpSendCooldown ≤ t') ∧
    ∀ t ∈ s.sent, ∀ u ≥ s.now, s.cooldown.get u = none → t + otpSendCooldown ≤ u

theorem Spaced.step (h : Spaced s) : Spaced (s.step a) := by
  rcases step_cases ha with hstep | ⟨hc, n, -, hstep⟩ <;> rw [hstep]
  · exact ⟨h.1, fun t ht u hu => h.2 t ht u (Int.le_trans ha.1 hu)⟩
  · have hold : ∀ t ∈ s.sent, t + otpSendCooldown ≤ a.now := fun t ht => h.2 t ht a.now ha.1 hc
    unfold Spaced otpSendCooldown at *
    grind [pairwise_cons, Cell.get_set, Cell.liveAt]

end

/-- The sends since the counter started are at most five, and all others were an hour old then. -/
structure Counted (s : OTPStore) (recent old : List Int) (start : Int) (n : Nat) : Prop where
  entry : s.hourly.entry = some (n + 1, some (start + otpHour))
  sent : s.sent = recent ++ old
  started : start ≤ s.now
  few : recent.length ≤ otpSendHourlyCap ∧ recent.length ≤ n + 1
  since : ∀ t ∈ recent, start ≤ t
  before : ∀ t ∈ old, t + otpHour ≤ start
  limited : ∀ t, (sentWithin t old).length ≤ otpSendHourlyCap

theorem Counted.within {recent old start n} (h : Counted s recent old start n) (t) :
    (sentWithin t s.sent).length ≤ otpSendHourlyCap := by
  have hlimited := h.limited t
  rw [h.sent]
  unfold sentWithin at hlimited ⊢
  rw [filter_append, length_append]
  by_cases hold : ∃ u ∈ old, t ≤ u ∧ u < t + otpHour
  · obtain ⟨u, hu, hlo, -⟩ := hold
    -- the window ends before the counter started
    have hnil : (recent.filter fun u => decide (t ≤ u ∧ u < t + otpHour)) = [] := by
      refine filter_eq_nil_iff.mpr fun r hr => ?_
      have := h.since r hr
      have := h.before u hu
      simp
      omega
    rwa [hnil, length_nil, Nat.zero_add]
  · have hnil : (old.filter fun u => decide (t ≤ u ∧ u < t + otpHour)) = [] :=
      filter_eq_nil_iff.mpr fun u hu hmem => hold ⟨u, hu, of_decide_eq_true hmem⟩
    rw [hnil]
    exact Nat.le_trans (length_filter_le ..) h.few.1

def Limited (s : OTPStore) : Prop := s.hourly.entry = none ∧ s.sent = [] ∨ ∃ recent old start n, Counted s recent old start n

theorem Limited.within (h : Limited s) (t) : (sentWithin t s.sent).length ≤ otpSendHourlyCap := by
  rcases h with ⟨-, hsent⟩ | ⟨_, _, _, _, h⟩
  · simp [hsent, sentWithin]
  · exact h.within t

theorem Limited.step (h : Limited s) (ha : Rested s a) : Limited (s.step a) := by
  rcases step_cases ha.1 with hstep | ⟨-, n, hn, hstep⟩ <;> rw [hstep]
  · rcases h with h | ⟨recent, old, start, m, h⟩
    · exact .inl h
    · exact .inr ⟨recent, old, start, m, { h with started := Int.le_trans h.started ha.1.1 }⟩
  cases hget : s.hourly.get a.now with
  | none =>
    obtain rfl : 0 = n := by simpa [hget] using hn
    refine .inr ⟨[a.now], s.sent, a.now, 0, ?_, rfl, Int.le_refl _, by simp [otpSendHourlyCap], by simp, ha.2 hget, h.within⟩
    simp [Cell.expire, Cell.get_incr, hget, Cell.set]
  | some m =>
    rcases h with ⟨hnone, -⟩ | ⟨recent, old, start, k, h⟩
    · simp [Cell.get, hnone] at hget
    have hlive : a.now < start + otpHour ∧ k + 1 = m := by simpa [Cell.get, h.entry, Cell.liveAt] using hget
    obtain rfl : k + 1 = n := by simpa [hget, hlive.2] using hn
    have hentry : (s.hourly.incr a.now).entry = some (k + 1 + 1, some (start + otpHour)) := by
      simp [Cell.incr, h.entry, Cell.liveAt, hlive.1]
    have hstarted := Int.le_trans h.started ha.1.1
    by_cases hcap : otpSendHourlyCap ≤ k + 1
    · refine .inr ⟨recent, old, start, k + 1, by simpa using hentry, by simpa [hcap] using h.sent, hstarted, ?_,
        h.since, h.before, h.limited⟩
      exact ⟨h.few.1, Nat.le_succ_of_le h.few.2⟩
    · refine .inr ⟨a.now :: recent, old, start, k + 1, by simpa using hentry, by simp [hcap, h.sent], hstarted, ?_,
        forall_mem_cons.mpr ⟨hstarted, h.since⟩, h.before, h.limited⟩
      have := h.few.2
      rw [length_cons]
      omega

def calls (seconds : List Int) : List OTPCall := seconds.map fun t => { now := t * 1000 }

end OTPStore

end Clavex

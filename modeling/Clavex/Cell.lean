import Clavex.Rows
import Mathlib.Algebra.Order.Ring.Int
import Mathlib.Data.List.Perm.Subperm
import Mathlib.Tactic.Common

/-!
# Keys of a store with expiry

One key of a Redis-like store: a value and the time it lapses at, if any. The
commands are functions of the clock, and a lapsed key reads as a missing one.
-/

namespace Clavex

open Function

structure Cell (α : Type) where
  entry : Option (α × Option Int)

namespace Cell

variable {α : Type}

def empty : Cell α := ⟨none⟩

def liveAt (now : Int) : Option Int → Bool
  | none => true
  | some e => decide (now < e)

def get (c : Cell α) (now : Int) : Option α :=
  match c.entry with
  | some (v, e) => if liveAt now e then some v else none
  | none => none

def set (v : α) (expires : Option Int) : Cell α := ⟨some (v, expires)⟩

/-- The seconds left; negative for a missing key and for one that never lapses. -/
def ttl (c : Cell α) (now : Int) : Int :=
  match c.entry with
  | some (_, some e) => if now < e then e - now else -2
  | some (_, none) => -1
  | none => -2

def expire (c : Cell α) (now expires : Int) : Cell α :=
  match c.get now with
  | some v => set v (some expires)
  | none => empty

def incr (c : Cell Nat) (now : Int) : Cell Nat :=
  match c.entry with
  | some (n, e) => if liveAt now e then ⟨some (n + 1, e)⟩ else set 1 none
  | none => set 1 none

theorem get_set (v : α) (e : Option Int) (now : Int) : (set v e).get now = if liveAt now e then some v else none := rfl

variable {e now : Int} {c : Cell α} {v : α}

theorem get_set_some (v : α) (h : now < e) : (set v (some e)).get now = some v := by
  simp [get_set, liveAt, h]

theorem entry_of_get (h : c.get now = some v) : ∃ e, c.entry = some (v, e) := by
  unfold get at h
  split at h
  · rename_i v' e hc
    split at h
    · cases h; exact ⟨e, hc⟩
    · cases h
  · cases h

theorem get_none_of_le {t t'} (hle : t ≤ t') (h : c.get t = none) : c.get t' = none := by
  unfold get at h ⊢
  cases hc : c.entry with
  | none => rfl
  | some x =>
    obtain ⟨v, e⟩ := x
    rw [hc] at h
    cases e with
    | none => simp [liveAt] at h
    | some e =>
      simp only [liveAt, decide_eq_true_eq, ite_eq_right_iff, reduceCtorEq, imp_false, Int.not_lt] at h ⊢
      omega

theorem get_none_of_ttl (he : ∀ v, c.entry ≠ some (v, none)) (h : ¬ 0 < c.ttl now) : c.get now = none := by
  unfold get
  unfold ttl at h
  cases hc : c.entry with
  | none => rfl
  | some x =>
    obtain ⟨v, e⟩ := x
    cases e with
    | none => exact absurd hc (he v)
    | some e =>
      rw [hc] at h
      simp only at h
      split at h
      · omega
      · rename_i hlt; simp [liveAt, hlt]

theorem expiry_of_ttl (hget : c.get now = some v) (h : 0 < c.ttl now) :
    ∃ e, c.entry = some (v, some e) ∧ now < e ∧ now + c.ttl now = e := by
  obtain ⟨e, he⟩ := entry_of_get hget
  unfold ttl at h ⊢
  rw [he] at h ⊢
  cases e with
  | none => cases h
  | some e =>
    dsimp only at h ⊢
    by_cases hlive : now < e
    · rw [if_pos hlive]
      exact ⟨e, rfl, hlive, by omega⟩
    · rw [if_neg hlive] at h
      cases h

theorem get_expire (h : now < e) : (c.expire now e).get now = c.get now := by
  unfold expire
  cases hg : c.get now with
  | none => rfl
  | some v => exact get_set_some v h

theorem get_incr (c : Cell Nat) (now : Int) : (c.incr now).get now = some ((c.get now).getD 0 + 1) := by
  unfold incr get
  cases hc : c.entry with
  | none => rfl
  | some x =>
    obtain ⟨n, e⟩ := x
    by_cases hl : liveAt now e = true
    · simp [hl]
    · simp only [hl, Bool.false_eq_true, ite_false]; rfl

end Cell

/-! ## Keys that are set once -/

/-- A difference of times as a duration in nanoseconds, which saturates. -/
def timeSub (t u : Int) : Int := max (-2 ^ 63) (min (2 ^ 63 - 1) (t - u))

/-- A clock and keys with an expiry, as a replay cache uses them. -/
structure KeyStore (κ : Type) where
  now : Int
  keys : κ → Cell Unit

namespace KeyStore

variable {κ : Type}

def empty (now : Int) : KeyStore κ := ⟨now, fun _ => .empty⟩

def tick (s : KeyStore κ) (n : Nat) : KeyStore κ := { s with now := s.now + n }

def Held (s : KeyStore κ) (k : κ) (expires : Int) : Prop := ∀ τ, s.now ≤ τ → τ < expires → (s.keys k).get τ ≠ none

variable {s : KeyStore κ} {k : κ} {e ttl : Int}

theorem Held.tick (h : s.Held k e) (n) : (s.tick n).Held k e := by
  intro τ hτ hlt
  have hle : s.now + n ≤ τ := hτ
  exact h τ (by omega) hlt

theorem Held.get (h : s.Held k e) (hlt : s.now < e) : (s.keys k).get s.now ≠ none :=
  h s.now (Int.le_refl _) hlt

variable [DecidableEq κ]

def setNX (s : KeyStore κ) (k : κ) (ttl : Int) : Bool × KeyStore κ :=
  match (s.keys k).get s.now with
  | some _ => (false, s)
  | none => (true, { s with keys := update s.keys k (.set () (some (s.now + ttl))) })

theorem setNX_cases (s : KeyStore κ) (k : κ) (ttl : Int) :
    s.setNX k ttl = (false, s) ∨ (s.keys k).get s.now = none ∧ s.setNX k ttl =
      (true, { s with keys := update s.keys k (.set () (some (s.now + ttl))) }) := by
  unfold setNX
  cases (s.keys k).get s.now with
  | some _ => exact .inl rfl
  | none => exact .inr ⟨rfl, rfl⟩

theorem now_setNX (s : KeyStore κ) (k : κ) (ttl : Int) : (s.setNX k ttl).2.now = s.now := by
  rcases s.setNX_cases k ttl with h | ⟨-, h⟩ <;> rw [h]

theorem Held.setNX (h : s.Held k e) (k' ttl) : (s.setNX k' ttl).2.Held k e := by
  rcases s.setNX_cases k' ttl with heq | ⟨hnone, heq⟩ <;> rw [heq]
  · exact h
  intro τ hτ hlt
  have hτ : s.now ≤ τ := hτ
  by_cases hk : k = k'
  · subst hk
    exact absurd hnone (h.get (Int.lt_of_le_of_lt hτ hlt))
  · simp only [update_of_ne hk]
    exact h τ hτ hlt

theorem held_setNX (h : (s.setNX k ttl).1 = true) (he : e ≤ s.now + ttl) : (s.setNX k ttl).2.Held k e := by
  rcases s.setNX_cases k ttl with heq | ⟨-, heq⟩
  · rw [heq] at h
    cases h
  · rw [heq]
    intro τ _ hlt
    simp only [update_self]
    rw [Cell.get_set_some () (Int.lt_of_lt_of_le hlt he)]
    exact Option.some_ne_none _

theorem not_held_of_setNX (h : (s.setNX k ttl).1 = true) (hlt : s.now < e) : ¬ s.Held k e := by
  intro hheld
  rcases s.setNX_cases k ttl with heq | ⟨hnone, -⟩
  · rw [heq] at h
    cases h
  · exact hheld.get hlt hnone

end KeyStore

/-! ## Sorted sets -/

abbrev SortedSet (μ : Type) := Rows (Prod.fst : μ × Int → μ)

namespace SortedSet

variable {μ : Type} [DecidableEq μ]

def remRangeByScore (s : SortedSet μ) (lo hi : Int) : SortedSet μ := s.delete fun e => decide (lo ≤ e.2 ∧ e.2 ≤ hi)

def card (s : SortedSet μ) : Nat := s.list.length

omit [DecidableEq μ] in
theorem mem_remRangeByScore {s : SortedSet μ} {lo hi : Int} {e} :
    e ∈ (s.remRangeByScore lo hi).list ↔ e ∈ s.list ∧ ¬ (lo ≤ e.2 ∧ e.2 ≤ hi) := by
  unfold remRangeByScore
  rw [Rows.mem_delete, decide_eq_false_iff_not]

end SortedSet

namespace Cell

variable {μ : Type} [DecidableEq μ]

variable (c : Cell (SortedSet μ))

def zAdd (now : Int) (score : Int) (member : μ) : Cell (SortedSet μ) :=
  match c.entry with
  | some (s, e) => if liveAt now e then ⟨some (s.set (member, score), e)⟩ else set (Rows.empty.set (member, score)) none
  | none => set (Rows.empty.set (member, score)) none

def zRemRangeByScore (now lo hi : Int) : Cell (SortedSet μ) :=
  match c.entry with
  | some (s, e) => if liveAt now e then ⟨some (s.remRangeByScore lo hi, e)⟩ else empty
  | none => empty

def zCard (now : Int) : Nat :=
  match c.get now with
  | some s => s.card
  | none => 0

theorem get_zAdd (now score member) :
    (c.zAdd now score member).get now = some (((c.get now).getD Rows.empty).set (member, score)) := by
  unfold zAdd get
  cases hc : c.entry with
  | none => rfl
  | some x =>
    obtain ⟨s, e⟩ := x
    by_cases hl : liveAt now e = true
    · simp [hl]
    · simp only [hl, Bool.false_eq_true, ite_false]
      rfl

omit [DecidableEq μ] in
theorem get_zRemRangeByScore (now lo hi : Int) :
    (c.zRemRangeByScore now lo hi).get now = (c.get now).map (·.remRangeByScore lo hi) := by
  unfold zRemRangeByScore get
  cases hc : c.entry with
  | none => rfl
  | some x =>
    obtain ⟨s, e⟩ := x
    by_cases hl : liveAt now e = true
    · simp [hl]
    · simp only [hl, Bool.false_eq_true, ite_false]
      rfl

end Cell

end Clavex

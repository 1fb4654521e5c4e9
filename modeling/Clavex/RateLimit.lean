import Clavex.Cell

/-!
# Rate limits

`OrgRateLimiter.slidingWindow`: a sorted set of the times at which requests came, with the
requests of the last minute counted. Times are nanoseconds, and a time is its own member and
score (`FormatInt` writes one text for one time).
-/

namespace Clavex

open List

abbrev RateKey := Cell (SortedSet Int)

def windowSecs : Int := 60

def windowNanos : Int := windowSecs * 1000000000

structure WindowResult where
  allowed : Bool
  remaining : Nat
  failed : Bool

def recordRequest (now : Int) (key : RateKey) : RateKey :=
  (key.zAdd now now now).zRemRangeByScore now 0 (now - windowNanos)

def pipelinePart (now : Int) (key : RateKey) : Nat → RateKey
  | 0 => key
  | 1 => key.zAdd now now now
  | 2 | 3 => recordRequest now key
  | _ => (recordRequest now key).expire now (now + windowNanos)

/-- `lost` is the number of commands that were carried out before the connection broke. -/
def slidingWindow (now : Int) (limit : Nat) (lost : Option Nat) (key : RateKey) : WindowResult × RateKey :=
  match lost with
  | some n => (⟨true, limit, true⟩, pipelinePart now key n)
  | none =>
    let count := (recordRequest now key).zCard now
    (⟨decide (count ≤ limit), limit - count, false⟩, (recordRequest now key).expire now (now + windowNanos))

def windowDecisions (limit : Nat) : RateKey → List Int → List (Int × Bool)
  | _, [] => []
  | key, now :: times =>
    let (r, key) := slidingWindow now limit none key
    (now, r.allowed) :: windowDecisions limit key times

def inWindow (a t : Int) : Bool := decide (a ≤ t ∧ t < a + windowNanos)

def allowedFrom (a : Int) (ds : List (Int × Bool)) : Nat := ds.countP fun d => d.2 && inWindow a d.1

/-! ## Requests in a minute -/

def TimesRecorded (key : RateKey) (past : List Int) : Prop :=
  ∀ now, (∀ t ∈ past, t ≤ now) → ∀ t ∈ past, now - windowNanos < t → ∃ s, key.get now = some s ∧ (t, t) ∈ s.list

theorem get_recordRequest (now key) :
    (recordRequest now key).get now =
      some (SortedSet.remRangeByScore (((key.get now).getD Rows.empty).set (now, now)) 0 (now - windowNanos)) := by
  unfold recordRequest
  rw [Cell.get_zRemRangeByScore, Cell.get_zAdd]
  rfl

theorem windowNanos_pos : 0 < windowNanos := by decide

variable {key : RateKey} {past : List Int} {now : Int}

theorem mem_recordRequest (h : TimesRecorded key past) (hpast : ∀ t ∈ past, t < now) {t} (ht : t ∈ now :: past)
    (hnew : now - windowNanos < t) : ∃ s, (recordRequest now key).get now = some s ∧ (t, t) ∈ s.list := by
  refine ⟨_, get_recordRequest now key, ?_⟩
  rw [SortedSet.mem_remRangeByScore, Rows.mem_set]
  refine ⟨?_, fun hrange => absurd hrange.2 (by omega)⟩
  rcases mem_cons.mp ht with rfl | ht
  · exact .inl rfl
  · obtain ⟨s, hs, hmem⟩ := h now (fun t ht => Int.le_of_lt (hpast t ht)) t ht hnew
    rw [hs]
    exact .inr ⟨hmem, Int.ne_of_lt (hpast t ht)⟩

theorem TimesRecorded.request (h : TimesRecorded key past) (hpast : ∀ t ∈ past, t < now) :
    TimesRecorded ((recordRequest now key).expire now (now + windowNanos)) (now :: past) := by
  intro now' hlater t ht hnew
  have hnow : now ≤ now' := hlater now (mem_cons_self ..)
  have hle : t ≤ now := by
    rcases mem_cons.mp ht with rfl | ht
    · exact Int.le_refl _
    · exact Int.le_of_lt (hpast t ht)
  obtain ⟨s, hs, hmem⟩ := mem_recordRequest h hpast ht (by omega)
  refine ⟨s, ?_, hmem⟩
  unfold Cell.expire
  rw [hs]
  exact Cell.get_set_some s (by omega)

theorem length_le_zCard (h : TimesRecorded key past) (hpast : ∀ t ∈ past, t < now) (hdistinct : past.Nodup) :
    (past.filter fun t => decide (now - windowNanos < t)).length + 1 ≤ (recordRequest now key).zCard now := by
  obtain ⟨s, hs, -⟩ := mem_recordRequest h hpast (mem_cons_self ..) (by have := windowNanos_pos; omega)
  let recent := now :: past.filter fun t => decide (now - windowNanos < t)
  have hrecent : recent.Nodup :=
    nodup_cons.mpr ⟨fun hmem => absurd (hpast now (mem_filter.mp hmem).1) (Int.lt_irrefl _),
      hdistinct.filter _⟩
  have hentries : (recent.map fun t => (t, t)).Nodup := hrecent.map fun _ _ heq => (Prod.mk.inj heq).1
  have hsub : ∀ e ∈ recent.map fun t => (t, t), e ∈ s.list := by
    intro e he
    obtain ⟨t, ht, rfl⟩ := mem_map.mp he
    have hnew : t ∈ now :: past ∧ now - windowNanos < t := by
      rcases mem_cons.mp ht with rfl | ht
      · exact ⟨mem_cons_self .., by have := windowNanos_pos; omega⟩
      · rw [mem_filter, decide_eq_true_eq] at ht
        exact ⟨mem_cons_of_mem _ ht.1, ht.2⟩
    obtain ⟨s', hs', hmem⟩ := mem_recordRequest h hpast hnew.1 hnew.2
    rw [hs] at hs'
    cases hs'
    exact hmem
  have hcard := (subperm_of_subset hentries hsub).length_le
  rw [length_map] at hcard
  simp only [Cell.zCard, hs]
  exact hcard

structure Counted (limit : Nat) (a : Int) (past : List Int) (granted : List Int) : Prop where
  sub : granted.Sublist past
  bound : granted.countP (inWindow a) ≤ limit

theorem countP_le_recent {a} {granted : List Int} (hsub : granted.Sublist past)
    (hin : inWindow a now = true) :
    granted.countP (inWindow a) ≤
      (past.filter fun t => decide (now - windowNanos < t)).length := by
  calc granted.countP (inWindow a)
      ≤ past.countP (inWindow a) := hsub.countP_le
    _ ≤ past.countP (fun t => decide (now - windowNanos < t)) := by
        apply countP_mono_left
        intro t _ ht
        simp only [inWindow, decide_eq_true_eq] at hin ht ⊢
        omega
    _ = (past.filter fun t => decide (now - windowNanos < t)).length := countP_eq_length_filter

theorem allowed_bounded {limit a times} (granted) (hsorted : times.Pairwise (· < ·))
    (hpast : ∀ t ∈ past, ∀ t' ∈ times, t < t') (hdistinct : past.Nodup) (h : TimesRecorded key past)
    (hcount : Counted limit a past granted) :
    granted.countP (inWindow a) + allowedFrom a (windowDecisions limit key times) ≤ limit := by
  induction times generalizing key past granted with
  | nil => exact hcount.bound
  | cons now times ih =>
    rw [pairwise_cons] at hsorted
    have hnow : ∀ t ∈ past, t < now := fun t ht => hpast t ht now (mem_cons_self ..)
    have hrest : ∀ t ∈ now :: past, ∀ t' ∈ times, t < t' := by
      intro t ht t' ht'
      rcases mem_cons.mp ht with rfl | ht
      · exact hsorted.1 t' ht'
      · exact hpast t ht t' (mem_cons_of_mem _ ht')
    have hnodup : (now :: past).Nodup :=
      nodup_cons.mpr ⟨fun hmem => absurd (hnow now hmem) (Int.lt_irrefl _), hdistinct⟩
    have hnext := fun granted => ih granted hsorted.2 hrest hnodup (h.request hnow)
    simp only [windowDecisions, slidingWindow, allowedFrom, countP_cons]
    by_cases hallowed : (recordRequest now key).zCard now ≤ limit
    · by_cases hin : inWindow a now = true
      · -- the request is counted with those of the window before it
        have hroom := length_le_zCard h hnow hdistinct
        have hle := countP_le_recent hcount.sub hin
        have hgranted : (now :: granted).countP (inWindow a) =
            granted.countP (inWindow a) + 1 := by
          rw [countP_cons_of_pos hin]
        have hstep := hnext (now :: granted) ⟨hcount.sub.cons_cons now, by omega⟩
        rw [hgranted] at hstep
        simp only [hallowed, hin, decide_true, Bool.and_true, if_true]
        unfold allowedFrom at hstep
        omega
      · have hstep := hnext granted ⟨hcount.sub.cons now, hcount.bound⟩
        simp only [hin, Bool.and_false, Bool.false_eq_true, if_false]
        exact hstep
    · have hstep := hnext granted ⟨hcount.sub.cons now, hcount.bound⟩
      simp only [hallowed, decide_false, Bool.false_and, Bool.false_eq_true, if_false]
      exact hstep

/-- No minute sees more requests allowed than the limit, if no two of them come at the same time. -/
theorem window_never_exceeded (limit : Nat) (key : RateKey) (times : List Int) (hsorted : times.Pairwise (· ≤ ·))
    (hdistinct : times.Nodup) (a : Int) : allowedFrom a (windowDecisions limit key times) ≤ limit := by
  have hstrict : times.Pairwise (· < ·) :=
    (hsorted.and hdistinct).imp fun {_ _} h => Int.lt_iff_le_and_ne.mpr h
  have hstart : ([] : List Int).countP (inWindow a) + allowedFrom a (windowDecisions limit key times) ≤ limit :=
    allowed_bounded [] hstrict (fun _ ht => absurd ht not_mem_nil) nodup_nil (fun _ _ _ ht => absurd ht not_mem_nil)
      ⟨Sublist.refl _, Nat.zero_le _⟩
  rw [countP_nil, Nat.zero_add] at hstart
  exact hstart

theorem window_never_exceeded_by_three :
    ([0, 1, 2] : List Int).Pairwise (· ≤ ·) ∧ ([0, 1, 2] : List Int).Nodup ∧
      allowedFrom 0 (windowDecisions 2 .empty [0, 1, 2]) ≤ 2 :=
  ⟨by decide, by decide, window_never_exceeded 2 .empty [0, 1, 2] (by decide) (by decide) 0⟩

/-- Three requests in the same nanosecond, where one is allowed in a minute. -/
theorem window_exceeded_at_one_time :
    ([0, 0, 0] : List Int).Pairwise (· ≤ ·) ∧ allowedFrom 0 (windowDecisions 1 .empty [0, 0, 0]) = 3 := by
  decide

end Clavex

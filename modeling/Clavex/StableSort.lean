import Mathlib.Data.List.Induction
import Mathlib.Data.List.Nodup
import Mathlib.Order.Lattice

/-!
# Insertion sort by swaps

A list is sorted in place: each element in turn sinks towards the front, past those with a
larger key. Elements with equal keys keep their order. The first element of the result that
passes a test is therefore the one with the least key, and among those the one that stood
first (`find?_sinkSort`).
-/

namespace Clavex

open List Option

variable {α κ : Type} [LinearOrder κ] (key : α → κ)

def sink : Nat → List α → List α
  | 0, out => out
  | j + 1, out =>
    match out[j]?, out[j + 1]? with
    | some a, some b => if key b < key a then sink j ((out.set j b).set (j + 1) a) else out
    | _, _ => out

def sinkSort (l : List α) : List α := (List.range' 1 (l.length - 1)).foldl (fun out i => sink key i out) l

def Leading (p : α → Bool) (l : List α) : Option α → Prop
  | none => ∀ a ∈ l, p a = false
  | some a => ∃ i : Nat, l[i]? = some a ∧ p a = true ∧
      ∀ (j : Nat) (b : α), l[j]? = some b → p b = true → key a < key b ∨ (key a = key b ∧ i ≤ j)

variable {key}

theorem sink_append (s a rest) :
    ∃ l r, s = l ++ r ∧ (∀ x ∈ r, key a < key x) ∧ (∀ x ∈ l.getLast?, key x ≤ key a) ∧
      sink key s.length (s ++ a :: rest) = l ++ a :: (r ++ rest) := by
  induction s using reverseRecOn generalizing rest with
  | nil => exact ⟨[], [], rfl, by simp, by simp, rfl⟩
  | append_singleton s b ih =>
    have hb : (s ++ b :: a :: rest)[s.length]? = some b := by simp
    have ha : (s ++ b :: a :: rest)[s.length + 1]? = some a := by simp
    rw [length_append, length_singleton, append_assoc, singleton_append, sink, hb, ha]
    dsimp only
    by_cases hlt : key a < key b
    · have hswap : ((s ++ b :: a :: rest).set s.length a).set (s.length + 1) b = s ++ a :: b :: rest := by simp
      obtain ⟨l, r, rfl, hr, hl, hsink⟩ := ih (b :: rest)
      refine ⟨l, r ++ [b], by simp, ?_, hl, ?_⟩
      · intro x hx
        rcases mem_append.mp hx with hx | hx
        · exact hr x hx
        · rw [mem_singleton.mp hx]
          exact hlt
      · rw [if_pos hlt, hswap, hsink, append_assoc, singleton_append]
    · refine ⟨s ++ [b], [], by simp, by simp, ?_, ?_⟩
      · intro x hx
        rw [getLast?_concat, mem_some_iff] at hx
        rw [← hx]
        exact not_lt.mp hlt
      · rw [if_neg hlt, nil_append, append_assoc, singleton_append]

structure Sorts (key : α → κ) (l s : List α) : Prop where
  length : s.length = l.length
  sorted : s.Pairwise fun a b => key a ≤ key b
  leading : ∀ p, Leading key p l (s.find? p)

variable {l s : List α} {a b : α} {p : α → Bool} {o : Option α}

theorem getElem?_concat_cases {j} (h : (l ++ [a])[j]? = some b) : l[j]? = some b ∨ (j = l.length ∧ b = a) := by
  rcases Nat.lt_trichotomy j l.length with hj | hj | hj
  · rw [getElem?_append_left hj] at h
    exact .inl h
  · subst hj
    rw [getElem?_concat_length, some_inj] at h
    exact .inr ⟨rfl, h.symm⟩
  · rw [getElem?_eq_none (by rw [length_append, length_singleton]; omega)] at h
    cases h

theorem getElem?_concat_left {i : Nat} (h : l[i]? = some b) : (l ++ [a])[i]? = some b := by
  rw [List.getElem?_append_left (List.getElem?_eq_some_iff.mp h).1, h]

theorem Leading.concat (h : Leading key p l o)
    (ha : p a = true → ∃ b, o = some b ∧ key b ≤ key a) : Leading key p (l ++ [a]) o := by
  cases o with
  | none =>
    intro b hb
    rcases mem_append.mp hb with hb | hb
    · exact h b hb
    · rw [mem_singleton.mp hb, ← Bool.not_eq_true]
      intro hp
      obtain ⟨_, he, _⟩ := ha hp
      cases he
  | some c =>
    obtain ⟨i, hi, hp, hmin⟩ := h
    refine ⟨i, getElem?_concat_left hi, hp, ?_⟩
    intro j b hj hb
    rcases getElem?_concat_cases hj with hj | ⟨rfl, rfl⟩
    · exact hmin j b hj hb
    · obtain ⟨_, he, hle⟩ := ha hb
      cases he
      rcases lt_or_eq_of_le hle with hlt | heq
      · exact .inl hlt
      · exact .inr ⟨heq, Nat.le_of_lt (List.getElem?_eq_some_iff.mp hi).1⟩

theorem Leading.last (ha : p a = true)
    (hmin : ∀ b ∈ l, p b = true → key a < key b) : Leading key p (l ++ [a]) (some a) := by
  refine ⟨l.length, getElem?_concat_length, ha, ?_⟩
  intro j b hj hb
  rcases getElem?_concat_cases hj with hj | ⟨rfl, rfl⟩
  · exact .inl (hmin b (mem_of_getElem? hj) hb)
  · exact .inr ⟨rfl, Nat.le_refl _⟩

theorem Leading.le (h : Leading key p l (some a)) (hb : b ∈ l) (hp : p b = true) : key a ≤ key b := by
  obtain ⟨i, -, -, hmin⟩ := h
  obtain ⟨j, hj⟩ := getElem?_of_mem hb
  rcases hmin j b hj hp with hlt | ⟨heq, -⟩
  · exact le_of_lt hlt
  · exact le_of_eq heq

theorem Sorts.concat {u v} (h : Sorts key l (u ++ v)) (hu : ∀ x ∈ u, key x ≤ key a) (hv : ∀ x ∈ v, key a < key x) :
    Sorts key (l ++ [a]) (u ++ a :: v) where
  length := by
    have hlen := h.length
    simp only [length_append, length_cons, length_nil] at hlen ⊢
    omega
  sorted := by
    obtain ⟨hu', hv', huv⟩ := pairwise_append.mp h.sorted
    refine pairwise_append.mpr ⟨hu', pairwise_cons.mpr ⟨fun x hx => le_of_lt (hv x hx), hv'⟩, ?_⟩
    intro x hx y hy
    rcases mem_cons.mp hy with rfl | hy
    · exact hu x hx
    · exact huv x hx y hy
  leading := by
    intro p
    have hlead := h.leading p
    rw [find?_append] at hlead ⊢
    cases hfu : u.find? p with
    | some b =>
      rw [hfu] at hlead
      exact hlead.concat fun _ => ⟨b, rfl, hu b (mem_of_find?_eq_some hfu)⟩
    | none =>
      rw [hfu, none_or] at hlead
      rw [none_or, find?_cons]
      cases hp : p a with
      | false => exact hlead.concat fun hp' => by rw [hp] at hp'; cases hp'
      | true =>
        refine Leading.last hp fun b hb hpb => ?_
        cases hfv : v.find? p with
        | none =>
          rw [hfv] at hlead
          rw [hlead b hb] at hpb
          cases hpb
        | some c =>
          rw [hfv] at hlead
          exact lt_of_lt_of_le (hv c (mem_of_find?_eq_some hfv)) (hlead.le hb hpb)

theorem Sorts.sink (h : Sorts key l s) (a rest) :
    ∃ s', Sorts key (l ++ [a]) s' ∧ Clavex.sink key s.length (s ++ a :: rest) = s' ++ rest := by
  obtain ⟨u, v, rfl, hv, hu, hsink⟩ := @sink_append α κ _ key s a rest
  refine ⟨u ++ a :: v, h.concat ?_ hv, by rw [hsink, append_assoc, cons_append]⟩
  intro x hx
  -- the elements in front of the last one are no larger than it
  obtain ⟨w, b, rfl⟩ := (eq_nil_or_concat' u).resolve_left (ne_nil_of_mem hx)
  have hb : key b ≤ key a := hu b (by simp)
  have hw := (pairwise_append.mp (pairwise_append.mp h.sorted).1).2.2
  rcases mem_append.mp hx with hx | hx
  · exact le_trans (hw x hx b (mem_singleton_self b)) hb
  · rw [mem_singleton.mp hx]
    exact hb

theorem Sorts.rounds (rest) (h : Sorts key l s) :
    Sorts key (l ++ rest) ((range' s.length rest.length).foldl (fun out i => Clavex.sink key i out) (s ++ rest)) := by
  induction rest generalizing l s with
  | nil => simpa using h
  | cons a rest ih =>
    obtain ⟨s', hs', hsink⟩ := h.sink a rest
    have hlen : s.length + 1 = s'.length := by
      rw [hs'.length, h.length, length_append, length_singleton]
    have := ih hs'
    rw [append_assoc, singleton_append] at this
    rw [length_cons, range'_succ, foldl_cons, hsink, hlen]
    exact this

theorem Sorts.nil : Sorts key ([] : List α) [] := ⟨rfl, Pairwise.nil, fun _ _ ha => by cases ha⟩

theorem sinkSort_sorts (l) : Sorts key l (sinkSort key l) := by
  cases l with
  | nil => exact Sorts.nil
  | cons a l =>
    -- the first element is sorted before the first round
    obtain ⟨s, hs, hsink⟩ := (Sorts.nil : Sorts key [] []).sink a []
    rw [append_nil] at hsink
    have hone : Sorts key [a] [a] := by
      rw [← hsink] at hs
      exact hs
    exact hone.rounds l

theorem find?_sinkSort (p l) : Leading key p l ((sinkSort key l).find? p) :=
  (sinkSort_sorts l).leading p

theorem Leading.mem (h : Leading key p l (some a)) : a ∈ l ∧ p a = true := by
  obtain ⟨i, hi, hp, -⟩ := h
  exact ⟨mem_of_getElem? hi, hp⟩

theorem Leading.perm {l' o'} (hl : l.Perm l') (hkeys : (l.map key).Nodup) (h : Leading key p l o)
    (h' : Leading key p l' o') : o = o' := by
  cases o with
  | none =>
    cases o' with
    | none => rfl
    | some b =>
      have hb := h b (hl.mem_iff.mpr h'.mem.1)
      rw [h'.mem.2] at hb
      cases hb
  | some a =>
    cases o' with
    | none =>
      have ha := h' a (hl.mem_iff.mp h.mem.1)
      rw [h.mem.2] at ha
      cases ha
    | some b =>
      have hb : b ∈ l := hl.mem_iff.mpr h'.mem.1
      have hab := h.le hb h'.mem.2
      have hba := h'.le (hl.mem_iff.mp h.mem.1) h.mem.2
      rw [inj_on_of_nodup_map hkeys h.mem.1 hb (le_antisymm hab hba)]

end Clavex

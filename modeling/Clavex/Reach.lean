import Mathlib.Data.Fintype.Card
import Mathlib.Data.List.Dedup
import Mathlib.Data.Set.Finite.Basic
import Mathlib.Logic.Relation
import Mathlib.Order.WellFounded

/-!
# Reachable cycles

A search that follows a relation ends, from a given start, exactly when no infinite path
leaves it. Where only finitely many states can be reached, these are the paths that run
into a cycle. A search that remembers what it has met ends in any case.
-/

namespace Clavex

open Relation List

variable {α : Type} {step : α → α → Prop} {a : α}

def Acyclic (step : α → α → Prop) (a : α) : Prop := ∀ x, ReflTransGen step a x → ¬ TransGen step x x

theorem acc_of_acyclic (hfin : {x | ReflTransGen step a x}.Finite) (h : Acyclic step a) : Acc (flip step) a := by
  let R := {x // ReflTransGen step a x}
  have : Finite R := hfin.to_subtype
  let below : R → R → Prop := fun y x => TransGen step x.1 y.1
  have : IsTrans R below := ⟨fun _ _ _ hxy hyz => hyz.trans hxy⟩
  have : Std.Irrefl below := ⟨fun x => h x.1 x.2⟩
  have hwf : WellFounded below := Finite.wellFounded_of_trans_of_irrefl below
  have hacc : ∀ x : R, Acc (flip step) x.1 := by
    intro x
    induction x using hwf.induction with
    | _ x ih => exact ⟨_, fun y hy => ih ⟨y, x.2.tail hy⟩ (.single hy)⟩
  exact hacc ⟨a, .refl⟩

theorem acyclic_of_acc (h : Acc (flip step) a) : Acyclic step a := by
  intro x hx
  have hacc : Acc (flip step) x := by
    induction hx with
    | refl => exact h
    | tail _ hyz ih => exact ih.inv hyz
  clear hx
  induction hacc with
  | intro x _ ih =>
    intro hxx
    obtain ⟨y, hxy, hyx⟩ := TransGen.head'_iff.mp hxx
    exact ih y hxy (TransGen.tail' hyx hxy)

theorem acc_iff_acyclic (hfin : {x | ReflTransGen step a x}.Finite) : Acc (flip step) a ↔ Acyclic step a :=
  ⟨acyclic_of_acc, acc_of_acyclic hfin⟩

theorem finite_reachable {s : Set α} (hs : s.Finite) (hstep : ∀ x y, step x y → y ∈ s) :
    {x | ReflTransGen step a x}.Finite := by
  refine (hs.insert a).subset fun x hx => ?_
  rcases ReflTransGen.cases_tail hx with rfl | ⟨y, -, hyx⟩
  · exact Set.mem_insert _ _
  · exact Set.mem_insert_of_mem _ (hstep y x hyx)

section Union

variable [DecidableEq α] (next : α → List α)

/-- `WITH RECURSIVE … UNION`: what the rows of the last round lead to and was not met before
makes the next round. -/
def recursiveUnion : Nat → List α → List α → List α
  | 0, seen, _ => seen
  | n + 1, seen, work =>
    let new := ((work.flatMap next).filter (· ∉ seen)).dedup
    if new = [] then seen else recursiveUnion n (seen ++ new) new

variable {next} {start U seen work : List α} {x : α}

theorem recursiveUnion_sound {P : α → Prop} (hstep : ∀ a, P a → ∀ b ∈ next a, P b) (n) (hseen : ∀ a ∈ seen, P a)
    (hwork : ∀ a ∈ work, P a) : ∀ x ∈ recursiveUnion next n seen work, P x := by
  induction n generalizing seen work with
  | zero => exact hseen
  | succ n ih =>
    simp only [recursiveUnion]
    split
    · exact hseen
    have hnew : ∀ b ∈ ((work.flatMap next).filter (· ∉ seen)).dedup, P b := by
      intro b hb
      obtain ⟨a, ha, hab⟩ := mem_flatMap.mp (mem_filter.mp (mem_dedup.mp hb)).1
      exact hstep a (hwork a ha) b hab
    exact ih (fun a ha => (mem_append.mp ha).elim (hseen a) (hnew a)) hnew

theorem recursiveUnion_closed (hU : ∀ a, ∀ b ∈ next a, b ∈ U) (n) (hn : (U.filter (· ∉ seen)).length < n)
    (hseen : ∀ a ∈ seen, a ∈ work ∨ ∀ b ∈ next a, b ∈ seen) :
    (∀ a ∈ seen, a ∈ recursiveUnion next n seen work) ∧
      ∀ a ∈ recursiveUnion next n seen work, ∀ b ∈ next a, b ∈ recursiveUnion next n seen work := by
  induction n generalizing seen work with
  | zero => exact absurd hn (Nat.not_lt_zero _)
  | succ n ih =>
    simp only [recursiveUnion]
    have hmem : ∀ b, b ∈ ((work.flatMap next).filter (· ∉ seen)).dedup ↔ (∃ a ∈ work, b ∈ next a) ∧ b ∉ seen := by
      simp
    generalize ((work.flatMap next).filter (· ∉ seen)).dedup = new at hmem
    have hnext : ∀ a ∈ seen, ∀ b ∈ next a, b ∈ seen ++ new := by
      intro a ha b hb
      by_cases hbs : b ∈ seen
      · simp [hbs]
      · rcases hseen a ha with hw | hc
        · simp [(hmem b).mpr ⟨⟨a, hw, hb⟩, hbs⟩]
        · exact absurd (hc b hb) hbs
    split
    case isTrue hnil =>
      subst hnil
      exact ⟨fun a ha => ha, by simpa using hnext⟩
    case isFalse hne =>
      obtain ⟨c, hc⟩ := exists_mem_of_ne_nil _ hne
      obtain ⟨⟨a, -, hac⟩, hcs⟩ := (hmem c).mp hc
      -- the round has met a row of `U` for the first time
      have hless : (U.filter (· ∉ seen ++ new)).length < (U.filter (· ∉ seen)).length := by
        have hsub : U.filter (· ∉ seen ++ new) = (U.filter (· ∉ seen)).filter (· ∉ new) := by
          simp [filter_filter, Bool.and_comm]
        rw [hsub, length_filter_lt_length_iff_exists]
        exact ⟨c, by simp [hU a c hac, hcs], by simp [hc]⟩
      have hrest := ih (by omega) fun a (ha : a ∈ seen ++ new) =>
        (mem_append.mp ha).elim (fun h => .inr (hnext a h)) fun h : a ∈ new => .inl h
      exact ⟨fun a ha => hrest.1 a (mem_append_left _ ha), hrest.2⟩

theorem mem_recursiveUnion (hU : ∀ a, ∀ b ∈ next a, b ∈ U) :
    x ∈ recursiveUnion next (U.length + 1) start start ↔ ∃ a ∈ start, ReflTransGen (fun a b => b ∈ next a) a x := by
  constructor
  · have hstart : ∀ a ∈ start, ∃ c ∈ start, ReflTransGen (fun a b => b ∈ next a) c a := fun a ha => ⟨a, ha, .refl⟩
    refine recursiveUnion_sound (fun a ha b hab => ?_) _ hstart hstart x
    obtain ⟨c, hc, hca⟩ := ha
    exact ⟨c, hc, hca.tail hab⟩
  · intro ⟨a, ha, hax⟩
    have hclosed := recursiveUnion_closed hU (U.length + 1) (Nat.lt_succ_of_le (length_filter_le _ _))
      fun a ha => .inl (show a ∈ start from ha)
    induction hax with
    | refl => exact hclosed.1 a ha
    | tail _ hbc ih => exact hclosed.2 _ ih _ hbc

end Union

end Clavex

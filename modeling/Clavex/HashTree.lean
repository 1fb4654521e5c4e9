import Mathlib.Algebra.Group.Nat.Defs
import Mathlib.Data.List.Nodup

/-!
# Binary trees of hashes

A list is folded into one value level by level: neighbours are combined, and a level of
odd length combines its last value with itself. The same fold with the constructor for
combining builds a tree, of which every other fold is the image. A fold that keeps leaves
and nodes apart and never combines two pairs alike determines the tree, and the tree
determines the list up to what was repeated at its end.
-/

namespace Clavex

open List

/-! ## Folding by levels -/

section
variable {β γ : Type}

def pairUp (g : β → β → β) : List β → List β
  | [] => []
  | [b] => [g b b]
  | a :: b :: l => g a b :: pairUp g l

theorem length_pairUp (g : β → β → β) (l : List β) : (pairUp g l).length = (l.length + 1) / 2 := by
  induction l using pairUp.induct with
  | case1 | case2 b => simp [pairUp]
  | case3 a b l ih =>
    simp only [pairUp, length_cons, ih]
    omega

variable {g : β → β → β} {k : γ → γ → γ} {φ : β → γ} {fuel : Nat} {l : List β}

theorem map_pairUp (hφ : ∀ a b, φ (g a b) = k (φ a) (φ b)) (l) : (pairUp g l).map φ = pairUp k (l.map φ) := by
  induction l using pairUp.induct with
  | case1 => rfl
  | case2 b => simp [pairUp, hφ]
  | case3 a b l ih => simp [pairUp, hφ, ih]

def climbLevels (g : β → β → β) : Nat → List β → Option β
  | _, [] => none
  | _, [b] => some b
  | 0, _ => none
  | fuel + 1, l => climbLevels g fuel (pairUp g l)

def treeRoot (g : β → β → β) (l : List β) : Option β := climbLevels g l.length l

theorem climbLevels_step (g : β → β → β) (fuel : Nat) (a b : β) (l : List β) :
    climbLevels g (fuel + 1) (a :: b :: l) = climbLevels g fuel (pairUp g (a :: b :: l)) := rfl

theorem climbLevels_isSome (g : β → β → β) (hne : l ≠ []) (hf : l.length ≤ fuel) :
    ∃ b, climbLevels g fuel l = some b := by
  induction fuel generalizing l with
  | zero => exact absurd (eq_nil_of_length_eq_zero (Nat.le_zero.mp hf)) hne
  | succ fuel ih =>
    match l with
    | [] => exact absurd rfl hne
    | [b] => exact ⟨b, rfl⟩
    | a :: b :: l =>
      rw [climbLevels_step]
      have hlen : (pairUp g (a :: b :: l)).length ≤ fuel := by
        rw [length_pairUp]
        simp only [length_cons] at hf ⊢
        omega
      exact ih (cons_ne_nil _ _) hlen

theorem map_climbLevels (hφ : ∀ a b, φ (g a b) = k (φ a) (φ b)) (fuel l) : (climbLevels g fuel l).map φ = climbLevels k fuel (l.map φ) := by
  induction fuel generalizing l with
  | zero =>
    match l with
    | [] | [b] | a :: b :: l => rfl
  | succ fuel ih =>
    match l with
    | [] | [b] => rfl
    | a :: b :: l => rw [climbLevels_step, ih, map_pairUp hφ]; rfl

theorem climbLevels_inv (I : List β → Prop) (hI : ∀ l, I l → I (pairUp g l))
    {b : β} (h : climbLevels g fuel l = some b) (hl : I l) : I [b] := by
  induction fuel generalizing l with
  | zero =>
    match l with
    | [] => cases h
    | [c] => cases h; exact hl
    | a :: c :: l => cases h
  | succ fuel ih =>
    match l with
    | [] => cases h
    | [c] => cases h; exact hl
    | a :: c :: l => exact ih h (hI _ hl)

end

/-! ## Trees -/

inductive HTree (α : Type) where
  | leaf (a : α)
  | node (l r : HTree α)

namespace HTree

variable {α β : Type}

def fold (f : α → β) (g : β → β → β) : HTree α → β
  | leaf a => f a
  | node l r => g (l.fold f g) (r.fold f g)

def leaves : HTree α → List α
  | leaf a => [a]
  | node l r => l.leaves ++ r.leaves

def pairs (f : α → β) (g : β → β → β) : HTree α → List (β × β)
  | leaf _ => []
  | node l r => (l.fold f g, r.fold f g) :: (l.pairs f g ++ r.pairs f g)

structure Apart (f : α → β) (g : β → β → β) (t t' : HTree α) : Prop where
  leaf : ∀ a ∈ t.leaves, ∀ a' ∈ t'.leaves, f a = f a' → a = a'
  node : ∀ p ∈ t.pairs f g, ∀ p' ∈ t'.pairs f g, g p.1 p.2 = g p'.1 p'.2 → p = p'
  leaf_node : ∀ a ∈ t.leaves, ∀ p ∈ t'.pairs f g, f a ≠ g p.1 p.2
  node_leaf : ∀ p ∈ t.pairs f g, ∀ a ∈ t'.leaves, g p.1 p.2 ≠ f a

variable {f : α → β} {g : β → β → β} {r l' r' t t' : HTree α} {l : List α} {n : Nat}

theorem Apart.left {l} (h : Apart f g (.node l r) (.node l' r')) : Apart f g l l' where
  leaf := fun a ha a' ha' => h.leaf a (mem_append_left _ ha) a' (mem_append_left _ ha')
  node := fun p hp p' hp' => h.node p (mem_cons_of_mem _ (mem_append_left _ hp)) p'
    (mem_cons_of_mem _ (mem_append_left _ hp'))
  leaf_node := fun a ha p hp => h.leaf_node a (mem_append_left _ ha) p
    (mem_cons_of_mem _ (mem_append_left _ hp))
  node_leaf := fun p hp a ha => h.node_leaf p (mem_cons_of_mem _ (mem_append_left _ hp)) a
    (mem_append_left _ ha)

theorem Apart.right {l} (h : Apart f g (.node l r) (.node l' r')) : Apart f g r r' where
  leaf := fun a ha a' ha' => h.leaf a (mem_append_right _ ha) a' (mem_append_right _ ha')
  node := fun p hp p' hp' => h.node p (mem_cons_of_mem _ (mem_append_right _ hp)) p'
    (mem_cons_of_mem _ (mem_append_right _ hp'))
  leaf_node := fun a ha p hp => h.leaf_node a (mem_append_right _ ha) p
    (mem_cons_of_mem _ (mem_append_right _ hp))
  node_leaf := fun p hp a ha => h.node_leaf p (mem_cons_of_mem _ (mem_append_right _ hp)) a
    (mem_append_right _ ha)

theorem eq_of_fold_eq (ha : Apart f g t t')
    (h : t.fold f g = t'.fold f g) : t = t' := by
  induction t generalizing t' with
  | leaf a =>
    cases t' with
    | leaf a' => rw [ha.leaf a (mem_singleton_self _) a' (mem_singleton_self _) h]
    | node l' r' => exact absurd h (ha.leaf_node a (mem_singleton_self _) _ (mem_cons_self ..))
  | node l r ihl ihr =>
    cases t' with
    | leaf a' => exact absurd h (ha.node_leaf _ (mem_cons_self ..) a' (mem_singleton_self _))
    | node l' r' =>
      have hp := ha.node _ (mem_cons_self ..) _ (mem_cons_self ..) h
      rw [Prod.mk.injEq] at hp
      rw [ihl ha.left hp.1, ihr ha.right hp.2]

/-! ## The tree over a list -/

def build (l : List α) : Option (HTree α) := treeRoot .node (l.map .leaf)

theorem build_isSome (hne : l ≠ []) : ∃ t, build l = some t := by
  apply climbLevels_isSome
  · simp [hne]
  · exact Nat.le_refl _

theorem treeRoot_map (f : α → β) (g : β → β → β) (l : List α) : treeRoot g (l.map f) = (build l).map (fold f g) := by
  unfold build treeRoot
  rw [map_climbLevels (fun _ _ => rfl), map_map, length_map, length_map]
  rfl

def levelLeaves (ts : List (HTree α)) : List α := ts.flatMap leaves

theorem levelLeaves_pairUp (ts : List (HTree α)) :
    ∃ rest, levelLeaves (pairUp .node ts) = levelLeaves ts ++ rest ∧ ∀ a ∈ rest, a ∈ levelLeaves ts := by
  induction ts using pairUp.induct with
  | case1 => exact ⟨[], rfl, fun a ha => ha⟩
  | case2 t =>
    refine ⟨t.leaves, ?_, ?_⟩
    · simp [pairUp, levelLeaves, leaves]
    · simp [levelLeaves]
  | case3 t u ts ih =>
    obtain ⟨rest, heq, hmem⟩ := ih
    have hcons : levelLeaves (t :: u :: ts) = t.leaves ++ (u.leaves ++ levelLeaves ts) := by simp [levelLeaves]
    refine ⟨rest, ?_, ?_⟩
    · rw [hcons]
      calc levelLeaves (pairUp .node (t :: u :: ts))
        _ = t.leaves ++ u.leaves ++ levelLeaves (pairUp .node ts) := rfl
        _ = t.leaves ++ u.leaves ++ (levelLeaves ts ++ rest) := by rw [heq]
        _ = t.leaves ++ (u.leaves ++ levelLeaves ts) ++ rest := by simp
    · intro a ha
      rw [hcons]
      exact mem_append_right _ (mem_append_right _ (hmem a ha))

theorem leaves_build (h : build l = some t) : ∃ rest, t.leaves = l ++ rest ∧ ∀ a ∈ rest, a ∈ l := by
  have hstep : ∀ ts : List (HTree α), (∃ rest, levelLeaves ts = l ++ rest ∧ ∀ a ∈ rest, a ∈ l) →
      ∃ rest, levelLeaves (pairUp .node ts) = l ++ rest ∧ ∀ a ∈ rest, a ∈ l := by
    intro ts hts
    obtain ⟨rest, heq, hmem⟩ := hts
    obtain ⟨more, heq', hmem'⟩ := levelLeaves_pairUp ts
    refine ⟨rest ++ more, ?_, ?_⟩
    · rw [heq', heq, append_assoc]
    · intro a ha
      rcases mem_append.mp ha with ha | ha
      · exact hmem a ha
      · have := hmem' a ha
        rw [heq] at this
        exact (mem_append.mp this).elim id (hmem a)
  have hstart : levelLeaves (l.map leaf) = l ++ [] := by
    unfold levelLeaves
    rw [flatMap_map, append_nil]
    exact flatMap_singleton' l
  have hroot := climbLevels_inv _ hstep h ⟨[], hstart, fun a ha => by cases ha⟩
  simpa [levelLeaves] using hroot

/-! ## Trees of one height -/

def Perfect : Nat → HTree α → Prop
  | 0, leaf _ => True
  | n + 1, node l r => l.Perfect n ∧ r.Perfect n
  | _, _ => False

theorem Perfect.length_leaves (h : t.Perfect n) : t.leaves.length = 2 ^ n := by
  induction t generalizing n with
  | leaf a =>
    cases n with
    | zero => rfl
    | succ n => exact absurd h id
  | node l r ihl ihr =>
    cases n with
    | zero => exact absurd h id
    | succ n =>
      simp only [leaves, length_append, ihl h.1, ihr h.2]
      omega

theorem Perfect.eq_of_leaves (h : t.Perfect n) (h' : t'.Perfect n)
    (heq : t.leaves = t'.leaves) : t = t' := by
  induction t generalizing n t' with
  | leaf a =>
    cases t' with
    | leaf a' => rw [singleton_inj.mp heq]
    | node l' r' =>
      cases n with
      | zero => exact absurd h' id
      | succ n => exact absurd h id
  | node l r ihl ihr =>
    cases t' with
    | leaf a' =>
      cases n with
      | zero => exact absurd h id
      | succ n => exact absurd h' id
    | node l' r' =>
      cases n with
      | zero => exact absurd h id
      | succ n =>
        have hlen : l.leaves.length = l'.leaves.length := by rw [h.1.length_leaves, h'.1.length_leaves]
        obtain ⟨hl, hr⟩ := append_inj heq hlen
        rw [ihl h.1 h'.1 hl, ihr h.2 h'.2 hr]

theorem build_perfect (h : build l = some t) : ∃ n, t.Perfect n := by
  have hpair : ∀ (n : Nat) (ts : List (HTree α)), (∀ t ∈ ts, t.Perfect n) → ∀ t ∈ pairUp .node ts, t.Perfect (n + 1) := by
    intro n ts
    induction ts using pairUp.induct with
    | case1 => exact fun _ t ht => by cases ht
    | case2 t =>
      intro hts u hu
      rw [mem_singleton.mp hu]
      exact ⟨hts t (mem_singleton_self _), hts t (mem_singleton_self _)⟩
    | case3 t u ts ih =>
      intro hts v hv
      simp only [forall_mem_cons] at hts
      rcases mem_cons.mp hv with rfl | hv
      · exact ⟨hts.1, hts.2.1⟩
      · exact ih hts.2.2 v hv
  have hroot := climbLevels_inv (fun ts => ∃ n, ∀ t ∈ ts, Perfect n t) (fun ts ⟨n, hts⟩ => ⟨n + 1, hpair n ts hts⟩) h
    ⟨0, fun t ht => by obtain ⟨a, -, rfl⟩ := mem_map.mp ht; exact trivial⟩
  obtain ⟨n, hn⟩ := hroot
  exact ⟨n, hn t (mem_singleton_self _)⟩

theorem build_eq_of_leaves {l'} (h : build l = some t) (h' : build l' = some t') (heq : t.leaves = t'.leaves) :
    t = t' := by
  obtain ⟨n, hn⟩ := build_perfect h
  obtain ⟨n', hn'⟩ := build_perfect h'
  have hpow : 2 ^ n = 2 ^ n' := by rw [← hn.length_leaves, ← hn'.length_leaves, heq]
  have hnn : n = n' := Nat.pow_right_inj (Nat.lt_succ_self 1) |>.mp hpow
  subst hnn
  exact hn.eq_of_leaves hn' heq

theorem build_nodup {l'} (h : build l = some t) (h' : build l' = some t') (heq : t.leaves = t'.leaves)
    (hn' : l'.Nodup) : l'.length ≤ l.length := by
  obtain ⟨rest, hl, hmem⟩ := leaves_build h
  obtain ⟨rest', hl', -⟩ := leaves_build h'
  rw [hl, hl'] at heq
  by_contra hlt
  rw [Nat.not_le] at hlt
  -- `l` is a proper initial part of `l'`
  obtain ⟨more, hmore⟩ : ∃ more, l' = l ++ more := by
    have hpre : l <+: l' := prefix_of_prefix_length_le (heq ▸ prefix_append l rest)
      (prefix_append l' rest') (Nat.le_of_lt hlt)
    obtain ⟨more, hmore⟩ := hpre
    exact ⟨more, hmore.symm⟩
  subst hmore
  cases more with
  | nil => simp at hlt
  | cons a more =>
    rw [append_assoc] at heq
    have hrest : rest = a :: (more ++ rest') := append_cancel_left heq
    have ha : a ∈ l := hmem a (hrest ▸ mem_cons_self ..)
    exact (nodup_append.mp hn').2.2 a ha a (mem_cons_self ..) rfl

end HTree

end Clavex

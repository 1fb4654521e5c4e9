import Mathlib.Data.List.Nodup
import Mathlib.Data.List.Basic

/-!
# Tables with a unique key

Rows whose key is a field of the row, with the statements that insert, change and
delete some of them. No statement changes a key, so a key names one row for good.
-/

namespace Clavex

open List

structure Rows {κ α : Type} (key : α → κ) where
  list : List α
  nodup : (list.map key).Nodup

namespace Rows

variable {κ α : Type} {key : α → κ}

def empty : Rows key := ⟨[], List.nodup_nil⟩

def find (t : Rows key) (p : α → Bool) : Option α := t.list.find? p

def insert (t : Rows key) (a : α) (h : key a ∉ t.list.map key) : Rows key where
  list := a :: t.list
  nodup := List.nodup_cons.mpr ⟨h, t.nodup⟩

def push [DecidableEq κ] (t : Rows key) (a : α) : Option (Rows key) :=
  if h : key a ∈ t.list.map key then none else some (t.insert a h)

def freshKey {key : α → Nat} (t : Rows key) : Nat := (t.list.map key).foldr max 0 + 1

theorem freshKey_notMem {key : α → Nat} (t : Rows key) : t.freshKey ∉ t.list.map key := by
  have hle : ∀ {l : List Nat} {n : Nat}, n ∈ l → n ≤ l.foldr max 0 := by
    intro l n hn
    induction l with
    | nil => cases hn
    | cons m l ih =>
      rw [foldr_cons]
      rcases mem_cons.mp hn with rfl | hn
      · exact Nat.le_max_left ..
      · exact Nat.le_trans (ih hn) (Nat.le_max_right ..)
  intro h
  exact absurd (hle h) (Nat.not_succ_le_self _)

def insertFresh {key : α → Nat} (t : Rows key) (mk : Nat → α) (hmk : ∀ n, key (mk n) = n) : Rows key :=
  t.insert (mk t.freshKey) (by rw [hmk]; exact t.freshKey_notMem)

def delete (t : Rows key) (p : α → Bool) : Rows key where
  list := t.list.filter fun a => !p a
  nodup := t.nodup.sublist (List.filter_sublist.map _)

theorem keys_modify (p : α → Bool) (f : α → α) (hf : ∀ a, key (f a) = key a) (l : List α) :
    (l.map fun a => if p a then f a else a).map key = l.map key := by
  rw [map_map]
  refine map_congr_left fun a _ => ?_
  simp only [Function.comp]
  split
  · exact hf a
  · rfl

def modify (t : Rows key) (p : α → Bool) (f : α → α) (hf : ∀ a, key (f a) = key a) : Rows key where
  list := t.list.map fun a => if p a then f a else a
  nodup := by rw [keys_modify p f hf]; exact t.nodup

variable {t : Rows key} {a b : α} {p q : α → Bool} {f : α → α}

theorem eq_of_key (ha : a ∈ t.list) (hb : b ∈ t.list) (h : key a = key b) : a = b :=
  inj_on_of_nodup_map t.nodup ha hb h

theorem find_some (h : t.find p = some a) : a ∈ t.list ∧ p a = true :=
  ⟨mem_of_find?_eq_some h, find?_some h⟩

theorem find_none (h : t.find p = none) : ∀ a ∈ t.list, p a = false := by
  intro a ha
  exact Bool.eq_false_iff.mpr (find?_eq_none.mp h a ha)

theorem find_key (ha : a ∈ t.list) (hp : p a = true)
    (hk : ∀ b, p b = true → key b = key a) : t.find p = some a := by
  cases h : t.find p with
  | none => rw [find_none h a ha] at hp; cases hp
  | some b =>
    obtain ⟨hb, hpb⟩ := find_some h
    rw [eq_of_key hb ha (hk b hpb)]

theorem mem_modify {hf} : b ∈ (t.modify p f hf).list ↔ ∃ a ∈ t.list, b = if p a then f a else a := by
  unfold modify
  simp only [mem_map, eq_comm]

section
variable {C : α → α → Prop} (hrefl : ∀ a, C a a) (h : ∀ a ∈ t.list, p a = true → C a (f a)) (hf : ∀ a, key (f a) = key a)
include hrefl h

theorem modify_to : ∀ a ∈ t.list, ∃ b ∈ (t.modify p f hf).list, C a b := by
  intro a ha
  refine ⟨_, mem_map_of_mem ha, ?_⟩
  split
  · rename_i hp
    exact h a ha hp
  · exact hrefl a

theorem modify_from : ∀ b ∈ (t.modify p f hf).list, ∃ a ∈ t.list, C a b := by
  intro b hb
  obtain ⟨a, ha, rfl⟩ := mem_modify.mp hb
  refine ⟨a, ha, ?_⟩
  split
  · rename_i hp
    exact h a ha hp
  · exact hrefl a

end

theorem forall_modify {hf} {P : α → Prop} (h : ∀ a ∈ t.list, P a) (hP : ∀ a, P a → P (f a)) :
    ∀ b ∈ (t.modify p f hf).list, P b := by
  intro b hb
  obtain ⟨a, ha, rfl⟩ := mem_modify.mp hb
  split
  · exact hP a (h a ha)
  · exact h a ha

theorem mem_delete : a ∈ (t.delete p).list ↔ a ∈ t.list ∧ p a = false := by
  unfold delete
  simp

theorem filter_delete (h : ∀ a ∈ t.list, p a = true → q a = false) : (t.delete p).list.filter q = t.list.filter q := by
  unfold delete
  rw [filter_filter]
  refine filter_congr fun a ha => ?_
  cases hp : p a with
  | true => rw [h a ha hp]; rfl
  | false => simp

theorem filter_modify {hf} (h : ∀ a ∈ t.list, p a = true → q a = false ∧ q (f a) = false) :
    (t.modify p f hf).list.filter q = t.list.filter q := by
  show (t.list.map fun a => if p a then f a else a).filter q = t.list.filter q
  generalize t.list = l at h
  induction l with
  | nil => rfl
  | cons a l ih =>
    rw [forall_mem_cons] at h
    rw [map_cons, filter_cons, filter_cons, ih h.2]
    cases hp : p a with
    | true => simp [(h.1 hp).1, (h.1 hp).2]
    | false => simp

theorem push_some [DecidableEq κ] {t'} (h : t.push a = some t') : t'.list = a :: t.list := by
  unfold push at h
  split at h
  · cases h
  · cases h; rfl

def set [DecidableEq κ] (t : Rows key) (a : α) : Rows key :=
  (t.delete fun b => key b = key a).insert a <| by
    simp only [delete, List.mem_map, List.mem_filter, Bool.not_eq_true', decide_eq_false_iff_not, not_exists, not_and]
    exact fun b hb heq => hb.2 heq

theorem mem_set [DecidableEq κ] : b ∈ (t.set a).list ↔ b = a ∨ (b ∈ t.list ∧ key b ≠ key a) := by
  simp [set, insert, delete]

theorem find_set [DecidableEq κ] (t : Rows key) (a : α) (k : κ) :
    (t.set a).find (fun b => decide (key b = k)) = if key a = k then some a else t.find fun b => decide (key b = k) := by
  show List.find? _ (a :: t.list.filter fun b => !decide (key b = key a)) = _
  rw [find?_cons]
  by_cases h : key a = k
  · rw [decide_eq_true h, if_pos h]
  · rw [decide_eq_false h, if_neg h, find?_filter]
    show t.list.find? _ = t.list.find? _
    congr 1
    funext b
    by_cases hb : key b = k
    · have hne : key b ≠ key a := fun heq => h (heq.symm.trans hb)
      simp [hb, hb ▸ hne]
    · simp [hb]

theorem perm_delete [DecidableEq κ] (ha : a ∈ t.list) : t.list.Perm (a :: (t.delete fun b => key b = key a).list) := by
  obtain ⟨l₁, l₂, hl⟩ := append_of_mem ha
  have hn := t.nodup
  rw [hl, map_append, map_cons, nodup_append, nodup_cons] at hn
  have hkeep : ∀ l : List α, (∀ b ∈ l, key b ≠ key a) → l.filter (fun b => !decide (key b = key a)) = l := by
    intro l h
    apply filter_eq_self.mpr
    intro b hb
    rw [decide_eq_false (h b hb)]
    rfl
  have h₁ : ∀ b ∈ l₁, key b ≠ key a :=
    fun b hb => hn.2.2 (key b) (mem_map_of_mem hb) (key a) (mem_cons_self ..)
  have h₂ : ∀ b ∈ l₂, key b ≠ key a := fun b hb heq => hn.2.1.1 (heq ▸ mem_map_of_mem hb)
  have hdel : (t.delete fun b => key b = key a).list = l₁ ++ l₂ := by
    show t.list.filter (fun b => !decide (key b = key a)) = l₁ ++ l₂
    rw [hl, filter_append, filter_cons_of_neg (by simp), hkeep l₁ h₁, hkeep l₂ h₂]
  rw [hdel, hl]
  exact perm_middle

theorem set_list [DecidableEq κ] (h : ∀ b ∈ t.list, key b ≠ key a) : (t.set a).list = a :: t.list := by
  show a :: t.list.filter (fun b => !decide (key b = key a)) = a :: t.list
  rw [filter_eq_self.mpr]
  intro b hb
  rw [decide_eq_false (h b hb)]
  rfl

theorem filter_set [DecidableEq κ] (t : Rows key) (a : α) (q : α → Bool) :
    (t.set a).list.filter q = [a].filter q ++ (t.list.filter q).filter fun b => !decide (key b = key a) := by
  show (a :: t.list.filter fun b => !decide (key b = key a)).filter q = _
  rw [← singleton_append, filter_append, filter_filter, filter_filter]
  congr 2
  funext b
  exact Bool.and_comm ..

/-! ### Own versions of rows -/

def overlay [DecidableEq κ] (t : Rows key) (own : List α) : Rows key := own.foldr (fun a t => t.set a) t

section
variable [DecidableEq κ] {t t' : Rows key} {own : List α}

theorem find_overlay_congr {k : κ} (h : t.find (fun b => decide (key b = k)) = t'.find fun b => decide (key b = k))
    (own : List α) :
    (t.overlay own).find (fun b => decide (key b = k)) = (t'.overlay own).find fun b => decide (key b = k) := by
  induction own with
  | nil => exact h
  | cons a own ih =>
    show ((t.overlay own).set a).find _ = ((t'.overlay own).set a).find _
    rw [find_set, find_set, ih]

theorem find_overlay {k : κ} (h : ∀ a ∈ own, key a ≠ k) :
    (t.overlay own).find (fun b => decide (key b = k)) = t.find fun b => decide (key b = k) := by
  induction own with
  | nil => rfl
  | cons a own ih =>
    rw [forall_mem_cons] at h
    show ((t.overlay own).set a).find _ = _
    rw [find_set, if_neg h.1, ih h.2]

theorem filter_overlay_congr {q} (h : t.list.filter q = t'.list.filter q) (own : List α) :
    (t.overlay own).list.filter q = (t'.overlay own).list.filter q := by
  induction own with
  | nil => exact h
  | cons a own ih =>
    show ((t.overlay own).set a).list.filter q = ((t'.overlay own).set a).list.filter q
    rw [filter_set, filter_set, ih]

theorem filter_overlay {q} (h : ∀ a ∈ own, q a = false ∧ ∀ b ∈ t.list, key b = key a → q b = false) :
    (t.overlay own).list.filter q = t.list.filter q := by
  induction own with
  | nil => rfl
  | cons a own ih =>
    rw [forall_mem_cons] at h
    have hkeep : (t.list.filter q).filter (fun b => !decide (key b = key a)) = t.list.filter q := by
      apply filter_eq_self.mpr
      intro b hb
      obtain ⟨hb, hq⟩ := mem_filter.mp hb
      have hne : key b ≠ key a := by
        intro heq
        rw [h.1.2 b hb heq] at hq
        cases hq
      simp [hne]
    show ((t.overlay own).set a).list.filter q = _
    rw [filter_set, ih h.2, hkeep]
    simp [h.1.1]

theorem mem_overlay {b} (h : b ∈ (t.overlay own).list) : b ∈ own ∨ b ∈ t.list := by
  induction own with
  | nil => exact .inr h
  | cons a own ih =>
    rcases mem_set.mp h with rfl | ⟨hb, _⟩
    · exact .inl (mem_cons_self ..)
    · exact (ih hb).imp_left (mem_cons_of_mem _)

theorem exists_overlay {k} :
    (∃ b ∈ (t.overlay own).list, key b = k) ↔ (∃ b ∈ own, key b = k) ∨ ∃ b ∈ t.list, key b = k := by
  induction own with
  | nil => simp [overlay]
  | cons a own ih =>
    have hset : (∃ b ∈ ((t.overlay own).set a).list, key b = k) ↔ key a = k ∨ ∃ b ∈ (t.overlay own).list, key b = k := by
      constructor
      · intro ⟨b, hb, hk⟩
        rcases mem_set.mp hb with heq | hb
        · exact .inl (heq ▸ hk)
        · exact .inr ⟨b, hb.1, hk⟩
      · intro h
        by_cases ha : key a = k
        · exact ⟨a, mem_set.mpr (.inl rfl), ha⟩
        · obtain ⟨b, hb, hk⟩ := h.resolve_left ha
          exact ⟨b, mem_set.mpr (.inr ⟨hb, fun heq => ha (heq ▸ hk)⟩), hk⟩
    refine hset.trans ?_
    rw [ih, exists_mem_cons_iff, or_assoc]

end

end Rows

/-! ## Ranging over a table -/

/-- The orders in which the loops of a run range over tables, each anew. -/
structure MapOrder (α : Type) where
  range : Nat → List α → List α
  perm : ∀ i l, (range i l).Perm l

namespace MapOrder

variable {κ α : Type} {key : α → κ}

def prefer [DecidableEq κ] (key : α → κ) (ks : Nat → κ) : MapOrder α where
  range i l := l.filter (fun a => decide (key a = ks i)) ++ l.filter fun a => !decide (key a = ks i)
  perm _ l := List.filter_append_perm _ l

theorem find?_prefer [DecidableEq κ] {t : Rows key} (ks i) {p : α → Bool} {a : α} (ha : a ∈ t.list)
    (hk : ks i = key a) (hp : p a = true) : ((prefer key ks).range i t.list).find? p = some a := by
  have hfirst : (t.list.filter fun b => decide (key b = ks i)).find? p = some a := by
    cases h : (t.list.filter fun b => decide (key b = ks i)).find? p with
    | none =>
      have hmem : a ∈ t.list.filter fun b => decide (key b = ks i) := by
        rw [mem_filter]
        exact ⟨ha, decide_eq_true hk.symm⟩
      exact absurd hp (find?_eq_none.mp h a hmem)
    | some b =>
      obtain ⟨hb, hkb⟩ := mem_filter.mp (mem_of_find?_eq_some h)
      rw [Rows.eq_of_key hb ha ((of_decide_eq_true hkb).trans hk)]
  show ((t.list.filter _) ++ _).find? p = some a
  rw [find?_append, hfirst, Option.some_or]

theorem find?_mem (ord : MapOrder α) {i : Nat} {l p} {a : α} (h : (ord.range i l).find? p = some a) :
    a ∈ l ∧ p a = true :=
  ⟨(ord.perm i l).mem_iff.mp (mem_of_find?_eq_some h), find?_some h⟩

theorem find?_none (ord : MapOrder α) {i : Nat} {l p} (h : (ord.range i l).find? p = none) : ∀ a ∈ l, p a = false := by
  intro a ha
  exact Bool.eq_false_iff.mpr (find?_eq_none.mp h a ((ord.perm i l).mem_iff.mpr ha))

end MapOrder

/-! ## What becomes of rows

A row that is found under the key of an earlier one has come from it, by changes that the
relation `C` allows (`Lineage.continues`). -/

variable {σ κ α : Type} {key : α → κ} {C : α → α → Prop}

structure Succession (key : α → κ) (C : α → α → Prop) : Prop where
  refl : ∀ a, C a a
  trans : ∀ {a b c}, C a b → C b c → C a c
  key : ∀ {a b}, C a b → key b = key a

def Inherits (C : α → α → Prop) (t t' : Rows key) : Prop := ∀ b ∈ t'.list, ∃ a ∈ t.list, C a b

namespace Inherits

variable {t : Rows key}

theorem refl (hC : Succession key C) (t : Rows key) : Inherits C t t := fun a ha => ⟨a, ha, hC.refl a⟩

theorem modify (hC : Succession key C) {p f} (hf : ∀ a, key (f a) = key a) (h : ∀ a ∈ t.list, p a = true → C a (f a)) :
    Inherits C t (t.modify p f hf) :=
  Rows.modify_from hC.refl h hf

theorem delete (hC : Succession key C) (p) : Inherits C t (t.delete p) :=
  fun a ha => ⟨a, (Rows.mem_delete.mp ha).1, hC.refl a⟩

end Inherits

/-- From `s` to `s'` rows of the table `rows` only change within `C`, and are added only under
keys that are seen for the first time. -/
structure Lineage (rows : σ → Rows key) (seen : σ → κ → Prop) (C : α → α → Prop) (s s' : σ) : Prop where
  keys : ∀ k, seen s k → seen s' k
  table : ∀ b ∈ (rows s').list, (∃ a ∈ (rows s).list, C a b) ∨ (¬ seen s (key b) ∧ seen s' (key b))

def AllSeen (rows : σ → Rows key) (seen : σ → κ → Prop) (s : σ) : Prop := ∀ a ∈ (rows s).list, seen s (key a)

namespace Lineage

variable {rows : σ → Rows key} {seen : σ → κ → Prop} {s s' s'' : σ}

theorem of_inherits (hseen : ∀ k, seen s k → seen s' k) (h : Inherits C (rows s) (rows s')) :
    Lineage rows seen C s s' := ⟨hseen, fun b hb => .inl (h b hb)⟩

section
variable (hC : Succession key C)
include hC

theorem refl (s : σ) : Lineage rows seen C s s :=
  of_inherits (fun _ h => h) (.refl hC (rows s))

theorem push (hseen : ∀ k, seen s k → seen s' k) {a} (hrows : (rows s').list = a :: (rows s).list)
    (hnew : ¬ seen s (key a)) (ha : seen s' (key a)) : Lineage rows seen C s s' := by
  refine ⟨hseen, fun b hb => ?_⟩
  rw [hrows] at hb
  rcases mem_cons.mp hb with rfl | hb
  · exact .inr ⟨hnew, ha⟩
  · exact .inl ⟨b, hb, hC.refl b⟩

theorem trans (h : Lineage rows seen C s s') (h' : Lineage rows seen C s' s'') : Lineage rows seen C s s'' where
  keys := fun k hk => h'.keys k (h.keys k hk)
  table := by
    intro c hc
    rcases h'.table c hc with ⟨b, hb, hbc⟩ | ⟨hnew, hin⟩
    · rcases h.table b hb with ⟨a, ha, hab⟩ | ⟨hnew, hin⟩
      · exact .inl ⟨a, ha, hC.trans hab hbc⟩
      · rw [← hC.key hbc] at hnew hin
        exact .inr ⟨hnew, h'.keys _ hin⟩
    · exact .inr ⟨fun hk => hnew (h.keys _ hk), hin⟩

theorem allSeen (h : Lineage rows seen C s s') (hs : AllSeen rows seen s) : AllSeen rows seen s' := by
  intro b hb
  rcases h.table b hb with ⟨a, ha, hab⟩ | ⟨-, hin⟩
  · rw [hC.key hab]
    exact h.keys _ (hs a ha)
  · exact hin

theorem continues (h : Lineage rows seen C s s') (hs : AllSeen rows seen s) {a b} (ha : a ∈ (rows s).list)
    (hb : b ∈ (rows s').list) (hk : key b = key a) : C a b := by
  rcases h.table b hb with ⟨a', ha', hab⟩ | ⟨hnew, -⟩
  · have heq : a' = a := Rows.eq_of_key ha' ha ((hC.key hab).symm.trans hk)
    rw [← heq]
    exact hab
  · rw [hk] at hnew
    exact absurd (hs a ha) hnew

end

end Lineage

end Clavex

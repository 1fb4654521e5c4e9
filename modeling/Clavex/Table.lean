import Clavex.Rows

/-!
# Tables with conditional updates

Rows under a serial key, and the statements that change them. A row whose
condition a marking `UPDATE` clears is hit by at most one such statement in its
life, however the statements interleave: `Spends` is the invariant behind that.
-/

namespace Clavex

open List

structure Table (α : Type) where
  rows : Rows fun r : Nat × α => r.1
  next : Nat
  fresh : ∀ r ∈ rows.list, r.1 < next

namespace Table

variable {α : Type}

def empty : Table α := ⟨.empty, 0, nofun⟩

variable (t : Table α)

def get (i : Nat) : Option α := (t.rows.find (·.1 == i)).map (·.2)

def insert (a : α) : Table α where
  rows := t.rows.insert (t.next, a) <| by
    intro h
    obtain ⟨r, hr, heq⟩ := List.mem_map.mp h
    exact absurd (t.fresh r hr) (by rw [heq]; exact Nat.lt_irrefl _)
  next := t.next + 1
  fresh := by
    intro r hr
    rcases List.mem_cons.mp hr with rfl | hr
    · exact Nat.lt_succ_self _
    · exact Nat.lt_succ_of_lt (t.fresh r hr)

def delete (p : α → Bool) : Table α where
  rows := t.rows.delete fun r => p r.2
  next := t.next
  fresh := fun r hr => t.fresh r (Rows.mem_delete.mp hr).1

def update (p : α → Bool) (f : α → α) : Table α where
  rows := t.rows.modify (fun r => p r.2) (fun r => (r.1, f r.2)) fun _ => rfl
  next := t.next
  fresh := Rows.forall_modify t.fresh fun _ hr => hr

def hits (p : α → Bool) : List Nat := (t.rows.list.filter fun r => p r.2).map (·.1)

theorem mem_hits {t : Table α} {p : α → Bool} {i : Nat} : i ∈ t.hits p ↔ ∃ r ∈ t.rows.list, r.1 = i ∧ p r.2 = true := by
  constructor
  · intro h
    obtain ⟨r, hr, hi⟩ := mem_map.mp h
    exact ⟨r, (mem_filter.mp hr).1, hi, (mem_filter.mp hr).2⟩
  · rintro ⟨r, hr, hi, hp⟩
    exact mem_map.mpr ⟨r, mem_filter.mpr ⟨hr, hp⟩, hi⟩

end Table

structure Spends {α : Type} (unused : α → Bool) (t : Table α) (spent : List Nat) : Prop where
  nodup : spent.Nodup
  old : ∀ i ∈ spent, i < t.next
  used : ∀ r ∈ t.rows.list, r.1 ∈ spent → unused r.2 = false

namespace Spends

variable {α : Type} {unused : α → Bool} {t : Table α} {spent : List Nat}

theorem nil (t) : Spends unused t [] := ⟨nodup_nil, nofun, nofun⟩

theorem sublist {l} (h : Spends unused t spent) (hl : l.Sublist spent) : Spends unused t l :=
  ⟨h.nodup.sublist hl, fun i hi => h.old i (hl.subset hi), fun r hr hi => h.used r hr (hl.subset hi)⟩

theorem insert (h : Spends unused t spent) (a) : Spends unused (t.insert a) spent := by
  refine ⟨h.nodup, fun i hi => Nat.lt_succ_of_lt (h.old i hi), ?_⟩
  intro r hr hi
  rcases mem_cons.mp hr with rfl | hr
  · exact absurd (h.old _ hi) (Nat.lt_irrefl _)
  · exact h.used r hr hi

theorem delete (h : Spends unused t spent) (p) : Spends unused (t.delete p) spent :=
  ⟨h.nodup, h.old, fun r hr => h.used r (Rows.mem_delete.mp hr).1⟩

theorem update (h : Spends unused t spent) {p f} (hp : ∀ a, p a = true → unused a = true)
    (hf : ∀ a, unused (f a) = false) : Spends unused (t.update p f) (t.hits p ++ spent) := by
  refine ⟨?_, ?_, ?_⟩
  · refine nodup_append.mpr ⟨t.rows.nodup.sublist (filter_sublist.map _), h.nodup, ?_⟩
    rintro i hi j hj rfl
    obtain ⟨r, hr, rfl, hpr⟩ := Table.mem_hits.mp hi
    have := h.used r hr hj
    rw [hp _ hpr] at this
    cases this
  · intro i hi
    rcases mem_append.mp hi with hi | hi
    · obtain ⟨r, hr, rfl, -⟩ := Table.mem_hits.mp hi
      exact t.fresh r hr
    · exact h.old i hi
  · intro r' hr' hi
    obtain ⟨r, hr, rfl⟩ := mem_map.mp hr'
    dsimp only at hi ⊢
    by_cases hpr : p r.2 = true
    · rw [if_pos hpr]
      exact hf _
    rw [if_neg hpr] at hi ⊢
    rcases mem_append.mp hi with hi | hi
    · obtain ⟨r₁, hr₁, hk, hp₁⟩ := Table.mem_hits.mp hi
      rw [Rows.eq_of_key hr₁ hr hk] at hp₁
      exact absurd hp₁ hpr
    · exact h.used r hr hi

end Spends

end Clavex

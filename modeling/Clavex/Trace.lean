/-!
# Runs of a step function

A system is a step function from a state and a label to the next state.
`Trace step ok s as t` is a run from `s` to `t` with the labels `as` in which
every step meets the condition `ok` in the state before it. A property of every
reachable state is proved once per step (`Trace.inv`).
-/

namespace Clavex

open List

variable {σ α : Type}

inductive Trace (step : σ → α → σ) (ok : σ → α → Prop) : σ → List α → σ → Prop
  | nil (s : σ) : Trace step ok s [] s
  | cons {s t : σ} {a : α} {as : List α} :
      ok s a → Trace step ok (step s a) as t → Trace step ok s (a :: as) t

def run (step : σ → α → σ) (s : σ) (as : List α) : σ := as.foldl step s

def checkRun (step : σ → α → σ) (ok : σ → α → Prop) [∀ s a, Decidable (ok s a)] : σ → List α → Bool
  | _, [] => true
  | s, a :: as => decide (ok s a) && checkRun step ok (step s a) as

namespace Trace

variable {step : σ → α → σ} {ok : σ → α → Prop}

variable {s t : σ} {as : List α}

theorem inv (I : σ → Prop) (hstep : ∀ s a, I s → ok s a → I (step s a))
    (h : Trace step ok s as t) (h0 : I s) : I t := by
  induction h with
  | nil s => exact h0
  | cons hok _ ih => exact ih (hstep _ _ h0 hok)

theorem mono {ok'} (hok : ∀ s a, ok s a → ok' s a) (h : Trace step ok s as t) : Trace step ok' s as t := by
  induction h with
  | nil s => exact .nil s
  | cons ha _ ih => exact .cons (hok _ _ ha) ih

theorem append {u} {bs} (h : Trace step ok s as t) (h' : Trace step ok t bs u) : Trace step ok s (as ++ bs) u := by
  induction h with
  | nil s => exact h'
  | cons ha _ ih => exact .cons ha (ih h')

theorem mem (h : Trace step ok s as t) : Trace step (fun s a => ok s a ∧ a ∈ as) s as t := by
  have sub : ∀ {s t : σ} {bs : List α}, Trace step ok s bs t → ∀ {as : List α}, bs ⊆ as →
      Trace step (fun s a => ok s a ∧ a ∈ as) s bs t := by
    intro s t bs h
    induction h with
    | nil s => exact fun _ => .nil s
    | cons hok _ ih =>
      intro as hsub
      rw [cons_subset] at hsub
      exact .cons ⟨hok, hsub.1⟩ (ih hsub.2)
  exact sub h (List.Subset.refl _)

theorem visited (h : Trace step ok s as t) :
    Trace step (fun u a => ok u a ∧ ∃ bs, bs ++ [a] <+: as ∧ u = run step s bs) s as t := by
  have go : ∀ {u t : σ} {cs : List α}, Trace step ok u cs t → ∀ bs, u = run step s bs →
      Trace step (fun u a => ok u a ∧ ∃ bs', bs' ++ [a] <+: bs ++ cs ∧ u = run step s bs') u cs t := by
    intro u t cs h
    induction h with
    | nil u => exact fun _ _ => .nil u
    | @cons u t a cs hok _ ih =>
      intro bs hu
      have hnext : step u a = run step s (bs ++ [a]) := by
        rw [hu]
        simp [run]
      have hrest := ih (bs ++ [a]) hnext
      rw [append_assoc, singleton_append] at hrest
      exact .cons ⟨hok, bs, ⟨cs, by rw [append_assoc, singleton_append]⟩, hu⟩ hrest
  exact go h [] rfl

theorem run_nil (s) : Trace step ok s [] (run step s []) := .nil s

theorem run_cons {a} (h : ok s a)
    (ht : Trace step ok (step s a) as (run step (step s a) as)) : Trace step ok s (a :: as) (run step s (a :: as)) :=
  .cons h ht

theorem of_checkRun [∀ s a, Decidable (ok s a)] (h : checkRun step ok s as = true) :
    Trace step ok s as (run step s as) := by
  induction as generalizing s with
  | nil => exact .nil s
  | cons a as ih =>
    simp only [checkRun, Bool.and_eq_true, decide_eq_true_eq] at h
    exact .cons h.1 (ih h.2)

theorem run_always (h : ∀ s a, ok s a) (s as) : Trace step ok s as (run step s as) := by
  induction as generalizing s with
  | nil => exact .nil s
  | cons a as ih => exact .cons (h s a) (ih _)

theorem run_all {P : α → Prop} (h : ∀ a ∈ as, P a) : Trace step (fun _ a => P a) s as (run step s as) := by
  induction as generalizing s with
  | nil => exact .nil s
  | cons a as ih => exact .cons (h a (mem_cons_self ..)) (ih fun b hb => h b (mem_cons_of_mem _ hb))

end Trace

end Clavex

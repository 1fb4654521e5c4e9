import Clavex.Pool
import Mathlib.Order.Defs.PartialOrder

/-!
# Programs among others that only add

The states of a store are ordered by how much has happened: an operation leads to a later
state, and so does everything that goes on between two operations of a call. A fact that
later states keep can then be carried from one operation of a call to the next.
-/

namespace Clavex

namespace Prog

variable {Op : Type} {Resp : Op → Type} {ε ε' α β σ ν : Type} [Preorder σ]
  {sem : ν → (op : Op) → σ → Resp op × σ} {J : σ → Prop}

/-- From a state in `J`, every operation keeps `J` wherever in `J` others have led meanwhile,
and what is returned is in `Q` at the end. -/
def Stable (sem : ν → (op : Op) → σ → Resp op × σ) (J : σ → Prop) (Q : α → σ → Prop) : Prog Op Resp ε α → σ → Prop
  | ret a, s => Q a s
  | fail _, _ => True
  | ask op k, s => ∀ env t, s ≤ t → J t → J (sem env op t).2 ∧ Stable sem J Q (k (sem env op t).1) (sem env op t).2

variable {Q R : α → σ → Prop} {p : Prog Op Resp ε α} {s : σ} {f : α → Prog Op Resp ε β}

theorem Stable.mono (hQ : ∀ a s, Q a s → R a s)
    (hp : p.Stable sem J Q s) : p.Stable sem J R s := by
  induction p generalizing s with
  | ret a => exact hQ a s hp
  | fail e => exact trivial
  | ask op k ih =>
    intro env t hle ht
    obtain ⟨hJ, hk⟩ := hp env t hle ht
    exact ⟨hJ, ih _ hk⟩

theorem Stable.bind {Q} (hp : p.Stable sem J R s) (hf : ∀ a t, R a t → (f a).Stable sem J Q t) :
    (p >>= f).Stable sem J Q s := by
  induction p generalizing s with
  | ret a => exact hf a s hp
  | fail e => exact trivial
  | ask op k ih =>
    intro env t hle ht
    obtain ⟨hJ, hk⟩ := hp env t hle ht
    exact ⟨hJ, ih _ hk⟩

theorem Stable.require {c : Prop} [Decidable c] {e : ε} {Q : β → σ → Prop} {f : Unit → Prog Op Resp ε β}
    (hc : c → (f ()).Stable sem J Q s) : (Prog.require c e >>= f).Stable sem J Q s := by
  unfold Prog.require
  split
  · rename_i h
    exact hc h
  · exact trivial

theorem Stable.ofExcept {x Q} (hok : ∀ a, x = .ok a → (f a).Stable sem J Q s) :
    (Prog.ofExcept x >>= f).Stable sem J Q s := by
  cases x with
  | ok a => exact hok a rfl
  | error e => exact trivial

theorem Stable.attempt (hp : p.Stable sem J Q s) :
    (p.attempt : Prog Op Resp ε' (Except ε α)).Stable sem J (fun x t => ∀ a, x = .ok a → Q a t) s := by
  induction p generalizing s with
  | ret a =>
    intro b hb
    cases hb
    exact hp
  | fail e => exact fun a ha => by cases ha
  | ask op k ih =>
    intro env t hle ht
    obtain ⟨hJ, hk⟩ := hp env t hle ht
    exact ⟨hJ, ih _ hk⟩

theorem Stable.uses {A : Op → Prop} {F : σ → Prop} (hF : ∀ s t, s ≤ t → F s → F t)
    (hsem : ∀ env op s, s ≤ (sem env op s).2) (hA : ∀ env op s, A op → J s → J (sem env op s).2)
    (hp : p.Uses A) (hs : F s) : p.Stable sem J (fun _ t => F t) s := by
  induction p generalizing s with
  | ret a => exact hs
  | fail e => exact trivial
  | ask op k ih =>
    intro env t hle ht
    exact ⟨hA env op t hp.1 ht, ih _ (hp.2 _) (hF _ _ (le_trans hle (hsem env op t)) hs)⟩

theorem Stable.later (hQ : ∀ a s t, s ≤ t → Q a s → Q a t) {t}
    (hp : p.Stable sem J Q s) (hle : s ≤ t) : p.Stable sem J Q t := by
  cases p with
  | ret a => exact hQ a s t hle hp
  | fail e => exact trivial
  | ask op k => exact fun env u hu hJ => hp env u (le_trans hle hu) hJ

end Prog

section
variable {Req Op : Type} {Resp : Op → Type} {ε α σ Env Ev : Type} [Preorder σ] {S : System Req Op Resp ε α σ Env Ev}

theorem System.stable {J : σ → Prop} {R : Req → α → σ → Prop} {s : σ} {ms : List (PoolMove Req Env Ev)}
    {p : Pool Req Op Resp ε α σ} {ok : Pool Req Op Resp ε α σ → PoolMove Req Env Ev → Prop}
    (hR : ∀ q a s t, s ≤ t → R q a s → R q a t) (hsem : ∀ env op s, s ≤ (S.sem env op s).2)
    (hother : ∀ e s, J s → J (S.other e s) ∧ s ≤ S.other e s)
    (hmain : ∀ i q s, .start i q ∈ ms → (S.main q).Stable S.sem J (R q) s)
    (h : Trace S.step ok (Pool.init s) ms p) (hs : J s) :
    J p.store ∧ ∀ q a, (q, .ok a) ∈ p.log → R q a p.store := by
  have htrace : Trace S.step (Meets fun _ _ _ _ => True) (Pool.init s) ms p := h.mono fun p m _ => Meets.always p m
  refine System.promised
    ⟨fun i q s hm => hmain i q s hm, fun _ _ _ hret => hret, ?_, ?_, ?_⟩ htrace hs
  · exact fun q op k env s _ hJ hask => hask env s (le_refl _) hJ
  · intro env op s
    exact ⟨fun q pr hpr => hpr.later (hR q) (hsem env op s), fun q a => hR q a _ _ (hsem env op s)⟩
  · intro e s _ hJ
    obtain ⟨hJ', hle⟩ := hother e s hJ
    exact ⟨hJ', fun q pr hpr => hpr.later (hR q) hle, fun q a => hR q a _ _ hle⟩

end

end Clavex

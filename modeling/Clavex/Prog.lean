/-!
# Programs over atomic operations

A request handler is a program: it asks a store for one atomic operation at a
time and goes on with the answer, until it returns a result or an error. `exec`
runs a program alone, and `Post` says what holds when it has ended. `Follows` says
that a program keeps to a protocol: whatever it is answered, each operation it asks
for is a step the protocol has in the phase the answers have led to.
-/

namespace Clavex

inductive Prog (Op : Type) (Resp : Op → Type) (ε α : Type) where
  | ret (a : α)
  | fail (e : ε)
  | ask (op : Op) (k : Resp op → Prog Op Resp ε α)

namespace Prog

variable {Op : Type} {Resp : Op → Type} {ε ε' α β σ : Type}

def bind : Prog Op Resp ε α → (α → Prog Op Resp ε β) → Prog Op Resp ε β
  | ret a, f => f a
  | fail e, _ => fail e
  | ask op k, f => ask op fun r => (k r).bind f

instance : Monad (Prog Op Resp ε) where
  pure := ret
  bind := bind

def call (op : Op) : Prog Op Resp ε (Resp op) := ask op ret

def require (c : Prop) [Decidable c] (e : ε) : Prog Op Resp ε Unit := if c then ret () else fail e

def ofExcept : Except ε α → Prog Op Resp ε α
  | .ok a => ret a
  | .error e => fail e

def attempt : Prog Op Resp ε α → Prog Op Resp ε' (Except ε α)
  | ret a => ret (.ok a)
  | fail e => ret (.error e)
  | ask op k => ask op fun r => (k r).attempt

def mapError (g : ε → ε') : Prog Op Resp ε α → Prog Op Resp ε' α
  | ret a => ret a
  | fail e => fail (g e)
  | ask op k => ask op fun r => (k r).mapError g

def embed {Op' : Type} {Resp' : Op' → Type} (ι : Op → Op') (answer : ∀ op, Resp' (ι op) → Resp op) :
    Prog Op Resp ε α → Prog Op' Resp' ε α
  | ret a => ret a
  | fail e => fail e
  | ask op k => ask (ι op) fun r => (k (answer op r)).embed ι answer

@[simp] theorem pure_bind (a : α) (f : α → Prog Op Resp ε β) : ((pure a : Prog Op Resp ε α) >>= f) = f a := rfl

@[simp] theorem fail_bind (e : ε) (f : α → Prog Op Resp ε β) : (fail e >>= f) = fail e := rfl

@[simp] theorem ask_bind (op : Op) (k : Resp op → Prog Op Resp ε α) (f : α → Prog Op Resp ε β) :
    (ask op k >>= f) = ask op fun r => k r >>= f := rfl

@[simp] theorem call_bind (op : Op) (f : Resp op → Prog Op Resp ε β) : (call op >>= f) = ask op f := rfl

theorem bind_assoc {γ : Type} (p : Prog Op Resp ε α) (f : α → Prog Op Resp ε β) (g : β → Prog Op Resp ε γ) :
    ((p >>= f) >>= g) = (p >>= fun a => f a >>= g) := by
  induction p with
  | ret a | fail e => rfl
  | ask op k ih => exact congrArg (ask op) (funext ih)

/-! ## Running alone -/

def exec (sem : (op : Op) → σ → Resp op × σ) : Prog Op Resp ε α → σ → Except ε α × σ
  | ret a, s => (.ok a, s)
  | fail e, s => (.error e, s)
  | ask op k, s => (k (sem op s).1).exec sem (sem op s).2

section
variable (sem : (op : Op) → σ → Resp op × σ) (s : σ)

@[simp] theorem exec_pure (a : α) : (pure a : Prog Op Resp ε α).exec sem s = (.ok a, s) := rfl

@[simp] theorem exec_fail (e : ε) : (fail e : Prog Op Resp ε α).exec sem s = (.error e, s) := rfl

@[simp] theorem exec_ask (op : Op) (k : Resp op → Prog Op Resp ε α) :
    (ask op k).exec sem s = (k (sem op s).1).exec sem (sem op s).2 := rfl

theorem exec_bind (p : Prog Op Resp ε α) (f : α → Prog Op Resp ε β) :
    (p >>= f).exec sem s = match p.exec sem s with
      | (.ok a, t) => (f a).exec sem t
      | (.error e, t) => (.error e, t) := by
  induction p generalizing s with
  | ret a | fail e => rfl
  | ask op k ih => exact ih _ _

@[simp] theorem exec_require_bind (c : Prop) [Decidable c] (e : ε) (f : Unit → Prog Op Resp ε β) :
    (require c e >>= f).exec sem s = if c then (f ()).exec sem s else (.error e, s) := by
  unfold require
  split <;> rfl

@[simp] theorem exec_ofExcept_bind (x : Except ε α) (f : α → Prog Op Resp ε β) :
    (ofExcept x >>= f).exec sem s = match x with
      | .ok a => (f a).exec sem s
      | .error e => (.error e, s) := by
  cases x <;> rfl

end

/-! ## Stopping on the way -/

section
variable {ν : Type} (sem : ν → (op : Op) → σ → Resp op × σ)

/-- The state after one operation for each entry of the list. A program that wants more has
been stopped there. -/
def runFor : List ν → Prog Op Resp ε α → σ → σ
  | env :: envs, ask op k, s => runFor envs (k (sem env op s).1) (sem env op s).2
  | _, _, s => s

def Along (P : ν → Op → Prop) : List ν → Prog Op Resp ε α → σ → Prop
  | env :: envs, ask op k, s => P env op ∧ Along P envs (k (sem env op s).1) (sem env op s).2
  | _, _, _ => True

def Ends : List ν → Prog Op Resp ε α → σ → Prop
  | _, ret _, _ | _, fail _, _ => True
  | [], ask _ _, _ => False
  | env :: envs, ask op k, s => Ends envs (k (sem env op s).1) (sem env op s).2

variable {sem}

theorem runFor_eq_exec {env₀ : ν} {envs : List ν} {p : Prog Op Resp ε α} {s : σ}
    (h : Along sem (fun env _ => env = env₀) envs p s) (hends : Ends sem envs p s) :
    runFor sem envs p s = (p.exec (sem env₀) s).2 := by
  induction p generalizing envs s with
  | ret a | fail e => cases envs <;> rfl
  | ask op k ih =>
    cases envs with
    | nil => exact absurd hends id
    | cons env envs =>
      obtain ⟨rfl, hrest⟩ := h
      exact ih _ hrest hends

theorem Along.keeps {P : ν → Op → Prop} {envs : List ν} {p : Prog Op Resp ε α} {s : σ} (h : Along sem P envs p s)
    {J : σ → Prop} (hJ : ∀ env op s, P env op → J s → J (sem env op s).2) (hs : J s) : J (runFor sem envs p s) := by
  induction p generalizing envs s with
  | ret a | fail e => cases envs <;> exact hs
  | ask op k ih =>
    cases envs with
    | nil => exact hs
    | cons env envs => exact ih _ h.2 (hJ env op s h.1 hs)

end

def Uses (A : Op → Prop) : Prog Op Resp ε α → Prop
  | ret _ | fail _ => True
  | ask op k => A op ∧ ∀ r, Uses A (k r)

variable {A : Op → Prop} {p : Prog Op Resp ε α} {f : α → Prog Op Resp ε β} {c : Prop} {e : ε} {x : Except ε α} {Op' : Type}
  {Q : α → Prop}

theorem Uses.bind (hp : p.Uses A)
    (hf : ∀ a, (f a).Uses A) : (p >>= f).Uses A := by
  induction p with
  | ret a => exact hf a
  | fail e => exact trivial
  | ask op k ih => exact ⟨hp.1, fun r => ih r (hp.2 r)⟩

theorem Uses.require [Decidable c] {f : Unit → Prog Op Resp ε β}
    (hf : (f ()).Uses A) : (Prog.require c e >>= f).Uses A := by
  unfold Prog.require
  split
  · exact hf
  · exact trivial

theorem Uses.ofExcept (hf : ∀ a, (f a).Uses A) : (Prog.ofExcept x >>= f).Uses A := by
  cases x with
  | ok a => exact hf a
  | error e => exact trivial

theorem Uses.of_forall (h : ∀ op, A op) (p : Prog Op Resp ε α) : p.Uses A := by
  induction p with
  | ret a | fail e => exact trivial
  | ask op k ih => exact ⟨h op, ih⟩

theorem Uses.mono {B} (h : ∀ op, A op → B op) (hp : p.Uses A) : p.Uses B := by
  induction p with
  | ret a | fail e => exact trivial
  | ask op k ih => exact ⟨h op hp.1, fun r => ih r (hp.2 r)⟩

theorem Uses.embed {Resp' : Op' → Type} {ι : Op → Op'} {answer : ∀ op, Resp' (ι op) → Resp op}
    {A : Op' → Prop} (hA : ∀ op, A (ι op)) (p : Prog Op Resp ε α) : (p.embed ι answer).Uses A := by
  induction p with
  | ret a | fail e => exact trivial
  | ask op k ih => exact ⟨hA op, fun r => ih _⟩

def Yields (Q : α → Prop) : Prog Op Resp ε α → Prop
  | ret a => Q a
  | fail _ => True
  | ask _ k => ∀ r, (k r).Yields Q

theorem Yields.of_forall (h : ∀ a, Q a) (p : Prog Op Resp ε α) : p.Yields Q := by
  induction p with
  | ret a => exact h a
  | fail e => exact trivial
  | ask op k ih => exact ih

theorem Yields.bind {R Q} (hp : p.Yields R) (hf : ∀ a, R a → (f a).Yields Q) : (p >>= f).Yields Q := by
  induction p with
  | ret a => exact hf a hp
  | fail e => exact trivial
  | ask op k ih => exact fun r => ih r (hp r)

theorem Yields.after {Q} (hf : ∀ a, (f a).Yields Q) : (p >>= f).Yields Q :=
  .bind (.of_forall (fun _ => trivial) p) fun a _ => hf a

theorem Yields.attempt {Q} (hp : p.Yields Q) :
    (p.attempt : Prog Op Resp ε' (Except ε α)).Yields fun x => ∀ a, x = .ok a → Q a := by
  induction p with
  | ret a =>
    intro b hb
    cases hb
    exact hp
  | fail e => exact fun a ha => by cases ha
  | ask op k ih => exact fun r => ih r (hp r)

theorem Yields.require [Decidable c] {Q : β → Prop} {f : Unit → Prog Op Resp ε β}
    (hf : c → (f ()).Yields Q) : (Prog.require c e >>= f).Yields Q := by
  unfold Prog.require
  split
  · rename_i hc
    exact hf hc
  · exact trivial

theorem Yields.ofExcept {Q} (hf : ∀ a, (f a).Yields Q) : (Prog.ofExcept x >>= f).Yields Q := by
  cases x with
  | ok a => exact hf a
  | error e => exact trivial

theorem Yields.mapError {g : ε → ε'} (hp : p.Yields Q) : (p.mapError g).Yields Q := by
  induction p with
  | ret a => exact hp
  | fail e => exact trivial
  | ask op k ih => exact fun r => ih r (hp r)

theorem Yields.embed {Resp' : Op' → Type} {ι} {answer : ∀ op, Resp' (ι op) → Resp op}
    (hp : p.Yields Q) : (p.embed ι answer).Yields Q := by
  induction p with
  | ret a => exact hp
  | fail e => exact trivial
  | ask op k ih => exact fun r => ih _ (hp _)

/-! ## What holds at the end -/

section
variable {ν τ : Type} {sem : ν → (op : Op) → σ → Resp op × σ}

/-- Whatever its operations meet, the program ends with a result and a state in `Q`. -/
def Post (sem : ν → (op : Op) → σ → Resp op × σ) (Q : Except ε α → σ → Prop) : Prog Op Resp ε α → σ → Prop
  | ret a, s => Q (.ok a) s
  | fail e, s => Q (.error e) s
  | ask op k, s => ∀ env, Post sem Q (k (sem env op s).1) (sem env op s).2

def onOk (Q : α → σ → Prop) : Except ε α → σ → Prop
  | .ok a, t => Q a t
  | .error _, _ => True

variable {R : Except ε α → σ → Prop} {p : Prog Op Resp ε α} {s : σ} {Q : Except ε β → σ → Prop} {f : α → Prog Op Resp ε β}
  {op : Op} {g : ε → ε'} {A : Op → Prop}

theorem Post.mono {Q} (hQ : ∀ r t, Q r t → R r t) (hp : p.Post sem Q s) : p.Post sem R s := by
  induction p generalizing s with
  | ret a | fail e => exact hQ _ _ hp
  | ask op k ih => exact fun env => ih _ (hp env)

theorem Post.and {Q} (hq : p.Post sem Q s) (hr : p.Post sem R s) : p.Post sem (fun r t => Q r t ∧ R r t) s := by
  induction p generalizing s with
  | ret a | fail e => exact ⟨hq, hr⟩
  | ask op k ih => exact fun env => ih _ (hq env) (hr env)

theorem Post.bind
    (hp : p.Post sem R s) (hok : ∀ a t, R (.ok a) t → (f a).Post sem Q t)
    (herr : ∀ e t, R (.error e) t → Q (.error e) t) : (p >>= f).Post sem Q s := by
  induction p generalizing s with
  | ret a => exact hok a s hp
  | fail e => exact herr e s hp
  | ask op k ih => exact fun env => ih _ (hp env)

theorem Post.bind_ok {R Q} (hp : p.Post sem (onOk R) s) (hok : ∀ a t, R a t → (f a).Post sem (onOk Q) t) :
    (p >>= f).Post sem (onOk Q) s :=
  hp.bind hok fun _ _ _ => trivial

theorem Post.mono_ok {Q R} (hQ : ∀ a t, Q a t → R a t) (hp : p.Post sem (onOk Q) s) : p.Post sem (onOk R) s := by
  refine hp.mono fun r t hr => ?_
  cases r with
  | ok a => exact hQ a t hr
  | error e => exact trivial

theorem Post.any (p : Prog Op Resp ε α) (s : σ) : p.Post sem (onOk fun _ _ => True) s := by
  induction p generalizing s with
  | ret a | fail e => exact trivial
  | ask op k ih => exact fun env => ih _ _

theorem Post.call {f} (h : ∀ env, (f (sem env op s).1).Post sem Q (sem env op s).2) :
    (Prog.call op >>= f).Post sem Q s := h

theorem Post.read {f} (hs : ∀ env, (sem env op s).2 = s) (h : ∀ env, (f (sem env op s).1).Post sem Q s) :
    (Prog.call op >>= f).Post sem Q s := by
  intro env
  rw [hs env]
  exact h env

theorem Post.require_or {c : Prop} [Decidable c] {e} {f : Unit → Prog Op Resp ε β} (hc : c → (f ()).Post sem Q s)
    (he : ¬ c → Q (.error e) s) : (Prog.require c e >>= f).Post sem Q s := by
  unfold Prog.require
  split
  · rename_i h; exact hc h
  · rename_i h; exact he h

theorem Post.require {c : Prop} [Decidable c] {e : ε} {f Q} (hc : c → (f ()).Post sem (onOk Q) s) :
    (Prog.require c e >>= f).Post sem (onOk Q : Except ε β → σ → Prop) s := .require_or hc fun _ => trivial

theorem Post.ofExcept {x Q} (hok : ∀ a, x = .ok a → (f a).Post sem (onOk Q) s) :
    (Prog.ofExcept x >>= f).Post sem (onOk Q) s := by
  cases x with
  | ok a => exact hok a rfl
  | error e => trivial

theorem Post.attempt {Q} (hp : p.Post sem (onOk Q) s) :
    p.attempt.Post sem (onOk fun x t => ∀ a, x = .ok a → Q a t : Except ε' (Except ε α) → σ → Prop) s := by
  induction p generalizing s with
  | ret a =>
    intro b hb
    cases hb
    exact hp
  | fail e => exact fun a ha => by cases ha
  | ask op k ih => exact fun env => ih _ (hp env)

theorem Post.mapError {Q} (hp : p.Post sem (onOk Q) s) : (p.mapError g).Post sem (onOk Q) s := by
  induction p generalizing s with
  | ret a => exact hp
  | fail e => exact trivial
  | ask op k ih => exact fun env => ih _ (hp env)

theorem Uses.mapError (hp : p.Uses A) : (p.mapError g).Uses A := by
  induction p with
  | ret a | fail e => exact trivial
  | ask op k ih => exact ⟨hp.1, fun r => ih r (hp.2 r)⟩

theorem Uses.post {J : σ → Prop} (hJ : ∀ env op s, A op → J s → J (sem env op s).2)
    (hp : p.Uses A) (hs : J s) : p.Post sem (fun _ t => J t) s := by
  induction p generalizing s with
  | ret a | fail e => exact hs
  | ask op k ih => exact fun env => ih _ (hp.2 _) (hJ env op s hp.1 hs)

theorem Uses.exec_rel {sem : (op : Op) → σ → Resp op × σ} {R : σ → σ → Prop}
    (hR : ∀ op s t, A op → R s t → (sem op s).1 = (sem op t).1 ∧ R (sem op s).2 (sem op t).2) (hp : p.Uses A) {t : σ}
    (h : R s t) : (p.exec sem s).1 = (p.exec sem t).1 ∧ R (p.exec sem s).2 (p.exec sem t).2 := by
  induction p generalizing s t with
  | ret a | fail e => exact ⟨rfl, h⟩
  | ask op k ih =>
    obtain ⟨heq, hnext⟩ := hR op s t hp.1 h
    rw [exec_ask, exec_ask, heq]
    exact ih _ (hp.2 _) hnext

theorem Post.exec {sem'} (π : τ → σ)
    (hsem : ∀ op x, ∃ env, (sem' op x).1 = (sem env op (π x)).1 ∧ π (sem' op x).2 = (sem env op (π x)).2) {Q} {x : τ}
    (hp : p.Post sem Q (π x)) : Q (p.exec sem' x).1 (π (p.exec sem' x).2) := by
  induction p generalizing x with
  | ret a | fail e => exact hp
  | ask op k ih =>
    obtain ⟨env, hr, ht⟩ := hsem op x
    apply ih
    rw [hr, ht]
    exact hp env

end

/-! ## What holds under interference -/

section
variable {ν : Type} {sem : ν → (op : Op) → σ → Resp op × σ} {C : ν → σ → Op → Prop} {J : σ → Prop}

/-- Every operation keeps `J`, wherever in `J` others have left the state, and what is
returned is in `Q`. `C` is what the operations are assumed to meet. -/
def Steady (sem : ν → (op : Op) → σ → Resp op × σ) (C : ν → σ → Op → Prop) (J : σ → Prop) (Q : α → Prop) :
    Prog Op Resp ε α → Prop
  | ret a => Q a
  | fail _ => True
  | ask op k => ∀ env s, J s → C env s op → J (sem env op s).2 ∧ Steady sem C J Q (k (sem env op s).1)

variable {R : α → Prop} {p : Prog Op Resp ε α} {Q : β → Prop} {f : α → Prog Op Resp ε β} {A : Op → Prop} {c : Prop} {e : ε}

theorem Steady.mono {Q} (hQ : ∀ a, Q a → R a) (hp : p.Steady sem C J Q) : p.Steady sem C J R := by
  induction p with
  | ret a => exact hQ a hp
  | fail e => exact trivial
  | ask op k ih =>
    intro env s hs hc
    obtain ⟨ht, hk⟩ := hp env s hs hc
    exact ⟨ht, ih _ hk⟩

theorem Steady.bind
    (hp : p.Steady sem C J R) (hf : ∀ a, R a → (f a).Steady sem C J Q) : (p >>= f).Steady sem C J Q := by
  induction p with
  | ret a => exact hf a hp
  | fail e => exact trivial
  | ask op k ih =>
    intro env s hs hc
    obtain ⟨ht, hk⟩ := hp env s hs hc
    exact ⟨ht, ih _ hk⟩

section
variable (hA : ∀ env op s, A op → J s → J (sem env op s).2)
include hA

theorem Steady.call {op : Op} (hop : A op) {f : Resp op → Prog Op Resp ε β} (hf : ∀ r, (f r).Steady sem C J Q) :
    (Prog.call op >>= f).Steady sem C J Q :=
  fun env s hs _ => ⟨hA env op s hop hs, hf _⟩

theorem Steady.uses (hp : p.Uses A) (hf : ∀ a, (f a).Steady sem C J Q) : (p >>= f).Steady sem C J Q := by
  induction p with
  | ret a => exact hf a
  | fail e => exact trivial
  | ask op k ih => exact fun env s hs _ => ⟨hA env op s hp.1 hs, ih _ (hp.2 _)⟩

theorem Steady.of_yields {Q} (hp : p.Uses A) (hy : p.Yields Q) : p.Steady sem C J Q := by
  induction p with
  | ret a => exact hy
  | fail e => exact trivial
  | ask op k ih => exact fun env s hs _ => ⟨hA env op s hp.1 hs, ih _ (hp.2 _) (hy _)⟩

theorem Steady.of_uses (hp : p.Uses A) : p.Steady sem C J fun _ => True :=
  Steady.of_yields hA hp (Yields.of_forall (fun _ => trivial) p)

end

theorem Steady.require [Decidable c] {f} (hc : c → (f ()).Steady sem C J Q) :
    (Prog.require c e >>= f).Steady sem C J Q := by
  unfold Prog.require
  split
  · rename_i h; exact hc h
  · exact trivial

theorem Steady.check [Decidable c] {Q} (hc : c → Q ()) : (Prog.require c e : Prog Op Resp ε Unit).Steady sem C J Q := by
  unfold Prog.require
  split
  · rename_i h; exact hc h
  · exact trivial

theorem Steady.ofExcept {x} (hok : ∀ a, x = .ok a → (f a).Steady sem C J Q) :
    (Prog.ofExcept x >>= f).Steady sem C J Q := by
  cases x with
  | ok a => exact hok a rfl
  | error e => exact trivial

end

end Prog

/-! ## Keeping to a protocol -/

/-- `Step q φ op f`: a request `q` in phase `φ` may ask for `op`, and is in phase `f r`
once it is answered `r`. -/
structure Protocol (Req Op : Type) (Resp : Op → Type) where
  Phase : Type
  Step : Req → Phase → (op : Op) → (Resp op → Phase) → Prop

namespace Prog

variable {Req Op : Type} {Resp : Op → Type} {ε ε' α β : Type} {P : Protocol Req Op Resp} {q : Req}

def Follows (P : Protocol Req Op Resp) (q : Req) (Q : P.Phase → Except ε α → Prop) :
    P.Phase → Prog Op Resp ε α → Prop
  | φ, ret a => Q φ (.ok a)
  | φ, fail e => Q φ (.error e)
  | φ, ask op k => ∃ f, P.Step q φ op f ∧ ∀ r, Follows P q Q (f r) (k r)

variable {Q R : P.Phase → Except ε α → Prop} {φ : P.Phase} {p : Prog Op Resp ε α} {g : α → Prog Op Resp ε β} {c : Prop} {e : ε}

theorem Follows.ask {op} {k} {f} (h : P.Step q φ op f) (hk : ∀ r, Follows P q Q (f r) (k r)) :
    Follows P q Q φ (.ask op k) := ⟨f, h, hk⟩

theorem Follows.bind {Q} (h : Follows P q R φ p) (hok : ∀ ψ a, R ψ (.ok a) → Follows P q Q ψ (g a))
    (herr : ∀ ψ e, R ψ (.error e) → Q ψ (.error e)) : Follows P q Q φ (p >>= g) := by
  induction p generalizing φ with
  | ret a => exact hok φ a h
  | fail e => exact herr φ e h
  | ask op k ih =>
    obtain ⟨f, hs, hk⟩ := h
    exact ⟨f, hs, fun r => ih r (hk r)⟩

theorem Follows.uses {A} (hA : ∀ op, A op → P.Step q φ op fun _ => φ) (hp : p.Uses A) :
    Follows P q (fun ψ _ => ψ = φ) φ p := by
  induction p with
  | ret a | fail e => rfl
  | ask op k ih => exact ⟨_, hA op hp.1, fun r => ih r (hp.2 r)⟩

theorem Follows.asks {A} (hA : ∀ φ op f, P.Step q φ op f → A op) (h : Follows P q Q φ p) : p.Uses A := by
  induction p generalizing φ with
  | ret a | fail e => exact trivial
  | ask op k ih =>
    obtain ⟨f, hs, hk⟩ := h
    exact ⟨hA φ op f hs, fun r => ih r (hk r)⟩

theorem Follows.bind_uses {A : Op → Prop} {Q : P.Phase → Except ε β → Prop} {φ : P.Phase}
    (hA : ∀ op, A op → P.Step q φ op fun _ => φ) {p : Prog Op Resp ε α} (hp : p.Uses A) {g : α → Prog Op Resp ε β}
    (hok : ∀ a, Follows P q Q φ (g a)) (herr : ∀ e, Q φ (.error e)) : Follows P q Q φ (p >>= g) := by
  apply (Follows.uses hA hp).bind
  · intro ψ a hψ
    rw [hψ]
    exact hok a
  · intro ψ e hψ
    rw [hψ]
    exact herr e

theorem Follows.attempt
    (h : Follows P q R φ p) :
    Follows P q (fun ψ (x : Except ε' (Except ε α)) => ∃ y, x = .ok y ∧ R ψ y) φ p.attempt := by
  induction p generalizing φ with
  | ret a | fail e => exact ⟨_, rfl, h⟩
  | ask op k ih =>
    obtain ⟨f, hs, hk⟩ := h
    exact ⟨f, hs, fun r => ih r (hk r)⟩

theorem Follows.sim {Req' : Type} (P' : Protocol Req' Op Resp) (q' : Req') (h : P.Phase → P'.Phase)
    (hstep : ∀ {φ op f}, P.Step q φ op f → P'.Step q' (h φ) op fun r => h (f r))
    (hp : Follows P q Q φ p) : Follows P' q' (fun ψ r => ∃ φ, ψ = h φ ∧ Q φ r) (h φ) p := by
  induction p generalizing φ with
  | ret a | fail e => exact ⟨φ, rfl, hp⟩
  | ask op k ih =>
    obtain ⟨f, hs, hk⟩ := hp
    exact ⟨_, hstep hs, fun r => ih r (hk r)⟩

theorem Follows.mono (hQ : ∀ φ r, Q φ r → R φ r)
    (hp : Follows P q Q φ p) : Follows P q R φ p := by
  induction p generalizing φ with
  | ret a | fail e => exact hQ _ _ hp
  | ask op k ih =>
    obtain ⟨f, hs, hk⟩ := hp
    exact ⟨f, hs, fun r => ih r (hk r)⟩

theorem Follows.require [Decidable c] {Q : P.Phase → Except ε β → Prop}
    {g : Unit → Prog Op Resp ε β} (hc : c → Follows P q Q φ (g ())) (he : ¬ c → Q φ (.error e)) :
    Follows P q Q φ (Prog.require c e >>= g) := by
  unfold Prog.require
  split
  · rename_i h; exact hc h
  · rename_i h; exact he h

theorem Follows.check [Decidable c] {Q} (hc : c → Q φ (.ok ())) (he : ¬ c → Q φ (.error e)) :
    Follows P q Q φ (Prog.require c e) := by
  unfold Prog.require
  split
  · rename_i h; exact hc h
  · rename_i h; exact he h

theorem Follows.ofExcept {x Q} (hok : ∀ a, x = .ok a → Follows P q Q φ (g a))
    (herr : ∀ e, x = .error e → Q φ (.error e)) : Follows P q Q φ (Prog.ofExcept x >>= g) := by
  cases x with
  | ok a => exact hok a rfl
  | error e => exact herr e rfl

end Prog

end Clavex

import Clavex.Pool

/-!
# Transactions under locks

A call runs programs of statements as transactions. A statement takes locks and keeps them to the
end, works on the committed data and on what its own transaction has written, and nothing is seen
by others before the commit. A transaction is disciplined if what its statements answer, and what
it publishes, is under its locks. Then every run is one of the coarse system in which a whole
transaction is a single operation at the time of its commit (`TxnSystem.refines`).
-/

namespace Clavex

open List Function

inductive CommitFate where
  | done
  | failed
  /-- carried out, with the answer lost -/
  | lost

/-! ## One transaction -/

/-- Statements on committed data `D` and the own work `W` of a transaction. `needs` are the locks a
statement takes; if another transaction has one of them, it is answered by `busy`. (A statement
that waits is one that is not carried out yet.) -/
structure TxnLang (κ D W Op : Type) (Resp : Op → Type) (Env : Type) where
  fresh : W
  needs : Env → Op → List κ
  busy : (op : Op) → W → Resp op × W
  sem : Env → (op : Op) → D → W → Resp op × W
  publish : W → D → D

structure TxnState (κ W Op : Type) (Resp : Op → Type) (ε α : Type) where
  held : List κ
  work : W
  rest : Prog Op Resp ε α

namespace TxnLang

variable {κ D W Op : Type} {Resp : Op → Type} {Env ε α : Type} (L : TxnLang κ D W Op Resp Env)

def step (db : D) (s : TxnState κ W Op Resp ε α) (e : Env × Bool) : TxnState κ W Op Resp ε α :=
  match s.rest with
  | .ret _ | .fail _ => s
  | .ask op k =>
    if e.2 then ⟨s.held, (L.busy op s.work).2, k (L.busy op s.work).1⟩
    else ⟨L.needs e.1 op ++ s.held, (L.sem e.1 op db s.work).2, k (L.sem e.1 op db s.work).1⟩

/-- Whatever happens, what is answered depends on data under the locks, `I` holds at every point, and
the program returns in `Q` if it does. `Agree k db db'` says that the two agree on what the lock `k`
protects. -/
def Disciplined (Agree : κ → D → D → Prop) (db : D) (I : List κ → W → Prop) (Q : α → List κ → W → Prop) :
    Prog Op Resp ε α → List κ → W → Prop
  | .ret a, held, w => I held w ∧ Q a held w
  | .fail _, held, w => I held w
  | .ask op k, held, w => I held w ∧
    (∀ env, (∀ db', (∀ key ∈ L.needs env op ++ held, Agree key db db') → L.sem env op db' w = L.sem env op db w) ∧
      Disciplined Agree db I Q (k (L.sem env op db w).1) (L.needs env op ++ held) (L.sem env op db w).2) ∧
    Disciplined Agree db I Q (k (L.busy op w).1) held (L.busy op w).2

variable {L} {Agree : κ → D → D → Prop} {db db' : D} {s : TxnState κ W Op Resp ε α} {I : List κ → W → Prop}
  {Q : α → List κ → W → Prop}

variable {p : Prog Op Resp ε α} {held : List κ} {w : W} {β : Type} {k : κ} {op : Op}

section
variable (h : L.Disciplined Agree db I Q p held w)
include h

theorem Disciplined.inv : I held w := by
  cases p with
  | ret a | ask op k => exact h.1
  | fail e => exact h

theorem Disciplined.mono {R} (hQ : ∀ a held w, I held w → Q a held w → R a held w) :
    L.Disciplined Agree db I R p held w := by
  induction p generalizing held w with
  | ret a => exact ⟨h.1, hQ a held w h.1 h.2⟩
  | fail e => exact h
  | ask op k ih => exact ⟨h.1, fun env => ⟨(h.2.1 env).1, ih _ (h.2.1 env).2⟩, ih _ h.2.2⟩

theorem Disciplined.bind {R : β → List κ → W → Prop} {f : α → Prog Op Resp ε β}
    (hf : ∀ a held w, I held w → Q a held w → L.Disciplined Agree db I R (f a) held w) :
    L.Disciplined Agree db I R (p >>= f) held w := by
  induction p generalizing held w with
  | ret a => exact hf a held w h.1 h.2
  | fail e => exact h
  | ask op k ih => exact ⟨h.1, fun env => ⟨(h.2.1 env).1, ih _ (h.2.1 env).2⟩, ih _ h.2.2⟩

end

theorem Disciplined.require {R : β → List κ → W → Prop} {c : Prop} [Decidable c] {e : ε}
    {f : Unit → Prog Op Resp ε β} (hI : I held w)
    (hf : c → L.Disciplined Agree db I R (f ()) held w) : L.Disciplined Agree db I R (Prog.require c e >>= f) held w := by
  unfold Prog.require
  split
  · rename_i hc
    exact hf hc
  · exact hI

section
variable (h : L.Disciplined Agree db I Q s.rest s.held s.work)
include h

theorem Disciplined.step (e) :
    L.Disciplined Agree db I Q (L.step db s e).rest (L.step db s e).held (L.step db s e).work := by
  obtain ⟨held, w, rest⟩ := s
  cases rest with
  | ret a | fail err => exact h
  | ask op k =>
    simp only [TxnLang.step]
    split
    · exact h.2.2
    · exact (h.2.1 e.1).2

theorem Disciplined.run (es) :
    L.Disciplined Agree db I Q (run (L.step db) s es).rest (run (L.step db) s es).held (run (L.step db) s es).work := by
  induction es generalizing s with
  | nil => exact h
  | cons e es ih => exact ih (h.step e)

theorem Disciplined.returns {es} {a} (hrest : (Clavex.run (L.step db) s es).rest = .ret a) :
    Q a (Clavex.run (L.step db) s es).held (Clavex.run (L.step db) s es).work := by
  have hend := h.run es
  rw [hrest] at hend
  exact hend.2

end

theorem mem_held_step (h : k ∈ s.held) (e) : k ∈ (L.step db s e).held := by
  unfold TxnLang.step
  split
  · exact h
  · exact h
  · split
    · exact h
    · exact mem_append_right _ h

theorem mem_held_run (h : k ∈ s.held) (es) : k ∈ (run (L.step db) s es).held := by
  induction es generalizing s with
  | nil => exact h
  | cons e es ih => exact ih (mem_held_step h e)

theorem held_busy {k} (h : s.rest = .ask op k) (env) :
    (L.step db s (env, true)).held = s.held := by
  simp [TxnLang.step, h]

theorem held_done {k} (h : s.rest = .ask op k) (env) :
    (L.step db s (env, false)).held = L.needs env op ++ s.held := by
  simp [TxnLang.step, h]

theorem step_congr (h : L.Disciplined Agree db I Q s.rest s.held s.work) (e)
    (hagree : ∀ k ∈ (L.step db s e).held, Agree k db db') : L.step db' s e = L.step db s e := by
  obtain ⟨held, w, rest⟩ := s
  cases rest with
  | ret a | fail err => rfl
  | ask op k =>
    obtain ⟨env, taken⟩ := e
    cases taken with
    | true => rfl
    | false =>
      have hsem : L.sem env op db' w = L.sem env op db w := (h.2.1 env).1 db' hagree
      simp [TxnLang.step, hsem]

theorem run_congr (h : L.Disciplined Agree db I Q s.rest s.held s.work) (es)
    (hagree : ∀ k ∈ (run (L.step db) s es).held, Agree k db db') : run (L.step db') s es = run (L.step db) s es := by
  induction es generalizing s with
  | nil => rfl
  | cons e es ih =>
    have hstep : L.step db' s e = L.step db s e :=
      step_congr h e fun k hk => hagree k (mem_held_run hk es)
    show run (L.step db') (L.step db' s e) es = run (L.step db) (L.step db s e) es
    rw [hstep]
    exact ih (h.step e) hagree

def answers (L : TxnLang κ D W Op Resp Env) (db : D) (e : Env × Bool) (op : Op) (w : W) : Resp op × W :=
  if e.2 then L.busy op w else L.sem e.1 op db w

/-- If every statement locks what it reads, a program is disciplined whatever it does, and what is to
be shown is what it does on data that stay the same. -/
theorem Disciplined.of_post [Inhabited Env] {Q}
    (hlocal : ∀ env op db' w, (∀ key ∈ L.needs env op, Agree key db db') → L.sem env op db' w = L.sem env op db w)
    (hsem : ∀ env op held w, I held w → I (L.needs env op ++ held) (L.sem env op db w).2)
    (hbusy : ∀ op held w, I held w → I held (L.busy op w).2) (hI : I held w)
    (hpost : p.Post (L.answers db) (Prog.onOk Q) w) : L.Disciplined Agree db I (fun a _ w => Q a w) p held w := by
  induction p generalizing held w with
  | ret a => exact ⟨hI, hpost⟩
  | fail e => exact hI
  | ask op k ih =>
    refine ⟨hI, fun env => ⟨fun db' hagree => hlocal env op db' w fun key hkey => hagree key (mem_append_left _ hkey), ?_⟩, ?_⟩
    · exact ih _ (hsem env op held w hI) (hpost (env, false))
    · exact ih _ (hbusy op held w hI) (hpost (default, true))

def ofStatements (fresh : W) (needs : Env → Op → List κ) (busy refusal : (op : Op) → Resp op) (fails : Env → Bool)
    (carry : Env → (op : Op) → D → W → Resp op × W) (publish : W → D → D) : TxnLang κ D W Op Resp Env where
  fresh := fresh
  needs := needs
  busy op w := (busy op, w)
  sem env op db w := if fails env then (refusal op, w) else carry env op db w
  publish := publish

theorem Disciplined.statement {fresh : W} {needs : Env → Op → List κ} {busy refusal : (op : Op) → Resp op}
    {fails : Env → Bool} {carry : Env → (op : Op) → D → W → Resp op × W} {publish : W → D → D}
    {k : Resp op → Prog Op Resp ε α} (hI : I held w)
    (hlocal : ∀ env db', (∀ key ∈ needs env op ++ held, Agree key db db') → carry env op db' w = carry env op db w)
    (hbusy : (ofStatements fresh needs busy refusal fails carry publish).Disciplined Agree db I Q (k (busy op)) held w)
    (hrefused : ∀ env, (ofStatements fresh needs busy refusal fails carry publish).Disciplined Agree db I Q
      (k (refusal op)) (needs env op ++ held) w)
    (hcarry : ∀ env, (ofStatements fresh needs busy refusal fails carry publish).Disciplined Agree db I Q
      (k (carry env op db w).1) (needs env op ++ held) (carry env op db w).2) :
    (ofStatements fresh needs busy refusal fails carry publish).Disciplined Agree db I Q (.ask op k) held w := by
  refine ⟨hI, fun env => ?_, hbusy⟩
  simp only [ofStatements]
  cases fails env with
  | true => exact ⟨fun _ _ => rfl, hrefused env⟩
  | false => exact ⟨hlocal env, hcarry env⟩

end TxnLang

/-! ## Calls with transactions -/

inductive DbOp (Stmt Tx : Type) where
  | stmt (s : Stmt)
  | txn (x : Tx)

@[reducible] def DbOp.Resp {Stmt Tx : Type} (SResp : Stmt → Type) (ε α : Type) : DbOp Stmt Tx → Type
  | .stmt s => SResp s
  | .txn _ => Except ε α

/-- `body x t` is the transaction `x` begun at the time `t`; it is committed if it returns and rolled
back if it fails. A statement of its own reads or changes what no lock protects. `refused` is the
error of a failed begin or commit. -/
structure TxnSystem (Req Stmt : Type) (SResp : Stmt → Type) (Tx Op : Type) (Resp : Op → Type)
    (κ D W τ Env Ev ε α ε' α' : Type) where
  lang : TxnLang κ D W Op Resp Env
  main : Req → Prog (DbOp Stmt Tx) (DbOp.Resp SResp ε α) ε' α'
  stmt : Env → (s : Stmt) → D → SResp s × D
  other : Ev → D → D
  stamp : D → τ
  body : Tx → τ → Prog Op Resp ε α
  fate : Env → CommitFate
  refused : ε

structure TxnPool (Req Stmt : Type) (SResp : Stmt → Type) (Tx Op : Type) (Resp : Op → Type)
    (κ D W τ ε α ε' α' : Type) where
  db : D
  locks : κ → Option Nat
  calls : Nat → Option (Req × Prog (DbOp Stmt Tx) (DbOp.Resp SResp ε α) ε' α')
  txns : Nat → Option (τ × TxnState κ W Op Resp ε α)
  log : List (Req × Except ε' α')

inductive TxnMove (Req Env Ev : Type) where
  | start (i : Nat) (q : Req)
  | advance (i : Nat) (env : Env)
  /-- the connection is lost -/
  | abort (i : Nat)
  | other (e : Ev)

inductive TxnOutcome (τ Env ε : Type) where
  | undone (e : ε)
  | committed (t : τ) (es : List (Env × Bool)) (told : Bool)

section
variable {Req Stmt : Type} {SResp : Stmt → Type} {Tx Op : Type} {Resp : Op → Type} {κ D W τ Env Ev ε α ε' α' : Type}

namespace TxnPool

variable (p : TxnPool Req Stmt SResp Tx Op Resp κ D W τ ε α ε' α')

def init (db : D) : TxnPool Req Stmt SResp Tx Op Resp κ D W τ ε α ε' α' :=
  ⟨db, fun _ => none, fun _ => none, fun _ => none, []⟩

def close (i : Nat) (q : Req) (p' : Prog (DbOp Stmt Tx) (DbOp.Resp SResp ε α) ε' α') :
    TxnPool Req Stmt SResp Tx Op Resp κ D W τ ε α ε' α' :=
  { p with
    locks := fun k => if p.locks k = some i then none else p.locks k
    calls := Function.update p.calls i (some (q, p'))
    txns := Function.update p.txns i none }

def coarse : Pool Req (DbOp Stmt Tx) (DbOp.Resp SResp ε α) ε' α' D := ⟨p.db, p.calls, p.log⟩

end TxnPool

namespace TxnSystem

variable (T : TxnSystem Req Stmt SResp Tx Op Resp κ D W τ Env Ev ε α ε' α')

def begun (x : Tx) (t : τ) : TxnState κ W Op Resp ε α := ⟨[], T.lang.fresh, T.body x t⟩

def atomic (x : Tx) : TxnOutcome τ Env ε → D → Except ε α × D
  | .undone e, db => (.error e, db)
  | .committed t es told, db =>
    match (run (T.lang.step db) (T.begun x t) es).rest with
    | .ret a => (if told then .ok a else .error T.refused, T.lang.publish (run (T.lang.step db) (T.begun x t) es).work db)
    | .fail _ | .ask _ _ => (.error T.refused, db)

def coarseSem (c : Env × TxnOutcome τ Env ε) : (op : DbOp Stmt Tx) → D → DbOp.Resp SResp ε α op × D
  | .stmt s, db => T.stmt c.1 s db
  | .txn x, db => T.atomic x c.2 db

def coarse : System Req (DbOp Stmt Tx) (DbOp.Resp SResp ε α) ε' α' D (Env × TxnOutcome τ Env ε) Ev where
  main := T.main
  sem := T.coarseSem
  other := T.other

abbrev PoolOf (_ : TxnSystem Req Stmt SResp Tx Op Resp κ D W τ Env Ev ε α ε' α') :=
  TxnPool Req Stmt SResp Tx Op Resp κ D W τ ε α ε' α'

def locked (p : T.PoolOf) (i : Nat) (ks : List κ) : Bool := ks.any fun k => decide (p.locks k ≠ none ∧ p.locks k ≠ some i)

section
variable [DecidableEq κ]

def advanceTxn (p : T.PoolOf) (i : Nat) (env : Env) (q : Req)
    (k : Except ε α → Prog (DbOp Stmt Tx) (DbOp.Resp SResp ε α) ε' α') (t : τ) (s : TxnState κ W Op Resp ε α) : T.PoolOf :=
  match s.rest with
  | .fail e => p.close i q (k (.error e))
  | .ret a =>
    match T.fate env with
    | .done => { p with db := T.lang.publish s.work p.db }.close i q (k (.ok a))
    | .failed => p.close i q (k (.error T.refused))
    | .lost => { p with db := T.lang.publish s.work p.db }.close i q (k (.error T.refused))
  | .ask op _ =>
    if T.locked p i (T.lang.needs env op) then
      { p with txns := Function.update p.txns i (some (t, T.lang.step p.db s (env, true))) }
    else
      { p with
        locks := fun key => if key ∈ T.lang.needs env op then some i else p.locks key
        txns := Function.update p.txns i (some (t, T.lang.step p.db s (env, false))) }

def advance (p : T.PoolOf) (i : Nat) (env : Env) : T.PoolOf :=
  match p.calls i with
  | none => p
  | some (q, .ret a) => { p with calls := Function.update p.calls i none, log := (q, .ok a) :: p.log }
  | some (q, .fail e) => { p with calls := Function.update p.calls i none, log := (q, .error e) :: p.log }
  | some (q, .ask (.stmt s) k) =>
    { p with db := (T.stmt env s p.db).2, calls := Function.update p.calls i (some (q, k (T.stmt env s p.db).1)) }
  | some (q, .ask (.txn x) k) =>
    match p.txns i with
    | some (t, s) => T.advanceTxn p i env q k t s
    | none =>
      match T.fate env with
      | .failed => { p with calls := Function.update p.calls i (some (q, k (.error T.refused))) }
      | _ => { p with txns := Function.update p.txns i (some (T.stamp p.db, T.begun x (T.stamp p.db))) }

def abort (p : T.PoolOf) (i : Nat) : T.PoolOf :=
  match p.calls i, p.txns i with
  | some (q, .ask (.txn _) k), some _ => p.close i q (k (.error T.refused))
  | _, _ => p

def step (p : T.PoolOf) : TxnMove Req Env Ev → T.PoolOf
  | .start i q =>
    match p.calls i with
    | none => { p with calls := Function.update p.calls i (some (q, T.main q)) }
    | some _ => p
  | .advance i env => T.advance p i env
  | .abort i => T.abort p i
  | .other e => { p with db := T.other e p.db }

end

/-! ## Whole transactions at once -/

def AtCommit (Cond : D → τ → Tx → Prop) (p : T.PoolOf) : TxnMove Req Env Ev → Prop
  | .advance i _ =>
    match p.calls i, p.txns i with
    | some (_, .ask (.txn x) _), some (t, s) =>
      match s.rest with
      | .ret _ => Cond p.db t x
      | _ => True
    | _, _ => True
  | _ => True

/-- What has to be shown of the transactions, where committed data are in `J` and a transaction's own
work is in `I`. `Since t db` says that a transaction begun at `t` may still be open. -/
structure Serial (Agree : κ → D → D → Prop) (Since : τ → D → Prop) (Cond : D → τ → Tx → Prop) (I : D → List κ → W → Prop)
    (J : D → Prop) : Prop where
  refl : ∀ k db, Agree k db db
  stamp : ∀ {db}, J db → Since (T.stamp db) db
  body : ∀ {db x t}, J db → Since t db →
    T.lang.Disciplined Agree db (I db) (fun _ held w => (∀ k, k ∉ held → Agree k db (T.lang.publish w db)) ∧
      (Cond db t x → J (T.lang.publish w db) ∧ ∀ t', Since t' db → Since t' (T.lang.publish w db)))
      (T.body x t) [] T.lang.fresh
  stmt : ∀ env s {db}, J db → J (T.stmt env s db).2 ∧ (∀ k, Agree k db (T.stmt env s db).2) ∧
    ∀ t, Since t db → Since t (T.stmt env s db).2
  other : ∀ e {db}, J db → J (T.other e db) ∧ (∀ k, Agree k db (T.other e db)) ∧ ∀ t, Since t db → Since t (T.other e db)

/-- An open transaction has come where it would have come on the data as they are now, and has the
locks for it. -/
structure Sessions (Since : τ → D → Prop) (p : T.PoolOf) : Prop where
  txn : ∀ {i t s}, p.txns i = some (t, s) → ∃ q x k es, p.calls i = some (q, .ask (.txn x) k) ∧ Since t p.db ∧
    s = run (T.lang.step p.db) (T.begun x t) es
  held : ∀ {i t s}, p.txns i = some (t, s) → ∀ key ∈ s.held, p.locks key = some i

def coarseCond (Since : τ → D → Prop) (Cond : D → τ → Tx → Prop) (db : D) (c : Env × TxnOutcome τ Env ε) (_ : Req) :
    DbOp Stmt Tx → Prop
  | .stmt _ => True
  | .txn x =>
    match c.2 with
    | .undone _ => True
    | .committed t _ _ => Since t db ∧ Cond db t x

variable {T} {Agree : κ → D → D → Prop} {Since : τ → D → Prop} {Cond : D → τ → Tx → Prop}
  {I : D → List κ → W → Prop} {J : D → Prop} {p p' : T.PoolOf} {i : Nat}

theorem AtCommit.of_forall (hcond : ∀ db t x, Cond db t x) (p m) : T.AtCommit Cond p m := by
  cases m with
  | advance i env =>
    simp only [AtCommit]
    split
    · split
      · exact hcond _ _ _
      · exact trivial
    · exact trivial
  | start i q | abort i | other e => exact trivial

variable {db : D} {t : τ} {s : TxnState κ W Op Resp ε α} {q : Req}

theorem Serial.begun (hT : T.Serial Agree Since Cond I J) {x} (hJ : J db) (ht : Since t db) :
    T.lang.Disciplined Agree db (I db) (fun _ held w => (∀ k, k ∉ held → Agree k db (T.lang.publish w db)) ∧
      (Cond db t x → J (T.lang.publish w db) ∧ ∀ t', Since t' db → Since t' (T.lang.publish w db)))
      (T.begun x t).rest (T.begun x t).held (T.begun x t).work :=
  hT.body hJ ht

theorem Sessions.init (db) : T.Sessions Since (TxnPool.init db) := ⟨nofun, nofun⟩

section
variable (h : T.Sessions Since p)
include h

theorem Sessions.inv (hT : T.Serial Agree Since Cond I J) (hJ : J p.db) (htxn : p.txns i = some (t, s)) :
    I p.db s.held s.work := by
  obtain ⟨q, x, k, es, _, ht, rfl⟩ := h.txn htxn
  exact ((hT.begun hJ ht).run es).inv

theorem Sessions.change (hT : T.Serial Agree Since Cond I J) (hJ : J p.db)
    (hsince : ∀ t, Since t p.db → Since t p'.db) (touched : Nat → Prop)
    (hkeep : ∀ j, ¬ touched j → p'.calls j = p.calls j ∧ p'.txns j = p.txns j ∧
      ∀ key, p.locks key = some j → p'.locks key = some j ∧ Agree key p.db p'.db)
    (htxn : ∀ {j t s}, touched j → p'.txns j = some (t, s) → (∃ q x k es, p'.calls j = some (q, .ask (.txn x) k) ∧
      Since t p'.db ∧ s = run (T.lang.step p'.db) (T.begun x t) es) ∧ ∀ key ∈ s.held, p'.locks key = some j) :
    T.Sessions Since p' := by
  constructor
  · intro j t s hj
    by_cases hji : touched j
    · exact (htxn hji hj).1
    · obtain ⟨hcalls, htxns, hlocks⟩ := hkeep j hji
      rw [htxns] at hj
      obtain ⟨q, x, k, es, hcall, ht, rfl⟩ := h.txn hj
      refine ⟨q, x, k, es, by rw [hcalls]; exact hcall, hsince t ht, ?_⟩
      exact (TxnLang.run_congr (hT.begun hJ ht) es fun key hkey => (hlocks key (h.held hj key hkey)).2).symm
  · intro j t s hj key hkey
    by_cases hji : touched j
    · exact (htxn hji hj).2 key hkey
    · obtain ⟨_, htxns, hlocks⟩ := hkeep j hji
      rw [htxns] at hj
      exact (hlocks key (h.held hj key hkey)).1

theorem Sessions.idle {pr} (hcall : p.calls i = some (q, pr))
    (hpr : ∀ x k, pr ≠ .ask (.txn x) k) : p.txns i = none := by
  cases htxn : p.txns i with
  | none => rfl
  | some ts =>
    obtain ⟨t, s⟩ := ts
    obtain ⟨q', x, k, _, hcall', _⟩ := h.txn htxn
    rw [hcall] at hcall'
    cases hcall'
    exact absurd rfl (hpr x k)

theorem Sessions.close (hT : T.Serial Agree Since Cond I J) (hJ : J p.db) (htxn : p.txns i = some (t, s))
    (hsince : ∀ t, Since t p.db → Since t db) (hagree : ∀ key, key ∉ s.held → Agree key p.db db) (q pr) : T.Sessions Since ({ p with db }.close i q pr) := by
  refine h.change hT hJ hsince (fun j => j = i) (fun j hji => ?_) fun hji hi => ?_
  · refine ⟨update_of_ne hji .., update_of_ne hji .., fun key hkey => ⟨?_, hagree key ?_⟩⟩
    · have hne : p.locks key ≠ some i := by
        rw [hkey]
        exact fun heq => hji (Option.some.inj heq)
      simp only [TxnPool.close, if_neg hne]
      exact hkey
    · intro hmem
      rw [h.held htxn key hmem] at hkey
      exact hji (Option.some.inj hkey).symm
  · subst hji
    simp only [TxnPool.close, update_self] at hi
    cases hi

theorem Sessions.call (hT : T.Serial Agree Since Cond I J) (hJ : J p.db) (hidle : p.txns i = none)
    (hsince : ∀ t, Since t p.db → Since t db) (hagree : ∀ key, Agree key p.db db) (c log) :
    T.Sessions Since { p with db, log, calls := update p.calls i c } := by
  refine h.change hT hJ hsince (fun j => j = i) (fun j hji => ?_) fun hji hi => ?_
  · exact ⟨update_of_ne hji .., rfl, fun key hkey => ⟨hkey, hagree key⟩⟩
  · subst hji
    rw [show ({ p with db, log, calls := update p.calls _ c } : T.PoolOf).txns _ = p.txns _ from rfl, hidle] at hi
    cases hi

end

structure Refines (Since : τ → D → Prop) (Cond : D → τ → Tx → Prop) (J : D → Prop) (p p' : T.PoolOf) : Prop where
  data : J p'.db
  sessions : T.Sessions Since p'
  coarse : ∃ cs, Trace T.coarse.step (Meets (coarseCond Since Cond)) p.coarse cs p'.coarse

theorem coarse_ask {op} {k}
    (hcall : p.calls i = some (q, .ask op k)) (c) (hc : coarseCond Since Cond p.db c q op) :
    Trace T.coarse.step (Meets (coarseCond Since Cond)) p.coarse [.advance i c]
      ⟨(T.coarseSem c op p.db).2, update p.calls i (some (q, k (T.coarseSem c op p.db).1)), p.log⟩ := by
  have hcall' : p.coarse.calls i = some (q, .ask op k) := hcall
  have hstep : T.coarse.step p.coarse (.advance i c) =
      ⟨(T.coarseSem c op p.db).2, update p.calls i (some (q, k (T.coarseSem c op p.db).1)), p.log⟩ := by
    simp only [System.step, System.advance, hcall']
    rfl
  refine .cons ?_ (hstep ▸ .nil _)
  simp only [Meets, Pool.next, hcall']
  exact hc

section
variable [DecidableEq κ]

section
variable (hT : T.Serial Agree Since Cond I J)
include hT

theorem advanceTxn_refines (hJ : J p.db) (h : T.Sessions Since p) {q : Req} {x : Tx}
    {k : Except ε α → Prog (DbOp Stmt Tx) (DbOp.Resp SResp ε α) ε' α'} (hcall : p.calls i = some (q, .ask (.txn x) k))
    {t : τ} {s : TxnState κ W Op Resp ε α} (htxn : p.txns i = some (t, s)) (env : Env)
    (hcond : ∀ a, s.rest = .ret a → Cond p.db t x) : Refines Since Cond J p (T.advanceTxn p i env q k t s) := by
  obtain ⟨q', x', k', es, hcall', hsince, hs⟩ := h.txn htxn
  rw [hcall] at hcall'
  cases hcall'
  have hdisc := (hT.begun (x := x) hJ hsince).run es
  rw [← hs] at hdisc
  have hundone : ∀ e, Refines Since Cond J p (p.close i q (k (.error e))) := fun e =>
    ⟨hJ, h.close hT hJ htxn (fun _ ht => ht) (fun key _ => hT.refl key p.db) q _,
      _, coarse_ask hcall (env, .undone e) trivial⟩
  unfold advanceTxn
  cases hrest : s.rest with
  | fail e => exact hundone e
  | ret a =>
    rw [hrest] at hdisc
    obtain ⟨_, hpublish, hcommit⟩ := hdisc
    obtain ⟨hJ', hsince'⟩ := hcommit (hcond a hrest)
    -- a commit is one operation of the coarse system
    have hdone : ∀ told : Bool, Refines Since Cond J p ({ p with db := T.lang.publish s.work p.db }.close i q
        (k (if told then .ok a else .error T.refused))) := by
      intro told
      refine ⟨hJ', h.close hT hJ htxn hsince' hpublish q _, [.advance i (env, .committed t es told)], ?_⟩
      have hatomic : T.coarseSem (env, .committed t es told) (.txn x) p.db =
          (if told then .ok a else .error T.refused, T.lang.publish s.work p.db) := by
        simp [coarseSem, atomic, ← hs, hrest]
      have hstep := coarse_ask hcall (env, .committed t es told) ⟨hsince, hcond a hrest⟩
      rw [hatomic] at hstep
      exact hstep
    simp only
    split
    · exact hdone true
    · exact hundone _
    · exact hdone false
  | ask op kk =>
    have hstep : ∀ e, T.lang.step p.db s e = run (T.lang.step p.db) (T.begun x t) (es ++ [e]) := by
      intro e
      rw [hs]
      simp [run]
    simp only
    split
    · refine ⟨hJ, ?_, [], .nil _⟩
      refine h.change hT hJ (fun _ ht => ht) (fun j => j = i) (fun j hji => ?_) fun hji hi => ?_
      · exact ⟨rfl, update_of_ne hji .., fun key hkey => ⟨hkey, hT.refl key p.db⟩⟩
      · subst hji
        simp only [update_self] at hi
        cases hi
        refine ⟨⟨q, x, k, es ++ [(env, true)], hcall, hsince, hstep _⟩, fun key hkey => h.held htxn key ?_⟩
        rwa [TxnLang.held_busy hrest] at hkey
    · rename_i hfree
      refine ⟨hJ, ?_, [], .nil _⟩
      refine h.change hT hJ (fun _ ht => ht) (fun j => j = i) (fun j hji => ?_) fun hji hi => ?_
      · refine ⟨rfl, update_of_ne hji .., fun key hkey => ⟨?_, hT.refl key p.db⟩⟩
        -- no lock is taken that another transaction has
        have hnot : key ∉ T.lang.needs env op := by
          intro hmem
          refine hfree (any_eq_true.mpr ⟨key, hmem, decide_eq_true ⟨?_, ?_⟩⟩)
          · simp [hkey]
          · rw [hkey]
            exact fun heq => hji (Option.some.inj heq)
        simp only [if_neg hnot]
        exact hkey
      · subst hji
        simp only [update_self] at hi
        cases hi
        refine ⟨⟨q, x, k, es ++ [(env, false)], hcall, hsince, hstep _⟩, fun key hkey => ?_⟩
        rw [TxnLang.held_done hrest] at hkey
        by_cases hmem : key ∈ T.lang.needs env op
        · exact if_pos hmem
        · simp only [if_neg hmem]
          exact h.held htxn key ((mem_append.mp hkey).resolve_left hmem)

theorem advance_refines (hJ : J p.db) (h : T.Sessions Since p) (env : Env) (hm : T.AtCommit Cond p (.advance i env)) :
    Refines Since Cond J p (T.advance p i env) := by
  unfold advance
  cases hcall : p.calls i with
  | none => exact ⟨hJ, h, [], .nil _⟩
  | some c =>
    obtain ⟨q, pr⟩ := c
    have hcall' : p.coarse.calls i = some (q, pr) := hcall
    -- the end of a call is a move of the coarse system
    have hend : ∀ {r}, T.coarse.advance p.coarse i (env, .undone T.refused) =
        ⟨p.db, update p.calls i none, (q, r) :: p.log⟩ → (∀ x k, pr ≠ .ask (.txn x) k) →
        Meets (coarseCond Since Cond) p.coarse (.advance i (env, .undone T.refused) : PoolMove Req _ Ev) →
        Refines Since Cond J p { p with calls := update p.calls i none, log := (q, r) :: p.log } := by
      intro r hadv hpr hmeets
      refine ⟨hJ, h.call hT hJ (h.idle hcall hpr) (fun _ ht => ht) (fun key => hT.refl key p.db) none _,
        [.advance i (env, .undone T.refused)], .cons hmeets ?_⟩
      have hstep : T.coarse.step p.coarse (.advance i (env, .undone T.refused)) =
          ⟨p.db, update p.calls i none, (q, r) :: p.log⟩ := hadv
      rw [hstep]
      exact .nil _
    cases pr with
    | ret a | fail e =>
      refine hend ?_ (by simp) ?_
      · simp only [System.advance, hcall']
        rfl
      · simp [Meets, Pool.next, hcall']
    | ask op k =>
      cases op with
      | stmt s =>
        obtain ⟨hJ', hagree, hsince⟩ := hT.stmt env s hJ
        exact ⟨hJ', h.call hT hJ (h.idle hcall (by simp)) hsince hagree _ _,
          _, coarse_ask hcall (env, .undone T.refused) trivial⟩
      | txn x =>
        cases htxn : p.txns i with
        | some ts =>
          obtain ⟨t, s⟩ := ts
          refine advanceTxn_refines hT hJ h hcall htxn env fun a hrest => ?_
          simp only [AtCommit, hcall, htxn, hrest] at hm
          exact hm
        | none =>
          have hbegin : Refines Since Cond J p
              { p with txns := update p.txns i (some (T.stamp p.db, T.begun x (T.stamp p.db))) } := by
            refine ⟨hJ, ?_, [], .nil _⟩
            refine h.change hT hJ (fun _ ht => ht) (fun j => j = i) (fun j hji => ?_) fun hji hi => ?_
            · exact ⟨rfl, update_of_ne hji .., fun key hkey => ⟨hkey, hT.refl key p.db⟩⟩
            · subst hji
              simp only [update_self] at hi
              cases hi
              exact ⟨⟨q, x, k, [], hcall, hT.stamp hJ, rfl⟩, fun _ h => by cases h⟩
          simp only
          split
          · exact ⟨hJ, h.call hT hJ htxn (fun _ ht => ht) (fun key => hT.refl key p.db) _ _,
              _, coarse_ask hcall (env, .undone T.refused) trivial⟩
          · exact hbegin

theorem step_refines [Inhabited Env] (hJ : J p.db) (h : T.Sessions Since p) (m : TxnMove Req Env Ev)
    (hm : T.AtCommit Cond p m) : Refines Since Cond J p (T.step p m) := by
  cases m with
  | advance i env => exact advance_refines hT hJ h env hm
  | start i q =>
    simp only [step]
    cases hcall : p.calls i with
    | some c => exact ⟨hJ, h, [], .nil _⟩
    | none =>
      have hidle : p.txns i = none := by
        cases htxn : p.txns i with
        | none => rfl
        | some ts =>
          obtain ⟨_, _, _, _, hcall', _⟩ := h.txn htxn
          rw [hcall] at hcall'
          cases hcall'
      refine ⟨hJ, h.call hT hJ hidle (fun _ ht => ht) (fun key => hT.refl key p.db) _ _, [.start i q], .cons trivial ?_⟩
      have hstart : T.coarse.step p.coarse (.start i q) = ⟨p.db, update p.calls i (some (q, T.main q)), p.log⟩ := by
        have hcall' : p.coarse.calls i = none := hcall
        simp only [System.step, hcall']
        rfl
      rw [hstart]
      exact .nil _
  | abort i =>
    simp only [step, abort]
    split
    · rename_i q x k ts hcall htxn
      obtain ⟨t, s⟩ := ts
      exact ⟨hJ, h.close hT hJ htxn (fun _ ht => ht) (fun key _ => hT.refl key p.db) q _,
        _, coarse_ask hcall (default, .undone T.refused) trivial⟩
    · exact ⟨hJ, h, [], .nil _⟩
  | other e =>
    obtain ⟨hJ', hagree, hsince⟩ := hT.other e hJ
    refine ⟨hJ', ?_, [.other e], .cons trivial (.nil _)⟩
    exact h.change hT hJ hsince (fun _ => False) (fun j _ => ⟨rfl, rfl, fun key hkey => ⟨hkey, hagree key⟩⟩) (by simp)

theorem refines [Inhabited Env] {ms} {t}
    (h : Trace T.step (T.AtCommit Cond) p ms t) (hp : T.Sessions Since p) (hJ : J p.db) : Refines Since Cond J p t := by
  have hinv := h.inv (fun u => Refines Since Cond J p u) ?_ ⟨hJ, hp, [], .nil _⟩
  · exact hinv
  intro u m hu hm
  obtain ⟨hJu, hsu, cs, htrace⟩ := hu
  obtain ⟨hJ', hs', cs', htrace'⟩ := step_refines hT hJu hsu m hm
  exact ⟨hJ', hs', cs ++ cs', htrace.append htrace'⟩

end

end

end TxnSystem

end

end Clavex

import Clavex.Cell
import Clavex.Pool
import Clavex.Json

/-!
# Wallet step-up challenges

The store's calls on step-up challenges, as programs over Redis. A challenge is kept as the
bytes of its JSON text. It is settled by a script that replaces these bytes if they are still
the ones that were checked. Times of the program are nanoseconds, those of Redis microseconds.
-/

namespace Clavex

open Prog Option Function

inductive StepUpStatus where
  | pending
  | completed
  | failed
  | other (text : String)
deriving DecidableEq

structure WalletStepUpChallenge where
  id : String
  (orgID userID orgSlug nonce : String := "")
  vcts : List String := []
  issuedAfter : Int := 0
  status : StepUpStatus
  createdAt : Int := 0
  expiresAt : Int
  completedAt : Option Int := none
  riskScore : Int := 0
  riskReasons : List String := []
deriving DecidableEq

/-- `json.Marshal` and `json.Unmarshal` of challenges: what is written is read back. -/
structure ChallengeCodec (B : Type) where
  marshal : WalletStepUpChallenge → Except String B
  unmarshal : B → Except String WalletStepUpChallenge
  unmarshal_marshal : ∀ c b, (∀ text, c.status ≠ .other text) → marshal c = .ok b → unmarshal b = .ok c

/-! ## Redis -/

structure StepUpStore (B : Type) where
  nowMicros : Int := 0
  challenges : String → Cell B := fun _ => .empty
  users : String → Cell String := fun _ => .empty

def walletStepupKey (id : String) : String := "clavex:wallet_stepup:" ++ id

def walletStepupUserKey (orgID userID : String) : String := "clavex:wallet_stepup_user:" ++ orgID ++ ":" ++ userID

def walletStepupTTL : Int := 15 * 60 * 1000 -- milliseconds

inductive StepUpOp (B : Type) where
  | now
  | get (key : String)
  | setEx (key : String) (value : B)
  | getUser (key : String)
  | setUser (key id : String)
  | swap (key : String) (raw updated : B) (expiresMilli : Int)

inductive StepUpErr where
  | redisNil
  | redis
  | json (text : String)
  | consumed
deriving DecidableEq

@[reducible] def StepUpOp.Resp {B : Type} : StepUpOp B → Type
  | now => Int
  | get _ => Except StepUpErr B
  | setEx .. => Bool
  | getUser _ => Except StepUpErr String
  | setUser .. => Bool
  | swap .. => Option Nat

/-- `clock` is the clock of the program. A command that `fails` is not carried out, one that is
`lost` is, but its reply does not arrive. -/
structure StepUpEnv where
  clock : Int := 0
  (fails lost : Bool := false)

namespace StepUpStore
variable {B : Type} (s : StepUpStore B)

def time : Int × Int := (s.nowMicros / 1000000, s.nowMicros % 1000000)

def nowMilli : Int := s.nowMicros / 1000

def challenge (id : String) : Option B := (s.challenges (walletStepupKey id)).get s.nowMilli

end StepUpStore

section
variable {B : Type} [DecidableEq B]

def readKey {α : Type} (env : StepUpEnv) (x : Option α) : Except StepUpErr α :=
  if env.fails || env.lost then .error .redis
  else
    match x with
    | none => .error .redisNil
    | some a => .ok a

def walletStepUpCAS (key : String) (raw updated : B) (expiresMilli : Int) (s : StepUpStore B) : Nat × StepUpStore B :=
  let cell := s.challenges key
  let ttl := cell.ttl s.nowMilli
  if cell.get s.nowMilli ≠ some raw then (0, s)
  else if ttl ≤ 0 ∨ expiresMilli ≤ s.time.1 * 1000 + s.time.2 / 1000 then (0, s)
  else (1, { s with challenges := Function.update s.challenges key (.set updated (some (s.nowMilli + ttl))) })

def stepUpSem (env : StepUpEnv) : (op : StepUpOp B) → StepUpStore B → op.Resp × StepUpStore B
  | .now, s => (env.clock, s)
  | .get key, s => (readKey env ((s.challenges key).get s.nowMilli), s)
  | .setEx key value, s =>
    if env.fails then (false, s)
    else
      (!env.lost,
        { s with challenges := Function.update s.challenges key (.set value (some (s.nowMilli + walletStepupTTL))) })
  | .getUser key, s => (readKey env ((s.users key).get s.nowMilli), s)
  | .setUser key id, s =>
    if env.fails then (false, s)
    else (!env.lost, { s with users := Function.update s.users key (.set id (some (s.nowMilli + walletStepupTTL))) })
  | .swap key raw updated expiresMilli, s =>
    if env.fails then (none, s)
    else
      (if env.lost then none else some (walletStepUpCAS key raw updated expiresMilli s).1,
        (walletStepUpCAS key raw updated expiresMilli s).2)

end

/-! ## The calls -/

abbrev StepUpProg (B : Type) := Prog (StepUpOp B) StepUpOp.Resp StepUpErr

abbrev stepUp {B : Type} (op : StepUpOp B) : StepUpProg B op.Resp := Prog.call op

def unixMilli (t : Int) : Int := t / 1000000

section
variable {B : Type} (codec : ChallengeCodec B)

def marshalChallenge (c : WalletStepUpChallenge) : StepUpProg B B := ofExcept ((codec.marshal c).mapError .json)

def unmarshalChallenge (raw : B) : StepUpProg B WalletStepUpChallenge := ofExcept ((codec.unmarshal raw).mapError .json)

def saveWalletStepUpChallenge (c : WalletStepUpChallenge) : StepUpProg B Unit := do
  let b ← marshalChallenge codec c
  let saved ← stepUp (.setEx (walletStepupKey c.id) b)
  require (saved = true) .redis
  let indexed ← stepUp (.setUser (walletStepupUserKey c.orgID c.userID) c.id)
  require (indexed = true) .redis

def getWalletStepUpChallenge (id : String) : StepUpProg B WalletStepUpChallenge := do
  let raw ← stepUp (.get (walletStepupKey id))
  let b ← ofExcept raw
  unmarshalChallenge codec b

def getPendingWalletStepUpChallenge (orgID userID : String) : StepUpProg B (Option WalletStepUpChallenge) := do
  let id ← stepUp (.getUser (walletStepupUserKey orgID userID))
  match id with
  | .error _ => return none
  | .ok id => do
    let challenge ← attempt (getWalletStepUpChallenge codec id)
    return challenge.toOption.filter (·.status = .pending)

def transitionWalletStepUp (id : String) (status : StepUpStatus) (org user nonce : String) : StepUpProg B Unit := do
  require (status = .completed ∨ status = .failed) .consumed
  let got ← stepUp (.get (walletStepupKey id))
  let raw ← ofExcept got
  let challenge ← unmarshalChallenge codec raw
  let now ← stepUp .now
  require (challenge.id = id ∧ challenge.status = .pending ∧ now < challenge.expiresAt) .consumed
  -- an empty organisation asks for no subject at all
  require (org = "" ∨ challenge.orgID = org ∧ challenge.userID = user ∧ challenge.nonce = nonce) .consumed
  let now ← stepUp .now
  let updated ← marshalChallenge codec { challenge with status := status, completedAt := some now }
  let result ← stepUp (.swap (walletStepupKey id) raw updated (unixMilli challenge.expiresAt))
  match result with
  | none => fail .redis
  | some result => require (result = 1) .consumed

def completeWalletStepUpForSubject (id org user nonce : String) : StepUpProg B Unit :=
  transitionWalletStepUp codec id .completed org user nonce

def updateWalletStepUpStatus (id : String) (status : StepUpStatus) : StepUpProg B Unit :=
  transitionWalletStepUp codec id status "" "" ""

def completeWalletStepUpChallenge (id : String) : StepUpProg B Unit := updateWalletStepUpStatus codec id .completed

def failWalletStepUpChallenge (id : String) : StepUpProg B Unit := updateWalletStepUpStatus codec id .failed

/-! ## Runs -/

inductive StepUpRequest where
  | save (c : WalletStepUpChallenge)
  | get (id : String)
  | pending (orgID userID : String)
  | complete (id : String)
  | fail (id : String)
  | completeForSubject (id org user nonce : String)
deriving DecidableEq

def StepUpRequest.settles : StepUpRequest → Option String
  | complete id | fail id | completeForSubject id .. => some id
  | _ => none

def serveStepUp : StepUpRequest → StepUpProg B (Option WalletStepUpChallenge)
  | .save c => do
    saveWalletStepUpChallenge codec c
    return none
  | .get id => do
    let c ← getWalletStepUpChallenge codec id
    return some c
  | .pending orgID userID => getPendingWalletStepUpChallenge codec orgID userID
  | .complete id => do
    completeWalletStepUpChallenge codec id
    return none
  | .fail id => do
    failWalletStepUpChallenge codec id
    return none
  | .completeForSubject id org user nonce => do
    completeWalletStepUpForSubject codec id org user nonce
    return none

def stepUpSystem [DecidableEq B] :
    System StepUpRequest (StepUpOp B) StepUpOp.Resp StepUpErr (Option WalletStepUpChallenge) (StepUpStore B) StepUpEnv Nat where
  main := serveStepUp codec
  sem := stepUpSem
  other := fun micros s => { s with nowMicros := s.nowMicros + micros }

end

abbrev StepUpPool (B : Type) :=
  Pool StepUpRequest (StepUpOp B) StepUpOp.Resp StepUpErr (Option WalletStepUpChallenge) (StepUpStore B)

abbrev StepUpMoves := List (PoolMove StepUpRequest StepUpEnv Nat)

/-! ## Settling as a protocol -/

section
variable {B : Type} (codec : ChallengeCodec B)

inductive StepUpPhase where
  | idle
  | won

def StepUpPhase.answered (r : Option Nat) : StepUpPhase := if r = some 1 then .won else .idle

def StepUpOp.calm : StepUpOp B → Bool
  | setEx .. | swap .. => false
  | _ => true

inductive StepUpStep : StepUpRequest → StepUpPhase → (op : StepUpOp B) → (op.Resp → StepUpPhase) → Prop
  | aside {q φ op} (h : op.calm = true) : StepUpStep q φ op fun _ => φ
  | save {q φ key value} : StepUpStep q φ (.setEx key value) fun _ => φ
  | settle {q id raw updated c c'} (hq : q.settles = some id)
      (hraw : codec.unmarshal raw = .ok c) (hpending : c.status = .pending) (hupdated : codec.unmarshal updated = .ok c')
      (hsettled : c'.status ≠ .pending) :
      StepUpStep q .idle (.swap (walletStepupKey id) raw updated (unixMilli c.expiresAt))
        StepUpPhase.answered

def stepUpProtocol : Protocol StepUpRequest (StepUpOp B) StepUpOp.Resp := ⟨StepUpPhase, StepUpStep codec⟩

def StepUpDone {α : Type} (q : StepUpRequest) (φ : StepUpPhase) : Except StepUpErr α → Prop
  | .ok _ => q.settles ≠ none → φ = .won
  | .error _ => True

variable {q : StepUpRequest} {raw : B} {c : WalletStepUpChallenge} {C : StepUpEnv → StepUpStore B → StepUpOp B → Prop}
  {V : StepUpStore B → Prop}

theorem transitionWalletStepUp_follows {id} (hq : q.settles = some id) (status org user nonce) :
    (transitionWalletStepUp codec id status org user nonce).Follows (stepUpProtocol codec) q
      (fun φ r => r.isOk = true → φ = .won) .idle := by
  refine .require (fun hstatus => ?_) nofun
  refine .ask (.aside rfl) fun got => ?_
  refine .ofExcept (fun raw _ => ?_) nofun
  refine .ofExcept (fun challenge hraw => ?_) nofun
  refine .ask (.aside rfl) fun now => ?_
  refine .require (fun hopen => ?_) nofun
  refine .require (fun _ => ?_) nofun
  refine .ask (.aside rfl) fun now => ?_
  refine .ofExcept (fun updated hupdated => ?_) nofun
  have hread := codec.unmarshal_marshal _ updated (fun text htext => ?_) (except_mapError_ok hupdated)
  · refine .ask (.settle hq (except_mapError_ok hraw) hopen.2.1 hread ?_) fun result => ?_
    · rintro rfl
      rcases hstatus with hstatus | hstatus <;> cases hstatus
    · cases result with
      | none => exact nofun
      | some result =>
        refine .check (fun hresult _ => ?_) nofun
        rw [hresult]
        rfl
  · rcases hstatus with rfl | rfl <;> cases htext

theorem getWalletStepUpChallenge_calm (id) : (getWalletStepUpChallenge codec id).Uses fun op => op.calm = true := by
  refine ⟨rfl, fun raw => .ofExcept fun b => ?_⟩
  unfold unmarshalChallenge
  cases (codec.unmarshal b).mapError StepUpErr.json <;> exact trivial

theorem serveStepUp_follows (q) : (serveStepUp codec q).Follows (stepUpProtocol codec) q (StepUpDone q) .idle := by
  have hdone : ∀ {q : StepUpRequest} {id : String} (hq : q.settles = some id) (status : StepUpStatus) (org user nonce : String),
      (transitionWalletStepUp codec id status org user nonce >>= fun _ => return none).Follows (stepUpProtocol codec) q
        (StepUpDone (α := Option WalletStepUpChallenge) q) .idle := fun hq status org user nonce =>
    (transitionWalletStepUp_follows codec hq status org user nonce).bind (fun φ _ hφ _ => hφ rfl) fun _ _ _ => trivial
  cases q with
  | complete id | fail id | completeForSubject id org user nonce => exact hdone rfl _ _ _ _
  | save c =>
    refine .bind (R := fun _ _ => True) ?_ (fun φ _ _ hne => absurd rfl hne) fun _ _ _ => trivial
    refine .ofExcept (fun b _ => ?_) fun _ _ => trivial
    refine .ask .save fun saved => .require (fun _ => ?_) fun _ => trivial
    exact .ask (.aside rfl) fun indexed => .check (fun _ => trivial) fun _ => trivial
  | get id =>
    refine .bind_uses (fun op hop => StepUpStep.aside hop) (getWalletStepUpChallenge_calm codec id) (fun c => ?_)
      fun _ => trivial
    exact fun hne => absurd rfl hne
  | pending orgID userID =>
    refine .ask (.aside rfl) fun id => ?_
    cases id with
    | error _ => exact fun hne => absurd rfl hne
    | ok id =>
      have hcalm : (getWalletStepUpChallenge codec id).Follows (stepUpProtocol codec) (.pending orgID userID)
          (fun φ _ => φ = StepUpPhase.idle) .idle :=
        .uses (fun op hop => StepUpStep.aside hop) (getWalletStepUpChallenge_calm codec id)
      refine hcalm.attempt.bind (fun φ _ _ => ?_) fun _ _ _ => trivial
      exact fun hne => absurd rfl hne

/-! ## Challenges that are closed -/

open StepUpStore

theorem before_of_milli {s : StepUpStore B} {t} (h : s.nowMilli < unixMilli t) : s.nowMicros * 1000 < t := by
  unfold nowMilli unixMilli at h
  omega

def Closed (s : StepUpStore B) (id : String) : Prop :=
  (s.challenges (walletStepupKey id)).entry ≠ none ∧
    ∀ raw c, s.challenge id = some raw → codec.unmarshal raw = .ok c → c.status ≠ .pending

structure Frozen (id : String) (s s' : StepUpStore B) : Prop where
  cell : s'.challenges (walletStepupKey id) = s.challenges (walletStepupKey id)
  now : s.nowMicros ≤ s'.nowMicros

def freshID (s : StepUpStore B) (_ : StepUpEnv) (_ : StepUpRequest) : StepUpOp B → Bool
  | .setEx key _ => (s.challenges key).entry.isNone
  | _ => true

variable {codec} {s s' : StepUpStore B} {id : String}

theorem Frozen.challenge_none (h : Frozen id s s') (hnone : s.challenge id = none) : s'.challenge id = none := by
  unfold challenge nowMilli at *
  rw [h.cell]
  exact Cell.get_none_of_le (Int.ediv_le_ediv (by decide) h.now) hnone

theorem Frozen.challenge_some (h : Frozen id s s') (hsome : s'.challenge id = some raw) : s.challenge id = some raw := by
  cases hs : s.challenge id with
  | none =>
    rw [h.challenge_none hs] at hsome
    cases hsome
  | some raw' =>
    obtain ⟨e, he⟩ := Cell.entry_of_get hs
    obtain ⟨e', he'⟩ := Cell.entry_of_get hsome
    rw [h.cell, he] at he'
    cases he'
    rfl

theorem Closed.frozen (hc : Closed codec s id) (h : Frozen id s s') : Closed codec s' id := by
  refine ⟨?_, fun raw c hraw => hc.2 raw c (h.challenge_some hraw)⟩
  rw [h.cell]
  exact hc.1

theorem not_closed (hraw : s.challenge id = some raw)
    (hread : codec.unmarshal raw = .ok c) (hpending : c.status = .pending) : ¬ Closed codec s id :=
  fun hc => hc.2 raw c hraw hread hpending

theorem Frozen.update {key} (hkey : walletStepupKey id ≠ key) (cell) :
    Frozen id s { s with challenges := update s.challenges key cell } :=
  ⟨update_of_ne hkey _ _, le_rfl⟩

theorem Frozen.refl : Frozen id s s := ⟨rfl, le_rfl⟩

theorem Frozen.trans {s''} (h : Frozen id s s') (h' : Frozen id s' s'') : Frozen id s s'' :=
  ⟨h'.cell.trans h.cell, h.now.trans h'.now⟩

theorem tick_frozen (n : Nat) : Frozen id s { s with nowMicros := s.nowMicros + n } := ⟨rfl, by simp⟩

theorem closed_of_settled {e} (hread : codec.unmarshal raw = .ok c) (hsettled : c.status ≠ .pending) :
    Closed codec { s with challenges := update s.challenges (walletStepupKey id) (.set raw e) } id := by
  constructor
  · simp only [update_self, Cell.set]
    exact some_ne_none _
  · intro raw' c' hraw' hread'
    obtain ⟨e', he'⟩ := Cell.entry_of_get hraw'
    simp only [update_self, Cell.set] at he'
    cases he'
    rw [hread] at hread'
    cases hread'
    exact hsettled

/-! ## The script -/

theorem nowMilli_eq_time (s : StepUpStore B) : s.time.1 * 1000 + s.time.2 / 1000 = s.nowMilli := by
  unfold time nowMilli
  omega

variable [DecidableEq B]

theorem swap_cases (env : StepUpEnv) (key) (raw updated) (expiresMilli) (s : StepUpStore B) :
    ((stepUpSem env (.swap key raw updated expiresMilli) s).2 = s ∧
      (stepUpSem env (.swap key raw updated expiresMilli) s).1 ≠ some 1) ∨
    (s.challenges key).get s.nowMilli = some raw ∧ s.nowMilli < expiresMilli ∧
      ∃ e, (s.challenges key).entry = some (raw, some e) ∧ s.nowMilli < e ∧
        (stepUpSem env (.swap key raw updated expiresMilli) s).2 =
          { s with challenges := update s.challenges key (.set updated (some e)) } := by
  simp only [stepUpSem]
  split
  · exact .inl ⟨rfl, nofun⟩
  · unfold walletStepUpCAS
    dsimp only
    split
    · refine .inl ⟨rfl, fun h => ?_⟩
      split at h <;> cases h
    · rename_i hget
      have hraw : (s.challenges key).get s.nowMilli = some raw := not_not.mp hget
      split
      · refine .inl ⟨rfl, fun h => ?_⟩
        split at h <;> cases h
      · rename_i hlate
        obtain ⟨httl, hexpires⟩ := not_or.mp hlate
        rw [nowMilli_eq_time] at hexpires
        obtain ⟨e, hentry, hlive, heq⟩ := Cell.expiry_of_ttl hraw (not_le.mp httl)
        refine .inr ⟨hraw, not_le.mp hexpires, e, hentry, hlive, ?_⟩
        rw [heq]

theorem Closed.step {φ op f} (env) (hc : Closed codec s id) (hstep : StepUpStep codec q φ op f)
    (hfresh : freshID s env q op = true) : Frozen id s (stepUpSem env op s).2 := by
  cases hstep with
  | aside hop =>
    cases op with
    | setEx key value | swap key raw updated expiresMilli => cases hop
    | setUser key userID =>
      simp only [stepUpSem]
      split <;> exact ⟨rfl, le_rfl⟩
    | _ => exact .refl
  | save =>
    rename_i key value
    have hkey : walletStepupKey id ≠ key := by
      rintro rfl
      exact hc.1 (isNone_iff_eq_none.mp hfresh)
    simp only [stepUpSem]
    split
    · exact .refl
    · exact .update hkey _
  | settle hq hraw hpending hupdated hsettled =>
    rename_i id' raw updated c c'
    obtain ⟨hsame, -⟩ | ⟨hget, -, e, -, -, hwritten⟩ :=
      swap_cases env (walletStepupKey id') raw updated (unixMilli c.expiresAt) s
    · rw [hsame]
      exact .refl
    · rw [hwritten]
      refine .update (fun hkey => ?_) _
      -- the bytes that were compared are those of a pending challenge, and this one is closed
      rw [← hkey] at hget
      exact not_closed hget hraw hpending hc

/-! ## Runs -/

def ownedID : StepUpRequest × StepUpPhase → Option String
  | (q, .won) => q.settles
  | _ => none

def settledID : StepUpRequest × Except StepUpErr (Option WalletStepUpChallenge) → Option String
  | (q, .ok _) => q.settles
  | _ => none

theorem ownedID_answered (q r) : ownedID (q, .answered r) = if r = some 1 then q.settles else none := by
  unfold StepUpPhase.answered
  split <;> rfl

theorem settledOnce_kept (codec : ChallengeCodec B) (evs) :
    Kept (stepUpSystem codec) (stepUpProtocol codec) (fun _ => StepUpPhase.idle) StepUpDone (freshID · · · ·) evs
      (Once (Closed codec) ownedID settledID) where
  start := fun _ hi _ => hi.keep (.inl rfl)
  step := by
    intro s th log i q φ op f env hi hth hstep hfresh
    have hclosed : ∀ id, Closed codec s id → Closed codec (stepUpSem env op s).2 id :=
      fun id hc => hc.frozen (hc.step env hstep hfresh)
    cases hstep with
    | aside hop | save => exact (hi.mono hclosed).keep (.inr ⟨(q, φ), hth, rfl⟩)
    | settle hq hraw hpending hupdated hsettled =>
      rename_i id raw updated c c'
      obtain ⟨-, hlost⟩ | ⟨hget, -, e, -, -, hwritten⟩ :=
        swap_cases env (walletStepupKey id) raw updated (unixMilli c.expiresAt) s
      · refine (hi.mono hclosed).keep (.inl ?_)
        exact (ownedID_answered q _).trans (if_neg hlost)
      -- the script has written; the reply may still be lost
      · by_cases hanswer : (stepUpSem env (.swap (walletStepupKey id) raw updated (unixMilli c.expiresAt)) s).1 = some 1
        · refine hi.take ((ownedID_answered q _).trans ((if_pos hanswer).trans hq)) (not_closed hget hraw hpending) hclosed ?_
          simp only [stepUpSystem, hwritten]
          exact closed_of_settled hupdated hsettled
        · refine (hi.mono hclosed).keep (.inl ?_)
          exact (ownedID_answered q _).trans (if_neg hanswer)
  finish := by
    intro s th log i q φ r hi hth hdone
    refine hi.finish hth fun k hk => ?_
    cases r with
    | error e => cases hk
    | ok a =>
      have hne : q.settles ≠ none := by
        rw [show q.settles = some k from hk]
        exact some_ne_none _
      rw [show φ = .won from hdone hne]
      exact hk
  other := fun n _ hi => hi.mono fun _ hc => hc.frozen (tick_frozen n)

theorem frozen_kept (codec : ChallengeCodec B) (evs) {u} (hc : Closed codec u id) :
    Kept (stepUpSystem codec) (stepUpProtocol codec) (fun _ => StepUpPhase.idle) StepUpDone (freshID · · · ·) evs
      (fun s _ _ => Frozen id u s) where
  start := fun _ hi _ => hi
  step := fun env hi _ hstep hfresh => hi.trans ((hc.frozen hi).step env hstep hfresh)
  finish := fun hi _ _ => hi
  other := fun n _ hi => hi.trans (tick_frozen n)

/-! ## Subjects -/

structure Open (codec : ChallengeCodec B) (u : StepUpStore B) (id : String) (c : WalletStepUpChallenge) : Prop where
  stored : ∃ raw, u.challenge id = some raw ∧ codec.unmarshal raw = .ok c
  own : c.id = id
  pending : c.status = .pending
  inTime : u.nowMicros * 1000 < c.expiresAt

theorem transitionWalletStepUp_steady
    (hC : ∀ env u op, C env u op → V u) (id status org user nonce) :
    (transitionWalletStepUp codec id status org user nonce).Steady stepUpSem C (fun _ => True) fun _ =>
      ∃ u c, V u ∧ Open codec u id c ∧ (org = "" ∨ c.orgID = org ∧ c.userID = user ∧ c.nonce = nonce) := by
  refine .require fun _ _ _ _ _ => ⟨trivial, .ofExcept fun raw _ => .ofExcept fun c hraw => ?_⟩
  refine fun _ _ _ _ => ⟨trivial, .require fun hopen => .require fun hsubject => ?_⟩
  refine fun _ _ _ _ => ⟨trivial, .ofExcept fun updated _ env u _ hu => ⟨trivial, ?_⟩⟩
  cases hanswer : (stepUpSem env (.swap (walletStepupKey id) raw updated (unixMilli c.expiresAt)) u).1 with
  | none => exact trivial
  | some result =>
    refine .check fun hresult => ?_
    obtain ⟨-, hlost⟩ | ⟨hget, hin, -⟩ := swap_cases env (walletStepupKey id) raw updated (unixMilli c.expiresAt) u
    · rw [hanswer, hresult] at hlost
      exact absurd rfl hlost
    · refine ⟨u, c, hC env u _ hu, ?_, hsubject⟩
      exact ⟨⟨raw, hget, except_mapError_ok hraw⟩, hopen.1, hopen.2.1, before_of_milli hin⟩

def SubjectOf (codec : ChallengeCodec B) (V : StepUpStore B → Prop) : StepUpRequest → Prop
  | .completeForSubject id org user nonce =>
    ∃ u c, V u ∧ Open codec u id c ∧ (org = "" ∨ c.orgID = org ∧ c.userID = user ∧ c.nonce = nonce)
  | _ => True

theorem serveStepUp_steady
    (hC : ∀ env u op, C env u op → V u) (q) :
    (serveStepUp codec q).Steady stepUpSem C (fun _ => True) fun _ => SubjectOf codec V q := by
  cases q with
  | completeForSubject id org user nonce =>
    exact .bind (transitionWalletStepUp_steady hC id .completed org user nonce) fun _ hsubject => hsubject
  | _ => exact .of_uses (fun _ _ _ _ _ => trivial) (.of_forall (fun _ => trivial) _)

end

/-- However calls overlap, where every challenge has an id of its own: a challenge is settled by
one call at most, a completion for a subject is one of a challenge that is open and the
subject's, and what is settled or has lapsed stays so. -/
theorem wallet_stepup_settled_once {B : Type} [DecidableEq B] (codec : ChallengeCodec B) (s : StepUpStore B)
    (ms : StepUpMoves) (p : StepUpPool B)
    (hrun : Trace (stepUpSystem codec).step (Meets (freshID · · · ·)) (Pool.init s) ms p) :
    (p.log.filterMap settledID).Nodup ∧
    (∀ id org user nonce r, (.completeForSubject id org user nonce, .ok r) ∈ p.log → org ≠ "" →
      ∃ u c, Visits (stepUpSystem codec) s ms u ∧ Open codec u id c ∧ c.orgID = org ∧ c.userID = user ∧ c.nonce = nonce) ∧
    ∀ ms' t, Trace (stepUpSystem codec).step (Meets (freshID · · · ·)) p ms' t → ∀ id,
      (∀ raw c, p.store.challenge id = some raw → codec.unmarshal raw = .ok c → c.status ≠ .pending →
        t.store.challenges (walletStepupKey id) = p.store.challenges (walletStepupKey id)) ∧
      ((p.store.challenges (walletStepupKey id)).entry ≠ none → p.store.challenge id = none → t.store.challenge id = none) := by
  obtain ⟨th, hth, honce⟩ := System.inv (serveStepUp_follows codec) (settledOnce_kept codec _) hrun Once.nil
  refine ⟨honce.nodup, ?_, ?_⟩
  · intro id org user nonce r hlog horg
    have hsteady := System.steady
      (fun i q _ => serveStepUp_steady (fun _ _ _ hu => hu.2.1) q) (fun _ _ _ _ => trivial) (System.visits hrun) trivial
    obtain ⟨u, c, hu, hopen, hsubject⟩ := hsteady.2 _ r hlog
    exact ⟨u, c, hu, hopen, hsubject.resolve_left horg⟩
  · intro ms' t hrun' id
    have hfrozen : Closed codec p.store id → Frozen id p.store t.store := by
      intro hc
      obtain ⟨-, -, hfrozen⟩ := System.inv_from (serveStepUp_follows codec) (frozen_kept codec _ hc) hrun' hth .refl
      exact hfrozen
    constructor
    · intro raw c hraw hread hsettled
      refine (hfrozen ⟨?_, fun raw' c' hraw' hread' => ?_⟩).cell
      · obtain ⟨e, he⟩ := Cell.entry_of_get hraw
        rw [he]
        exact some_ne_none _
      · rw [hraw] at hraw'
        cases hraw'
        rw [hread] at hread'
        cases hread'
        exact hsettled
    · intro hthere hlapsed
      refine (hfrozen ⟨hthere, fun raw' c' hraw' => ?_⟩).challenge_none hlapsed
      rw [hlapsed] at hraw'
      cases hraw'

/-! ## A completion and a failure -/

def plainCodec : ChallengeCodec WalletStepUpChallenge where
  marshal := .ok
  unmarshal := .ok
  unmarshal_marshal := by
    intro c b _ h
    cases h
    rfl

def stepUpRun (ms : StepUpMoves) : StepUpPool WalletStepUpChallenge := run (stepUpSystem plainCodec).step (Pool.init {}) ms

def stepUpSteps (i n : Nat) : StepUpMoves := List.replicate n (.advance i {})

def aliceChallenge : WalletStepUpChallenge :=
  { id := "c1", orgID := "acme", userID := "alice", nonce := "n1", status := .pending, expiresAt := 900000000000 }

def completeAndFail : StepUpMoves :=
  .start 0 (.save aliceChallenge) :: stepUpSteps 0 3 ++
    .start 1 (.completeForSubject "c1" "acme" "alice" "n1") :: .start 2 (.fail "c1") :: stepUpSteps 1 3 ++ stepUpSteps 2 3 ++
    stepUpSteps 1 2 ++ stepUpSteps 2 2

def completeLate : StepUpMoves := .other 900000000 :: .start 3 (.complete "c1") :: stepUpSteps 3 2

def stepUpLog (p : StepUpPool WalletStepUpChallenge) : List (StepUpRequest × Option StepUpErr) :=
  p.log.map fun (q, r) => (q, match r with | .ok _ => none | .error e => some e)

theorem wallet_stepup_settled_once_by_completion :
    stepUpLog (stepUpRun completeAndFail) =
      [(.fail "c1", some .consumed), (.completeForSubject "c1" "acme" "alice" "n1", none), (.save aliceChallenge, none)] ∧
    ((stepUpRun completeAndFail).log.filterMap settledID).Nodup ∧
    (∃ u c, Visits (stepUpSystem plainCodec) {} completeAndFail u ∧ Open plainCodec u "c1" c ∧
      c.orgID = "acme" ∧ c.userID = "alice" ∧ c.nonce = "n1") ∧
    (run (stepUpSystem plainCodec).step (stepUpRun completeAndFail) completeLate).store.challenges (walletStepupKey "c1") =
      (stepUpRun completeAndFail).store.challenges (walletStepupKey "c1") := by
  have hrun : Trace (stepUpSystem plainCodec).step (Meets (freshID · · · ·)) (Pool.init {}) completeAndFail
      (stepUpRun completeAndFail) := Trace.of_checkRun (by decide +kernel)
  obtain ⟨honce, hsubject, hfinal⟩ := wallet_stepup_settled_once plainCodec {} completeAndFail _ hrun
  refine ⟨by decide +kernel, honce, ?_, ?_⟩
  · refine hsubject "c1" "acme" "alice" "n1" none ?_ (by decide)
    with_unfolding_all exact List.mem_cons_of_mem _ (List.mem_cons_self ..)
  · refine (hfinal completeLate _ (Trace.of_checkRun (by decide +kernel)) "c1").1
      { aliceChallenge with status := .completed, completedAt := some 0 } _ (by decide +kernel) rfl ?_
    exact nofun

def completeForNobody : StepUpMoves :=
  .start 0 (.save aliceChallenge) :: stepUpSteps 0 3 ++ .start 1 (.completeForSubject "c1" "" "mallory" "") :: stepUpSteps 1 5

theorem wallet_stepup_completed_for_nobody :
    stepUpLog (stepUpRun completeForNobody) =
      [(.completeForSubject "c1" "" "mallory" "", none), (.save aliceChallenge, none)] ∧
    ¬ ∃ u c, Visits (stepUpSystem plainCodec) {} completeForNobody u ∧ Open plainCodec u "c1" c ∧
      c.orgID = "" ∧ c.userID = "mallory" ∧ c.nonce = "" := by
  refine ⟨by decide +kernel, ?_⟩
  rintro ⟨u, c, ⟨bs, hbs, rfl⟩, hopen, horg, -⟩
  have hacme : ∀ bs ∈ completeForNobody.inits, ((stepUpRun bs).store.challenge "c1").all (·.orgID == "acme") = true := by
    decide +kernel
  obtain ⟨raw, hraw, hread⟩ := hopen.stored
  have hall := hacme bs (List.mem_inits _ _ |>.mpr hbs)
  cases hread
  rw [show (stepUpRun bs).store.challenge "c1" = some c from hraw, all_some, horg] at hall
  cases hall

end Clavex

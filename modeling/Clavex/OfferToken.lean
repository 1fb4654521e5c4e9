import Clavex.LockTime
import Clavex.Models

/-!
# Pre-authorized codes with a transaction code

The token endpoint of credential offers. Wrong transaction codes are counted in Redis; the
fifth one uses the offer up, in the database. One offer, with requests one after the other.
-/

namespace Clavex

inductive OfferStatus where
  | pending
  | used
deriving DecidableEq

structure OfferRow where
  orgID : UUID
  txCodeHash : Option String
  status : OfferStatus := .pending
  accessTokenHash : Option String := none
  expiresAt : Int

structure OfferTokenForm where
  orgID : UUID
  txCode : String

inductive OfferReply where
  | invalidGrant (description : String)
  | refused (error : String)
  | unavailable
  | internal
  | token (hash : String)
deriving DecidableEq

abbrev OfferLog := List (OfferTokenForm × OfferReply)

structure OfferState where
  now : Int
  offer : OfferRow
  attempts : Cell Nat
  log : OfferLog

/-- `refusal` is what `startWalletGrant` answers if it does not get past one of its other checks,
statements or the commit. -/
structure OfferEnv where
  elapsed : Nat := 0
  lookupFails : Bool := false
  (incr expire del : RedisAnswer := .ok)
  (markFails nonceFails : Bool := false)
  refusal : Option String := none
  tokenHash : String := ""

abbrev OfferMove := OfferEnv × OfferTokenForm

def maxTxCodeAttempts : Nat := 5

def countAttempt (env : OfferEnv) (s : OfferState) : Cell Nat × Nat :=
  let attempts := if env.incr = .error then s.attempts else s.attempts.incr s.now
  let count := if env.incr = .ok then (attempts.get s.now).getD 0 else 0
  if count = 1 ∧ env.expire ≠ .error then
    (attempts.expire s.now (s.now + inUnits 1000000000 (s.offer.expiresAt - s.now) * 1000000000), count)
  else (attempts, count)

def wrongTxCode (rdb : Bool) (env : OfferEnv) (s : OfferState) : OfferReply × OfferState :=
  if rdb then
    let (attempts, count) := countAttempt env s
    if maxTxCodeAttempts ≤ count then
      if env.markFails ∨ s.offer.status ≠ .pending then (.internal, { s with attempts })
      else
        (.invalidGrant "invalid tx_code",
          { s with
            offer := { s.offer with status := .used }
            attempts := if env.del = .error then attempts else .empty })
    else (.invalidGrant "invalid tx_code", { s with attempts })
  else (.invalidGrant "invalid tx_code", s)

def startWalletGrant (env : OfferEnv) (s : OfferState) : OfferReply × OfferState :=
  match env.refusal with
  | some error => (.refused error, s)
  | none =>
    if s.offer.status = .pending ∧ s.offer.accessTokenHash = none ∧ s.now < s.offer.expiresAt then
      (.token env.tokenHash, { s with offer := { s.offer with accessTokenHash := some env.tokenHash } })
    else (.invalidGrant "", s)

def grantOffer (rdb : Bool) (env : OfferEnv) (s : OfferState) : OfferReply × OfferState :=
  if rdb = false ∨ env.nonceFails then (.unavailable, s) else startWalletGrant env s

section
variable (hashTxCode : String → String) (rdb : Bool)

def offerToken (env : OfferEnv) (form : OfferTokenForm) (s : OfferState) : OfferReply × OfferState :=
  if env.lookupFails ∨ s.offer.orgID ≠ form.orgID then (.invalidGrant "pre-authorized_code not found or expired", s)
  else if s.offer.status ≠ .pending ∨ s.offer.accessTokenHash ≠ none then
    (.invalidGrant "pre-authorized_code already used", s)
  else if s.offer.expiresAt < s.now then (.invalidGrant "pre-authorized_code expired", s)
  else
    match s.offer.txCodeHash with
    | none => grantOffer rdb env s
    | some codeHash =>
      if form.txCode = "" then (.invalidGrant "tx_code required for this offer", s)
      else if hashTxCode form.txCode ≠ codeHash then wrongTxCode rdb env s
      else grantOffer rdb env { s with attempts := if rdb ∧ env.del ≠ .error then .empty else s.attempts }

def OfferState.step (s : OfferState) (m : OfferMove) : OfferState :=
  let (reply, t) := offerToken hashTxCode rdb m.1 m.2 { s with now := s.now + m.1.elapsed }
  { t with log := (m.2, reply) :: s.log }

/-! ## Five wrong codes -/

def wrongAnswers (codeHash : String) (log : OfferLog) : Nat :=
  log.countP fun e => decide (hashTxCode e.1.txCode ≠ codeHash ∧ e.2 = .invalidGrant "invalid tx_code")

/-- The request does not come in the last second of the offer. If its code is wrong, counting it and
using up the offer do not fail; otherwise nothing fails that comes after the counter is reset. -/
def OrderlyAttempt (s : OfferState) (m : OfferMove) : Prop :=
  (s.now + m.1.elapsed + 1000000000 ≤ s.offer.expiresAt ∨ s.offer.expiresAt < s.now + m.1.elapsed) ∧
  if s.offer.txCodeHash = some (hashTxCode m.2.txCode) then m.1.nonceFails = false ∧ m.1.refusal = none
  else m.1.incr = .ok ∧ m.1.markFails = false

instance (s : OfferState) (m : OfferMove) : Decidable (OrderlyAttempt hashTxCode s m) :=
  inferInstanceAs (Decidable (_ ∧ _))

def OfferState.Closed (s : OfferState) : Prop := s.offer.status ≠ .pending ∨ s.offer.accessTokenHash ≠ none

def Tally (expiresAt : Int) (c : Cell Nat) (n : Nat) : Prop :=
  if n = 0 then c.entry = none
  else ∃ e, c.entry = some (n, e) ∧ ∀ t, e = some t → expiresAt - 1000000000 < t

structure AttemptsCounted (codeHash : String) (s : OfferState) : Prop where
  code : s.offer.txCodeHash = some codeHash
  count : rdb = true → ¬ s.Closed → wrongAnswers hashTxCode codeHash s.log < maxTxCodeAttempts ∧
    Tally s.offer.expiresAt s.attempts (wrongAnswers hashTxCode codeHash s.log)

variable {hashTxCode rdb} {codeHash : String} {s : OfferState} {env : OfferEnv} {n : Nat}

theorem wrongAnswers_cons (form reply log) :
    wrongAnswers hashTxCode codeHash ((form, reply) :: log) = wrongAnswers hashTxCode codeHash log +
      if hashTxCode form.txCode ≠ codeHash ∧ reply = .invalidGrant "invalid tx_code" then 1 else 0 := by
  simp [wrongAnswers, List.countP_cons]

theorem lt_expiry {expiresAt now} (h : now ≤ expiresAt) :
    expiresAt - 1000000000 < now + inUnits 1000000000 (expiresAt - now) * 1000000000 := by
  unfold inUnits
  split
  · omega
  · rw [Int.tdiv_eq_ediv_of_nonneg (by omega)]
    omega

theorem Tally.incr {expiresAt now c} (h : Tally expiresAt c n) (hnow : now + 1000000000 ≤ expiresAt) :
    (c.incr now).get now = some (n + 1) ∧ Tally expiresAt (c.incr now) (n + 1) := by
  by_cases hn : n = 0
  · rw [Tally, if_pos hn] at h
    simp [Cell.incr, h, Cell.set, Cell.get, Cell.liveAt, Tally, hn]
  · rw [Tally, if_neg hn] at h
    obtain ⟨e, he, hlast⟩ := h
    have hlive : Cell.liveAt now e = true := by
      cases e with
      | none => rfl
      | some t =>
        have := hlast t rfl
        exact decide_eq_true (by omega)
    simp only [Cell.incr, he, hlive, if_true, Cell.get, Tally]
    exact ⟨trivial, e, rfl, hlast⟩

theorem countAttempt_tally (hincr : env.incr = .ok) (hnow : s.now + 1000000000 ≤ s.offer.expiresAt)
    (h : Tally s.offer.expiresAt s.attempts n) :
    (countAttempt env s).2 = n + 1 ∧ Tally s.offer.expiresAt (countAttempt env s).1 (n + 1) := by
  obtain ⟨hget, htally⟩ := h.incr hnow
  simp only [countAttempt, hincr, reduceCtorEq, if_false, if_true, hget, Option.getD_some]
  split
  case isTrue hone =>
    obtain rfl : n = 0 := by omega
    refine ⟨rfl, ?_⟩
    rw [Tally, if_neg (by omega), Cell.expire, hget]
    exact ⟨_, rfl, fun t ht => Option.some.inj ht ▸ lt_expiry (by omega)⟩
  case isFalse => exact ⟨rfl, htally⟩

theorem grantOffer_open (hnonce : env.nonceFails = false) (hrefusal : env.refusal = none)
    (hopen : s.offer.status = .pending ∧ s.offer.accessTokenHash = none) (hnow : s.now < s.offer.expiresAt) :
    grantOffer true env s =
      (.token env.tokenHash, { s with offer := { s.offer with accessTokenHash := some env.tokenHash } }) := by
  simp [grantOffer, startWalletGrant, hnonce, hrefusal, hopen, hnow]

open OfferState

theorem step_of_closed (h : s.Closed) (m) :
    (∀ hash, (offerToken hashTxCode rdb m.1 m.2 s).1 ≠ .token hash) ∧ (s.step hashTxCode rdb m).offer = s.offer := by
  have hclosed : s.offer.status ≠ .pending ∨ s.offer.accessTokenHash ≠ none := h
  simp only [step, offerToken, if_pos hclosed]
  constructor <;> split <;> simp

theorem AttemptsCounted.step (h : AttemptsCounted hashTxCode rdb codeHash s) (m) (hm : OrderlyAttempt hashTxCode s m) :
    AttemptsCounted hashTxCode rdb codeHash (s.step hashTxCode rdb m) := by
  by_cases hclosed : s.Closed
  · have hoffer : (s.step hashTxCode rdb m).offer = s.offer := (step_of_closed hclosed m).2
    exact ⟨hoffer ▸ h.code, fun _ hopen => absurd (show Closed _ by rwa [Closed, hoffer]) hopen⟩
  · obtain ⟨hpending, hnone⟩ : s.offer.status = .pending ∧ s.offer.accessTokenHash = none := by
      simpa [Closed] using hclosed
    obtain ⟨env, form⟩ := m
    obtain ⟨htime, hworks⟩ := hm
    have hcode := h.code
    have hcount := fun hrdb => h.count hrdb hclosed
    simp only [OfferState.step, offerToken, hpending, hnone, hcode, ne_eq, not_true_eq_false, or_self, if_false]
    split
    · exact ⟨hcode, fun hrdb _ => by simpa [wrongAnswers_cons] using hcount hrdb⟩
    split
    · exact ⟨hcode, fun hrdb _ => by simpa [wrongAnswers_cons] using hcount hrdb⟩
    split
    · exact ⟨hcode, fun hrdb _ => by simpa [wrongAnswers_cons] using hcount hrdb⟩
    rename_i hlive _
    have hnow : s.now + env.elapsed + 1000000000 ≤ s.offer.expiresAt := htime.resolve_right hlive
    split
    case isTrue hwrong =>
      rw [if_neg (by rw [hcode]; exact fun heq => hwrong (Option.some.inj heq).symm)] at hworks
      cases rdb with
      | false => exact ⟨hcode, nofun⟩
      | true =>
        obtain ⟨hlt, htally⟩ := hcount rfl
        obtain ⟨hincr, hmark⟩ : env.incr = .ok ∧ env.markFails = false := hworks
        obtain ⟨hseen, htally'⟩ := countAttempt_tally (s := { s with now := s.now + env.elapsed }) hincr hnow htally
        simp only [wrongTxCode, if_true, hseen, hmark, hpending, Bool.false_eq_true, ne_eq, not_true_eq_false, or_self, if_false]
        split
        · exact ⟨hcode, fun _ hopen => absurd (.inl nofun) hopen⟩
        · refine ⟨hcode, fun _ _ => ?_⟩
          rw [wrongAnswers_cons, if_pos ⟨hwrong, rfl⟩]
          exact ⟨by omega, htally'⟩
    case isFalse hright =>
      rw [if_pos (by rw [hcode, not_not.mp hright])] at hworks
      cases rdb with
      | false => exact ⟨hcode, nofun⟩
      | true =>
        obtain ⟨hnonce, hrefusal⟩ : env.nonceFails = false ∧ env.refusal = none := hworks
        rw [grantOffer_open hnonce hrefusal ?_ ?_]
        · exact ⟨hcode, fun _ hopen => absurd (.inr nofun) hopen⟩
        · exact ⟨hpending, hnone⟩
        · show s.now + env.elapsed < s.offer.expiresAt
          omega

theorem closed_run (h : s.Closed) (ms) : (run (step hashTxCode rdb) s ms).Closed := by
  induction ms generalizing s with
  | nil => exact h
  | cons m ms ih =>
    refine ih ?_
    rw [Closed, (step_of_closed h m).2]
    exact h

end

/-- From an offer for which no code was tried yet: once five wrong codes have been answered, no
request gets a token, whatever comes then. -/
theorem tx_code_attempts_capped (hashTxCode : String → String) (rdb : Bool) (codeHash : String) (s t : OfferState)
    (ms ms' : List OfferMove) (hcode : s.offer.txCodeHash = some codeHash)
    (hnew : s.attempts = .empty ∧ s.log = [])
    (hrun : Trace (OfferState.step hashTxCode rdb) (OrderlyAttempt hashTxCode) s ms t)
    (hwrong : 5 ≤ wrongAnswers hashTxCode codeHash t.log) (env : OfferEnv) (form : OfferTokenForm) (hash : String) :
    (offerToken hashTxCode rdb env form (run (OfferState.step hashTxCode rdb) t ms')).1 ≠ .token hash := by
  have hstart : AttemptsCounted hashTxCode rdb codeHash s :=
    ⟨hcode, fun _ _ => by simp [hnew, wrongAnswers, maxTxCodeAttempts, Tally, Cell.empty]⟩
  have hcounted := hrun.inv (AttemptsCounted hashTxCode rdb codeHash) (fun s m h hm => h.step m hm) hstart
  cases rdb with
  | false =>
    unfold offerToken
    repeat' split
    all_goals simp [grantOffer, wrongTxCode]
  | true =>
    have hclosed : t.Closed := by
      by_contra hopen
      have := (hcounted.count rfl hopen).1
      simp only [maxTxCodeAttempts] at this
      omega
    exact (step_of_closed (closed_run hclosed ms') (env, form)).1 hash

def pinOffer : OfferState :=
  ⟨0, { orgID := 1, txCodeHash := some "1234", expiresAt := 600 * 1000000000 }, .empty, []⟩

def fiveWrong (fifth : OfferEnv) : List OfferMove :=
  [{}, {}, {}, {}, fifth].map fun env => (env, ⟨1, "0000"⟩)

theorem tx_code_attempts_capped_at_five :
    wrongAnswers id "1234" (run (OfferState.step id true) pinOffer (fiveWrong {})).log = 5 ∧
    ∀ hash, (offerToken id true {} ⟨1, "1234"⟩ (run (OfferState.step id true) pinOffer (fiveWrong {}))).1 ≠ .token hash :=
  ⟨by decide, tx_code_attempts_capped id true "1234" pinOffer _ (fiveWrong {}) [] rfl ⟨rfl, rfl⟩
    (Trace.of_checkRun (by decide)) (by decide) {} ⟨1, "1234"⟩⟩

theorem tx_code_attempts_uncounted :
    wrongAnswers id "1234" (run (OfferState.step id true) pinOffer (fiveWrong { incr := .error })).log = 5 ∧
    (offerToken id true { tokenHash := "t" } ⟨1, "1234"⟩
      (run (OfferState.step id true) pinOffer (fiveWrong { incr := .error }))).1 = .token "t" := by
  decide

end Clavex

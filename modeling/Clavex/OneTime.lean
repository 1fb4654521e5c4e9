import Clavex.Login
import Clavex.Table

/-!
# One-time codes under overlapping requests

The requests that check a TOTP code, a backup code or an emailed code, one SQL
statement at a time, over the tables they share. A call stands at the statement
it will run next; the log keeps what was accepted, newest first.
-/

namespace Clavex

open List

structure BackupRow where
  userID : UUID
  codeHash : String
  usedAt : Option Int := none

/-- `hotp` is the code of a secret at a time step, if it is a valid one, and `validate` the TOTP
library's check at a time. -/
structure CodeDeps where
  hotp : String → Int → Option String
  validate : Int → (code secret : String) → Bool
  validate_iff : ∀ now code secret, validate now code secret = true ↔
    ∃ step, hotp secret step = some (trimSpace code) ∧ now / 30 - 1 ≤ step ∧ step ≤ now / 30 + 1
  (sha256sum hashEmailOTP : String → String)

inductive TotpCaller where
  | mfaChallenge
  | elevate
  deriving DecidableEq

inductive CodeCall where
  | idle
  | listing (via : TotpCaller) (user : UUID) (code : String)
  | checking (via : TotpCaller) (user : UUID) (code : String) (rest : List Nat)
  | consuming (user : UUID) (code : String)
  | email (org : UUID) (addr code sessID : String)

def CodeCall.isEntry : CodeCall → Bool
  | .listing .. | .email .. => true
  | _ => false

inductive Acceptance where
  | totp (call cred : Nat) (secret code : String) (now : Int)
  | backup (call row : Nat)
  | email (call : Nat) (rows : List Nat)

structure Codes where
  now : Int
  creds : Table (UUID × MFACredential)
  backup : Table BackupRow
  email : Table OTPRow
  calls : Nat → CodeCall
  log : List Acceptance

namespace Codes

def setCall (s : Codes) (i : Nat) (c : CodeCall) : Codes := { s with calls := Function.update s.calls i c }

def listByUser (s : Codes) (user : UUID) : List Nat := s.creds.hits fun r => r.1 == user

def secret (s : Codes) (cred : Nat) : Option String :=
  match s.creds.get cred with
  | some (_, cr) =>
    if cr.type = "totp" then
      match cr.data with
      | some (true, secret) => some secret
      | _ => none
    else none
  | none => none

variable (d : CodeDeps)

def backupLive (user : UUID) (code : String) (r : BackupRow) : Bool :=
  r.userID == user && r.codeHash == d.sha256sum code && r.usedAt.isNone

def consumeBackupCode (s : Codes) (i : Nat) (user : UUID) (code : String) : Codes :=
  { (s.setCall i .idle) with
    backup := s.backup.update (backupLive d user code) fun r => { r with usedAt := some s.now }
    log := match s.backup.hits (backupLive d user code) with
      | [row] => .backup i row :: s.log
      | _ => s.log }

def consumeEmail (s : Codes) (i : Nat) (org : UUID) (addr code sessID : String) : Codes :=
  { (s.setCall i .idle) with
    email := s.email.update (otpLive d.hashEmailOTP org addr code sessID s.now) fun r => { r with usedAt := some s.now }
    log := match s.email.hits (otpLive d.hashEmailOTP org addr code sessID s.now) with
      | [] => s.log
      | rows => .email i rows :: s.log }

/-- The loop over the listed credentials, one `GetWithData` at a time. Only the MFA
challenge falls back to a backup code; only the elevation skips an empty secret. -/
def check (s : Codes) (i : Nat) (via : TotpCaller) (user : UUID) (code : String) : List Nat → Codes
  | [] => s.setCall i (if via = .mfaChallenge ∧ code ≠ "" then .consuming user code else .idle)
  | cred :: rest =>
    match s.secret cred with
    | none => s.setCall i (.checking via user code rest)
    | some secret =>
      if via = .elevate ∧ secret = "" then s.setCall i (.checking via user code rest)
      else if d.validate s.now code secret then { (s.setCall i .idle) with log := .totp i cred secret code s.now :: s.log }
      else s.setCall i (.checking via user code rest)

def advance (s : Codes) (i : Nat) : Codes :=
  match s.calls i with
  | .idle => s
  | .listing via user code =>
    if via = .elevate ∧ isBlank code then s.setCall i .idle
    else s.setCall i (.checking via user code (s.listByUser user))
  | .checking via user code rest => s.check d i via user code rest
  | .consuming user code => s.consumeBackupCode d i user code
  | .email org addr code sessID => s.consumeEmail d i org addr code sessID

end Codes

/-- The statements of `GenerateBackupCodes` and `EmailOTPRepository.Create` are moves of
their own, and so is any change of the enrolled credentials. -/
inductive CodeMove where
  | tick (dt : Nat)
  | start (i : Nat) (c : CodeCall)
  | advance (i : Nat)
  | setCreds (creds : Table (UUID × MFACredential))
  | deleteBackup (user : UUID)
  | insertBackup (user : UUID) (code : String)
  | deleteEmail (org : UUID) (addr : String)
  | insertEmail (org : UUID) (addr code sessID : String)

def codeStep (d : CodeDeps) (s : Codes) : CodeMove → Codes
  | .tick dt => { s with now := s.now + dt }
  | .start i c =>
    match s.calls i with
    | .idle => if c.isEntry then s.setCall i c else s
    | _ => s
  | .advance i => s.advance d i
  | .setCreds creds => { s with creds := creds }
  | .deleteBackup user => { s with backup := s.backup.delete fun r => r.userID == user }
  | .insertBackup user code => { s with backup := s.backup.insert ⟨user, d.sha256sum code, none⟩ }
  | .deleteEmail org addr =>
    { s with email := s.email.delete fun r => r.orgID == org && r.address == addr && r.usedAt.isNone }
  | .insertEmail org addr code sessID =>
    { s with email := s.email.insert ⟨org, addr, d.hashEmailOTP code, sessID, s.now + 600, none⟩ }

namespace Acceptance

def usesBackup (row : Nat) : Acceptance → Bool
  | .backup _ r => r == row
  | _ => false

def usesEmail (row : Nat) : Acceptance → Bool
  | .email _ rs => rs.contains row
  | _ => false

def usesTotp (cred : Nat) (code : String) : Acceptance → Bool
  | .totp _ c _ code' _ => c == cred && code' == code
  | _ => false

/-! ## What a one-time code is good for -/

def backupRows : Acceptance → List Nat
  | .backup _ r => [r]
  | _ => []

def emailRows : Acceptance → List Nat
  | .email _ rs => rs
  | _ => []

def InWindow (d : CodeDeps) : Acceptance → Prop
  | .totp _ _ secret code now =>
    ∃ step, d.hotp secret step = some (trimSpace code) ∧ now / 30 - 1 ≤ step ∧ step ≤ now / 30 + 1
  | _ => True

end Acceptance

theorem countP_le_one {α : Type} {f} {p} {k : Nat} (hp : ∀ a, p a = true → k ∈ f a) {l : List α}
    (h : (l.flatMap f).Nodup) : l.countP p ≤ 1 := by
  induction l with
  | nil => simp
  | cons a l ih =>
    rw [flatMap_cons, nodup_append] at h
    obtain ⟨-, hl, hdisj⟩ := h
    rw [countP_cons]
    split
    · rename_i ha
      have hzero : l.countP p = 0 := by
        rw [countP_eq_zero]
        intro b hb hpb
        exact hdisj k (hp a ha) k (mem_flatMap.mpr ⟨b, hb, hp b hpb⟩) rfl
      omega
    · simpa using ih hl

structure SingleUse (d : CodeDeps) (s : Codes) : Prop where
  backup : Spends (fun r : BackupRow => r.usedAt.isNone) s.backup (s.log.flatMap Acceptance.backupRows)
  email : Spends (fun r : OTPRow => r.usedAt.isNone) s.email (s.log.flatMap Acceptance.emailRows)
  totp : ∀ a ∈ s.log, a.InWindow d

section
variable {d : CodeDeps} {s : Codes}

theorem SingleUse.init (h : s.log = []) : SingleUse d s := by
  constructor <;> rw [h]
  · exact .nil _
  · exact .nil _
  · nofun

section
variable (h : SingleUse d s)
include h

theorem SingleUse.consumeBackupCode (i user code) : SingleUse d (s.consumeBackupCode d i user code) := by
  have hs := h.backup.update (p := Codes.backupLive d user code) (f := fun r => { r with usedAt := some s.now })
    (fun r hr => by simp only [Codes.backupLive, Bool.and_eq_true] at hr; exact hr.2) (fun _ => rfl)
  unfold Codes.consumeBackupCode
  split
  · rename_i row hrow
    rw [hrow] at hs
    exact ⟨hs, h.email, forall_mem_cons.mpr ⟨trivial, h.totp⟩⟩
  · exact ⟨hs.sublist (sublist_append_right ..), h.email, h.totp⟩

theorem SingleUse.consumeEmail (i org addr code sessID) : SingleUse d (s.consumeEmail d i org addr code sessID) := by
  have hs := h.email.update (p := otpLive d.hashEmailOTP org addr code sessID s.now)
    (f := fun r => { r with usedAt := some s.now })
    (fun r hr => by simp only [otpLive, Bool.and_eq_true] at hr; exact hr.1.2) (fun _ => rfl)
  unfold Codes.consumeEmail
  split
  · exact ⟨h.backup, hs.sublist (sublist_append_right ..), h.totp⟩
  · exact ⟨h.backup, hs, forall_mem_cons.mpr ⟨trivial, h.totp⟩⟩

theorem SingleUse.check (i via user code rest) : SingleUse d (s.check d i via user code rest) := by
  have hcall (c : CodeCall) : SingleUse d (s.setCall i c) := ⟨h.backup, h.email, h.totp⟩
  cases rest with
  | nil => exact hcall _
  | cons cred rest =>
    simp only [Codes.check]
    cases s.secret cred with
    | none => exact hcall _
    | some secret =>
      by_cases hskip : via = .elevate ∧ secret = ""
      · simp only [hskip, and_self, ite_true]; exact hcall _
      · simp only [hskip, ite_false]
        split
        · rename_i hvalid
          exact ⟨h.backup, h.email, forall_mem_cons.mpr ⟨(d.validate_iff ..).mp hvalid, h.totp⟩⟩
        · exact hcall _

theorem SingleUse.advance (i) : SingleUse d (s.advance d i) := by
  unfold Codes.advance
  split
  · exact h
  · split <;> exact ⟨h.backup, h.email, h.totp⟩
  · exact h.check ..
  · exact h.consumeBackupCode ..
  · exact h.consumeEmail ..

theorem SingleUse.step (a) : SingleUse d (codeStep d s a) := by
  cases a with
  | tick dt | setCreds creds => exact ⟨h.backup, h.email, h.totp⟩
  | start i c =>
    cases hc : s.calls i <;> cases he : c.isEntry <;> simp only [codeStep, hc, he] <;>
      exact ⟨h.backup, h.email, h.totp⟩
  | advance i => exact h.advance i
  | deleteBackup user => exact ⟨h.backup.delete fun r => r.userID == user, h.email, h.totp⟩
  | insertBackup user code => exact ⟨h.backup.insert _, h.email, h.totp⟩
  | deleteEmail org addr =>
    exact ⟨h.backup, h.email.delete fun r => r.orgID == org && r.address == addr && r.usedAt.isNone, h.totp⟩
  | insertEmail org addr code sessID => exact ⟨h.backup, h.email.insert _, h.totp⟩

end

end

/-! ## Replay -/

/-- The credential takes the code in the loop. -/
def Codes.Takes (d : CodeDeps) (s : Codes) (via : TotpCaller) (code : String) (cred : Nat) (secret : String) : Prop :=
  s.secret cred = some secret ∧ ¬ (via = .elevate ∧ secret = "") ∧ d.validate s.now code secret = true

theorem Codes.run_checking {i via user code pre post} {cred secret}
    (hcall : s.calls i = .checking via user code (pre ++ cred :: post)) (htakes : s.Takes d via code cred secret)
    (hpre : ∀ c ∈ pre, ∀ secret, ¬ s.Takes d via code c secret) :
    run (codeStep d) s (replicate (pre.length + 1) (.advance i)) =
      { s.setCall i .idle with log := .totp i cred secret code s.now :: s.log } := by
  induction pre generalizing s with
  | nil =>
    obtain ⟨hsecret, hskip, hvalid⟩ := htakes
    simp [run, codeStep, Codes.advance, hcall, Codes.check, hsecret, hskip, hvalid]
  | cons c pre ih =>
    rw [forall_mem_cons] at hpre
    have hstep : codeStep d s (.advance i) = s.setCall i (.checking via user code (pre ++ cred :: post)) := by
      simp only [codeStep, Codes.advance, hcall, cons_append, Codes.check]
      cases hsecret : s.secret c with
      | none => rfl
      | some secret =>
        have hnot := fun hskip hvalid => hpre.1 secret ⟨hsecret, hskip, hvalid⟩
        by_cases hskip : via = .elevate ∧ secret = ""
        · simp only [if_pos hskip]
        · simp only [if_neg hskip, if_neg (hnot hskip)]
    have hrest := @ih (s.setCall i (.checking via user code (pre ++ cred :: post))) (by simp [setCall]) htakes hpre.2
    rw [length_cons, replicate_succ, run, foldl_cons, hstep]
    exact hrest.trans (by simp [setCall])

theorem Codes.run_accept {i via user code pre post} {cred secret} (hcall : s.calls i = .idle)
    (hlist : s.listByUser user = pre ++ cred :: post) (hblank : via = .elevate → isBlank code = false)
    (htakes : s.Takes d via code cred secret) (hpre : ∀ c ∈ pre, ∀ secret, ¬ s.Takes d via code c secret) :
    run (codeStep d) s (.start i (.listing via user code) :: .advance i :: replicate (pre.length + 1) (.advance i)) =
      { s with log := .totp i cred secret code s.now :: s.log } := by
  have hstart : codeStep d s (.start i (.listing via user code)) = s.setCall i (.listing via user code) := by
    simp [codeStep, hcall, CodeCall.isEntry]
  have hlisted : codeStep d (s.setCall i (.listing via user code)) (.advance i) =
      s.setCall i (.checking via user code (pre ++ cred :: post)) := by
    have hskip : ¬ (via = .elevate ∧ isBlank code = true) := fun h => by simp [hblank h.1] at h
    simp only [codeStep, Codes.advance, setCall, Function.update_self, if_neg hskip, ← hlist]
    simp [listByUser]
  have hrest := @run_checking d (s.setCall i (.checking via user code (pre ++ cred :: post))) i via user code pre post cred
    secret (by simp [setCall]) htakes hpre
  rw [run, foldl_cons, hstart, foldl_cons, hlisted]
  refine hrest.trans ?_
  simp [setCall, ← hcall]

theorem Codes.run_replay {i via user code} {cred secret} (hcall : s.calls i = .idle) (hmem : cred ∈ s.listByUser user)
    (hblank : via = .elevate → isBlank code = false) (htakes : s.Takes d via code cred secret) :
    ∃ cred secret, ∀ n, ∃ bs,
      run (codeStep d) s bs = { s with log := replicate n (.totp i cred secret code s.now) ++ s.log } := by
  classical
  -- the first credential in the list that takes the code
  have hfind : ((s.listByUser user).find? fun c => decide (∃ secret, s.Takes d via code c secret)).isSome = true := by
    rw [find?_isSome]
    exact ⟨cred, hmem, decide_eq_true ⟨secret, htakes⟩⟩
  obtain ⟨cred, hfind⟩ := Option.isSome_iff_exists.mp hfind
  obtain ⟨hcred, pre, post, hlist, hpre⟩ := find?_eq_some_iff_append.mp hfind
  obtain ⟨secret, htakes⟩ := of_decide_eq_true hcred
  have hpre : ∀ c ∈ pre, ∀ secret, ¬ s.Takes d via code c secret := by simpa using hpre
  refine ⟨cred, secret, fun n => ?_⟩
  induction n with
  | zero => exact ⟨[], rfl⟩
  | succ n ih =>
    obtain ⟨bs, hbs⟩ := ih
    refine ⟨bs ++ .start i (.listing via user code) :: .advance i :: replicate (pre.length + 1) (.advance i), ?_⟩
    rw [run, foldl_append]
    show run (codeStep d) (run (codeStep d) s bs) _ = _
    rw [hbs]
    exact run_accept hcall hlist hblank htakes hpre

/-- In every interleaving, no backup code and no emailed code is accepted twice, and a TOTP code is
accepted only within its time steps, where it can be any number of times. -/
theorem codes_single_use {d : CodeDeps} {s₀ s : Codes} {as : List CodeMove} (h₀ : s₀.log = [])
    (hrun : Trace (codeStep d) (fun _ _ => True) s₀ as s) :
    (∀ row, s.log.countP (·.usesBackup row) ≤ 1) ∧ (∀ row, s.log.countP (·.usesEmail row) ≤ 1) ∧
      (∀ a ∈ s.log, a.InWindow d) ∧
      ∀ i via user cred secret code step, s.calls i = .idle → cred ∈ s.listByUser user → s.secret cred = some secret →
        (via = TotpCaller.elevate → isBlank code = false ∧ secret ≠ "") → d.hotp secret step = some (trimSpace code) →
        s.now / 30 - 1 ≤ step → step ≤ s.now / 30 + 1 → ∃ cred secret, ∀ n, ∃ bs,
          run (codeStep d) s bs = { s with log := replicate n (.totp i cred secret code s.now) ++ s.log } := by
  have hs : SingleUse d s := by
    refine hrun.inv (SingleUse d) ?_ (.init h₀)
    intro s a hs _
    exact hs.step a
  refine ⟨fun row => ?_, fun row => ?_, hs.totp, ?_⟩
  · refine countP_le_one (k := row) ?_ hs.backup.nodup
    intro a ha
    cases a <;> simp_all [Acceptance.usesBackup, Acceptance.backupRows]
  · refine countP_le_one (k := row) ?_ hs.email.nodup
    intro a ha
    cases a <;> simp_all [Acceptance.usesEmail, Acceptance.emailRows]
  · intro i via user cred secret code step hcall hmem hsecret helevate hhotp hlo hhi
    have hvalid := (d.validate_iff s.now code secret).mpr ⟨step, hhotp, hlo, hhi⟩
    exact Codes.run_replay hcall hmem (fun hvia => (helevate hvia).1)
      ⟨hsecret, fun hskip => (helevate hskip.1).2 hskip.2, hvalid⟩

def adaCodes : Codes where
  now := 0
  creds := Table.empty.insert (7, ⟨"totp", some (true, "secret")⟩)
  backup := Table.empty.insert ⟨7, "a3f9c1-7d4e82", none⟩
  email := Table.empty
  calls := fun _ => .idle
  log := []

def adaCodeDeps : CodeDeps where
  hotp _ step := some (toString step)
  validate now code _ := [now / 30 - 1, now / 30, now / 30 + 1].any fun step => toString step == trimSpace code
  validate_iff := by
    intro now code secret
    simp only [any_eq_true, beq_iff_eq, Option.some.injEq]
    refine exists_congr fun step => ?_
    rw [and_comm]
    refine and_congr_right fun _ => ?_
    simp only [mem_cons, not_mem_nil, or_false]
    omega
  sha256sum := id
  hashEmailOTP := id

def backupRace : List CodeMove :=
  [.start 0 (.listing .mfaChallenge 7 "a3f9c1-7d4e82"), .start 1 (.listing .mfaChallenge 7 "a3f9c1-7d4e82"),
    .advance 0, .advance 1, .advance 0, .advance 1, .advance 0, .advance 1, .advance 0, .advance 1]

theorem codes_single_use_race : (run (codeStep adaCodeDeps) adaCodes backupRace).log.countP (·.usesBackup 0) = 1 ∧
    ∀ row, (run (codeStep adaCodeDeps) adaCodes backupRace).log.countP (·.usesBackup row) ≤ 1 :=
  ⟨by decide +kernel, (codes_single_use rfl (Trace.run_all fun _ _ => trivial)).1⟩

/-- One TOTP code of one credential and time step passes the MFA challenge and, five
seconds later, an elevation. -/
theorem totp_code_replayed : ∃ s₀ as s, s₀.log = [] ∧ Trace (codeStep adaCodeDeps) (fun _ _ => True) s₀ as s ∧
    s.log.countP (·.usesTotp 0 "0") = 2 :=
  ⟨adaCodes, [.start 0 (.listing .mfaChallenge 7 "0"), .advance 0, .advance 0, .tick 5,
    .start 1 (.listing .elevate 7 "0"), .advance 1, .advance 1], _, rfl, Trace.run_all fun _ _ => trivial, by decide +kernel⟩

end Clavex

import Clavex.CodeProtocol

/-!
# An authorization code is exchanged once

Requests with authorization codes interleave, statement by statement, with the login
flow that issues codes and with the wallet endpoint that consumes them too. A code is
marked used by the statement that reads it, so one request owns it; the binding checks
come after that and are the owner's.
-/

namespace Clavex

open Prog Option Rows TokenStore

/-! ## Runs -/

inductive CodeEvent where
  | tick (seconds : Nat)
  | settings (orgs : List OrgRow) (users : List User)
  | authorize (plain : String) (session : LoginSession) (claims : GoMap Json) (userID : Option UUID)
  | walletConsume (codeHash : String)

def codeEvent (d : OIDCHandler) : CodeEvent → TokenStore → TokenStore
  | .tick n, s => { s with now := s.now + n }
  | .settings orgs users, s => { s with orgs := orgs, users := users }
  | .authorize plain session claims userID, s =>
    match issueAuthorizationCode session claims userID s.now false with
    | some ac => s.insertCode ac (d.hashString plain)
    | none => s
  | .walletConsume h, s => (s.consumeCode h).2

abbrev CodePool := Pool CodeRequest TokenOp TokenOp.Resp TokenErr TokenSet TokenStore

abbrev CodeThreads := Threads CodeRequest CodePhase

abbrev CodeLog := List (CodeRequest × Except TokenErr TokenSet)

def codeSystem (d : OIDCHandler) : System CodeRequest TokenOp TokenOp.Resp TokenErr TokenSet TokenStore Env CodeEvent where
  main q := authorizationCodeGrant d q.caller q.tc q.code q.redirectURI q.codeVerifier
  sem := sem d
  other := codeEvent d

/-! ## What happens to the rows -/

def CodeRow.Same (r r' : CodeRow) : Prop :=
  r'.toAuthCode = r.toAuthCode ∧ r'.codeHash = r.codeHash ∧ r'.usedAt = r.usedAt

theorem CodeRow.Same.refl (r : CodeRow) : r.Same r := ⟨rfl, rfl, rfl⟩

theorem CodeRow.Same.trans {a b c : CodeRow} (h : a.Same b) (h' : b.Same c) : a.Same c :=
  ⟨h'.1.trans h.1, h'.2.1.trans h.2.1, h'.2.2.trans h.2.2⟩

structure CodesKept (s s' : TokenStore) : Prop where
  fwd : ∀ r ∈ s.codes.list, ∃ r' ∈ s'.codes.list, r.Same r'
  bwd : ∀ r' ∈ s'.codes.list, ∃ r ∈ s.codes.list, r.Same r'

variable {s s' : TokenStore} {h : String} {r : CodeRow} {d : OIDCHandler} {evs : CodeEvent → Prop}

theorem CodesKept.of_eq (h : s'.codes = s.codes) : CodesKept s s' := by
  constructor
  · intro r hr
    refine ⟨r, ?_, .refl r⟩
    rw [h]
    exact hr
  · intro r hr
    rw [h] at hr
    exact ⟨r, hr, .refl r⟩

theorem mem_setRevocationData {jti fam} :
    r ∈ (s.setRevocationData h jti fam).codes.list ↔ ∃ a ∈ s.codes.list,
      r = if a.codeHash == h then { a with accessTokenJTI := jti, refreshFamilyID := some fam } else a := by
  simp [setRevocationData, mem_modify]

theorem CodesKept.setRevocationData (s) (h jti : String) (fam) : CodesKept s (s.setRevocationData h jti fam) := by
  have hsame : ∀ a ∈ s.codes.list, (a.codeHash == h) = true →
      a.Same { a with accessTokenJTI := jti, refreshFamilyID := some fam } := fun _ _ _ => ⟨rfl, rfl, rfl⟩
  exact ⟨modify_to .refl hsame fun _ => rfl, modify_from .refl hsame fun _ => rfl⟩

theorem mem_consumeCode : r ∈ (s.consumeCode h).2.codes.list ↔
    ∃ a ∈ s.codes.list, r = if s.consumable h a then { a with usedAt := some s.now } else a := by
  simp [consumeCode, mem_modify]

theorem consumable_iff :
    s.consumable h r = true ↔ r.codeHash = h ∧ r.usedAt = none ∧ s.now < r.expiresAt := by
  unfold consumable
  simp [and_assoc]

theorem CodesKept.consumeNone (hn : (s.consumeCode h).1 = none) : CodesKept s (s.consumeCode h).2 := by
  have hnone : ∀ a ∈ s.codes.list, s.consumable h a = false := by
    apply find_none
    simpa only [consumeCode, map_eq_none_iff] using hn
  have hno : ∀ a ∈ s.codes.list, s.consumable h a = true → a.Same { a with usedAt := some s.now } :=
    fun a ha hp => absurd hp (by simp [hnone a ha])
  exact ⟨modify_to .refl hno fun _ => rfl, modify_from .refl hno fun _ => rfl⟩

structure Taken (s s' : TokenStore) (h : String) (ac : CodeRow) : Prop where
  row : ∃ r ∈ s.codes.list, r.codeHash = h ∧ r.usedAt = none ∧ s.now < r.expiresAt ∧ ac = { r with usedAt := some s.now }
  codes : s'.codes = (s.consumeCode h).2.codes

theorem sem_consumeCode (d env s) (h) :
    (∃ s', sem d env (.consumeCode h) s = (none, s') ∧ CodesKept s s') ∨
    ∃ s' ac, sem d env (.consumeCode h) s = (some ac, s') ∧ Taken s s' h ac := by
  simp only [sem]
  cases env.fails with
  | true => exact .inl ⟨s, rfl, .of_eq rfl⟩
  | false =>
    cases hc : s.consumeCode h with
    | mk r s' =>
      have hs' : s' = (s.consumeCode h).2 := by rw [hc]
      cases r with
      | none =>
        refine .inl ⟨s', rfl, ?_⟩
        rw [hs']
        apply CodesKept.consumeNone
        rw [hc]
      | some ac =>
        refine .inr ⟨s', ac, rfl, ?_, by rw [hs']⟩
        have hfst : (s.consumeCode h).1 = some ac := by rw [hc]
        simp only [consumeCode, map_eq_some_iff] at hfst
        obtain ⟨r, hr, hac⟩ := hfst
        obtain ⟨hmem, hp⟩ := find_some hr
        obtain ⟨hh, hu, he⟩ := consumable_iff.mp hp
        exact ⟨r, hmem, hh, hu, he, hac.symm⟩

theorem CodeStep.effect {q φ op f} (h : CodeStep d q φ op f) (env s) :
    (CodesKept s (sem d env op s).2 ∧ (f (sem d env op s).1).code = φ.code) ∨
    ∃ ac, φ.code = none ∧ f (sem d env op s).1 = .spent ac ∧ Taken s (sem d env op s).2 (d.hashString q.code) ac := by
  cases h with
  | quiet hq =>
    obtain ⟨n, -, hs⟩ := sem_quiet d s env hq
    exact .inl ⟨.of_eq (by rw [hs]), rfl⟩
  | client | org | signer =>
    refine .inl ⟨.of_eq rfl, ?_⟩
    dsimp only
    split <;> rfl
  | consume =>
    rcases sem_consumeCode d env s (d.hashString q.code) with ⟨s', hsem, hkept⟩ | ⟨s', ac, hsem, htaken⟩
    · rw [hsem]
      exact .inl ⟨hkept, rfl⟩
    · rw [hsem]
      exact .inr ⟨ac, rfl, rfl, htaken⟩
  | @mint ac tc uc =>
    rcases sem_issueAccessToken d s env tc q.caller.clientID ac.scope (some uc) q.caller.dpop q.caller.mtls with
      ⟨hsem, -⟩ | ⟨tok, hsem, -⟩ <;> rw [hsem] <;> exact .inl ⟨.of_eq rfl, rfl⟩
  | name => exact .inl ⟨.of_eq rfl, rfl⟩
  | @store _ _ _ _ p plain hf hr =>
    rcases sem_insertRefresh d s env p (d.hashString plain) with ⟨hsem, -⟩ | ⟨t, hsem, hins, -⟩
    · rw [hsem]
      exact .inl ⟨.of_eq rfl, rfl⟩
    · rw [hsem]
      exact .inl ⟨.of_eq (by rw [(insertRefresh_some hins).1]), rfl⟩
  | @record ac _ jti fam _ =>
    rcases unlessFails_cases s env (s.setRevocationData ac.codeHash jti fam) with ⟨h, -⟩ | ⟨h, -⟩
    · rw [sem_setRevocationData, h]
      exact .inl ⟨.of_eq rfl, rfl⟩
    · rw [sem_setRevocationData, h]
      exact .inl ⟨.setRevocationData s ac.codeHash jti fam, rfl⟩
  | @lookup cl =>
    obtain ⟨n, -, hs⟩ := sem_quiet d s env (show (TokenOp.usedCodeByHash (d.hashString q.code)).quiet = true from rfl)
    refine .inl ⟨.of_eq (by rw [hs]), ?_⟩
    unfold lookupPhase
    split
    · rfl
    · split <;> rfl
  | revokeToken | revokeOwnToken _ =>
    rw [sem_revokeToken]
    rcases unlessFails_cases s env _ with ⟨h, -⟩ | ⟨h, -⟩ <;> rw [h] <;> exact .inl ⟨.of_eq rfl, rfl⟩
  | revokeFamily _ | revokeOwnFamily _ =>
    rw [sem_revokeFamilyByID]
    rcases unlessFails_cases s env _ with ⟨h, -⟩ | ⟨h, -⟩ <;> rw [h] <;> exact .inl ⟨.of_eq rfl, rfl⟩

theorem verifyPKCE_ok {challenge verifier} (h : verifyPKCE d challenge verifier = .ok ())
    (hc : challenge ≠ "") : d.s256 verifier = challenge := by
  unfold verifyPKCE at h
  rw [if_neg hc] at h
  split at h
  · cases h
  · split at h
    · cases h
    · exact not_not.mp ‹_›

/-! ## One owner -/

def codeSpent (s : TokenStore) (h : String) : Prop := ∃ r ∈ s.codes.list, r.codeHash = h ∧ r.usedAt ≠ none

def ownedCode (x : CodeRequest × CodePhase) : Option String := x.2.code.map (·.codeHash)

def exchangedCode (d : OIDCHandler) : CodeRequest × Except TokenErr TokenSet → Option String
  | (q, .ok _) => some (d.hashString q.code)
  | _ => none

def Holds (s : TokenStore) (ac : CodeRow) : Prop := ac.usedAt ≠ none ∧ ∃ r ∈ s.codes.list, ac.Same r

def UsedKept (s s' : TokenStore) : Prop := ∀ r ∈ s.codes.list, r.usedAt ≠ none → ∃ r' ∈ s'.codes.list, r.Same r'

theorem CodesKept.used (h : CodesKept s s') : UsedKept s s' := fun r hr _ => h.fwd r hr

theorem usedKept_consumeCode (s) (h : String) (hc : s'.codes = (s.consumeCode h).2.codes) : UsedKept s s' := by
  intro r hr hu
  have hnot : s.consumable h r = false := by
    apply Bool.eq_false_iff.mpr
    intro hp
    exact hu (consumable_iff.mp hp).2.1
  refine ⟨r, ?_, .refl r⟩
  rw [hc]
  refine mem_consumeCode.mpr ⟨r, hr, ?_⟩
  simp [hnot]

theorem codeSpent.mono (h : UsedKept s s') {c} (hs : codeSpent s c) : codeSpent s' c := by
  obtain ⟨r, hr, hc, hu⟩ := hs
  obtain ⟨r', hr', hsame⟩ := h r hr hu
  refine ⟨r', hr', ?_, ?_⟩
  · rw [hsame.2.1, hc]
  · rw [hsame.2.2]
    exact hu

theorem Holds.mono (h : UsedKept s s') {ac} (hs : Holds s ac) : Holds s' ac := by
  obtain ⟨hu, r, hr, hsame⟩ := hs
  obtain ⟨r', hr', hsame'⟩ := h r hr (by rw [hsame.2.2]; exact hu)
  exact ⟨hu, r', hr', hsame.trans hsame'⟩

def IssuedCode (d : OIDCHandler) (evs : CodeEvent → Prop) (r : CodeRow) : Prop :=
  ∃ plain session claims userID now, evs (.authorize plain session claims userID) ∧ d.hashString plain = r.codeHash ∧
    issueAuthorizationCode session claims userID now false = some r.toAuthCode

def RowsIssued (d : OIDCHandler) (evs : CodeEvent → Prop) (s : TokenStore) : Prop :=
  ∀ r ∈ s.codes.list, IssuedCode d evs r ∧ ∀ τ, r.usedAt = some τ → τ < r.expiresAt

theorem RowsIssued.kept (h : RowsIssued d evs s)
    (hk : CodesKept s s') : RowsIssued d evs s' := by
  intro r' hr'
  obtain ⟨r, hr, h1, h2, h3⟩ := hk.bwd r' hr'
  obtain ⟨⟨plain, session, claims, userID, now, hev, hplain, hissue⟩, hused⟩ := h r hr
  refine ⟨⟨plain, session, claims, userID, now, hev, ?_, ?_⟩, ?_⟩
  · rw [hplain, h2]
  · rw [hissue, h1]
  · intro τ hτ
    rw [h3] at hτ
    rw [h1]
    exact hused τ hτ

theorem RowsIssued.consumeCode (h : RowsIssued d evs s) (c) : RowsIssued d evs (s.consumeCode c).2 := by
  intro r' hr'
  obtain ⟨a, ha, rfl⟩ := mem_consumeCode.mp hr'
  obtain ⟨hissued, hused⟩ := h a ha
  split
  · rename_i hp
    refine ⟨hissued, fun τ hτ => ?_⟩
    cases hτ
    exact (consumable_iff.mp hp).2.2
  · exact ⟨hissued, hused⟩

structure CodeInv (d : OIDCHandler) (evs : CodeEvent → Prop) (s : TokenStore) (th : CodeThreads) (log : CodeLog) :
    Prop where
  once : Once codeSpent ownedCode (exchangedCode d) s th log
  rows : RowsIssued d evs s
  owners : ∀ {i q φ ac}, th i = some (q, φ) → φ.code = some ac → ac.codeHash = d.hashString q.code ∧ Holds s ac
  winners : ∀ {q ts}, (q, .ok ts) ∈ log → ∃ ac, ac.codeHash = d.hashString q.code ∧ Holds s ac ∧ CodeBound d q ac.toAuthCode

namespace CodeInv

variable {d : OIDCHandler} {evs : CodeEvent → Prop} {s s' : TokenStore} {th : CodeThreads} {log : CodeLog}

theorem mono (h : CodeInv d evs s th log) (hu : UsedKept s s') (hrows : RowsIssued d evs s') : CodeInv d evs s' th log where
  once := h.once.mono fun _ hs => hs.mono hu
  rows := hrows
  owners := by
    intro i q φ ac hi hc
    obtain ⟨hh, hold⟩ := h.owners hi hc
    exact ⟨hh, hold.mono hu⟩
  winners := by
    intro q ts hl
    obtain ⟨ac, hh, hold, hb⟩ := h.winners hl
    exact ⟨ac, hh, hold.mono hu, hb⟩

theorem goOn (h : CodeInv d evs s th log) {i q φ}
    (hφ : φ.code = none ∨ ∃ ψ, th i = some (q, ψ) ∧ φ.code = ψ.code) :
    CodeInv d evs s (Function.update th i (some (q, φ))) log where
  once := by
    apply h.once.keep
    rcases hφ with hφ | ⟨ψ, hψ, hφ⟩
    · exact .inl (by simp [ownedCode, hφ])
    · exact .inr ⟨(q, ψ), hψ, by simp [ownedCode, hφ]⟩
  rows := h.rows
  owners := by
    intro j q' φ' ac hj hc
    rcases Once.update_cases hj with ⟨-, heq⟩ | ⟨-, hj⟩
    · cases heq
      rcases hφ with hφ | ⟨ψ, hψ, hφ⟩
      · rw [hφ] at hc
        cases hc
      · rw [hφ] at hc
        exact h.owners hψ hc
    · exact h.owners hj hc
  winners := h.winners

theorem take (h : CodeInv d evs s th log) {i q ac} (ht : Taken s s' (d.hashString q.code) ac) :
    CodeInv d evs s' (Function.update th i (some (q, .spent ac))) log := by
  have hu : UsedKept s s' := usedKept_consumeCode s _ ht.codes
  obtain ⟨r, hr, hh, hnone, hexp, hac⟩ := ht.row
  have hcons : s.consumable (d.hashString q.code) r = true := consumable_iff.mpr ⟨hh, hnone, hexp⟩
  have hmem : ac ∈ s'.codes.list := by
    rw [ht.codes]
    refine mem_consumeCode.mpr ⟨r, hr, ?_⟩
    rw [hac, if_pos hcons]
  have hhash : ac.codeHash = d.hashString q.code := by rw [hac]; exact hh
  have hused : ac.usedAt ≠ none := by rw [hac]; exact some_ne_none _
  have hmono := h.mono hu (fun r' hr' => by
    rw [ht.codes] at hr'
    exact h.rows.consumeCode _ r' hr')
  refine ⟨?_, hmono.rows, ?_, hmono.winners⟩
  · apply h.once.take
    · show some ac.codeHash = _
      rw [hhash]
    · -- the row is unused, and no other row bears the hash
      intro hs
      obtain ⟨r', hr', hh', hu'⟩ := hs
      rw [eq_of_key hr' hr (hh'.trans hh.symm)] at hu'
      exact hu' hnone
    · exact fun _ hs => hs.mono hu
    · exact ⟨ac, hmem, hhash, hused⟩
  · intro j q' φ' ac' hj hc
    rcases Once.update_cases hj with ⟨-, heq⟩ | ⟨-, hj⟩
    · cases heq
      cases hc
      exact ⟨hhash, hused, ac, hmem, .refl ac⟩
    · exact hmono.owners hj hc

end CodeInv

theorem usedKept_insertCode (s ac) (h : String) : UsedKept s (s.insertCode ac h) := by
  intro r hr _
  refine ⟨r, ?_, .refl r⟩
  rcases insertCode_cases s ac h with heq | ⟨codes, -, hlist, heq⟩ <;> rw [heq]
  · exact hr
  · rw [hlist]
    exact List.mem_cons_of_mem _ hr

theorem codeEvent_kept (d) (h : RowsIssued d evs s) {e} (he : evs e) :
    UsedKept s (codeEvent d e s) ∧ RowsIssued d evs (codeEvent d e s) := by
  cases e with
  | tick n | settings orgs users => exact ⟨(CodesKept.of_eq rfl).used, h⟩
  | walletConsume c => exact ⟨usedKept_consumeCode s c rfl, h.consumeCode c⟩
  | authorize plain session claims userID =>
    simp only [codeEvent]
    cases hi : issueAuthorizationCode session claims userID s.now false with
    | none => exact ⟨(CodesKept.of_eq rfl).used, h⟩
    | some ac =>
      refine ⟨usedKept_insertCode s ac _, ?_⟩
      rcases insertCode_cases s ac (d.hashString plain) with heq | ⟨codes, -, hlist, heq⟩ <;> simp only [heq]
      · exact h
      · intro r hr
        rw [hlist] at hr
        rcases List.mem_cons.mp hr with rfl | hr
        · exact ⟨⟨plain, session, claims, userID, s.now, he, rfl, hi⟩, fun τ hτ => by cases hτ⟩
        · exact h r hr

theorem codeInv_kept (d) (evs) :
    Kept (codeSystem d) (codeProtocol d) (fun _ => .entered) (CodeDone d) (fun _ _ _ _ => True) evs (CodeInv d evs) where
  start q h _ := h.goOn (.inl rfl)
  step := by
    intro s th log i q φ op f env h hi hstep _
    rcases hstep.effect env s with ⟨hkept, hcode⟩ | ⟨ac, -, hφ, htaken⟩
    · exact (h.mono hkept.used (h.rows.kept hkept)).goOn (.inr ⟨φ, hi, hcode⟩)
    · show CodeInv d evs (sem d env op s).2 (Function.update th i (some (q, f (sem d env op s).1))) log
      rw [hφ]
      exact h.take htaken
  finish := by
    intro s th log i q φ r h hi hdone
    refine ⟨h.once.finish hi ?_, h.rows, ?_, ?_⟩
    · intro k hk
      cases r with
      | error e => cases hk
      | ok ts =>
        obtain ⟨ac, jti, fam, rfl, hbound, -⟩ := hdone
        cases hk
        show some ac.codeHash = _
        rw [(h.owners hi rfl).1]
    · exact fun hj => h.owners (Once.update_none hj).2
    · intro q' ts hl
      rcases List.mem_cons.mp hl with heq | hl
      · cases heq
        obtain ⟨ac, jti, fam, rfl, hbound, -⟩ := hdone
        obtain ⟨hh, hold⟩ := h.owners hi rfl
        exact ⟨ac, hh, hold, hbound⟩
      · exact h.winners hl
  other e he h := by
    obtain ⟨hu, hrows⟩ := codeEvent_kept d h.rows he
    exact h.mono hu hrows

theorem code_exchanged_once (d : OIDCHandler) (s : TokenStore) (ms : List (PoolMove CodeRequest Env CodeEvent)) :
    let t : CodePool := run (codeSystem d).step (Pool.init { s with codes := .empty }) ms
    (t.log.filterMap (exchangedCode d)).Nodup ∧
    ∀ q ts, (q, .ok ts) ∈ t.log → ∃ r ∈ t.store.codes.list,
      r.codeHash = d.hashString q.code ∧ IssuedCode d (fun e => .other e ∈ ms) r ∧
      r.clientID = q.caller.clientID ∧ r.redirectURI = q.redirectURI ∧
      (∃ τ, r.usedAt = some τ ∧ τ < r.expiresAt) ∧
      (r.pkceChallenge ≠ "" → d.s256 q.codeVerifier = r.pkceChallenge) ∧
      (r.dpopJKT ≠ "" → q.caller.dpop.map (·.jkt) = some r.dpopJKT) := by
  intro t
  have hrun : Trace (codeSystem d).step (Meets fun _ _ _ _ => True) (Pool.init { s with codes := .empty }) ms t :=
    Trace.run_always Meets.always _ ms
  have hstart : CodeInv d (fun e => .other e ∈ ms) { s with codes := .empty } (fun _ => none) [] := by
    refine ⟨Once.nil, ?_, ?_, ?_⟩
    · intro r hr
      cases hr
    · intro i q φ ac hi
      cases hi
    · intro q ts hl
      cases hl
  obtain ⟨th, -, hinv⟩ := System.inv (authorizationCodeGrant_follows d) (codeInv_kept d _) hrun hstart
  refine ⟨hinv.once.nodup, ?_⟩
  intro q ts hl
  obtain ⟨ac, hhash, ⟨hused, r, hr, hcols, hh, hu⟩, hbound⟩ := hinv.winners hl
  obtain ⟨hissued, htime⟩ := hinv.rows r hr
  rw [← hcols] at hbound
  refine ⟨r, hr, hh.trans hhash, hissued, hbound.client, hbound.redirect, ?_, ?_, ?_⟩
  · obtain ⟨τ, hτ⟩ := ne_none_iff_exists'.mp hused
    rw [← hu] at hτ
    exact ⟨τ, hτ, htime τ hτ⟩
  · intro hne
    exact verifyPKCE_ok hbound.verifier hne
  · intro hne
    exact hbound.key.resolve_left hne

def plainSession : LoginSession :=
  { id := "login", orgSlug := "acme", orgID := 1, clientID := "app", redirectURI := "https://app/cb", scope := "openid" }

def plainRequest : CodeRequest :=
  { caller := { orgSlug := "acme", clientID := "app" }
    tc := plainHandler.config
    code := "code"
    redirectURI := "https://app/cb" }

def issueCode : PoolMove CodeRequest Env CodeEvent := .other (.authorize "code" plainSession ∅ (some plainUser.id))

def advances (i n : Nat) : List (PoolMove CodeRequest Env CodeEvent) := List.replicate n (.advance i {})

theorem code_exchanged_once_replayed :
    let t : CodePool := run (codeSystem plainHandler).step (Pool.init { plainStore with codes := .empty })
      (issueCode :: .start 0 plainRequest :: .start 1 plainRequest :: (advances 0 21 ++ advances 1 10))
    t.log.length = 2 ∧ t.log.filterMap (exchangedCode plainHandler) = ["code"] ∧
      (t.log.filterMap (exchangedCode plainHandler)).Nodup :=
  ⟨by decide +kernel, by decide +kernel, (code_exchanged_once plainHandler plainStore _).1⟩

end Clavex

import Clavex.CodeProtocol

/-!
# What a poll yields

Polls with device codes and with `auth_req_id`s interleave with everything else that
happens to the stores. A poll reads an allowed row, issues its tokens and deletes the row
as its last statement. A row yields one token set as long as the poll that issues
tokens for it finds it still there when it deletes it (`poll_yields_once`).
-/

namespace Clavex

open Prog List Function Rows

/-! ## Polls as a protocol -/

inductive PollRequest where
  | device (caller : Caller) (deviceCode : String)
  | ciba (caller : Caller) (proof : ProofHeaders) (authReqID : String)

variable (d : OIDCHandler)

def poll : PollRequest → TokenProg TokenSet
  | .device x deviceCode => deviceCodeGrant d x deviceCode
  | .ciba x proof authReqID => cibaGrant d x proof authReqID

def PollRequest.secret : PollRequest → Secret
  | device _ deviceCode => .device (d.hashString deviceCode)
  | ciba _ _ authReqID => .ciba authReqID

inductive PollPhase where
  | idle
  | device (dc : DeviceCode)
  | ciba (cr : CIBARequest)
  | spent

def TokenOp.spends : TokenOp → Bool
  | deleteDevice _ => true
  | deleteCIBA _ consumed => consumed
  | _ => false

inductive PollStep (d : OIDCHandler) : PollRequest → PollPhase → (op : TokenOp) → (op.Resp → PollPhase) → Prop
  | aside {q φ op} (h : op.spends = false) : PollStep d q φ op fun _ => φ
  | device {x deviceCode} :
      PollStep d (.device x deviceCode) .idle (.deviceByCode (d.hashString deviceCode)) fun
        | some dc => .device dc
        | none => .idle
  | ciba {x proof authReqID} :
      PollStep d (.ciba x proof authReqID) .idle (.cibaByID authReqID) fun
        | some cr => .ciba cr
        | none => .idle
  | spendDevice {q dc} : PollStep d q (.device dc) (.deleteDevice dc.id) fun _ => .spent
  | spendCIBA {q cr} :
      PollStep d q (.ciba cr) (.deleteCIBA cr.authReqID true) fun _ => .spent

def pollProtocol : Protocol PollRequest TokenOp TokenOp.Resp := ⟨PollPhase, PollStep d⟩

def PollDone (φ : PollPhase) : Except TokenErr TokenSet → Prop
  | .ok _ => φ = .spent
  | .error _ => True

section
variable (d : OIDCHandler) {q : PollRequest} {φ : PollPhase}

def Unspent {ε α : Type} (p : Prog TokenOp TokenOp.Resp ε α) : Prop := p.Uses fun op => op.spends = false

theorem Quiet.unspent {ε α} {p : Prog TokenOp TokenOp.Resp ε α} (h : Quiet p) : Unspent p := by
  refine .mono ?_ h
  intro op hq
  cases op <;> first
    | rfl
    | cases hq

theorem follows_unspent {α} {p : TokenProg α} (hp : Unspent p) {g}
    (hok : ∀ a, (g a).Follows (pollProtocol d) q PollDone φ) : (p >>= g).Follows (pollProtocol d) q PollDone φ :=
  .bind_uses (fun _ h => PollStep.aside h) hp hok fun _ => trivial

theorem pollClaims_quiet (clientID user) : Quiet (pollClaims d clientID user) := by
  exact .ask rfl fun _ => .ask rfl fun _ => .ask rfl fun _ => .ret _

def TokenOp.ofRefresh : TokenOp → Bool
  | insertRefresh .. | setReplacedBy .. => true
  | op => op.quiet

theorem TokenOp.ofRefresh_of_quiet {op : TokenOp} (h : op.quiet = true) : op.ofRefresh = true := by
  cases op <;> first
    | rfl
    | exact h

theorem issueRefreshToken_uses (p) : (issueRefreshToken d p).Uses fun op => op.ofRefresh = true := by
  refine ⟨rfl, Option.forall.2 ⟨trivial, fun plain => ?_⟩⟩
  refine ⟨rfl, fun ok => .require ?_⟩
  cases p.replacesID with
  | none => exact trivial
  | some id => exact ⟨rfl, fun _ => trivial⟩

variable (x : Caller)

theorem issuePolled_uses (tc orgID userID scope alg uc dpop accessToken) :
    (issuePolled d x tc orgID userID scope alg uc dpop accessToken).Uses fun op => op.ofRefresh = true := by
  simp only [issuePolled, call_bind]
  refine .bind (.mono (fun _ => TokenOp.ofRefresh_of_quiet) (issueIDTokenFor_quiet ..)) fun idToken => ?_
  refine ⟨rfl, fun familyID => ⟨rfl, fun now => ?_⟩⟩
  exact .bind (issueRefreshToken_uses d _) fun _ => trivial

theorem issuePolled_unspent (tc orgID userID scope alg uc dpop accessToken) :
    Unspent (issuePolled d x tc orgID userID scope alg uc dpop accessToken) := by
  refine .mono ?_ (issuePolled_uses d ..)
  intro op h
  cases op <;> first
    | rfl
    | cases h

theorem checkDPoP_uses {A} (hnow : A .now) (hjti : ∀ jti, A (.checkJTI jti)) (headers : List String)
    (htm htu : String) : (checkDPoP d headers htm htu).Uses A := by
  refine .require ⟨hnow, fun now => .ofExcept fun key => ?_⟩
  cases key with
  | none => exact trivial
  | some k => exact ⟨hjti k.jti, fun _ => .require trivial⟩

theorem checkDPoP_unspent (headers : List String) (htm htu : String) : Unspent (checkDPoP d headers htm htu) :=
  checkDPoP_uses d (A := fun op => op.spends = false) rfl (fun _ => rfl) headers htm htu

theorem redeemDevice_follows (dc userID) :
    (redeemDevice d x dc userID).Follows (pollProtocol d) q PollDone (.device dc) := by
  refine follows_unspent d (activeUser_quiet _).unspent fun user => ?_
  refine .ask (.aside rfl) fun cl => .ask (.aside rfl) fun org => ?_
  refine follows_unspent d (applyOrgOverrides_quiet ..).unspent fun tc => ?_
  refine follows_unspent d (pollClaims_quiet ..).unspent fun uc => ?_
  refine .ask (.aside rfl) fun flags => .ask (.aside rfl) (Option.forall.2 ⟨trivial, fun r => ?_⟩)
  refine follows_unspent d (issuePolled_unspent ..) fun ts => ?_
  exact .ask .spendDevice fun _ => rfl

theorem deviceCodeGrant_follows (deviceCode) :
    (deviceCodeGrant d x deviceCode).Follows (pollProtocol d) (.device x deviceCode) PollDone .idle := by
  simp only [deviceCodeGrant, call_bind]
  refine .require (fun _ => ?_) fun _ => trivial
  refine .ask .device (Option.forall.2 ⟨trivial, fun dc => ?_⟩)
  refine .ask (.aside rfl) fun now => ?_
  refine .ofExcept (fun _ _ => ?_) fun _ _ => trivial
  refine .ask (.aside rfl) fun tooFast => ?_
  by_cases hfast : tooFast = some true
  · rw [if_pos hfast]
    exact .ask (.aside rfl) fun _ => trivial
  · rw [if_neg hfast]
    exact .ofExcept (fun userID _ => redeemDevice_follows d x dc userID) fun _ _ => trivial

theorem redeemCIBA_follows (proof cr userID) :
    (redeemCIBA d x proof cr userID).Follows (pollProtocol d) q PollDone (.ciba cr) := by
  refine follows_unspent d (activeUser_quiet _).unspent fun user => ?_
  refine .ask (.aside rfl) fun cl => .ask (.aside rfl) fun org => ?_
  refine follows_unspent d (applyOrgOverrides_quiet ..).unspent fun tc => ?_
  refine follows_unspent d (pollClaims_quiet ..).unspent fun uc => ?_
  refine follows_unspent d (checkDPoP_unspent ..) fun dpop => ?_
  refine .ask (.aside rfl) (Option.forall.2 ⟨trivial, fun r => ?_⟩)
  refine .ask (.aside rfl) fun cl => ?_
  refine follows_unspent d (issuePolled_unspent ..) fun ts => ?_
  exact .ask .spendCIBA fun _ => rfl

theorem cibaGrant_follows (proof authReqID) :
    (cibaGrant d x proof authReqID).Follows (pollProtocol d) (.ciba x proof authReqID) PollDone .idle := by
  refine .require (fun _ => ?_) fun _ => trivial
  refine .ask .ciba (Option.forall.2 ⟨trivial, fun cr => ?_⟩)
  refine .ask (.aside rfl) fun now => ?_
  refine .ofExcept (fun _ _ => ?_) fun _ _ => trivial
  refine .ask (.aside rfl) fun cl => .require (fun _ => ?_) fun _ => trivial
  refine .ask (.aside rfl) fun polled => .require (fun _ => ?_) fun _ => trivial
  cases cr.status with
  | pending => exact trivial
  | denied => exact .ask (.aside rfl) fun _ => trivial
  | approved =>
    cases cr.userID with
    | none => exact trivial
    | some userID => exact redeemCIBA_follows d x proof cr userID

theorem poll_follows (q) : (poll d q).Follows (pollProtocol d) q PollDone .idle := by
  cases q with
  | device x deviceCode => exact deviceCodeGrant_follows d x deviceCode
  | ciba x proof authReqID => exact cibaGrant_follows d x proof authReqID

end

/-! ## Runs -/

inductive PollEvent where
  | tick (seconds : Nat)
  | settings (orgs : List OrgRow) (clients : List OIDCClient) (users : List User)
  | statement (env : Env) (op : TokenOp)

def pollEvent : PollEvent → TokenStore → TokenStore
  | .tick n, s => { s with now := s.now + n }
  | .settings orgs clients users, s => { s with orgs := orgs, clients := clients, users := users }
  | .statement env op, s => (sem d env op s).2

abbrev PollPool := Pool PollRequest TokenOp TokenOp.Resp TokenErr TokenSet TokenStore

abbrev PollThreads := Threads PollRequest PollPhase

abbrev PollLog := List (PollRequest × Except TokenErr TokenSet)

def pollSystem : System PollRequest TokenOp TokenOp.Resp TokenErr TokenSet TokenStore Env PollEvent where
  main := poll d
  sem := sem d
  other := pollEvent d

def pollCond (s : TokenStore) (env : Env) (_ : PollRequest) : TokenOp → Bool
  | .deleteDevice id => !env.fails && s.devices.list.any (·.id == id)
  | .deleteCIBA id true => !env.fails && s.ciba.list.any (·.authReqID == id)
  | _ => true

/-! ## What happens to the rows -/

structure PollsKept (s s' : TokenStore) : Prop where
  nextID : s.nextID ≤ s'.nextID
  drawn : ∀ x ∈ s.drawn, x ∈ s'.drawn
  devices : ∀ r' ∈ s'.devices.list, (∃ r ∈ s.devices.list, r'.id = r.id ∧ r'.deviceCodeHash = r.deviceCodeHash) ∨
    (r'.id = s.nextID ∧ s.nextID < s'.nextID ∧ .device r'.deviceCodeHash ∉ s.drawn ∧ .device r'.deviceCodeHash ∈ s'.drawn)
  ciba : ∀ r' ∈ s'.ciba.list, (∃ r ∈ s.ciba.list, r'.authReqID = r.authReqID) ∨
    (.ciba r'.authReqID ∉ s.drawn ∧ .ciba r'.authReqID ∈ s'.drawn)

namespace PollsKept

variable {s s' : TokenStore}

theorem of_eq (hd : s'.devices = s.devices) (hc : s'.ciba = s.ciba) (hn : s.nextID ≤ s'.nextID)
    (hx : ∀ x ∈ s.drawn, x ∈ s'.drawn) : PollsKept s s' where
  nextID := hn
  drawn := hx
  devices := by
    intro r hr
    rw [hd] at hr
    exact .inl ⟨r, hr, rfl, rfl⟩
  ciba := by
    intro r hr
    rw [hc] at hr
    exact .inl ⟨r, hr, rfl⟩

theorem refl (s) : PollsKept s s := .of_eq rfl rfl (Nat.le_refl _) fun _ h => h

theorem modifyDevices {p f hf} (hh : ∀ a, (f a).deviceCodeHash = a.deviceCodeHash) :
    PollsKept s { s with devices := s.devices.modify p f hf } :=
  { refl s with
    devices := fun b hb => .inl (modify_from (C := fun r r' => r'.id = r.id ∧ r'.deviceCodeHash = r.deviceCodeHash)
      (fun _ => ⟨rfl, rfl⟩) (fun a _ _ => ⟨hf a, hh a⟩) hf b hb) }

theorem deleteDevices {p} : PollsKept s { s with devices := s.devices.delete p } :=
  { refl s with devices := fun r' hr' => .inl ⟨r', (mem_delete.mp hr').1, rfl, rfl⟩ }

theorem decideCIBA {id p f hf} : PollsKept s (s.decideCIBA id p f hf) :=
  { refl s with
    ciba := fun b hb => .inl (modify_from (C := fun r r' => r'.authReqID = r.authReqID) (fun _ => rfl) (fun a _ _ => hf a) hf b hb) }

theorem deleteCIBAs {p} : PollsKept s { s with ciba := s.ciba.delete p } :=
  { refl s with ciba := fun r' hr' => .inl ⟨r', (mem_delete.mp hr').1, rfl⟩ }

theorem insertDevice {devices c} (hdrawn : .device c.deviceCodeHash ∉ s.drawn)
    (hlist : devices.list = c :: s.devices.list) (hid : c.id = s.nextID) :
    PollsKept s { s with nextID := s.nextID + 1, devices := devices, drawn := .device c.deviceCodeHash :: s.drawn } where
  nextID := Nat.le_succ _
  drawn := fun _ hx => mem_cons_of_mem _ hx
  devices := by
    intro r' hr'
    have hr' : r' ∈ devices.list := hr'
    rw [hlist] at hr'
    rcases mem_cons.mp hr' with rfl | hr'
    · exact .inr ⟨hid, Nat.lt_succ_self _, hdrawn, mem_cons_self ..⟩
    · exact .inl ⟨r', hr', rfl, rfl⟩
  ciba := fun r hr => .inl ⟨r, hr, rfl⟩

theorem insertCIBA {ciba r id} (hdrawn : .ciba id ∉ s.drawn) (hlist : ciba.list = r :: s.ciba.list)
    (hid : r.authReqID = id) : PollsKept s { s with ciba := ciba, drawn := .ciba id :: s.drawn } where
  nextID := Nat.le_refl _
  drawn := fun _ hx => mem_cons_of_mem _ hx
  devices := fun r hr => .inl ⟨r, hr, rfl, rfl⟩
  ciba := by
    intro r' hr'
    have hr' : r' ∈ ciba.list := hr'
    rw [hlist] at hr'
    rcases mem_cons.mp hr' with rfl | hr'
    · rw [hid]
      exact .inr ⟨hdrawn, mem_cons_self ..⟩
    · exact .inl ⟨r', hr', rfl⟩

end PollsKept

theorem sem_pollsKept (s env op) : PollsKept s (sem d env op s).2 := by
  have hwrote := sem_wrote d s env op
  generalize (sem d env op s).2 = t at hwrote ⊢
  cases hwrote with
  | nothing => exact .refl s
  | draw hn => exact .of_eq rfl rfl hn fun _ h => h
  | mint => exact .of_eq rfl rfl (Nat.le_succ _) fun _ h => h
  | consumeCode => exact .of_eq rfl rfl (Nat.le_refl _) fun _ h => mem_cons_of_mem _ h
  | insertDevice hdrawn hlist hc =>
    subst hc
    exact .insertDevice hdrawn hlist rfl
  | authorizeDevice | denyDevice | touchPoll | slowDown => exact .modifyDevices fun _ => rfl
  | deleteDevice => exact .deleteDevices
  | insertCIBA hdrawn hlist => exact .insertCIBA hdrawn hlist rfl
  | approveCIBA | approveCIBAWithVPClaims | denyCIBA => exact .decideCIBA
  | deleteCIBA | cleanupExpiredCIBA => exact .deleteCIBAs
  | _ => exact .of_eq rfl rfl (Nat.le_refl _) fun _ h => h

theorem pollEvent_kept (e s) : PollsKept s (pollEvent d e s) := by
  cases e with
  | tick n | settings orgs clients users => exact .of_eq rfl rfl (Nat.le_refl _) fun _ h => h
  | statement env op => exact sem_pollsKept d s env op

/-! ## One token set -/

def secretSpent (s : TokenStore) : Secret → Prop
  | .code _ => False
  | .device h => .device h ∈ s.drawn ∧ ∀ r ∈ s.devices.list, r.deviceCodeHash ≠ h
  | .ciba id => .ciba id ∈ s.drawn ∧ ∀ r ∈ s.ciba.list, r.authReqID ≠ id

def spentSecret : PollRequest × PollPhase → Option Secret
  | (q, .spent) => some (q.secret d)
  | _ => none

def yielded : PollRequest × Except TokenErr TokenSet → Option Secret
  | (q, .ok _) => some (q.secret d)
  | _ => none

structure RowsDrawn (s : TokenStore) : Prop where
  ids : ∀ r ∈ s.devices.list, r.id < s.nextID
  device : ∀ r ∈ s.devices.list, .device r.deviceCodeHash ∈ s.drawn
  hashes : ∀ r ∈ s.devices.list, ∀ r' ∈ s.devices.list, r.deviceCodeHash = r'.deviceCodeHash → r = r'
  ciba : ∀ r ∈ s.ciba.list, .ciba r.authReqID ∈ s.drawn

def PollOK (s : TokenStore) (q : PollRequest) : PollPhase → Prop
  | .device dc => dc.id < s.nextID ∧ ∀ r ∈ s.devices.list, r.id = dc.id → .device r.deviceCodeHash = q.secret d
  | .ciba cr => .ciba cr.authReqID = q.secret d
  | _ => True

structure PollInv (d : OIDCHandler) (s : TokenStore) (th : PollThreads) (log : PollLog) : Prop where
  rows : RowsDrawn s
  phases : ∀ {i q φ}, th i = some (q, φ) → PollOK d s q φ
  once : Once secretSpent (spentSecret d) (yielded d) s th log

section
variable {d : OIDCHandler} {s s' : TokenStore} {th : PollThreads} {log : PollLog} {i : Nat} {q : PollRequest} {φ : PollPhase}

theorem RowsDrawn.mono (h : RowsDrawn s) (hk : PollsKept s s') : RowsDrawn s' where
  ids := by
    intro r' hr'
    rcases hk.devices r' hr' with ⟨r, hr, hid, -⟩ | ⟨hid, hlt, -⟩
    · rw [hid]
      exact Nat.lt_of_lt_of_le (h.ids r hr) hk.nextID
    · rw [hid]
      exact hlt
  device := by
    intro r' hr'
    rcases hk.devices r' hr' with ⟨r, hr, -, hh⟩ | ⟨-, -, -, hd⟩
    · rw [hh]
      exact hk.drawn _ (h.device r hr)
    · exact hd
  hashes := by
    intro r₁' hr₁' r₂' hr₂' hh
    apply eq_of_key hr₁' hr₂'
    rcases hk.devices r₁' hr₁' with ⟨r₁, hr₁, hid₁, hh₁⟩ | ⟨hid₁, -, hn₁, -⟩ <;>
      rcases hk.devices r₂' hr₂' with ⟨r₂, hr₂, hid₂, hh₂⟩ | ⟨hid₂, -, hn₂, -⟩
    · rw [hh₁, hh₂] at hh
      rw [hid₁, hid₂, h.hashes r₁ hr₁ r₂ hr₂ hh]
    · rw [← hh, hh₁] at hn₂
      exact absurd (h.device r₁ hr₁) hn₂
    · rw [hh, hh₂] at hn₁
      exact absurd (h.device r₂ hr₂) hn₁
    · rw [hid₁, hid₂]
  ciba := by
    intro r' hr'
    rcases hk.ciba r' hr' with ⟨r, hr, hid⟩ | ⟨-, hd⟩
    · rw [hid]
      exact hk.drawn _ (h.ciba r hr)
    · exact hd

theorem secretSpent.mono (hk : PollsKept s s') {x} (h : secretSpent s x) : secretSpent s' x := by
  cases x with
  | code c => exact h
  | device c =>
    refine ⟨hk.drawn _ h.1, ?_⟩
    intro r' hr' hc
    rcases hk.devices r' hr' with ⟨r, hr, -, hh⟩ | ⟨-, -, hn, -⟩
    · exact h.2 r hr (hh.symm.trans hc)
    · rw [hc] at hn
      exact hn h.1
  | ciba id =>
    refine ⟨hk.drawn _ h.1, ?_⟩
    intro r' hr' hid
    rcases hk.ciba r' hr' with ⟨r, hr, heq⟩ | ⟨hn, -⟩
    · exact h.2 r hr (heq.symm.trans hid)
    · rw [hid] at hn
      exact hn h.1

theorem PollOK.mono (hk : PollsKept s s') (h : PollOK d s q φ) : PollOK d s' q φ := by
  cases φ with
  | device dc =>
    refine ⟨Nat.lt_of_lt_of_le h.1 hk.nextID, ?_⟩
    intro r' hr' hid
    rcases hk.devices r' hr' with ⟨r, hr, hid', hh⟩ | ⟨hid', -, -, -⟩
    · rw [hh]
      exact h.2 r hr (hid'.symm.trans hid)
    · have hlt := h.1
      omega
  | ciba cr => exact h
  | _ => exact trivial

namespace PollInv

theorem mono (h : PollInv d s th log) (hk : PollsKept s s') : PollInv d s' th log :=
  ⟨h.rows.mono hk, fun hi => (h.phases hi).mono hk, h.once.mono fun _ hs => hs.mono hk⟩

theorem goOn (h : PollInv d s th log) (hok : PollOK d s q φ) (hown : spentSecret d (q, φ) = none) :
    PollInv d s (update th i (some (q, φ))) log := by
  refine ⟨h.rows, ?_, h.once.keep (.inl hown)⟩
  intro j q' ψ hj
  rcases Once.update_cases hj with ⟨-, heq⟩ | ⟨-, hj⟩
  · cases heq
    exact hok
  · exact h.phases hj

theorem spend (h : PollInv d s th log) (hk : PollsKept s s') (hn : ¬ secretSpent s (q.secret d))
    (hs : secretSpent s' (q.secret d)) : PollInv d s' (update th i (some (q, .spent))) log := by
  refine ⟨h.rows.mono hk, ?_, h.once.take rfl hn (fun _ hx => hx.mono hk) hs⟩
  intro j q' ψ hj
  rcases Once.update_cases hj with ⟨-, heq⟩ | ⟨-, hj⟩
  · cases heq
    exact trivial
  · exact (h.phases hj).mono hk

end PollInv

theorem secretSpent_deleteDevice (h : RowsDrawn s) {id r} (hr : r ∈ s.devices.list) (hid : r.id = id) :
    ¬ secretSpent s (.device r.deviceCodeHash) ∧ secretSpent (s.deleteDevice id) (.device r.deviceCodeHash) := by
  refine ⟨fun hs => hs.2 r hr rfl, h.device r hr, ?_⟩
  intro r' hr' hh
  obtain ⟨hmem, hne⟩ := mem_delete.mp hr'
  rw [h.hashes r' hmem r hr hh, hid, beq_self_eq_true] at hne
  cases hne

theorem secretSpent_deleteCIBA (h : RowsDrawn s) {id r} (hr : r ∈ s.ciba.list) (hid : r.authReqID = id) :
    ¬ secretSpent s (.ciba id) ∧ secretSpent (s.deleteCIBA id) (.ciba id) := by
  refine ⟨fun hs => hs.2 r hr hid, ?_, ?_⟩
  · rw [← hid]
    exact h.ciba r hr
  · intro r' hr' hh
    obtain ⟨-, hne⟩ := mem_delete.mp hr'
    rw [hh, beq_self_eq_true] at hne
    cases hne

theorem pollInv_step (h : PollInv d s th log) (hi : th i = some (q, φ)) {op f} (hstep : PollStep d q φ op f) (env)
    (hcond : pollCond s env q op = true) :
    PollInv d (sem d env op s).2 (update th i (some (q, f (sem d env op s).1))) log := by
  have hk := sem_pollsKept d s env op
  have hok := h.phases hi
  cases hstep with
  | aside _ =>
    rw [← hi, update_eq_self]
    exact h.mono hk
  | @device x deviceCode =>
    simp only [sem, readOrFail] at hk ⊢
    split
    · rename_i dc hdc
      split at hdc
      · cases hdc
      obtain ⟨hmem, hh⟩ := find_some hdc
      refine h.goOn ⟨h.rows.ids dc hmem, ?_⟩ rfl
      intro r hr hid
      rw [eq_of_key hr hmem hid]
      exact congrArg Secret.device (beq_iff_eq.mp hh)
    · exact h.goOn trivial rfl
  | @ciba x proof authReqID =>
    simp only [sem, readOrFail] at hk ⊢
    split
    · rename_i cr hcr
      split at hcr
      · cases hcr
      · obtain ⟨-, hid⟩ := find_some hcr
        exact h.goOn (congrArg Secret.ciba (beq_iff_eq.mp hid)) rfl
    · exact h.goOn trivial rfl
  | @spendDevice q dc =>
    simp only [pollCond, Bool.and_eq_true, Bool.not_eq_true', any_eq_true, beq_iff_eq] at hcond
    obtain ⟨hworks, r, hr, hid⟩ := hcond
    have hsem : sem d env (.deleteDevice dc.id) s = (true, s.deleteDevice dc.id) := by
      simp [sem, unlessFails, hworks]
    rw [hsem] at hk ⊢
    obtain ⟨hn, hs⟩ := secretSpent_deleteDevice h.rows hr hid
    rw [hok.2 r hr hid] at hn hs
    exact h.spend hk hn hs
  | @spendCIBA q cr =>
    simp only [pollCond, Bool.and_eq_true, Bool.not_eq_true', any_eq_true, beq_iff_eq] at hcond
    obtain ⟨hworks, r, hr, hid⟩ := hcond
    have hsem : sem d env (.deleteCIBA cr.authReqID true) s = (true, s.deleteCIBA cr.authReqID) := by
      simp [sem, unlessFails, hworks]
    rw [hsem] at hk ⊢
    obtain ⟨hn, hs⟩ := secretSpent_deleteCIBA h.rows hr hid
    rw [show Secret.ciba cr.authReqID = q.secret d from hok] at hn hs
    exact h.spend hk hn hs

end

theorem pollInv_kept (evs) :
    Kept (pollSystem d) (pollProtocol d) (fun _ => .idle) (fun _ => PollDone) (pollCond · · · ·) evs (PollInv d) where
  start := fun _ h _ => h.goOn trivial rfl
  step := fun env h hi hstep hcond => pollInv_step h hi hstep env hcond
  finish := by
    intro s th log i q φ r h hi hdone
    refine ⟨h.rows, fun hj => h.phases (Once.update_none hj).2, h.once.finish hi ?_⟩
    intro k hk
    cases r with
    | error e => cases hk
    | ok ts =>
      have hφ : φ = .spent := hdone
      rw [hφ]
      exact hk
  other := fun e _ h => h.mono (pollEvent_kept d e _)

theorem poll_yields_once (d : OIDCHandler) (s : TokenStore) (ms : List (PoolMove PollRequest Env PollEvent)) (t : PollPool)
    (hrun : Trace (pollSystem d).step (Meets (pollCond · · · ·)) (Pool.init { s with devices := .empty, ciba := .empty }) ms t) :
    (t.log.filterMap (yielded d)).Nodup := by
  have hstart : PollInv d { s with devices := .empty, ciba := .empty } (fun _ => none) [] := by
    refine ⟨⟨?_, ?_, ?_, ?_⟩, ?_, Once.nil⟩
    · nofun
    · nofun
    · nofun
    · nofun
    · nofun
  obtain ⟨th, -, hinv⟩ := System.inv (poll_follows d) (pollInv_kept d _) hrun hstart
  exact hinv.once.nodup

/-! ## Runs of two polls -/

def plainCaller : Caller := { orgSlug := "acme", clientID := "app" }

def allowed : List (PoolMove PollRequest Env PollEvent) :=
  [.other (.statement {} (.insertDevice 1 "app" "dev" "USER" "openid" 600)),
    .other (.statement {} (.authorizeDevice 0 plainUser.id)),
    .other (.statement {} (.insertCIBA
      { authReqID := "req"
        orgID := 1
        clientID := "app"
        userID := some plainUser.id
        scope := "openid"
        expiresAt := 600 })),
    .other (.statement {} (.approveCIBA "req"))]

def polls (i n : Nat) (plain : String) : List (PoolMove PollRequest Env PollEvent) :=
  List.replicate n (.advance i { plain := plain })

def devicePoll : PollRequest := .device plainCaller "dev"

def backchannelPoll : PollRequest := .ciba plainCaller {} "req"

def pollRun (ms : List (PoolMove PollRequest Env PollEvent)) : PollPool :=
  run (pollSystem plainHandler).step (Pool.init { plainStore with devices := .empty, ciba := .empty }) ms

def pollsInTurn : List (PoolMove PollRequest Env PollEvent) :=
  allowed ++ .start 0 devicePoll :: polls 0 20 "a" ++ .start 1 backchannelPoll :: polls 1 22 "b" ++
    .other (.tick 6) :: .start 2 devicePoll :: polls 2 20 "c" ++ .start 3 backchannelPoll :: polls 3 22 "d"

theorem poll_yields_once_in_turn :
    (pollRun pollsInTurn).log.length = 4 ∧
    (pollRun pollsInTurn).log.filterMap (yielded plainHandler) = [.ciba "req", .device "dev"] ∧
    ((pollRun pollsInTurn).log.filterMap (yielded plainHandler)).Nodup := by
  refine ⟨by decide +kernel, by decide +kernel, ?_⟩
  have hrun : Trace (pollSystem plainHandler).step (Meets (pollCond · · · ·))
      (Pool.init { plainStore with devices := .empty, ciba := .empty }) pollsInTurn (pollRun pollsInTurn) :=
    Trace.of_checkRun (by decide +kernel)
  exact poll_yields_once plainHandler plainStore pollsInTurn (pollRun pollsInTurn) hrun

/-- Two polls of the device code overlap for longer than the interval; the deletion of the
backchannel request fails. -/
def pollsAtOnce : List (PoolMove PollRequest Env PollEvent) :=
  allowed ++ .start 0 devicePoll :: polls 0 5 "a" ++ .other (.tick 6) :: .start 1 devicePoll :: polls 1 20 "b" ++
    polls 0 15 "a" ++ .start 2 backchannelPoll :: polls 2 19 "c" ++ .advance 2 { fails := true } :: polls 2 1 "c" ++
    .other (.tick 6) :: .start 3 backchannelPoll :: polls 3 22 "d"

theorem polls_yield_twice :
    (pollRun pollsAtOnce).log.filterMap (yielded plainHandler) =
      [.ciba "req", .ciba "req", .device "dev", .device "dev"] := by
  decide +kernel

end Clavex

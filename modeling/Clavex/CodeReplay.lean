import Clavex.CodeOnceSound

/-!
# Replayed codes

What a request for a code has made is told from its phase and from the store: the access
token it has minted, the family it has opened, the record it has left with the code. The
store only ever evolves in ways that keep this true of the requests that do not take the
step.
-/

namespace Clavex

open Prog List Option Function TokenStore

variable {q : CodeRequest} {watched : CodeRequest → Bool}

/-! ## The condition -/

instance (d : OIDCHandler) (q : CodeRequest) (ac : AuthCode) : Decidable (CodeBound d q ac) :=
  decidable_of_iff (ac.clientID = q.caller.clientID ∧ ac.redirectURI = q.redirectURI ∧
      verifyPKCE d ac.pkceChallenge q.codeVerifier = .ok () ∧
      (ac.dpopJKT = "" ∨ q.caller.dpop.map (·.jkt) = some ac.dpopJKT))
    ⟨fun h => ⟨h.1, h.2.1, h.2.2.1, h.2.2.2⟩, fun h => ⟨h.client, h.redirect, h.verifier, h.key⟩⟩

variable (s : TokenStore)

def clientOf (q : CodeRequest) : Option OIDCClient :=
  s.clients.find? (·.clientID == q.caller.clientID)

variable (d : OIDCHandler)

/-- The request gets as far as the exchange, and its code is recorded, of its client's
organisation, when it is looked up as a replay. Revocations work, and the token bears the
identifier and the expiry it was given. -/
def unhindered (s : TokenStore) (env : Env) (q : CodeRequest) : TokenOp → Bool
  | .clientByID _ => !env.fails && (clientOf s q).any fun cl => (checkSenderConstrained (some cl) q.caller).isOk
  | .orgBySlug slug => !d.orgSigners || (!env.fails && (s.orgs.find? (·.slug == slug)).isSome)
  | .resolveSigner _ | .consumeCode _ => !env.fails
  | .usedCodeByHash h => !env.fails && s.codes.list.all fun r =>
      !(r.codeHash == h && r.usedAt.isSome && decide (CodeBound d q r.toAuthCode)) ||
        presentsCode d q.caller (clientOf s q) q.redirectURI q.codeVerifier r
  | .issueAccessToken _ _ _ uc _ _ => ((extraOf uc).lookup "jti").isNone && ((extraOf uc).lookup "exp").isNone
  | .revokeToken _ _ | .revokeFamilyByID _ => !env.fails
  | _ => true

def outlasts : TokenOp → Bool
  | .revokeToken jti ttl => s.minted.all fun m => m.1 != jti || ttl ≤ 0 || m.2 ≤ s.now + ttl
  | _ => true

def replayCond (watched : CodeRequest → Bool) (s : TokenStore) (env : Env) (q : CodeRequest)
    (op : TokenOp) : Bool :=
  (!watched q || unhindered d s env q op) && outlasts s op

theorem replayCond_iff {d s env op} :
    replayCond d watched s env q op = true ↔
      (watched q = true → unhindered d s env q op = true) ∧ outlasts s op = true := by
  unfold replayCond
  cases watched q <;> simp

/-! ## What a step can do -/

def Covered (jti : String) (exp : Int) : Prop :=
  ∀ τ, s.now ≤ τ → τ < exp → (s.revoked jti).get τ ≠ none

structure Later (rec : String → Prop) (now : Int) (r r' : CodeRow) : Prop where
  code : r'.toAuthCode = r.toAuthCode
  hash : r'.codeHash = r.codeHash
  data : ¬ rec r.codeHash → r'.accessTokenJTI = r.accessTokenJTI ∧ r'.refreshFamilyID = r.refreshFamilyID
  used : r'.usedAt = r.usedAt ∨ (r.usedAt = none ∧ now < r.expiresAt ∧ r'.usedAt ≠ none)

structure NewCode (s : TokenStore) (r : CodeRow) : Prop where
  fresh : Secret.code r.codeHash ∉ s.drawn
  unused : r.usedAt = none
  unrecorded : r.accessTokenJTI = "" ∧ r.refreshFamilyID = none

structure Evolves (d : OIDCHandler) (rec : String → Prop) (ins : Nat → Prop) (s s' : TokenStore) : Prop where
  now : s.now ≤ s'.now
  nextID : s.nextID ≤ s'.nextID
  clients : s'.clients = s.clients
  minted : ∀ m ∈ s.minted, m ∈ s'.minted
  fresh : ∀ n < s.nextID, ∀ exp, (d.uuidString n, exp) ∈ s'.minted → (d.uuidString n, exp) ∈ s.minted
  drawn : ∀ x ∈ s.drawn, x ∈ s'.drawn
  fwd : ∀ r ∈ s.codes.list, ∃ r' ∈ s'.codes.list, Later rec s.now r r'
  bwd : ∀ r' ∈ s'.codes.list, (∃ r ∈ s.codes.list, Later rec s.now r r') ∨ NewCode s r'
  covered : ∀ jti exp, (jti, exp) ∈ s.minted → Covered s jti exp → Covered s' jti exp
  kept : ∀ x ∈ s.refresh.list, ∃ x' ∈ s'.refresh.list, x'.tokenHash = x.tokenHash ∧ x'.familyID = x.familyID
  live : ∀ x' ∈ s'.refresh.list, x'.revokedAt = none →
    ins x'.familyID ∨ ∃ x ∈ s.refresh.list, x.familyID = x'.familyID ∧ x.revokedAt = none

section
variable {d : OIDCHandler} {rec : String → Prop} {ins : Nat → Prop} {s s' : TokenStore}

theorem Later.refl {now} (r) : Later rec now r r := ⟨rfl, rfl, fun _ => ⟨rfl, rfl⟩, .inl rfl⟩

theorem Evolves.refl (d) (rec) (ins) (s) : Evolves d rec ins s s where
  now := Int.le_refl _
  nextID := Nat.le_refl _
  clients := rfl
  minted := fun _ h => h
  fresh := fun _ _ _ h => h
  drawn := fun _ h => h
  fwd := fun r hr => ⟨r, hr, .refl r⟩
  bwd := fun r hr => .inl ⟨r, hr, .refl r⟩
  covered := fun _ _ _ h => h
  kept := fun x hx => ⟨x, hx, rfl, rfl⟩
  live := fun x hx h => .inr ⟨x, hx, rfl, h⟩

theorem evolves_nextID {n} (h : s.nextID ≤ n) : Evolves d rec ins s { s with nextID := n } :=
  { Evolves.refl d rec ins s with nextID := h }

theorem evolves_tick (n : Nat) : Evolves d rec ins s { s with now := s.now + n } :=
  { Evolves.refl d rec ins s with
    now := by
      show s.now ≤ s.now + n
      omega
    covered := by
      intro jti exp _ h τ hτ hlt
      have hle : s.now + n ≤ τ := hτ
      exact h τ (by omega) hlt }

theorem evolves_mint (exp) :
    Evolves d rec ins s { s with nextID := s.nextID + 1, minted := (d.uuidString s.nextID, exp) :: s.minted } :=
  { Evolves.refl d rec ins s with
    nextID := Nat.le_succ _
    minted := fun _ h => mem_cons_of_mem _ h
    fresh := by
      intro n hn exp' h
      rcases mem_cons.mp h with heq | h
      · rw [Prod.mk.injEq] at heq
        have := d.uuidString_inj _ _ heq.1
        omega
      · exact h }

theorem evolves_consumeCode (c) : Evolves d rec ins s (s.consumeCode c).2 := by
  have later : ∀ a ∈ s.codes.list, s.consumable c a = true → Later rec s.now a { a with usedAt := some s.now } := by
    intro a _ hp
    obtain ⟨-, hu, he⟩ := consumable_iff.mp hp
    exact ⟨rfl, rfl, fun _ => ⟨rfl, rfl⟩, .inr ⟨hu, he, some_ne_none _⟩⟩
  exact { Evolves.refl d rec ins s with
    drawn := fun _ h => mem_cons_of_mem _ h
    fwd := Rows.modify_to .refl later fun _ => rfl
    bwd := fun r' hr' => .inl (Rows.modify_from .refl later (fun _ => rfl) r' hr') }

theorem evolves_insertCode (ac c) : Evolves d rec ins s (s.insertCode ac c) := by
  rcases insertCode_cases s ac c with heq | ⟨codes, hdrawn, hlist, heq⟩ <;> rw [heq]
  · exact .refl d rec ins s
  exact { Evolves.refl d rec ins s with
    drawn := fun _ h => mem_cons_of_mem _ h
    fwd := by
      intro r hr
      refine ⟨r, ?_, .refl r⟩
      rw [hlist]
      exact mem_cons_of_mem _ hr
    bwd := by
      intro r' hr'
      have hr' : r' ∈ codes.list := hr'
      rw [hlist] at hr'
      rcases mem_cons.mp hr' with rfl | hr'
      · exact .inr ⟨hdrawn, rfl, rfl, rfl⟩
      · exact .inl ⟨r', hr', .refl r'⟩ }

theorem evolves_setRevocationData (c jti fam) : Evolves d (· = c) ins s (s.setRevocationData c jti fam) := by
  have later : ∀ a ∈ s.codes.list, (a.codeHash == c) = true →
      Later (· = c) s.now a { a with accessTokenJTI := jti, refreshFamilyID := some fam } :=
    fun a _ hh => ⟨rfl, rfl, fun hn => absurd (beq_iff_eq.mp hh) hn, .inl rfl⟩
  exact { Evolves.refl d (· = c) ins s with
    fwd := Rows.modify_to .refl later fun _ => rfl
    bwd := fun r' hr' => .inl (Rows.modify_from .refl later (fun _ => rfl) r' hr') }

theorem evolves_insertRefresh {p c} (h : s.insertRefresh p c = some s') : Evolves d rec (· = p.familyID) s s' := by
  obtain ⟨hs', hlist⟩ := insertRefresh_some h
  rw [hs']
  exact { Evolves.refl d rec (· = p.familyID) s with
    kept := by
      intro x hx
      refine ⟨x, ?_, rfl, rfl⟩
      rw [hlist]
      exact mem_cons_of_mem _ hx
    live := by
      intro x' hx' hr
      have hx' : x' ∈ s'.refresh.list := hx'
      rw [hlist] at hx'
      rcases mem_cons.mp hx' with rfl | hx'
      · exact .inl rfl
      · exact .inr ⟨x', hx', rfl, hr⟩ }

theorem evolves_revokeFamilyByID (fam) : Evolves d rec ins s (s.revokeFamilyByID fam) :=
  { Evolves.refl d rec ins s with
    kept := by
      intro x hx
      refine ⟨_, mem_revokeFamilyByID.mpr ⟨x, hx, rfl⟩, ?_⟩
      split <;> exact ⟨rfl, rfl⟩
    live := by
      intro x' hx' hr
      obtain ⟨x, hx, rfl⟩ := mem_revokeFamilyByID.mp hx'
      split at hr
      · cases hr
      · rename_i hne
        refine .inr ⟨x, hx, ?_, hr⟩
        rw [if_neg hne] }

theorem covered_revokeToken {jti ttl exp} (h : ttl ≤ 0 ∨ exp ≤ s.now + ttl) :
    Covered { s with revoked := update s.revoked jti (.set () (if 0 < ttl then some (s.now + ttl) else none)) }
      jti exp := by
  intro τ hτ hlt
  simp only [update_self]
  by_cases hpos : 0 < ttl
  · have hle : exp ≤ s.now + ttl := h.resolve_left (by omega)
    rw [if_pos hpos, Cell.get_set_some () (by omega)]
    exact some_ne_none _
  · rw [if_neg hpos, Cell.get_set]
    simp [Cell.liveAt]

theorem evolves_revokeToken {jti ttl}
    (h : ∀ exp, (jti, exp) ∈ s.minted → ttl ≤ 0 ∨ exp ≤ s.now + ttl) :
    Evolves d rec ins s
      { s with revoked := update s.revoked jti (.set () (if 0 < ttl then some (s.now + ttl) else none)) } :=
  { Evolves.refl d rec ins s with
    covered := by
      intro jti' exp hm hc
      by_cases hj : jti' = jti
      · subst hj
        exact covered_revokeToken (h exp hm)
      · intro τ hτ hlt
        simp only [update_of_ne hj]
        exact hc τ hτ hlt }

end

/-! ## What the requests have made -/

def Drawn (s : TokenStore) (jti : String) : Prop := ∃ n < s.nextID, jti = d.uuidString n

structure TokenOf (d : OIDCHandler) (watched : Bool) (s : TokenStore) (tok : Signed) (jti : String) : Prop where
  drawn : Drawn d s jti
  claims : watched = true → ∃ exp, tok.claims.lookup "jti" = some (.str jti) ∧ tok.claims.lookup "exp" = some (.num exp 0) ∧
    (jti, exp) ∈ s.minted

structure Gone (s : TokenStore) (h : String) : Prop where
  drawn : Secret.code h ∈ s.drawn
  rows : ∀ r ∈ s.codes.list, r.codeHash = h → r.usedAt ≠ none ∨ r.expiresAt ≤ s.now

def Unrecorded (h : String) : Prop := ∀ r ∈ s.codes.list, r.codeHash = h → r.accessTokenJTI = ""

structure FreshFamily (s : TokenStore) (fam : Nat) : Prop where
  drawn : fam < s.nextID
  rows : ∀ r ∈ s.codes.list, r.refreshFamilyID ≠ some fam

def StoredIn (s : TokenStore) (plain : String) (fam : Nat) : Prop :=
  ∃ x ∈ s.refresh.list, x.tokenHash = d.hashString plain ∧ x.familyID = fam

def Recorded (h jti : String) (fam : Nat) : Prop :=
  ∃ r ∈ s.codes.list, r.codeHash = h ∧ r.accessTokenJTI = jti ∧ r.refreshFamilyID = some fam

def Presented (s : TokenStore) (q : CodeRequest) (ac : CodeRow) : Prop :=
  Drawn d s ac.accessTokenJTI ∧ ∃ r ∈ s.codes.list, r.codeHash = d.hashString q.code ∧
    r.accessTokenJTI = ac.accessTokenJTI ∧ r.refreshFamilyID = ac.refreshFamilyID

def TokenCovered (jti : String) : Prop := ∀ exp, (jti, exp) ∈ s.minted → Covered s jti exp

def FamilyRevoked (fam : Nat) : Prop := ∀ x ∈ s.refresh.list, x.familyID = fam → x.revokedAt ≠ none

structure RowRevoked (d : OIDCHandler) (s : TokenStore) (r : CodeRow) : Prop where
  drawn : Drawn d s r.accessTokenJTI
  token : TokenCovered s r.accessTokenJTI
  family : ∀ fam, r.refreshFamilyID = some fam → FamilyRevoked s fam

section
variable {d : OIDCHandler} {rec : String → Prop} {ins : Nat → Prop} {s s' : TokenStore}

variable {jti h : String} {r' : CodeRow} {fam : Nat}

theorem Drawn.ne (h : Drawn d s jti) : jti ≠ "" := by
  obtain ⟨n, -, rfl⟩ := h
  exact d.uuidString_ne n

variable (E : Evolves d rec ins s s')
include E

theorem Drawn.mono (h : Drawn d s jti) : Drawn d s' jti := by
  obtain ⟨n, hn, rfl⟩ := h
  exact ⟨n, Nat.lt_of_lt_of_le hn E.nextID, rfl⟩

theorem TokenOf.mono {watched tok} (h : TokenOf d watched s tok jti) : TokenOf d watched s' tok jti := by
  refine ⟨h.drawn.mono E, ?_⟩
  intro hw
  obtain ⟨exp, hj, he, hm⟩ := h.claims hw
  exact ⟨exp, hj, he, E.minted _ hm⟩

theorem Gone.mono (hg : Gone s h) : Gone s' h := by
  refine ⟨E.drawn _ hg.drawn, ?_⟩
  intro r' hr' hh
  rcases E.bwd r' hr' with ⟨r, hr, hl⟩ | hnew
  · have hh' : r.codeHash = h := by rw [← hl.hash, hh]
    rcases hg.rows r hr hh' with hu | he
    · rcases hl.used with heq | ⟨hnone, -⟩
      · rw [heq]
        exact .inl hu
      · exact absurd hnone hu
    · right
      rw [hl.code]
      exact Int.le_trans he E.now
  · rw [← hh] at hg
    exact absurd hg.drawn hnew.fresh

theorem Gone.back (hg : Gone s h) (hr' : r' ∈ s'.codes.list) (hh : r'.codeHash = h)
    (hu : r'.usedAt ≠ none) : ∃ r ∈ s.codes.list, Later rec s.now r r' ∧ r.codeHash = h ∧ r.usedAt ≠ none := by
  rcases E.bwd r' hr' with ⟨r, hr, hl⟩ | hnew
  · have hh' : r.codeHash = h := by rw [← hl.hash, hh]
    refine ⟨r, hr, hl, hh', ?_⟩
    rcases hl.used with heq | ⟨hnone, hlt, -⟩
    · rw [← heq]
      exact hu
    · rcases hg.rows r hr hh' with hu' | he
      · exact hu'
      · omega
  · exact absurd hnew.unused hu

theorem Unrecorded.mono (hn : ¬ rec h) (hu : Unrecorded s h) : Unrecorded s' h := by
  intro r' hr' hh
  rcases E.bwd r' hr' with ⟨r, hr, hl⟩ | hnew
  · have hh' : r.codeHash = h := by rw [← hl.hash, hh]
    rw [← hh'] at hn
    rw [(hl.data hn).1]
    exact hu r hr hh'
  · exact hnew.unrecorded.1

theorem FreshFamily.mono (hf : FreshFamily s fam)
    (hn : ∀ r' ∈ s'.codes.list, rec r'.codeHash → r'.refreshFamilyID ≠ some fam) : FreshFamily s' fam := by
  refine ⟨Nat.lt_of_lt_of_le hf.drawn E.nextID, ?_⟩
  intro r' hr'
  by_cases hrec : rec r'.codeHash
  · exact hn r' hr' hrec
  · rcases E.bwd r' hr' with ⟨r, hr, hl⟩ | hnew
    · rw [hl.hash] at hrec
      rw [(hl.data hrec).2]
      exact hf.rows r hr
    · rw [hnew.unrecorded.2]
      exact some_ne_none _ |>.symm

theorem StoredIn.mono {plain} (h : StoredIn d s plain fam) : StoredIn d s' plain fam := by
  obtain ⟨x, hx, hh, hf⟩ := h
  obtain ⟨x', hx', hh', hf'⟩ := E.kept x hx
  exact ⟨x', hx', hh'.trans hh, hf'.trans hf⟩

theorem Recorded.mono (hn : ¬ rec h) (hr : Recorded s h jti fam) : Recorded s' h jti fam := by
  obtain ⟨r, hr, hh, hj, hf⟩ := hr
  obtain ⟨r', hr', hl⟩ := E.fwd r hr
  rw [← hh] at hn
  obtain ⟨hj', hf'⟩ := hl.data hn
  exact ⟨r', hr', hl.hash.trans hh, hj'.trans hj, hf'.trans hf⟩

theorem TokenCovered.mono (hd : Drawn d s jti) (h : TokenCovered s jti) : TokenCovered s' jti := by
  obtain ⟨n, hn, rfl⟩ := hd
  intro exp hm
  have hm' := E.fresh n hn exp hm
  exact E.covered _ _ hm' (h exp hm')

theorem FamilyRevoked.mono (hn : ¬ ins fam) (h : FamilyRevoked s fam) : FamilyRevoked s' fam := by
  intro x' hx' hf hnone
  rcases E.live x' hx' hnone with hi | ⟨x, hx, hfx, hr⟩
  · rw [hf] at hi
    exact hn hi
  · exact h x hx (hfx.trans hf) hr

theorem clientOf_eq (q) : clientOf s' q = clientOf s q := by
  unfold clientOf
  rw [E.clients]

variable (hrec : ∀ h, rec h → Unrecorded s h) (hins : ∀ fam, ins fam → FreshFamily s fam)
include hrec

theorem Presented.mono {ac} (h : Presented d s q ac) : Presented d s' q ac := by
  obtain ⟨hd, r, hr, hh, hj, hf⟩ := h
  have hn : ¬ rec r.codeHash := by
    intro hc
    rw [hrec _ hc r hr rfl] at hj
    exact hd.ne hj.symm
  obtain ⟨r', hr', hl⟩ := E.fwd r hr
  obtain ⟨hj', hf'⟩ := hl.data hn
  exact ⟨hd.mono E, r', hr', hl.hash.trans hh, hj'.trans hj, hf'.trans hf⟩

include hins

theorem RowRevoked.mono {r} (hr : r ∈ s.codes.list) (hl : Later rec s.now r r') (h : RowRevoked d s r) :
    RowRevoked d s' r' := by
  have hn : ¬ rec r.codeHash := by
    intro hc
    exact h.drawn.ne (hrec _ hc r hr rfl)
  obtain ⟨hj, hf⟩ := hl.data hn
  refine ⟨?_, ?_, ?_⟩
  · rw [hj]
    exact h.drawn.mono E
  · rw [hj]
    exact h.token.mono E h.drawn
  · intro fam hfam
    rw [hf] at hfam
    refine (h.family fam hfam).mono E ?_
    intro hi
    exact (hins fam hi).rows r hr hfam

end

/-! ## Phases -/

def CodePhase.family : CodePhase → Option Nat
  | named _ _ _ fam | stored _ _ _ fam _ => some fam
  | _ => none

def CodePhase.past : CodePhase → Bool
  | entered | client _ | turnedAway => false
  | _ => true

section
variable (d : OIDCHandler) (watched : CodeRequest → Bool)

def PhaseOK (s : TokenStore) (q : CodeRequest) : CodePhase → Prop
  | .entered => True
  | .client cl => watched q = true → cl = clientOf s q
  | .turnedAway => watched q = false
  | .spent ac => Unrecorded s ac.codeHash
  | .minted ac tok jti => Unrecorded s ac.codeHash ∧ TokenOf d (watched q) s tok jti
  | .named ac tok jti fam => Unrecorded s ac.codeHash ∧ TokenOf d (watched q) s tok jti ∧ FreshFamily s fam
  | .stored ac tok jti fam plain =>
    Unrecorded s ac.codeHash ∧ TokenOf d (watched q) s tok jti ∧ FreshFamily s fam ∧ StoredIn d s plain fam
  | .recorded ac tok jti fam plain =>
    TokenOf d (watched q) s tok jti ∧ StoredIn d s plain fam ∧ Recorded s ac.codeHash jti fam
  | .refused cl => watched q = true → cl = clientOf s q
  | .unmatched => watched q = true → ∀ r ∈ s.codes.list, r.codeHash = d.hashString q.code → r.usedAt ≠ none →
      ¬ CodeBound d q r.toAuthCode
  | .found ac => Presented d s q ac
  | .tokenRevoked ac => Presented d s q ac ∧ TokenCovered s ac.accessTokenJTI
  | .familyRevoked ac => Presented d s q ac ∧ TokenCovered s ac.accessTokenJTI ∧
      ∀ fam, ac.refreshFamilyID = some fam → FamilyRevoked s fam

def Tried (s : TokenStore) (q : CodeRequest) (φ : CodePhase) : Prop :=
  watched q = true → φ.past = true → Gone s (d.hashString q.code)

end

section
variable {d : OIDCHandler} {rec : String → Prop} {ins : Nat → Prop} {s s' : TokenStore}
  {φ : CodePhase}

theorem Tried.mono (E : Evolves d rec ins s s') (h : Tried d watched s q φ) : Tried d watched s' q φ :=
  fun hw hp => (h hw hp).mono E

theorem PhaseOK.mono (E : Evolves d rec ins s s') (hrec : ∀ h, rec h → Unrecorded s h)
    (hins : ∀ fam, ins fam → FreshFamily s fam) (hown : ∀ ac, φ.code = some ac → ¬ rec ac.codeHash)
    (hfam : ∀ fam, φ.family = some fam → ∀ r' ∈ s'.codes.list, rec r'.codeHash → r'.refreshFamilyID ≠ some fam)
    (hgone : Tried d watched s q φ) (h : PhaseOK d watched s q φ) : PhaseOK d watched s' q φ := by
  cases φ with
  | entered => exact trivial
  | client cl | refused cl => exact fun hw => (h hw).trans (clientOf_eq E q).symm
  | turnedAway => exact h
  | spent ac => exact Unrecorded.mono E (hown ac rfl) h
  | minted ac tok jti => exact ⟨h.1.mono E (hown ac rfl), h.2.mono E⟩
  | named ac tok jti fam => exact ⟨h.1.mono E (hown ac rfl), h.2.1.mono E, h.2.2.mono E (hfam fam rfl)⟩
  | stored ac tok jti fam plain =>
    exact ⟨h.1.mono E (hown ac rfl), h.2.1.mono E, h.2.2.1.mono E (hfam fam rfl), h.2.2.2.mono E⟩
  | recorded ac tok jti fam plain => exact ⟨h.1.mono E, h.2.1.mono E, h.2.2.mono E (hown ac rfl)⟩
  | unmatched =>
    intro hw r' hr' hh hu hb
    obtain ⟨r, hr, hl, hh', hu'⟩ := (hgone hw rfl).back E hr' hh hu
    rw [hl.code] at hb
    exact h hw r hr hh' hu' hb
  | found ac => exact Presented.mono E hrec h
  | tokenRevoked ac => exact ⟨Presented.mono E hrec h.1, h.2.mono E h.1.1⟩
  | familyRevoked ac =>
    refine ⟨Presented.mono E hrec h.1, h.2.1.mono E h.1.1, ?_⟩
    intro fam hf
    refine (h.2.2 fam hf).mono E ?_
    intro hi
    obtain ⟨-, r, hr, -, -, hrf⟩ := h.1
    exact (hins fam hi).rows r hr (hrf.trans hf)

end

end Clavex

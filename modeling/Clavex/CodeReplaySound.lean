import Clavex.CodeReplay

/-!
# A replayed code takes its tokens back

The second presentation of a code revokes what the first one was given, by the data the
first one has recorded with the code. Between the consumption of the code and that
record there is nothing to revoke by. `code_replay_revokes` says that the tokens are
revoked in every run in which the record is there when it is looked up.
-/

namespace Clavex

open Prog List Option Bool Function Rows Once

/-! ## One step of a request -/

structure CodeData (d : OIDCHandler) (s : TokenStore) (r : CodeRow) : Prop where
  unused : r.usedAt = none → r.accessTokenJTI = ""
  jti : r.accessTokenJTI = "" ∨ Drawn d s r.accessTokenJTI
  family : ∀ fam, r.refreshFamilyID = some fam → fam < s.nextID

structure Advance (d : OIDCHandler) (watched : CodeRequest → Bool) (q : CodeRequest) (φ φ' : CodePhase)
    (rec : String → Prop) (ins : Nat → Prop) (s s' : TokenStore) : Prop where
  evolves : Evolves d rec ins s s'
  owner : ∀ h, rec h → Unrecorded s h ∧ ∃ ac, φ.code = some ac ∧ ac.codeHash = h
  named : ∀ r' ∈ s'.codes.list, rec r'.codeHash →
    Drawn d s r'.accessTokenJTI ∧ r'.refreshFamilyID = φ.family ∧ r'.usedAt ≠ none
  fresh : ∀ fam, ins fam → φ.family = some fam ∧ FreshFamily s fam
  ok : PhaseOK d watched s' q φ'
  gone : Tried d watched s' q φ'
  family : φ'.family = none ∨ φ'.family = φ.family ∨ (φ'.family = some s.nextID ∧ s.nextID < s'.nextID)

def Advances (d : OIDCHandler) (watched : CodeRequest → Bool) (q : CodeRequest) (φ φ' : CodePhase)
    (s s' : TokenStore) : Prop := ∃ rec ins, Advance d watched q φ φ' rec ins s s'

section
variable {d : OIDCHandler} {watched : CodeRequest → Bool} {q : CodeRequest} {φ φ' : CodePhase} {s s' : TokenStore}

theorem Advance.plain (E : Evolves d (fun _ => False) (fun _ => False) s s') (hok : PhaseOK d watched s' q φ')
    (hgone : Tried d watched s' q φ')
    (hfam : φ'.family = none ∨ φ'.family = φ.family ∨ (φ'.family = some s.nextID ∧ s.nextID < s'.nextID)) :
    Advances d watched q φ φ' s s' :=
  ⟨_, _, E, fun _ h => h.elim, fun _ _ h => h.elim, fun _ h => h.elim, hok, hgone, hfam⟩

theorem Advance.stay (E : Evolves d (fun _ => False) (fun _ => False) s s') (hφ : PhaseOK d watched s q φ)
    (hgone : Tried d watched s q φ) : Advances d watched q φ φ s s' :=
  Advance.plain E
    (hφ.mono E (fun _ h => h.elim) (fun _ h => h.elim) (fun _ _ h => h) (fun _ _ _ _ h => h.elim) hgone)
    (hgone.mono E) (.inr (.inl rfl))

theorem Advance.turnedAway (hw : watched q = true → False) : Advances d watched q φ .turnedAway s s :=
  Advance.plain (.refl d _ _ s) (eq_false_iff.mpr hw) nofun (.inl rfl)

theorem gone_consumeCode (c) : Gone (s.consumeCode c).2 c := by
  refine ⟨mem_cons_self .., ?_⟩
  intro r' hr' hh
  obtain ⟨a, ha, rfl⟩ := mem_consumeCode.mp hr'
  by_cases hp : s.consumable c a = true
  · left
    simp only [hp, ite_true]
    exact some_ne_none _
  · simp only [hp] at hh ⊢
    by_cases hu : a.usedAt = none
    · right
      by_contra hlt
      exact hp (consumable_iff.mpr ⟨hh, hu, Int.not_le.mp hlt⟩)
    · exact .inl hu

variable {ac : CodeRow} {cl : Option OIDCClient} {env : Env} {tok : Signed} {jti plain : String} {fam : Nat} {ttl : Int}

theorem unrecorded_consumeCode (hdata : ∀ r ∈ s.codes.list, CodeData d s r) {c}
    (h : (s.consumeCode c).1 = some ac) : Unrecorded (s.consumeCode c).2 ac.codeHash := by
  simp only [TokenStore.consumeCode, map_eq_some_iff] at h
  obtain ⟨r, hr, rfl⟩ := h
  obtain ⟨hmem, hp⟩ := find_some hr
  intro r' hr' hh
  obtain ⟨a, ha, rfl⟩ := mem_consumeCode.mp hr'
  have hkey : a.codeHash = r.codeHash := by
    rw [← hh]
    split <;> rfl
  have har : a = r := eq_of_key ha hmem hkey
  subst har
  have hempty := (hdata a ha).unused (consumable_iff.mp hp).2.1
  split
  · exact hempty
  · exact hempty

theorem advance_consume (hφ : PhaseOK d watched s q (.client cl))
    (hdata : ∀ r ∈ s.codes.list, CodeData d s r) (hworks : watched q = true → env.fails = false) :
    Advances d watched q (.client cl)
      (match (sem d env (.consumeCode (d.hashString q.code)) s).1 with
        | some ac => .spent ac
        | none => .refused cl) s (sem d env (.consumeCode (d.hashString q.code)) s).2 := by
  simp only [sem]
  cases hfails : env.fails with
  | true =>
    exact Advance.plain (.refl d _ _ s) hφ (fun hw => by simp [hworks hw] at hfails) (.inl rfl)
  | false =>
    simp only [false_eq_true, ite_false]
    cases hc : (s.consumeCode (d.hashString q.code)).1 with
    | none => exact Advance.plain (evolves_consumeCode _) (fun hw => hφ hw) (fun _ _ => gone_consumeCode _) (.inl rfl)
    | some ac =>
      exact Advance.plain (evolves_consumeCode _) (unrecorded_consumeCode hdata hc) (fun _ _ => gone_consumeCode _)
        (.inl rfl)

theorem outlasts_revokeToken (h : outlasts s (.revokeToken jti ttl) = true) :
    ∀ exp, (jti, exp) ∈ s.minted → ttl ≤ 0 ∨ exp ≤ s.now + ttl := by
  simp only [outlasts, List.all_eq_true] at h
  intro exp hm
  have hthis := h _ hm
  simp only [bne_self_eq_false, Bool.false_or, Bool.or_eq_true, decide_eq_true_eq] at hthis
  exact hthis

theorem advance_unlessFails (hworks : watched q = true → env.fails = false) {t}
    (hok : Advances d watched q φ φ' s t) :
    Advances d watched q φ (if (unlessFails env s t).1 = true then φ' else .turnedAway) s
      (unlessFails env s t).2 := by
  rcases unlessFails_cases s env t with ⟨h, hfails⟩ | ⟨h, -⟩ <;> rw [h]
  · exact Advance.turnedAway fun hw => nomatch (hworks hw).symm.trans hfails
  · exact hok

section
variable (hgone : watched q = true → Gone s (d.hashString q.code))
include hgone

theorem advance_mint (hφ : PhaseOK d watched s q (.spent ac)) {tc uc}
    (hextra : watched q = true → uc.extraClaims.lookup "jti" = none ∧ uc.extraClaims.lookup "exp" = none) :
    Advances d watched q (.spent ac)
      (match (sem d env (.issueAccessToken tc q.caller.clientID ac.scope (some uc) q.caller.dpop q.caller.mtls) s).1 with
        | some (tok, jti) => .minted ac tok jti
        | none => .spent ac) s
      (sem d env (.issueAccessToken tc q.caller.clientID ac.scope (some uc) q.caller.dpop q.caller.mtls) s).2 := by
  rcases sem_issueAccessToken d s env tc q.caller.clientID ac.scope (some uc) q.caller.dpop q.caller.mtls with
    ⟨hsem, -⟩ | ⟨tok, hsem, hmint, -⟩ <;> rw [hsem]
  · exact Advance.stay (evolves_nextID (Nat.le_succ _)) hφ fun hw _ => hgone hw
  · have E := @evolves_mint d (fun _ => False) (fun _ => False) s (s.now + tc.accessTokenTTL)
    refine Advance.plain E ⟨Unrecorded.mono E id hφ, ⟨s.nextID, Nat.lt_succ_self _, rfl⟩, ?_⟩ (fun hw _ => (hgone hw).mono E)
      (.inl rfl)
    intro hw
    refine ⟨s.now + tc.accessTokenTTL, ?_, ?_, mem_cons_self ..⟩
    · exact issueAccessToken_claim hmint (by decide) (hextra hw).1
    · exact issueAccessToken_claim hmint (by decide) (hextra hw).2

theorem advance_name (hφ : PhaseOK d watched s q (.minted ac tok jti)) (hdata : ∀ r ∈ s.codes.list, CodeData d s r) :
    Advances d watched q (.minted ac tok jti) (.named ac tok jti s.nextID) s
      { s with nextID := s.nextID + 1 } := by
  have E := @evolves_nextID d (fun _ => False) (fun _ => False) s _ (Nat.le_succ s.nextID)
  refine Advance.plain E ⟨hφ.1.mono E id, hφ.2.mono E, Nat.lt_succ_self _, ?_⟩ (fun hw _ => (hgone hw).mono E)
    (.inr (.inr ⟨rfl, Nat.lt_succ_self _⟩))
  intro r hr hf
  exact absurd ((hdata r hr).family _ hf) (Nat.lt_irrefl _)

theorem advance_store {p} (hp : p.familyID = fam) (hφ : PhaseOK d watched s q (.named ac tok jti fam)) :
    Advances d watched q (.named ac tok jti fam)
      (if (sem d env (.insertRefresh p (d.hashString plain)) s).1 = true then .stored ac tok jti fam plain
        else .named ac tok jti fam) s (sem d env (.insertRefresh p (d.hashString plain)) s).2 := by
  rcases sem_insertRefresh d s env p (d.hashString plain) with ⟨hsem, -⟩ | ⟨t, hsem, hins, -⟩ <;> rw [hsem]
  · exact Advance.stay (.refl d _ _ s) hφ fun hw _ => hgone hw
  · have E : Evolves d (fun _ => False) (· = p.familyID) s t := evolves_insertRefresh hins
    obtain ⟨hu, htok, hfresh⟩ := hφ
    refine ⟨_, _, E, fun _ h => h.elim, fun _ _ h => h.elim, ?_, ?_, fun hw _ => (hgone hw).mono E, .inr (.inl rfl)⟩
    · intro fam' hfam
      rw [hfam, hp]
      exact ⟨rfl, hfresh⟩
    · refine ⟨hu.mono E id, htok.mono E, hfresh.mono E (fun _ _ h => h.elim), ?_⟩
      refine ⟨{ p with id := s.refresh.freshKey, tokenHash := d.hashString plain }, ?_, rfl, hp⟩
      rw [(TokenStore.insertRefresh_some hins).2]
      exact mem_cons_self ..

theorem advance_record (hφ : PhaseOK d watched s q (.stored ac tok jti fam plain)) (hold : Holds s ac) :
    Advances d watched q (.stored ac tok jti fam plain)
      (if (sem d env (.setRevocationData ac.codeHash jti fam) s).1 = true then .recorded ac tok jti fam plain
        else .stored ac tok jti fam plain) s (sem d env (.setRevocationData ac.codeHash jti fam) s).2 := by
  rw [sem_setRevocationData]
  rcases unlessFails_cases s env (s.setRevocationData ac.codeHash jti fam) with ⟨h, -⟩ | ⟨h, -⟩ <;> rw [h]
  · exact Advance.stay (.refl d _ _ s) hφ fun hw _ => hgone hw
  · have E : Evolves d (· = ac.codeHash) (fun _ => False) s (s.setRevocationData ac.codeHash jti fam) :=
      evolves_setRevocationData ..
    obtain ⟨hu, htok, hfresh, hstored⟩ := hφ
    obtain ⟨hused, r, hr, hsame⟩ := hold
    -- the recorded row is the owner's
    have row : ∀ r' ∈ (s.setRevocationData ac.codeHash jti fam).codes.list, r'.codeHash = ac.codeHash →
        r'.accessTokenJTI = jti ∧ r'.refreshFamilyID = some fam ∧ r'.usedAt ≠ none := by
      intro r' hr' hh
      obtain ⟨a, ha, rfl⟩ := mem_setRevocationData.mp hr'
      have hkey : a.codeHash = ac.codeHash := by
        rw [← hh]
        split <;> rfl
      have har : a = r := eq_of_key ha hr (hkey.trans hsame.2.1.symm)
      rw [if_pos (beq_iff_eq.mpr hkey)]
      refine ⟨rfl, rfl, ?_⟩
      rw [har, hsame.2.2]
      exact hused
    refine ⟨_, _, E, ?_, ?_, fun _ h => h.elim, ?_, fun hw _ => (hgone hw).mono E, .inl rfl⟩
    · intro c hc
      rw [hc]
      exact ⟨hu, ac, rfl, rfl⟩
    · intro r' hr' hc
      obtain ⟨hj, hf, hn⟩ := row r' hr' hc
      rw [hj]
      exact ⟨htok.drawn, hf, hn⟩
    · refine ⟨htok.mono E, hstored.mono E, ?_⟩
      obtain ⟨r', hr', hl⟩ := E.fwd r hr
      have hh : r'.codeHash = ac.codeHash := hl.hash.trans hsame.2.1
      obtain ⟨hj, hf, -⟩ := row r' hr' hh
      exact ⟨r', hr', hh, hj, hf⟩

theorem advance_lookup (hφ : PhaseOK d watched s q (.refused cl)) (hdata : ∀ r ∈ s.codes.list, CodeData d s r)
    (hcond : watched q = true → unhindered d s env q (.usedCodeByHash (d.hashString q.code)) = true) :
    Advances d watched q (.refused cl)
      (lookupPhase d q cl (sem d env (.usedCodeByHash (d.hashString q.code)) s).1) s
      (sem d env (.usedCodeByHash (d.hashString q.code)) s).2 := by
  have E : Evolves d (fun _ => False) (fun _ => False) s s := .refl d _ _ s
  have hcond' : watched q = true → env.fails = false ∧ ∀ r ∈ s.codes.list, r.codeHash = d.hashString q.code →
      r.usedAt ≠ none → CodeBound d q r.toAuthCode →
      presentsCode d q.caller (clientOf s q) q.redirectURI q.codeVerifier r = true := by
    intro hw
    have hthis := hcond hw
    simp only [unhindered, and_eq_true, not_eq_true', List.all_eq_true] at hthis
    refine ⟨hthis.1, ?_⟩
    intro r hr hh hu hb
    have hr' := hthis.2 r hr
    simp only [hh, isSome_iff_ne_none.mpr hu, hb, decide_true, beq_self_eq_true, Bool.and_self, Bool.not_true,
      Bool.false_or] at hr'
    exact hr'
  simp only [sem]
  cases hfails : env.fails with
  | true => exact Advance.turnedAway fun hw => by simp [(hcond' hw).1] at hfails
  | false =>
    simp only [false_eq_true, ite_false, lookupPhase]
    cases hfind : (s.codes.find fun c => c.codeHash == d.hashString q.code && c.usedAt.isSome).filter
        (presentsCode d q.caller cl q.redirectURI q.codeVerifier) with
    | some ac =>
      rw [filter_eq_some_iff] at hfind
      obtain ⟨hmem, hp⟩ := find_some hfind.1
      simp only [and_eq_true, beq_iff_eq] at hp
      have hjti := (presentsCode_iff.mp hfind.2).1
      exact Advance.plain E ⟨(hdata ac hmem).jti.resolve_left hjti, ac, hmem, hp.1, rfl, rfl⟩ (fun hw _ => hgone hw)
        (.inl rfl)
    | none =>
      refine Advance.plain E ?_ (fun hw _ => hgone hw) (.inl rfl)
      intro hw r hr hh hu hb
      have hused : r.usedAt.isSome = true := isSome_iff_ne_none.mpr hu
      have hthis : (s.codes.find fun c => c.codeHash == d.hashString q.code && c.usedAt.isSome) = some r := by
        apply find_key hr
        · rw [hh, hused]
          simp
        · intro b hb'
          simp only [and_eq_true, beq_iff_eq] at hb'
          exact hb'.1.trans hh.symm
      have hpresents := (hcond' hw).2 r hr hh hu hb
      rw [← hφ hw] at hpresents
      rw [hthis, filter_some, if_pos hpresents] at hfind
      cases hfind

theorem advance_revokeToken (hφ : PhaseOK d watched s q (.found ac)) (hworks : watched q = true → env.fails = false)
    (hlong : ∀ exp, (ac.accessTokenJTI, exp) ∈ s.minted → ttl ≤ 0 ∨ exp ≤ s.now + ttl) :
    Advances d watched q (.found ac)
      (if (sem d env (.revokeToken ac.accessTokenJTI ttl) s).1 = true then .tokenRevoked ac else .turnedAway) s
      (sem d env (.revokeToken ac.accessTokenJTI ttl) s).2 := by
  have E := @evolves_revokeToken d (fun _ => False) (fun _ => False) s _ _ hlong
  apply advance_unlessFails hworks
  refine Advance.plain E ⟨Presented.mono E (fun _ h => h.elim) hφ, ?_⟩ (fun hw _ => (hgone hw).mono E) (.inl rfl)
  intro exp hm
  exact covered_revokeToken (hlong exp hm)

theorem advance_revokeFamily (hf : ac.refreshFamilyID = some fam)
    (hφ : PhaseOK d watched s q (.tokenRevoked ac))
    (hworks : watched q = true → env.fails = false) :
    Advances d watched q (.tokenRevoked ac)
      (if (sem d env (.revokeFamilyByID fam) s).1 = true then .familyRevoked ac else .turnedAway) s
      (sem d env (.revokeFamilyByID fam) s).2 := by
  have E := @evolves_revokeFamilyByID d (fun _ => False) (fun _ => False) s fam
  apply advance_unlessFails hworks
  refine Advance.plain E ⟨Presented.mono E (fun _ h => h.elim) hφ.1, hφ.2.mono E hφ.1.1, ?_⟩
    (fun hw _ => (hgone hw).mono E) (.inl rfl)
  intro fam' hfam' x hx hxf hnone
  rw [hf] at hfam'
  cases hfam'
  obtain ⟨a, ha, rfl⟩ := TokenStore.mem_revokeFamilyByID.mp hx
  split at hnone
  · cases hnone
  · rename_i hne
    rw [if_neg hne] at hxf
    simp [hxf, hnone] at hne

end

theorem advance_client (hcond : watched q = true → unhindered d s env q (.clientByID q.caller.clientID) = true) :
    Advances d watched q .entered
      (if (checkSenderConstrained (sem d env (.clientByID q.caller.clientID) s).1 q.caller).isOk then
        .client (sem d env (.clientByID q.caller.clientID) s).1 else .turnedAway) s s := by
  cases hw : watched q with
  | false =>
    split
    · exact Advance.plain (.refl d _ _ s) (fun h => by simp [hw] at h) (fun _ h => by cases h) (.inl rfl)
    · exact Advance.turnedAway fun h => by simp [hw] at h
  | true =>
    have hthis := hcond hw
    simp only [unhindered, and_eq_true, not_eq_true'] at hthis
    obtain ⟨hworks, hsender⟩ := hthis
    have hsem : (sem d env (.clientByID q.caller.clientID) s).1 = clientOf s q := by
      simp [sem, readOrFail, hworks, false_eq_true, clientOf]
    rw [hsem]
    cases hcl : clientOf s q with
    | none =>
      rw [hcl] at hsender
      cases hsender
    | some cl =>
      rw [hcl, any_some] at hsender
      simp only [hsender, ite_true]
      exact Advance.plain (.refl d _ _ s) (fun _ => hcl.symm) (fun _ h => by cases h) (.inl rfl)

theorem advance_check {b} (hb : watched q = true → b = true) (hφ : PhaseOK d watched s q φ)
    (hgone : Tried d watched s q φ) : Advances d watched q φ (if b then φ else .turnedAway) s s := by
  cases b with
  | true => exact Advance.stay (.refl d _ _ s) hφ hgone
  | false => exact Advance.turnedAway fun hw => nomatch hb hw

theorem CodeStep.advance {op f} (h : CodeStep d q φ op f) (hcond : replayCond d watched s env q op = true)
    (hφ : PhaseOK d watched s q φ) (hgone : Tried d watched s q φ) (hdata : ∀ r ∈ s.codes.list, CodeData d s r)
    (hold : ∀ ac, φ.code = some ac → Holds s ac) :
    Advances d watched q φ (f (sem d env op s).1) s (sem d env op s).2 := by
  obtain ⟨hcond, hlong⟩ := replayCond_iff.mp hcond
  have fails : unhindered d s env q op = !env.fails → watched q = true → env.fails = false := by
    intro hop hw
    rw [hcond hw] at hop
    exact (not_eq_true' _).mp hop.symm
  cases h with
  | quiet hq =>
    obtain ⟨n, hn, hs⟩ := sem_quiet d s env hq
    rw [hs]
    exact Advance.stay (evolves_nextID hn) hφ hgone
  | client => exact advance_client hcond
  | org =>
    have hthis : watched q = true →
        (!(d.orgSigners && isNone (sem d env (.orgBySlug q.caller.orgSlug) s).1)) = true := by
      intro hw
      have horg := hcond hw
      simp only [unhindered, or_eq_true, not_eq_true', and_eq_true] at horg
      rcases horg with hno | ⟨hworks, hsome⟩
      · rw [hno]
        rfl
      · obtain ⟨org, horg⟩ := isSome_iff_exists.mp hsome
        simp [sem, readOrFail, hworks, horg]
    have hadv := advance_check hthis hφ hgone
    simp only [not_eq_true', ← not_eq_true, ite_not] at hadv
    exact hadv
  | signer => exact advance_check (fun hw => by rw [sem, fails rfl hw]; rfl) hφ hgone
  | consume => exact advance_consume hφ hdata (fails rfl)
  | mint =>
    refine advance_mint (fun hw => hgone hw rfl) hφ ?_
    intro hw
    have hextra := hcond hw
    simp only [unhindered, and_eq_true, isNone_iff_eq_none] at hextra
    exact hextra
  | name => exact advance_name (fun hw => hgone hw rfl) hφ hdata
  | store plain hp _ => exact advance_store (fun hw => hgone hw rfl) hp hφ
  | record => exact advance_record (fun hw => hgone hw rfl) hφ (hold _ rfl)
  | lookup => exact advance_lookup (fun hw => hgone hw rfl) hφ hdata hcond
  | revokeToken => exact advance_revokeToken (fun hw => hgone hw rfl) hφ (fails rfl) (outlasts_revokeToken hlong)
  | revokeFamily hf => exact advance_revokeFamily (fun hw => hgone hw rfl) hf hφ (fails rfl)
  | @revokeOwnToken φ ac jti ttl hac =>
    rw [sem_revokeToken]
    rcases unlessFails_cases s env _ with ⟨h, -⟩ | ⟨h, -⟩ <;> rw [h]
    · exact Advance.stay (.refl d _ _ s) hφ hgone
    · exact Advance.stay (evolves_revokeToken (outlasts_revokeToken hlong)) hφ hgone
  | @revokeOwnFamily φ ac fam hac =>
    rw [sem_revokeFamilyByID]
    rcases unlessFails_cases s env _ with ⟨h, -⟩ | ⟨h, -⟩ <;> rw [h]
    · exact Advance.stay (.refl d _ _ s) hφ hgone
    · exact Advance.stay (evolves_revokeFamilyByID fam) hφ hgone

end

/-! ## The invariant -/

def NoWinner (d : OIDCHandler) (th : CodeThreads) (log : CodeLog) (h : String) : Prop :=
  (∀ i x, th i = some x → ownedCode x ≠ some h) ∧ ∀ l ∈ log, exchangedCode d l ≠ some h

structure Settled (d : OIDCHandler) (s : TokenStore) (th : CodeThreads) (log : CodeLog) (q : CodeRequest) : Prop where
  gone : Gone s (d.hashString q.code)
  ends : NoWinner d th log (d.hashString q.code) ∨ ∀ r ∈ s.codes.list, r.codeHash = d.hashString q.code →
    r.usedAt ≠ none → CodeBound d q r.toAuthCode → RowRevoked d s r

def Won (d : OIDCHandler) (s : TokenStore) (q : CodeRequest) (ts : TokenSet) : Prop :=
  ∃ jti fam, TokenOf d true s ts.accessToken jti ∧ StoredIn d s ts.refreshToken fam ∧
    Recorded s (d.hashString q.code) jti fam

structure ReplayInv (d : OIDCHandler) (watched : CodeRequest → Bool) (evs : CodeEvent → Prop) (s : TokenStore)
    (th : CodeThreads) (log : CodeLog) : Prop extends CodeInv d evs s th log where
  phases : ∀ {i q φ}, th i = some (q, φ) → PhaseOK d watched s q φ ∧ Tried d watched s q φ
  families : ∀ {i j q q' φ φ' fam}, th i = some (q, φ) → th j = some (q', φ') → φ.family = some fam →
    φ'.family = some fam → i = j
  data : ∀ r ∈ s.codes.list, CodeData d s r
  wins : ∀ {q ts}, watched q = true → (q, .ok ts) ∈ log → Won d s q ts
  losses : ∀ {q e}, watched q = true → (q, .error e) ∈ log → Settled d s th log q

section
variable {d : OIDCHandler} {watched : CodeRequest → Bool} {evs : CodeEvent → Prop} {rec : String → Prop}
  {ins : Nat → Prop} {s s' : TokenStore} {th th' : CodeThreads} {log : CodeLog}

variable {q : CodeRequest} {φ : CodePhase} {i : Nat} {h : String}

theorem PhaseOK.freshFamily {fam} (h : PhaseOK d watched s q φ)
    (hf : φ.family = some fam) : FreshFamily s fam := by
  cases φ with
  | named ac tok jti fam' => cases hf; exact h.2.2
  | stored ac tok jti fam' plain => cases hf; exact h.2.2.1
  | _ => cases hf

theorem Won.mono (E : Evolves d rec ins s s') {ts} (hn : ¬ rec (d.hashString q.code)) (h : Won d s q ts) :
    Won d s' q ts := by
  obtain ⟨jti, fam, ht, hs, hr⟩ := h
  exact ⟨jti, fam, ht.mono E, hs.mono E, hr.mono E hn⟩

theorem Settled.mono (E : Evolves d rec ins s s') (hrec : ∀ h, rec h → Unrecorded s h)
    (hins : ∀ fam, ins fam → FreshFamily s fam)
    (hn : NoWinner d th log (d.hashString q.code) → NoWinner d th' log (d.hashString q.code))
    (h : Settled d s th log q) : Settled d s' th' log q := by
  refine ⟨h.gone.mono E, ?_⟩
  rcases h.ends with hno | hrev
  · exact .inl (hn hno)
  · right
    intro r' hr' hh hu hb
    obtain ⟨r, hr, hl, hh', hu'⟩ := h.gone.back E hr' hh hu
    rw [hl.code] at hb
    exact (hrev r hr hh' hu' hb).mono E hrec hins hr hl

theorem codeData_mono (E : Evolves d rec ins s s') (hdata : ∀ r ∈ s.codes.list, CodeData d s r)
    (hnamed : ∀ r' ∈ s'.codes.list, rec r'.codeHash → Drawn d s r'.accessTokenJTI ∧
      (∀ fam, r'.refreshFamilyID = some fam → fam < s.nextID) ∧ r'.usedAt ≠ none) :
    ∀ r' ∈ s'.codes.list, CodeData d s' r' := by
  intro r' hr'
  by_cases hc : rec r'.codeHash
  · obtain ⟨hd, hf, hu⟩ := hnamed r' hr' hc
    exact ⟨fun h => absurd h hu, .inr (hd.mono E), fun fam h => Nat.lt_of_lt_of_le (hf fam h) E.nextID⟩
  · rcases E.bwd r' hr' with ⟨r, hr, hl⟩ | hnew
    · rw [hl.hash] at hc
      obtain ⟨hj, hf⟩ := hl.data hc
      refine ⟨?_, ?_, ?_⟩
      · intro hu
        rw [hj]
        apply (hdata r hr).unused
        rcases hl.used with heq | ⟨hnone, -, -⟩
        · rw [← heq, hu]
        · exact hnone
      · rw [hj]
        rcases (hdata r hr).jti with he | hd
        · exact .inl he
        · exact .inr (hd.mono E)
      · intro fam hfam
        rw [hf] at hfam
        exact Nat.lt_of_lt_of_le ((hdata r hr).family fam hfam) E.nextID
    · refine ⟨fun _ => hnew.unrecorded.1, .inl hnew.unrecorded.1, ?_⟩
      intro fam hfam
      rw [hnew.unrecorded.2] at hfam
      cases hfam

theorem ReplayInv.other (h : ReplayInv d watched evs s th log) (hbase : CodeInv d evs s' th log)
    (E : Evolves d (fun _ => False) (fun _ => False) s s') : ReplayInv d watched evs s' th log where
  toCodeInv := hbase
  phases := by
    intro i q φ hi
    obtain ⟨hok, hgone⟩ := h.phases hi
    exact ⟨hok.mono E (fun _ h => h.elim) (fun _ h => h.elim) (fun _ _ h => h) (fun _ _ _ _ h => h.elim) hgone,
      hgone.mono E⟩
  families := h.families
  data := codeData_mono E h.data fun _ _ h => h.elim
  wins := fun hw hl => (h.wins hw hl).mono E id
  losses := fun hw hl => (h.losses hw hl).mono E (fun _ h => h.elim) (fun _ h => h.elim) id

theorem evolves_codeEvent (e) : Evolves d (fun _ => False) (fun _ => False) s (codeEvent d e s) := by
  cases e with
  | tick n => exact evolves_tick n
  | settings orgs users => exact { Evolves.refl d (fun _ => False) (fun _ => False) s with }
  | walletConsume c => exact evolves_consumeCode c
  | authorize plain session claims userID =>
    simp only [codeEvent]
    split
    · exact evolves_insertCode ..
    · exact .refl d _ _ s

theorem NoWinner.step {op f env} (hstep : CodeStep d q φ op f) (hi : th i = some (q, φ)) (hg : Gone s h)
    (hn : NoWinner d th log h) : NoWinner d (update th i (some (q, f (sem d env op s).1))) log h := by
  refine ⟨?_, hn.2⟩
  intro j x hj hx
  rcases update_cases hj with ⟨-, heq⟩ | ⟨-, hj⟩
  · cases heq
    rcases hstep.effect env s with ⟨-, hcode⟩ | ⟨ac, -, hφ, ht⟩
    · apply hn.1 i _ hi
      simp only [ownedCode, hcode] at hx ⊢
      exact hx
    · obtain ⟨r, hr, -, hnone, hlt, hac⟩ := ht.row
      have hh : r.codeHash = h := by
        simp only [ownedCode, hφ, CodePhase.code, hac, map_some, some.injEq] at hx
        exact hx
      rcases hg.rows r hr hh with hu | he
      · exact hu hnone
      · omega
  · exact hn.1 j x hj hx

theorem NoWinner.finish {r} (hth : ∀ j x, j ≠ i → th j = some x → ownedCode x ≠ some h)
    (hlog : ∀ l ∈ log, exchangedCode d l ≠ some h) (hr : exchangedCode d (q, r) ≠ some h) :
    NoWinner d (update th i none) ((q, r) :: log) h := by
  refine ⟨?_, ?_⟩
  · intro j x hj
    rcases update_cases hj with ⟨-, heq⟩ | ⟨hne, hj⟩
    · cases heq
    · exact hth j x hne hj
  · intro l hl
    rcases mem_cons.mp hl with rfl | hl
    · exact hr
    · exact hlog l hl

namespace ReplayInv

variable {i : Nat} {q : CodeRequest} {φ φ' : CodePhase}

theorem advance (h : ReplayInv d watched evs s th log) (hi : th i = some (q, φ)) (A : Advance d watched q φ φ' rec ins s s')
    (hbase : CodeInv d evs s' (update th i (some (q, φ'))) log)
    (hno : ∀ {c}, Gone s c → NoWinner d th log c → NoWinner d (update th i (some (q, φ'))) log c) :
    ReplayInv d watched evs s' (update th i (some (q, φ'))) log where
  toCodeInv := hbase
  phases := by
    intro j q' ψ hj
    rcases update_cases hj with ⟨-, heq⟩ | ⟨hne, hj⟩
    · cases heq
      exact ⟨A.ok, A.gone⟩
    · obtain ⟨hok, hgone⟩ := h.phases hj
      refine ⟨hok.mono A.evolves (fun c hc => (A.owner c hc).1) (fun fam hf => (A.fresh fam hf).2) ?_ ?_ hgone,
        hgone.mono A.evolves⟩
      · intro ac hac hc
        obtain ⟨-, ac', hac', hh⟩ := A.owner _ hc
        apply hne
        apply h.once.sole (k := ac.codeHash) hj hi
        · simp [ownedCode, hac]
        · simp [ownedCode, hac', hh]
      · intro fam hfam r' hr' hc hf
        exact hne (h.families hj hi hfam ((A.named r' hr' hc).2.1.symm.trans hf))
  families := by
    -- a family that is new here is in no other phase
    have new : ∀ {j q' ψ fam}, j ≠ i → th j = some (q', ψ) → ψ.family = some fam → φ'.family = some fam → False := by
      intro j q' ψ fam hne hj hψ hφ
      rcases A.family with hnone | hsame | ⟨hnext, -⟩
      · rw [hnone] at hφ
        cases hφ
      · rw [hsame] at hφ
        exact hne (h.families hj hi hψ hφ)
      · rw [hnext] at hφ
        cases hφ
        exact Nat.lt_irrefl _ ((h.phases hj).1.freshFamily hψ).drawn
    intro j k q₁ q₂ φ₁ φ₂ fam hj hk h₁ h₂
    rcases update_cases hj with ⟨e, heq⟩ | ⟨hne, hj⟩ <;> rcases update_cases hk with ⟨e', heq'⟩ | ⟨hne', hk⟩
    · rw [e, e']
    · cases heq
      exact (new hne' hk h₂ h₁).elim
    · cases heq'
      exact (new hne hj h₁ h₂).elim
    · exact h.families hj hk h₁ h₂
  data := by
    apply codeData_mono A.evolves h.data
    intro r' hr' hc
    obtain ⟨hd, hf, hu⟩ := A.named r' hr' hc
    refine ⟨hd, ?_, hu⟩
    intro fam hfam
    exact ((h.phases hi).1.freshFamily (hf.symm.trans hfam)).drawn
  wins := by
    intro q' ts hw hl
    refine (h.wins hw hl).mono A.evolves ?_
    intro hc
    obtain ⟨-, ac, hac, hh⟩ := A.owner _ hc
    apply h.once.apart hl rfl hi
    simp [ownedCode, hac, hh]
  losses := by
    intro q' e hw hl
    exact (h.losses hw hl).mono A.evolves (fun c hc => (A.owner c hc).1) (fun fam hf => (A.fresh fam hf).2)
      (hno (h.losses hw hl).gone)

theorem settled (h : ReplayInv d watched evs s th log) (hi : th i = some (q, φ)) (hw : watched q = true) {e}
    (hend : φ.Ended) : Settled d s (update th i none) ((q, .error e) :: log) q := by
  obtain ⟨hok, hgone⟩ := h.phases hi
  -- the owner of the code leaves it to nobody
  have own : ∀ {ac}, φ.code = some ac → φ.past = true → Settled d s (update th i none) ((q, .error e) :: log) q := by
    intro ac hac hpast
    have hx : ownedCode (q, φ) = some (d.hashString q.code) := by
      simp [ownedCode, hac, (h.owners hi hac).1]
    refine ⟨hgone hw hpast, .inl (NoWinner.finish ?_ ?_ (by simp only [exchangedCode]; exact some_ne_none _ |>.symm))⟩
    · intro j x hne hj hown
      exact hne (h.once.sole hj hi hown hx)
    · intro l hl hw
      exact h.once.apart hl hw hi hx
  -- the row that was presented is the row of the code
  have row : ∀ {ac r}, Presented d s q ac → r ∈ s.codes.list → r.codeHash = d.hashString q.code →
      Drawn d s r.accessTokenJTI ∧ r.accessTokenJTI = ac.accessTokenJTI ∧ r.refreshFamilyID = ac.refreshFamilyID := by
    intro ac r hp hr hh
    obtain ⟨hd, r', hr', hh', hj, hf⟩ := hp
    have heq : r = r' := eq_of_key hr hr' (hh.trans hh'.symm)
    subst heq
    exact ⟨by rw [hj]; exact hd, hj, hf⟩
  cases φ with
  | turnedAway =>
    rw [show watched q = false from hok] at hw
    cases hw
  | unmatched =>
    refine ⟨hgone hw rfl, .inr ?_⟩
    intro r hr hh hu hb
    exact absurd hb (hok hw r hr hh hu)
  | tokenRevoked ac =>
    refine ⟨hgone hw rfl, .inr ?_⟩
    intro r hr hh _ _
    obtain ⟨hd, hj, hf⟩ := row hok.1 hr hh
    refine ⟨hd, by rw [hj]; exact hok.2, ?_⟩
    intro fam hfam
    rw [hf, show ac.refreshFamilyID = none from hend] at hfam
    cases hfam
  | familyRevoked ac =>
    refine ⟨hgone hw rfl, .inr ?_⟩
    intro r hr hh _ _
    obtain ⟨hd, hj, hf⟩ := row hok.1 hr hh
    refine ⟨hd, by rw [hj]; exact hok.2.1, ?_⟩
    intro fam hfam
    rw [hf] at hfam
    exact hok.2.2 fam hfam
  | entered | client cl | refused cl | found ac => cases hend
  | spent ac | minted ac | named ac | stored ac | recorded ac => exact own rfl rfl

end ReplayInv

end

theorem replayInv_kept (d watched) (evs : CodeEvent → Prop) :
    Kept (codeSystem d) (codeProtocol d) (fun _ => .entered) (CodeDone d) (replayCond d watched · · · ·) evs
      (ReplayInv d watched evs) where
  start := by
    intro s th log i q h hnone
    have old : ∀ {j q' ψ}, update th i (some (q, CodePhase.entered)) j = some (q', ψ) →
        ψ = .entered ∨ th j = some (q', ψ) := by
      intro j q' ψ hj
      rcases update_cases hj with ⟨-, heq⟩ | ⟨-, hj⟩
      · cases heq
        exact .inl rfl
      · exact .inr hj
    refine ⟨(codeInv_kept d evs).start q h.toCodeInv hnone, ?_, ?_, h.data, h.wins, ?_⟩
    · intro j q' ψ hj
      rcases old hj with rfl | hj
      · exact ⟨trivial, nofun⟩
      · exact h.phases hj
    · intro j k q₁ q₂ φ₁ φ₂ fam hj hk h₁ h₂
      rcases old hj with rfl | hj
      · cases h₁
      · rcases old hk with rfl | hk
        · cases h₂
        · exact h.families hj hk h₁ h₂
    · intro q' e hw hl
      obtain ⟨hgone, hends⟩ := h.losses hw hl
      refine ⟨hgone, hends.imp_left ?_⟩
      intro hn
      refine ⟨?_, hn.2⟩
      intro j x hj
      rcases old hj with hx | hj
      · simp only [ownedCode, hx]
        exact some_ne_none _ |>.symm
      · exact hn.1 j x hj
  step := by
    intro s th log i q φ op f env h hi hstep hcond
    obtain ⟨rec, ins, A⟩ := hstep.advance hcond (h.phases hi).1 (h.phases hi).2 h.data fun _ hac => (h.owners hi hac).2
    exact h.advance hi A ((codeInv_kept d evs).step env h.toCodeInv hi hstep trivial) (NoWinner.step hstep hi)
  finish := by
    intro s th log i q φ r h hi hdone
    refine ⟨(codeInv_kept d evs).finish h.toCodeInv hi hdone, fun hj => h.phases (update_none hj).2,
      fun hj hk => h.families (update_none hj).2 (update_none hk).2, h.data, ?_, ?_⟩
    · intro q' ts hw hl
      rcases mem_cons.mp hl with heq | hl
      · cases heq
        obtain ⟨ac, jti, fam, rfl, -⟩ := hdone
        obtain ⟨htok, hstored, hrec⟩ := (h.phases hi).1
        rw [(h.owners hi rfl).1] at hrec
        rw [hw] at htok
        exact ⟨jti, fam, htok, hstored, hrec⟩
      · exact h.wins hw hl
    · intro q' e hw hl
      rcases mem_cons.mp hl with heq | hl
      · cases heq
        exact h.settled hi hw hdone
      · obtain ⟨hgone, hends⟩ := h.losses hw hl
        refine ⟨hgone, hends.imp_left ?_⟩
        intro hn
        refine NoWinner.finish (fun j x _ hj => hn.1 j x hj) hn.2 ?_
        intro hwon
        cases r with
        | error e => cases hwon
        | ok ts =>
          obtain ⟨ac, jti, fam, rfl, -⟩ := hdone
          apply hn.1 i _ hi
          rw [← hwon]
          show some ac.codeHash = some (d.hashString q.code)
          rw [(h.owners hi rfl).1]
  other := by
    intro s th log e he h
    exact h.other ((codeInv_kept d evs).other e he h.toCodeInv) (evolves_codeEvent e)

/-- A watched request has exchanged the code and another one, which brings what the code was
issued for, has failed: a second success is excluded by `CodeInv.once`. -/
theorem code_replay_revokes (d : OIDCHandler) (watched : CodeRequest → Bool) (s : TokenStore)
    (ms : List (PoolMove CodeRequest Env CodeEvent)) (t : CodePool)
    (hrun : Trace (codeSystem d).step (Meets (replayCond d watched · · · ·)) (Pool.init { s with codes := .empty }) ms t)
    (q₁ q₂ : CodeRequest) (ts : TokenSet) (e : TokenErr) (hfirst : (q₁, .ok ts) ∈ t.log) (hsecond : (q₂, .error e) ∈ t.log)
    (hwatched : watched q₁ = true ∧ watched q₂ = true) (hcode : q₂.code = q₁.code)
    (hbound : ∀ r ∈ t.store.codes.list, r.codeHash = d.hashString q₂.code → CodeBound d q₂ r.toAuthCode) :
    (∃ jti exp, ts.accessToken.claims.lookup "jti" = some (.str jti) ∧
      ts.accessToken.claims.lookup "exp" = some (.num exp 0) ∧ Covered t.store jti exp) ∧
    ∃ x ∈ t.store.refresh.list, x.tokenHash = d.hashString ts.refreshToken ∧ FamilyRevoked t.store x.familyID := by
  have hstart : ReplayInv d watched (fun e => .other e ∈ ms) { s with codes := .empty } (fun _ => none) [] := by
    refine ⟨⟨nil, ?_, ?_, ?_⟩, ?_, ?_, ?_, ?_, ?_⟩ <;> nofun
  obtain ⟨th, -, hinv⟩ := System.inv (authorizationCodeGrant_follows d) (replayInv_kept d watched _) hrun hstart
  obtain ⟨jti, fam, htok, ⟨x, hx, hxh, hxf⟩, r, hr, hrh, hrj, hrf⟩ := hinv.wins hwatched.1 hfirst
  obtain ⟨exp, hjti, hexp, hmint⟩ := htok.claims rfl
  have hrevoked : RowRevoked d t.store r := by
    rcases (hinv.losses hwatched.2 hsecond).ends with hno | hrev
    · exact absurd (by rw [hcode]; rfl) (hno.2 _ hfirst)
    · rw [← hcode] at hrh
      refine hrev r hr hrh ?_ (hbound r hr hrh)
      intro hu
      exact htok.drawn.ne (hrj.symm.trans ((hinv.data r hr).unused hu))
  refine ⟨⟨jti, exp, hjti, hexp, ?_⟩, x, hx, hxh, ?_⟩
  · rw [← hrj] at hmint ⊢
    exact hrevoked.token exp hmint
  · rw [hxf]
    exact hrevoked.family fam hrf

def replayMoves (n : Nat) : List (PoolMove CodeRequest Env CodeEvent) :=
  issueCode :: .start 0 plainRequest :: .start 1 plainRequest :: (advances 0 n ++ advances 1 10 ++ advances 0 (21 - n))

def replayRun (n : Nat) : CodePool :=
  run (codeSystem plainHandler).step (Pool.init { plainStore with codes := .empty }) (replayMoves n)

theorem log_failed_after_ok {log : CodeLog} (h : log.map (·.2.isOk) = [false, true]) :
    ∃ q₁ q₂ ts e, log = [(q₂, .error e), (q₁, .ok ts)] := by
  obtain ⟨⟨q₂, r₂⟩, log', rfl, h₂, h⟩ := map_eq_cons_iff.mp h
  obtain ⟨⟨q₁, r₁⟩, log'', rfl, h₁, h⟩ := map_eq_cons_iff.mp h
  rw [map_eq_nil_iff.mp h]
  cases r₂ with
  | ok ts => cases h₂
  | error e =>
    cases r₁ with
    | error e => cases h₁
    | ok ts => exact ⟨q₁, q₂, ts, e, rfl⟩

theorem code_replay_revokes_recorded : ∃ q₁ q₂ ts e, (q₁, .ok ts) ∈ (replayRun 21).log ∧
    (q₂, .error e) ∈ (replayRun 21).log ∧
    (∃ jti exp, ts.accessToken.claims.lookup "jti" = some (.str jti) ∧
      ts.accessToken.claims.lookup "exp" = some (.num exp 0) ∧ Covered (replayRun 21).store jti exp) ∧
    ∃ x ∈ (replayRun 21).store.refresh.list, x.tokenHash = plainHandler.hashString ts.refreshToken ∧
      FamilyRevoked (replayRun 21).store x.familyID := by
  obtain ⟨q₁, q₂, ts, e, hlog⟩ := log_failed_after_ok (show (replayRun 21).log.map (·.2.isOk) = [false, true] by decide +kernel)
  have hfirst : (q₁, .ok ts) ∈ (replayRun 21).log := by simp [hlog]
  have hsecond : (q₂, .error e) ∈ (replayRun 21).log := by simp [hlog]
  have hall : ∀ l ∈ (replayRun 21).log, l.1.code = "code" ∧
      ∀ r ∈ (replayRun 21).store.codes.list, CodeBound plainHandler l.1 r.toAuthCode := by
    decide +kernel
  refine ⟨q₁, q₂, ts, e, hfirst, hsecond, ?_⟩
  exact code_replay_revokes plainHandler (fun _ => true) plainStore (replayMoves 21) _
    (Trace.of_checkRun (by decide +kernel)) q₁ q₂ ts e hfirst hsecond ⟨rfl, rfl⟩
    ((hall _ hsecond).1.trans (hall _ hfirst).1.symm) fun r hr _ => (hall _ hsecond).2 r hr

/-- The replay looks the code up before its tokens are recorded. -/
theorem replay_before_record_revokes_nothing :
    (replayRun 12).log.map (·.2.isOk) = [true, false] ∧
    (∀ l ∈ (replayRun 12).log, ∀ r ∈ (replayRun 12).store.codes.list,
      r.codeHash = plainHandler.hashString l.1.code ∧ CodeBound plainHandler l.1 r.toAuthCode) ∧
    (replayRun 12).log.filterMap (fun l => l.2.toOption.bind fun ts =>
      (ts.accessToken.claims.lookup "jti").bind Json.asString) = ["u"] ∧
    ((replayRun 12).store.revoked "u").get (replayRun 12).store.now = none ∧
    (replayRun 12).store.refresh.list.map (·.revokedAt) = [none] := by
  decide +kernel

end Clavex

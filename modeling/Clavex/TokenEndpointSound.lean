import Clavex.CodeProtocol

/-!
# Whom a token is signed for

What the parts of the grants return, whatever the stores answer: the signing
configuration is that of the organisation in the URL, and the claims are those of the
user who was read.
-/

namespace Clavex

open Prog

section
variable {d : OIDCHandler} {s : TokenStore}

/-! ## Running alone -/

section
variable {α β : Type} {ω : Nat → Env}

variable {p : TokenProg α} {Q : Except TokenErr α → TokenStore → Prop}

theorem numbered_post {x} (hp : p.Post (sem d) Q x.1) :
    Q (p.exec (numbered d ω) x).1 (p.exec (numbered d ω) x).2.1 := by
  refine Post.exec (fun x : TokenStore × Nat => x.1) ?_ hp
  exact fun _ x => ⟨ω x.2, rfl, rfl⟩

theorem execAlone_post (hp : p.Post (sem d) Q s) : Q (execAlone d ω p s).1 (execAlone d ω p s).2 := numbered_post hp

theorem execAlone_bind {f} {R} {Q : β → TokenStore → Prop}
    (hp : p.Post (sem d) (onOk R) s)
    (hf : ∀ a t, (execAlone d ω p s).1 = .ok a → R a t → (f a).Post (sem d) (onOk Q) t) :
    onOk Q (execAlone d ω (p >>= f) s).1 (execAlone d ω (p >>= f) s).2 := by
  have hr := numbered_post (ω := ω) (x := (s, 0)) hp
  unfold execAlone at hf ⊢
  rw [exec_bind]
  rcases hx : p.exec (numbered d ω) (s, 0) with ⟨r, x⟩
  rw [hx] at hr hf
  cases r with
  | ok a => exact numbered_post (hf a x.1 rfl hr)
  | error e => exact trivial

end

/-! ## Client authentication -/

variable {α : Type} {env : Env} {orgs : List OrgRow} {orgSlug : String} {tc : MintConfig} {org : OrgRow} {user : User}
  {uc : UserClaims}

theorem Quiet.post {ε} {p : Prog TokenOp TokenOp.Resp ε α} (hp : Quiet p) (s) :
    p.Post (sem d) (fun _ t => ∃ n, t = { s with nextID := n }) s := by
  apply Uses.post _ hp ⟨s.nextID, rfl⟩
  rintro env op t hq ⟨n, rfl⟩
  obtain ⟨m, -, hm⟩ := sem_quiet d { s with nextID := n } env hq
  exact ⟨m, hm⟩

theorem activeClient_quiet (clientID) : Quiet (activeClient clientID) := by
  refine .ask rfl (Option.forall.2 ⟨Quiet.fail _, fun client => ?_⟩)
  exact .require (Quiet.ret _)

variable (r : ClientAuth)

theorem authenticateClientByAssertion_quiet : Quiet (authenticateClientByAssertion d r) := by
  apply Uses.require
  cases d.assertionIssuer r.clientAssertion with
  | none => exact Quiet.fail _
  | some clientID =>
    apply Uses.require
    apply Uses.require
    apply Uses.bind (activeClient_quiet clientID)
    intro client
    apply Uses.require
    exact Quiet.ask rfl fun _ => Uses.ofExcept fun _ => Quiet.ret _

theorem authenticateAttested_quiet (clientID) : Quiet (authenticateAttested d r clientID) := by
  apply Uses.bind (activeClient_quiet clientID)
  intro client
  apply Uses.require
  refine Quiet.ask rfl (Option.forall.2 ⟨Quiet.fail _, fun org => ?_⟩)
  apply Uses.require
  exact Quiet.ask rfl fun _ => Uses.ofExcept fun _ => Quiet.ret _

theorem authenticateClientByAttestationAssertion_quiet :
    Quiet (authenticateClientByAttestationAssertion d r) := by
  apply Uses.require
  split
  · apply Uses.require
    split
    · exact Quiet.fail _
    · exact Uses.require (authenticateAttested_quiet r _)
  · exact Quiet.fail _

theorem authenticateBySecret_quiet : Quiet (authenticateBySecret d r) := by
  apply Uses.require
  apply Uses.bind (activeClient_quiet _)
  intro client
  cases client.tokenEndpointAuthMethod with
  | secretOrNone =>
    cases client.clientSecretHash with
    | none => exact Quiet.ret _
    | some hash => exact Uses.require (Quiet.ret _)
  | _ => exact Quiet.fail _

theorem authenticateByCertificate_quiet (cert) : Quiet (authenticateByCertificate d r cert) := by
  simp only [authenticateByCertificate, call_bind]
  refine .ask rfl fun client => ?_
  split
  · exact authenticateBySecret_quiet r
  · exact .require (Quiet.ret _)

theorem authenticateClient_quiet : Quiet (authenticateClient d r) := by
  unfold authenticateClient
  cases r.assertionType with
  | jwtBearer => exact authenticateClientByAssertion_quiet r
  | jwtClientAttestation => exact authenticateClientByAttestationAssertion_quiet r
  | none =>
    dsimp only
    split
    · exact authenticateClientByAttestationAssertion_quiet r
    cases r.peerCert with
    | none => exact authenticateBySecret_quiet r
    | some cert =>
      dsimp only
      split
      · exact authenticateBySecret_quiet r
      · exact authenticateByCertificate_quiet r cert

/-! ## Which client a request presents -/

def Presents (d : OIDCHandler) (r : ClientAuth) (clientID : String) : Prop :=
  clientID ≠ "" ∧ (d.assertionIssuer r.clientAssertion = some clientID ∨
    (∃ a as, (attestationText r).splitOn "~" = a :: as ∧ d.attestationSubject a = some clientID) ∨
    r.basic.map (·.1) = some clientID ∨ r.clientID = clientID)

variable {clientID : String} (d)

theorem authenticateClientByAssertion_presents :
    (authenticateClientByAssertion d r).Yields fun a => Presents d r a.clientID := by
  refine .require fun _ => ?_
  cases hiss : d.assertionIssuer r.clientAssertion with
  | none => exact trivial
  | some clientID =>
    refine .require fun hne => .require fun _ => ?_
    refine .bind (.of_forall (fun _ => trivial) _) fun client _ => .require fun _ => ?_
    exact fun valid => .ofExcept fun _ => ⟨hne, .inl hiss⟩

theorem authenticateAttested_presents (h : Presents d r clientID) :
    (authenticateAttested d r clientID).Yields fun a => Presents d r a.clientID := by
  refine .bind (.of_forall (fun _ => trivial) _) fun client _ => .require fun _ org => ?_
  cases org with
  | none => exact trivial
  | some org => exact .require fun _ jkt => .ofExcept fun _ => h

theorem authenticateByAttestation_presents :
    (authenticateClientByAttestationAssertion d r).Yields fun a => Presents d r a.clientID := by
  refine .require fun _ => ?_
  split
  · rename_i attestation pop rest hsplit
    refine .require fun _ => ?_
    cases hsub : d.attestationSubject attestation with
    | none => exact trivial
    | some clientID =>
      refine .require fun hne => authenticateAttested_presents d r ?_
      exact ⟨hne, .inr (.inl ⟨attestation, _, hsplit, hsub⟩)⟩
  · exact trivial

theorem authenticateBySecret_presents : (authenticateBySecret d r).Yields fun a => Presents d r a.clientID := by
  have hid : ∀ x, r.basic.getD (r.clientID, r.clientSecret) = x → x.1 ≠ "" → Presents d r x.1 := by
    intro x hx hne
    refine ⟨hne, .inr (.inr ?_)⟩
    cases hb : r.basic with
    | none =>
      rw [hb] at hx
      exact .inr (congrArg Prod.fst hx)
    | some b =>
      rw [hb] at hx
      exact .inl (congrArg (fun y : String × String => some y.1) hx)
  refine .require fun hne => ?_
  have hpresents := hid _ rfl hne
  refine .bind (.of_forall (fun _ => trivial) _) fun client _ => ?_
  cases client.tokenEndpointAuthMethod with
  | secretOrNone =>
    cases client.clientSecretHash with
    | none => exact hpresents
    | some hash => exact .require fun _ => hpresents
  | _ => exact trivial

theorem authenticateByCertificate_presents (cert) (hne : r.clientID ≠ "") :
    (authenticateByCertificate d r cert).Yields fun a => Presents d r a.clientID := by
  simp only [authenticateByCertificate, call_bind]
  intro client
  dsimp only
  split
  · exact authenticateBySecret_presents d r
  · exact .require fun _ => ⟨hne, .inr (.inr (.inr rfl))⟩

theorem authenticateClient_presents : (authenticateClient d r).Yields fun a => Presents d r a.clientID := by
  unfold authenticateClient
  cases r.assertionType with
  | jwtBearer => exact authenticateClientByAssertion_presents d r
  | jwtClientAttestation => exact authenticateByAttestation_presents d r
  | none =>
    dsimp only
    split
    · exact authenticateByAttestation_presents d r
    · split
      · split
        · exact authenticateBySecret_presents d r
        · rename_i hne
          exact authenticateByCertificate_presents d r _ hne
      · exact authenticateBySecret_presents d r

variable {d}

/-! ## Reads -/

theorem readOrFail_some {r} {a : α} (h : (readOrFail env s r).1 = some a) : r = some a := by
  unfold readOrFail at h
  split at h
  · cases h
  · exact h

theorem activeUser_post (id) :
    (activeUser id).Post (sem d) (onOk fun user t => t = s ∧ s.users.find? (·.id == id) = some user) s := by
  refine .read (fun _ => rfl) fun env => ?_
  cases hread : (sem d env (.userByID id) s).1 with
  | none => exact trivial
  | some user => exact .require fun _ => ⟨rfl, readOrFail_some hread⟩

/-! ## Signing configuration -/

def SignsFor (d : OIDCHandler) (orgs : List OrgRow) (orgSlug : String) (tc : MintConfig) : Prop :=
  tc.issuer = issuerFromRequest d orgSlug ∧
    if d.orgSigners then ∃ org, orgs.find? (·.slug == orgSlug) = some org ∧ tc.keys = .tenant org.id
    else tc.keys = d.config.keys

def Unsigned (d : OIDCHandler) (orgSlug : String) (tc : MintConfig) : Prop :=
  tc.issuer = issuerFromRequest d orgSlug ∧ (d.orgSigners = false → tc.keys = d.config.keys)

theorem SignsFor.unsigned (h : SignsFor d orgs orgSlug tc) : Unsigned d orgSlug tc := by
  refine ⟨h.1, fun hoff => ?_⟩
  have hk := h.2
  rw [hoff] at hk
  exact hk

theorem newTC_unsigned (orgSlug) : Unsigned d orgSlug (newTC d orgSlug) := ⟨rfl, fun _ => rfl⟩

section
variable (h : Unsigned d orgSlug tc)
include h

theorem Unsigned.overrideTTL (a r) : Unsigned d orgSlug (overrideTTL a r tc) := by
  unfold Clavex.overrideTTL
  cases a.filter (0 < ·) <;> cases r.filter (0 < ·) <;> exact h

theorem Unsigned.applyTTLOverrides (org cl) : Unsigned d orgSlug (applyTTLOverrides tc org cl) := by
  cases org with
  | none =>
    cases cl with
    | none => exact h
    | some cl => exact h.overrideTTL _ _
  | some org =>
    cases cl with
    | none => exact h.overrideTTL _ _
    | some cl => exact (h.overrideTTL _ _).overrideTTL _ _

theorem withSigner_post (hon : d.orgSigners = true) (horg : s.orgs.find? (·.slug == orgSlug) = some org) :
    (withSigner tc org).Post (sem d) (onOk fun tc t => t = s ∧ SignsFor d s.orgs orgSlug tc) s := by
  intro env
  refine .require fun _ => ⟨rfl, h.1, ?_⟩
  rw [if_pos hon]
  exact ⟨org, horg, rfl⟩

theorem applyOrgOverrides_post {org} (horg : ∀ o, org = some o → s.orgs.find? (·.slug == orgSlug) = some o) (cl) :
    (applyOrgOverrides d tc org cl).Post (sem d) (onOk fun tc t => t = s ∧ SignsFor d s.orgs orgSlug tc) s := by
  unfold applyOrgOverrides
  by_cases hon : d.orgSigners = true
  · rw [if_neg (fun hn => hn hon)]
    cases org with
    | none => exact trivial
    | some org => exact withSigner_post (h.applyTTLOverrides _ _) hon (horg org rfl)
  · rw [if_pos hon]
    refine ⟨rfl, (h.applyTTLOverrides _ _).1, ?_⟩
    rw [if_neg hon]
    exact (h.applyTTLOverrides org cl).2 (Bool.eq_false_iff.mpr hon)

end

theorem verificationTC_post (orgSlug) :
    (verificationTC d orgSlug).Post (sem d) (onOk fun tc t => t = s ∧ SignsFor d s.orgs orgSlug tc) s := by
  unfold verificationTC
  by_cases hon : d.orgSigners = true
  · rw [if_neg (fun hn => hn hon)]
    refine .read (fun _ => rfl) fun env => ?_
    cases hread : (sem d env (.orgBySlug orgSlug) s).1 with
    | none => exact trivial
    | some org => exact withSigner_post (newTC_unsigned orgSlug) hon (readOrFail_some hread)
  · rw [if_pos hon]
    refine ⟨rfl, rfl, ?_⟩
    rw [if_neg hon]
    rfl

/-! ## Claims -/

def ClaimsOf (d : OIDCHandler) (user : User) (uc : UserClaims) : Prop :=
  uc.userID = d.uuidText user.id ∧ uc.orgID = d.uuidText user.orgID

theorem ClaimsOf.addExtra (h : ClaimsOf d user uc) (k v) : ClaimsOf d user (addExtra uc k v) := by
  cases v <;> exact h

theorem enrichClaims_post (h : ClaimsOf d user uc) (hookURL clientID scope : String) :
    (enrichClaims hookURL clientID scope uc).Post (sem d) (onOk fun uc _ => ClaimsOf d user uc) s := by
  unfold enrichClaims
  split
  · exact h
  · intro env
    show ClaimsOf d user (assignExtra uc (env.answer (.enrich hookURL clientID scope uc)))
    cases env.answer (.enrich hookURL clientID scope uc) <;> exact h

theorem codeClaims_post (clientID hookURL : String) (ac user) :
    (codeClaims d clientID hookURL ac user).Post (sem d) (onOk fun uc _ => ClaimsOf d user uc) s := by
  refine .call fun _ => Post.call fun _ => Post.call fun _ => Post.call fun _ => ?_
  apply Post.bind_ok
  · apply enrichClaims_post
    apply ClaimsOf.addExtra
    exact ⟨rfl, rfl⟩
  · intro uc t huc
    exact Post.call fun _ => huc.addExtra _ _

theorem pollClaims_post (clientID user) :
    (pollClaims d clientID user).Post (sem d) (onOk fun uc _ => ClaimsOf d user uc) s :=
  .call fun _ => .call fun _ => .call fun _ => ⟨rfl, rfl⟩

theorem refreshClaims_post (clientID hookURL : String) (rt) :
    (refreshClaims d clientID hookURL rt).Post (sem d)
      (onOk fun uc _ => ∃ user, Option.Rel (ClaimsOf d) user uc ∧
        user = rt.userID.bind fun id => s.users.find? (·.id == id)) s := by
  unfold refreshClaims
  cases rt.userID with
  | none => exact ⟨none, .none, rfl⟩
  | some id =>
    apply Post.bind_ok (activeUser_post id)
    rintro user t ⟨rfl, huser⟩
    refine .call fun _ => Post.call fun _ => ?_
    have hclaims : ∀ roles mappers, ClaimsOf d user
        (mapClaims { userClaimsFromModel d user with roles := roles } user mappers) := fun _ _ => ⟨rfl, rfl⟩
    apply Post.bind_ok (enrichClaims_post (hclaims _ _) hookURL clientID rt.scope)
    intro uc t' huc
    exact Post.call fun _ => ⟨some user, .some (huc.addExtra _ _), huser.symm⟩

/-! ## Signing -/

def MintedWith (d : OIDCHandler) (tc : MintConfig) (user : Option User) (tok : Signed) : Prop :=
  ∃ now jti clientID scope uc dpop mtls, Option.Rel (ClaimsOf d) user uc ∧
    issueAccessToken d.jwt tc now jti clientID scope uc dpop mtls false = some (tok, jti)

def MintedUnder (d : OIDCHandler) (org : OrgRow) (user : Option User) (tok : Signed) : Prop :=
  ∃ tc, tc.issuer = issuerFromRequest d org.slug ∧ tc.keys = (if d.orgSigners then .tenant org.id else d.config.keys) ∧
    MintedWith d tc user tok

theorem MintedWith.under {user tok} (h : MintedWith d tc user tok) (hs : SignsFor d orgs orgSlug tc)
    (horg : orgs.find? (·.slug == orgSlug) = some org) : MintedUnder d org user tok := by
  have hslug : org.slug = orgSlug := beq_iff_eq.mp (List.find?_some (p := fun o : OrgRow => o.slug == orgSlug) horg)
  refine ⟨tc, ?_, ?_, h⟩
  · rw [hslug]
    exact hs.1
  · have hk := hs.2
    by_cases hon : d.orgSigners = true
    · rw [if_pos hon] at hk ⊢
      obtain ⟨o, ho, hkeys⟩ := hk
      rw [horg] at ho
      cases ho
      exact hkeys
    · rw [if_neg hon] at hk ⊢
      exact hk

theorem mintedWith_of_sem {clientID scope uc dpop mtls user r} (huc : Option.Rel (ClaimsOf d) user uc)
    (h : (sem d env (.issueAccessToken tc clientID scope uc dpop mtls) s).1 = some r) : MintedWith d tc user r.1 := by
  rcases sem_issueAccessToken d s env tc clientID scope uc dpop mtls with ⟨hsem, -⟩ | ⟨tok, hsem, htok, -⟩
  · rw [hsem] at h
    cases h
  · rw [hsem] at h
    cases h
    exact ⟨_, _, _, _, _, _, _, huc, htok⟩

end

end Clavex

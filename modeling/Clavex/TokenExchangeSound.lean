import Clavex.Scope
import Clavex.TokenExchange
import Clavex.TokenTenantSound

/-!
# What an exchanged token keeps of its subject

`exchangeToken_post` says what a successful exchange has read and issued. From it follow
`cross_org_exchange_iff`, for exchanges from another organisation, and
`same_org_exchange_iff`, for those within one.
-/

namespace Clavex

open Prog List Option SubjectToken

variable {resp : TokenExchangeResponse} {tc : MintConfig} {r : ExchangeRequest} {trust : CrossOrgTrust}
  {h : ExchangeHandler} {s : TokenStore} {clientID : String}

/-! ## Scopes -/

variable {granted requested scope : String}

theorem exchangedScope_ok (h : exchangedScope granted requested = .ok scope) :
    (fields requested = [] ∧ scope = granted) ∨ (fields requested ≠ [] ∧
      scope = " ".intercalate (fields requested) ∧ ∀ w ∈ fields requested, w ∈ fields granted) := by
  unfold exchangedScope at h
  split at h
  · rename_i hempty
    cases h
    rw [hempty]
    exact .inl ⟨rfl, rfl⟩
  · split at h
    · cases h
    rename_i hne
    cases h
    unfold narrowScope at hne ⊢
    split at hne
    · rename_i hall
      rw [if_pos hall]
      by_cases hwords : fields requested = []
      · exact .inl ⟨hwords, if_pos hwords⟩
      · exact .inr ⟨hwords, if_neg hwords, by simpa using hall⟩
    · exact absurd rfl hne

theorem fields_join (s) : fields (" ".intercalate (fields s)) = fields s := by
  have hword : ∀ w ∈ fields s, fields w = [w] := fun _ => fields_of_mem
  rw [fields_intercalate, flatMap_congr hword, flatMap_singleton']

theorem within_exchangedScope (h : exchangedScope granted requested = .ok scope) : Within scope [granted] := by
  intro w hw
  rw [flatMap_singleton]
  rcases exchangedScope_ok h with ⟨-, rfl⟩ | ⟨-, rfl, hall⟩
  · exact hw
  · rw [fields_join] at hw
    exact hall w hw

def namesAllowed (trust : CrossOrgTrust) (requested : String) : Bool :=
  (splitWords requested).any fun w => decide (w ∈ trust.allowedScopes) && decide (fields w ≠ [])

theorem isTrustAllowed_scope
    (h : isTrustAllowed trust clientID requested = some scope) (hne : trust.allowedScopes ≠ []) :
    scope = intersectScopes trust.allowedScopes requested := by
  unfold isTrustAllowed at h
  split at h
  · cases h
  by_cases hr : requested = ""
  · rw [if_neg (fun hc => hc.2 hr)] at h
    cases h
    rw [hr]
    rfl
  · rw [if_pos ⟨hne, hr⟩] at h
    split at h
    · cases h
    · cases h
      rfl

theorem fields_intersectScopes :
    fields (intersectScopes trust.allowedScopes requested) = [] ↔ namesAllowed trust requested = false := by
  unfold intersectScopes namesAllowed
  rw [fields_intercalate, List.flatMap_eq_nil_iff, List.any_eq_false]
  simp only [List.mem_filter, decide_eq_true_eq, Bool.and_eq_true, not_and, ne_eq, not_not, and_imp]

theorem allowed_scope_iff {asked}
    (ht : isTrustAllowed trust clientID asked = some requested) (hs : exchangedScope granted requested = .ok scope) :
    (trust.allowedScopes ≠ [] → Within scope trust.allowedScopes) ↔
      (trust.allowedScopes = [] ∨ namesAllowed trust asked = true ∨ Within granted trust.allowedScopes) := by
  by_cases hne : trust.allowedScopes = []
  · exact ⟨fun _ => .inl hne, fun _ h => absurd hne h⟩
  · have hreq := isTrustAllowed_scope ht hne
    rcases exchangedScope_ok hs with ⟨hnil, rfl⟩ | ⟨hwords, rfl, -⟩
    · have hnames : namesAllowed trust asked = false := by
        rw [← fields_intersectScopes, ← hreq]
        exact hnil
      rw [hnames]
      simp [hne]
    · have hnames : namesAllowed trust asked = true := by
        rw [← Bool.not_eq_false, ← fields_intersectScopes, ← hreq]
        exact hwords
      refine ⟨fun _ => .inr (.inl hnames), fun _ _ w hw => ?_⟩
      rw [fields_join, hreq, intersectScopes, fields_intercalate] at hw
      obtain ⟨a, ha, hw⟩ := mem_flatMap.mp hw
      rw [mem_filter, decide_eq_true_eq] at ha
      exact mem_flatMap.mpr ⟨a, ha.2, hw⟩

/-! ## The subject -/

def orgTC (d : OIDCHandler) (orgs : List OrgRow) (slug : String) : MintConfig :=
  { newTC d slug with
    keys :=
      if d.orgSigners then ((orgs.find? (·.slug == slug)).map fun org => Keys.tenant org.id).getD d.config.keys
      else d.config.keys }

theorem SignsFor.orgTC {d orgs slug} (h : SignsFor d orgs slug tc) :
    tc.issuer = (Clavex.orgTC d orgs slug).issuer ∧ tc.keys = (Clavex.orgTC d orgs slug).keys := by
  obtain ⟨hissuer, hkeys⟩ := h
  refine ⟨hissuer, ?_⟩
  unfold Clavex.orgTC
  by_cases hon : d.orgSigners = true
  · rw [if_pos hon] at hkeys ⊢
    obtain ⟨org, horg, hkeys⟩ := hkeys
    rw [hkeys, horg]
    rfl
  · rw [if_neg hon] at hkeys ⊢
    exact hkeys

section
variable (h : ExchangeHandler) (s : TokenStore)

def subjectOf (slug : String) (r : ExchangeRequest) : Option SubjectToken :=
  match r.subjectTokenType with
  | .accessToken => (verifyAccessToken h (orgTC h.toOIDCHandler s.orgs slug) s.now r.subjectToken).map .access
  | .refreshToken => (s.refresh.find (·.tokenHash == h.hashString r.subjectToken)).map .refresh
  | .other => none

def subjectUser (clientID : String) : SubjectToken → Option UserClaims
  | .access claims =>
    if textClaim claims "sub" = "" then none
    else ((h.uuidParse (textClaim claims "sub")).bind (userOf s)).map fun user =>
      mapClaims (exchangeUserClaims h user) user (h.listMappers clientID)
  | .refresh rt => (rt.userID.bind (userOf s)).map (exchangeUserClaims h)

def mappedClaim (clientID : String) (subject : SubjectToken) (k : String) : Option Json :=
  (extraOf (subjectUser h s clientID subject)).lookup k

def SubjectToken.unexpired (now : Int) : SubjectToken → Prop
  | access _ => True
  | refresh rt => rt.revokedAt = none ∧ now ≤ rt.expiresAt

structure Exchanged (r : ExchangeRequest) (slug clientID requestedScope : String) (tc : MintConfig)
    (subject : SubjectToken) (resp : TokenExchangeResponse) : Prop where
  read : subjectOf h s slug r = some subject
  unexpired : subject.unexpired s.now
  scope : exchangedScope subject.scope requestedScope = .ok resp.scope
  expiresIn : resp.expiresIn = tc.accessTokenTTL
  issued : ∃ jti aud, issueAccessToken h.jwt tc s.now jti aud resp.scope (subjectUser h s clientID subject) none none
    false = some (resp.accessToken, jti)

end

section

variable {slug requestedScope : String} {subject : SubjectToken}

theorem verifySubject_post
    (htc : SignsFor h.toOIDCHandler s.orgs slug tc) :
    (verifySubject h tc r.subjectToken r.subjectTokenType).Post (sem h.toOIDCHandler)
      (onOk fun subject t => t = s ∧ subjectOf h s slug r = some subject ∧ subject.unexpired s.now) s := by
  unfold subjectOf
  cases r.subjectTokenType with
  | accessToken =>
    refine .read (fun _ => rfl) fun env => ?_
    have hverify : verifyAccessToken h tc s.now r.subjectToken =
        verifyAccessToken h (orgTC h.toOIDCHandler s.orgs slug) s.now r.subjectToken := by
      unfold verifyAccessToken
      rw [htc.orgTC.1, htc.orgTC.2]
    simp only [sem, hverify]
    cases verifyAccessToken h (orgTC h.toOIDCHandler s.orgs slug) s.now r.subjectToken with
    | none => exact trivial
    | some claims => exact ⟨rfl, rfl, trivial⟩
  | refreshToken =>
    refine .read (fun _ => rfl) fun env => ?_
    cases hread : (sem h.toOIDCHandler env (.refreshByHash (h.hashString r.subjectToken)) s).1 with
    | none => exact trivial
    | some rt =>
      have hrow : s.refresh.find (·.tokenHash == h.hashString r.subjectToken) = some rt := readOrFail_some hread
      refine .read (fun _ => rfl) fun env' => .require fun hlive => ?_
      refine ⟨rfl, ?_, isNone_iff_eq_none.mp hlive.1, hlive.2⟩
      rw [hrow]
      rfl
  | other => exact trivial

theorem userClaims_post (userID) (f : User → UserClaims) :
    (activeUser userID >>= fun user => ret (some (f user))).Post (sem h.toOIDCHandler)
      (onOk fun uc t => t = s ∧ uc = (userOf s userID).map f) s := by
  refine .bind_ok (activeUser_post userID) ?_
  rintro user t ⟨rfl, huser⟩
  refine ⟨rfl, ?_⟩
  rw [show userOf t userID = some user from huser]
  rfl

theorem subjectClaims_post (clientID subject) :
    (subjectClaims h clientID subject).Post (sem h.toOIDCHandler)
      (onOk fun uc t => t = s ∧ uc = subjectUser h s clientID subject) s := by
  cases subject with
  | access claims =>
    unfold subjectClaims subjectUser
    dsimp only
    split
    · exact ⟨rfl, rfl⟩
    · cases h.uuidParse (textClaim claims "sub") with
      | none => exact trivial
      | some userID => exact userClaims_post userID _
  | refresh rt =>
    unfold subjectClaims subjectUser
    dsimp only
    cases rt.userID with
    | none => exact ⟨rfl, rfl⟩
    | some userID => exact userClaims_post userID _

theorem exchangeToken_post {verifyTC} (htc : SignsFor h.toOIDCHandler s.orgs slug verifyTC)
    (clientID requestedScope audiences tc) :
    (exchangeToken h r clientID requestedScope audiences verifyTC tc).Post (sem h.toOIDCHandler)
      (onOk fun resp _ => ∃ subject, Exchanged h s r slug clientID requestedScope tc subject resp) s := by
  refine .bind_ok (verifySubject_post htc) ?_
  rintro subject t ⟨rfl, hsubject, hlive⟩
  refine .bind_ok (subjectClaims_post clientID subject) ?_
  rintro uc t ⟨rfl, rfl⟩
  refine .ofExcept fun scope hscope => ?_
  refine .ofExcept fun aud _ => ?_
  refine .call fun env => ?_
  rcases sem_issueAccessToken h.toOIDCHandler t env tc aud scope (subjectUser h t clientID subject) none none with
    ⟨hsem, -⟩ | ⟨tok, hsem, htok, -⟩ <;> rw [hsem]
  · exact trivial
  · exact ⟨subject, hsubject, hlive, hscope, rfl, _, aud, htok⟩

theorem exchangeClient_post (r) :
    (exchangeClient h r).Post (sem h.toOIDCHandler)
      (onOk fun a t => (∃ j, t = { s with dpopJTIs := j }) ∧ SignsFor h.toOIDCHandler s.orgs r.orgSlug a.1) s := by
  refine .bind_ok (verificationTC_post r.orgSlug) ?_
  rintro tc t ⟨rfl, htc⟩
  refine .bind_ok (checkDPoP_post r.proof.headers r.proof.htm r.proof.htu) ?_
  rintro dpop _ ⟨j, rfl⟩
  refine .bind_ok (.mapError (authenticateClient_post r.toClientAuth)) ?_
  rintro a t' ⟨rfl, -⟩
  exact ⟨⟨j, rfl⟩, htc⟩

theorem Exchanged.of_spent {j}
    (hx : Exchanged h { s with dpopJTIs := j } r slug clientID requestedScope tc subject resp) :
    Exchanged h s r slug clientID requestedScope tc subject resp :=
  ⟨hx.read, hx.unexpired, hx.scope, hx.expiresIn, hx.issued⟩

theorem Exchanged.claim (hx : Exchanged h s r slug clientID requestedScope tc subject resp) {k}
    (hk : k ∈ protectedClaims) :
    ∃ jti aud, resp.accessToken.claims.lookup k = match mappedClaim h s clientID subject k with
      | some v => h.jwt.set k v
      | none => accessClaims tc s.now jti aud resp.scope (subjectUser h s clientID subject) none none k := by
  obtain ⟨jti, aud, htok⟩ := hx.issued
  refine ⟨jti, aud, ?_⟩
  unfold mappedClaim
  cases hmap : (extraOf (subjectUser h s clientID subject)).lookup k with
  | none => exact issueAccessToken_claim htok hk hmap
  | some v =>
    obtain ⟨-, -, -, -, ht⟩ := issueAccessToken_some.mp htok
    have hrest := (lookup_accessRest h.jwt (subjectUser h s clientID subject) none none hk).mpr fun _ => rfl
    rw [lookup_buildRange (accessBase_plain ..) (accessRest_plain ..) ht, hrest, hmap]
    rfl

/-! ## From another organisation -/

def Json.asTime : Json → Option Int
  | .num t 0 => some t
  | _ => none

theorem Exchanged.tokenScope (hx : Exchanged h s r slug clientID requestedScope tc subject resp) :
    textClaim resp.accessToken.claims "scope" = match mappedClaim h s clientID subject "scope" with
      | some v => v.asString.getD ""
      | none => resp.scope := by
  obtain ⟨jti, aud, hclaim⟩ := hx.claim (k := "scope") (by decide)
  unfold textClaim
  rw [hclaim]
  cases mappedClaim h s clientID subject "scope" with
  | none => rfl
  | some v =>
    dsimp only
    rw [h.jwt.set_other "scope" (by decide) v]
    rfl

theorem Exchanged.tokenExpiry (hx : Exchanged h s r slug clientID requestedScope tc subject resp) :
    (resp.accessToken.claims.lookup "exp").bind Json.asTime = match mappedClaim h s clientID subject "exp" with
      | some v => (h.jwt.set "exp" v).bind Json.asTime
      | none => some (s.now + tc.accessTokenTTL) := by
  obtain ⟨jti, aud, hclaim⟩ := hx.claim (k := "exp") (by decide)
  rw [hclaim]
  cases mappedClaim h s clientID subject "exp" <;> rfl

end

def sourceSlug (r : ExchangeRequest) : String := trimPfx r.resource crossOrgURN

section
variable (h : ExchangeHandler) (s : TokenStore)

def SubjectToken.IssuedBy (raw : String) (org : OrgRow) : SubjectToken → Prop
  | access claims =>
    h.verify (if h.orgSigners then .tenant org.id else h.config.keys) s.now raw = some claims ∧
      textClaim claims "iss" = issuerFromRequest h.toOIDCHandler org.slug
  | refresh rt => rt.orgID = org.id

structure ExchangeBound (r : ExchangeRequest) (source : OrgRow) (trust : CrossOrgTrust) (subject : SubjectToken)
    (resp : TokenExchangeResponse) : Prop where
  scope : Within (textClaim resp.accessToken.claims "scope") [subject.scope]
  allowed : trust.allowedScopes ≠ [] → Within (textClaim resp.accessToken.claims "scope") trust.allowedScopes
  source : subject.IssuedBy h s r.subjectToken source
  ttl : ∀ max, trust.maxTokenTTL = some max → resp.expiresIn ≤ max ∧
    ∃ e, (resp.accessToken.claims.lookup "exp").bind Json.asTime = some e ∧ e ≤ s.now + max

def CrossOrgBound (r : ExchangeRequest) (resp : TokenExchangeResponse) : Prop :=
  ∃ source target trust subject, s.orgs.find? (·.slug == sourceSlug r) = some source ∧
    s.orgs.find? (·.slug == r.orgSlug) = some target ∧ h.getTrust source.id target.id = some trust ∧
    subjectOf h s (sourceSlug r) r = some subject ∧ ExchangeBound h s r source trust subject resp

/-- No mapper sets the scope, and the trust lists no scopes, the request names one of them,
or the subject token has no others. -/
def trustScopeCond (clientID : String) (r : ExchangeRequest) (trust : CrossOrgTrust) (subject : SubjectToken) : Bool :=
  match mappedClaim h s clientID subject "scope" with
  | none =>
    decide (trust.allowedScopes = []) || (namesAllowed trust r.scope || decide (Within subject.scope trust.allowedScopes))
  | some v =>
    decide (Within (v.asString.getD "") [subject.scope]) &&
      (decide (trust.allowedScopes = []) || decide (Within (v.asString.getD "") trust.allowedScopes))

def trustExpiryCond (clientID : String) (trust : CrossOrgTrust) (subject : SubjectToken) : Bool :=
  trust.maxTokenTTL.all fun max => (mappedClaim h s clientID subject "exp").all fun v =>
    ((h.jwt.set "exp" v).bind Json.asTime).any fun e => decide (e ≤ s.now + max)

def SubjectToken.sourceCond (source : OrgRow) : SubjectToken → Bool
  | access _ => true
  | refresh rt => rt.orgID == source.id

def crossOrgCond (clientID : String) (r : ExchangeRequest) : Bool :=
  (s.orgs.find? (·.slug == sourceSlug r)).all fun source => (s.orgs.find? (·.slug == r.orgSlug)).all fun target =>
    (h.getTrust source.id target.id).all fun trust => (subjectOf h s (sourceSlug r) r).all fun subject =>
      trustScopeCond h s clientID r trust subject && subject.sourceCond source && trustExpiryCond h s clientID trust subject

end

section

def CrossExchanged (h : ExchangeHandler) (s : TokenStore) (r : ExchangeRequest) (clientID : String)
    (resp : TokenExchangeResponse) : Prop :=
  ∃ source target trust subject requested tc, s.orgs.find? (·.slug == sourceSlug r) = some source ∧
    s.orgs.find? (·.slug == r.orgSlug) = some target ∧ h.getTrust source.id target.id = some trust ∧
    isTrustAllowed trust clientID r.scope = some requested ∧
    Exchanged h s r (sourceSlug r) clientID requested (capTTL trust tc) subject resp

theorem crossOrgExchange_post (r clientID) :
    (crossOrgExchange h r clientID).Post (sem h.toOIDCHandler) (onOk fun resp _ => CrossExchanged h s r clientID resp)
      s := by
  refine .read (fun _ => rfl) fun env => ?_
  cases hsource : (sem h.toOIDCHandler env (.orgBySlug (trimPfx r.resource crossOrgURN)) s).1 with
  | none => exact trivial
  | some source =>
    refine .read (fun _ => rfl) fun env' => ?_
    cases htarget : (sem h.toOIDCHandler env' (.orgBySlug r.orgSlug) s).1 with
    | none => exact trivial
    | some target =>
      refine .require fun _ => ?_
      cases htrust : h.getTrust source.id target.id with
      | none => exact trivial
      | some trust =>
        dsimp only
        cases hallowed : isTrustAllowed trust clientID r.scope with
        | none => exact trivial
        | some requested =>
          refine .ofExcept fun _ _ => .read (fun _ => rfl) fun env'' => ?_
          refine .bind_ok (applyOrgOverrides_post (newTC_unsigned r.orgSlug) ?_ _) ?_
          · rintro o ⟨⟩
            exact readOrFail_some htarget
          rintro tc t ⟨rfl, -⟩
          refine .bind_ok (verificationTC_post _) ?_
          rintro sourceTC t ⟨rfl, hsourceTC⟩
          refine .mono ?_ (exchangeToken_post hsourceTC clientID requested _ (capTTL trust tc))
          rintro (e | resp) t' hx
          · exact trivial
          · obtain ⟨subject, hx⟩ := hx
            exact ⟨source, target, trust, subject, requested, tc, readOrFail_some hsource, readOrFail_some htarget,
              htrust, hallowed, hx⟩

variable {slug : String} {source : OrgRow} {subject : SubjectToken}

theorem capTTL_le (tc) {max} (hmax : trust.maxTokenTTL = some max) : (capTTL trust tc).accessTokenTTL ≤ max := by
  unfold capTTL
  rw [hmax]
  dsimp only
  split
  · exact Int.le_refl max
  · omega

theorem orgTC_keys {org} (horg : s.orgs.find? (·.slug == slug) = some org) :
    (orgTC h.toOIDCHandler s.orgs slug).keys = if h.orgSigners then .tenant org.id else h.config.keys := by
  unfold orgTC
  rw [horg]
  rfl

theorem issuedBy_iff
    (hsource : s.orgs.find? (·.slug == slug) = some source) (hsubject : subjectOf h s slug r = some subject) :
    subject.IssuedBy h s r.subjectToken source ↔ subject.sourceCond source = true := by
  cases subject with
  | refresh rt => simp [IssuedBy, sourceCond]
  | access claims =>
    have hslug : source.slug = slug := by simpa using find?_some hsource
    have hverify : verifyAccessToken h (orgTC h.toOIDCHandler s.orgs slug) s.now r.subjectToken = some claims := by
      unfold subjectOf at hsubject
      split at hsubject
      · obtain ⟨claims', hverify, heq⟩ := map_eq_some_iff.mp hsubject
        cases heq
        exact hverify
      · obtain ⟨rt, -, heq⟩ := map_eq_some_iff.mp hsubject
        cases heq
      · cases hsubject
    obtain ⟨hsigned, hissuer⟩ := filter_eq_some_iff.mp hverify
    rw [orgTC_keys hsource] at hsigned
    refine ⟨fun _ => rfl, fun _ => ⟨hsigned, ?_⟩⟩
    rw [of_decide_eq_true hissuer, hslug]
    rfl

section
variable {requested : String}
  {subject : SubjectToken}
  (hx : Exchanged h s r (sourceSlug r) clientID requested (capTTL trust tc) subject resp)
include hx

theorem trustScopeCond_iff (hallowed : isTrustAllowed trust clientID r.scope = some requested) :
    (Within (textClaim resp.accessToken.claims "scope") [subject.scope] ∧
      (trust.allowedScopes ≠ [] → Within (textClaim resp.accessToken.claims "scope") trust.allowedScopes)) ↔
      trustScopeCond h s clientID r trust subject = true := by
  rw [hx.tokenScope]
  unfold trustScopeCond
  cases mappedClaim h s clientID subject "scope" with
  | none =>
    simp only [Bool.or_eq_true, decide_eq_true_eq, ← allowed_scope_iff hallowed hx.scope]
    exact and_iff_right (within_exchangedScope hx.scope)
  | some v => simp [or_iff_not_imp_left]

theorem trustExpiryCond_iff : (∀ max, trust.maxTokenTTL = some max → resp.expiresIn ≤ max ∧
      ∃ e, (resp.accessToken.claims.lookup "exp").bind Json.asTime = some e ∧ e ≤ s.now + max) ↔
      trustExpiryCond h s clientID trust subject = true := by
  rw [hx.tokenExpiry, hx.expiresIn]
  unfold trustExpiryCond
  rw [Option.all_eq_true]
  refine forall_congr' fun max => imp_congr_right fun hmax => ?_
  have hle := capTTL_le tc hmax
  rw [and_iff_right hle]
  cases mappedClaim h s clientID subject "exp" with
  | none => exact iff_of_true ⟨_, rfl, by omega⟩ rfl
  | some v => simp [Option.any_eq_true]

end

theorem exchangeBound_iff {requested}
    (hsource : s.orgs.find? (·.slug == sourceSlug r) = some source)
    (hallowed : isTrustAllowed trust clientID r.scope = some requested)
    (hx : Exchanged h s r (sourceSlug r) clientID requested (capTTL trust tc) subject resp) :
    ExchangeBound h s r source trust subject resp ↔ (trustScopeCond h s clientID r trust subject = true ∧
      subject.sourceCond source = true ∧ trustExpiryCond h s clientID trust subject = true) := by
  rw [← trustScopeCond_iff hx hallowed, ← trustExpiryCond_iff hx, ← issuedBy_iff hsource hx.read]
  exact ⟨fun hb => ⟨⟨hb.scope, hb.allowed⟩, hb.source, hb.ttl⟩, fun hc => ⟨hc.1.1, hc.1.2, hc.2.1, hc.2.2⟩⟩

theorem crossOrgBound_iff
    (hx : CrossExchanged h s r clientID resp) : CrossOrgBound h s r resp ↔ crossOrgCond h s clientID r = true := by
  obtain ⟨source, target, trust, subject, requested, tc, hsource, htarget, htrust, hallowed, hx⟩ := hx
  unfold CrossOrgBound crossOrgCond
  simp only [hsource, htarget, htrust, hx.read, some.injEq, all_some, Bool.and_eq_true, and_assoc]
  rw [← exchangeBound_iff hsource hallowed hx]
  constructor
  · rintro ⟨_, _, _, _, rfl, rfl, htrust', rfl, hb⟩
    rw [htrust] at htrust'
    cases htrust'
    exact hb
  · exact fun hb => ⟨_, _, _, _, rfl, rfl, htrust, rfl, hb⟩

end

theorem cross_org_exchange_iff (h : ExchangeHandler) (ω : Nat → Env) (r : ExchangeRequest) (s : TokenStore)
    (tc : MintConfig) (clientID : String) (resp : TokenExchangeResponse)
    (hcross : hasPrefix r.resource crossOrgURN = true)
    (hauth : (execAlone h.toOIDCHandler ω (exchangeClient h r) s).1 = .ok (tc, clientID))
    (hok : (execAlone h.toOIDCHandler ω (tokenExchange h r) s).1 = .ok resp) :
    CrossOrgBound h s r resp ↔ crossOrgCond h s clientID r = true := by
  have hpost := execAlone_bind (ω := ω) (exchangeClient_post (h := h) (s := s) r)
    (Q := fun resp _ => CrossExchanged h s r clientID resp)
    (f := fun a => if hasPrefix r.resource crossOrgURN then crossOrgExchange h r a.2 else sameOrgExchange h r a.2 a.1) ?_
  · rw [show (execAlone h.toOIDCHandler ω (exchangeClient h r >>= _) s).1 = .ok resp from hok] at hpost
    exact crossOrgBound_iff hpost
  · rintro ⟨tc', clientID'⟩ t ha ⟨⟨j, rfl⟩, -⟩
    rw [hauth] at ha
    cases ha
    rw [if_pos hcross]
    refine .mono ?_ (crossOrgExchange_post r clientID)
    rintro (e | resp) t' hx
    · exact trivial
    · obtain ⟨source, target, trust, subject, requested, tc', hsource, htarget, htrust, hallowed, hx⟩ := hx
      exact ⟨source, target, trust, subject, requested, tc', hsource, htarget, htrust, hallowed, hx.of_spent⟩

/-! ### Runs -/

def exchangeTokens : String → Option (Keys × GoMap Json)
  | "partner" => some (.tenant 2, GoMap.ofMembers
      [("iss", .str "https://id/evil"), ("sub", .str "8"), ("jti", .str "j2"), ("scope", .str "openid admin"),
        ("exp", .num 600 0)])
  | "bound" => some (.tenant 1, GoMap.ofMembers
      [("iss", .str "https://id/acme"), ("sub", .str "7"), ("jti", .str "j1"), ("scope", .str "openid"),
        ("exp", .num 600 0), ("cnf", .obj [("jkt", .str "k1")])])
  | "free" => some (.tenant 1, GoMap.ofMembers
      [("iss", .str "https://id/acme"), ("sub", .str "7"), ("jti", .str "j1"), ("scope", .str "openid"),
        ("exp", .num 600 0)])
  | _ => none

/-- `evil` lets clients of `acme` exchange its tokens for the scope `openid`; the client
`mapped` has a mapper that sets the scope. -/
def exchangeHandler : ExchangeHandler :=
  { plainHandler with
    verify := fun keys now raw => (exchangeTokens raw).bind fun t =>
      if t.1 = keys ∧ ((t.2.lookup "exp").bind Json.asTime).all (now < ·) then some t.2 else none
    parseUnverified := fun raw => (exchangeTokens raw).map (·.2)
    uuidParse := fun text => if text = "7" then some 7 else if text = "8" then some 8 else none
    getTrust := fun source target =>
      if source = 2 ∧ target = 1 then some { allowedScopes := ["openid"], maxTokenTTL := some 60 } else none
    allowedAudiences := fun _ => []
    flattenRoleNames := fun _ => none
    listMappers := fun clientID =>
      if clientID = "mapped" then
        some [{ mapperType := .hardcoded, claimName := "scope", claimValue := some "root" }]
      else none }

def exchangeStore : TokenStore :=
  { sharedStore with clients := sharedStore.clients ++ [{ clientID := "mapped", orgID := 1 }] }

def partnerRequest : ExchangeRequest :=
  { orgSlug := "acme", clientID := "app", subjectToken := "partner", scope := "openid email"
    resource := "urn:clavex:org:evil" }

def exchangeResult (r : ExchangeRequest) (s : TokenStore) : Except TokenErr TokenExchangeResponse :=
  (execAlone exchangeHandler.toOIDCHandler smoothly (tokenExchange exchangeHandler r) s).1

def exchangeCaller (r : ExchangeRequest) (s : TokenStore) : Except TokenErr (MintConfig × String) :=
  (execAlone exchangeHandler.toOIDCHandler smoothly (exchangeClient exchangeHandler r) s).1

theorem exists_ok {ε α β : Type} {x : Except ε α} {f} {b : β} (h : x.toOption.map f = some b) :
    ∃ a, x = .ok a ∧ f a = b := by
  cases x with
  | error e => cases h
  | ok a => exact ⟨a, rfl, some.inj h⟩

theorem cross_org_exchange_bounded : ∃ resp, exchangeResult partnerRequest exchangeStore = .ok resp ∧
    resp.scope = "openid" ∧ CrossOrgBound exchangeHandler exchangeStore partnerRequest resp := by
  obtain ⟨resp, hok, hscope⟩ := exists_ok (f := fun resp => resp.scope)
    (show (exchangeResult partnerRequest exchangeStore).toOption.map _ = some "openid" by decide +kernel)
  obtain ⟨⟨tc, clientID⟩, hauth, hclient⟩ := exists_ok (f := fun a => a.2)
    (show (exchangeCaller partnerRequest exchangeStore).toOption.map _ = some "app" by decide +kernel)
  refine ⟨resp, hok, hscope, ?_⟩
  rw [cross_org_exchange_iff exchangeHandler smoothly partnerRequest exchangeStore tc clientID resp (by decide +kernel)
    hauth hok, show clientID = "app" from hclient]
  decide +kernel

def carriedScope (x : Except TokenErr TokenExchangeResponse) : Option String :=
  x.toOption.map fun resp => textClaim resp.accessToken.claims "scope"

/-- A request that names no scope, one whose client has a mapper for the scope, and one with
a refresh token of the target organisation itself. -/
theorem cross_org_exchange_unbounded :
    carriedScope (exchangeResult { partnerRequest with scope := "" } exchangeStore) = some "openid admin" ∧
    carriedScope (exchangeResult { partnerRequest with clientID := "mapped" } exchangeStore) = some "root" ∧
    ¬ Within "openid admin" ["openid"] ∧ ¬ Within "root" ["openid admin"] ∧
    carriedScope (exchangeResult { partnerRequest with scope := "", subjectToken := "ours", subjectTokenType := .refreshToken }
      exchangeStore) = some "openid" ∧
    (exchangeStore.refresh.find (·.tokenHash == exchangeHandler.hashString "ours")).map (·.orgID) = some 1 ∧
    (exchangeStore.orgs.find? (·.slug == "evil")).map (·.id) = some 2 := by
  decide +kernel

/-! ## Within one organisation -/

def bindings : List String := ["jkt", "x5t#S256"]

def confirmedKey (cnf : Option Json) (member : String) : Option String :=
  (cnf.bind (Json.member member)).bind Json.asString

def SubjectToken.boundTo : SubjectToken → String → Option String
  | access claims, member => confirmedKey (claims.lookup "cnf") member
  | refresh rt, "jkt" => if rt.dpopJKT = "" then none else some rt.dpopJKT
  | refresh rt, _ => if rt.mtlsX5TS256 = "" then none else some rt.mtlsX5TS256

section
variable (h : ExchangeHandler) (s : TokenStore)

def SubjectToken.Live : SubjectToken → Prop
  | access claims => (s.revoked (textClaim claims "jti")).get s.now = none
  | refresh rt => rt.revokedAt = none ∧ s.now ≤ rt.expiresAt

structure SubjectKept (clientID : String) (subject : SubjectToken) (resp : TokenExchangeResponse) : Prop where
  live : subject.Live s
  issuedTo : ∀ rt, subject = .refresh rt → rt.clientID = clientID
  bound : ∀ m ∈ bindings, ∀ key, subject.boundTo m = some key →
    confirmedKey (resp.accessToken.claims.lookup "cnf") m = some key

def SameOrgKept (clientID : String) (r : ExchangeRequest) (resp : TokenExchangeResponse) : Prop :=
  ∃ subject, subjectOf h s r.orgSlug r = some subject ∧ SubjectKept s clientID subject resp

/-- The access token is not revoked, the refresh token is the client's, and neither is bound,
unless the mappers of the client set the same `cnf`. -/
def SubjectToken.keptCond (clientID : String) : SubjectToken → Bool
  | access claims =>
    ((s.revoked (textClaim claims "jti")).get s.now).isNone && bindings.all fun m =>
      ((SubjectToken.access claims).boundTo m).all fun key =>
        decide (confirmedKey (mappedClaim h s clientID (.access claims) "cnf") m = some key)
  | refresh rt => rt.clientID == clientID && bindings.all fun m => ((SubjectToken.refresh rt).boundTo m).isNone

def sameOrgCond (clientID : String) (r : ExchangeRequest) : Bool :=
  (subjectOf h s r.orgSlug r).all fun subject => subject.keptCond h s clientID

end

variable {subject : SubjectToken}

section
variable {slug requestedScope : String}

theorem sameOrgExchange_post (htc : SignsFor h.toOIDCHandler s.orgs r.orgSlug tc) :
    (sameOrgExchange h r clientID tc).Post (sem h.toOIDCHandler)
      (onOk fun resp _ => ∃ subject, Exchanged h s r r.orgSlug clientID r.scope tc subject resp) s :=
  .read (fun _ => rfl) fun _ => exchangeToken_post htc clientID r.scope _ tc

theorem Exchanged.tokenCnf
    (hx : Exchanged h s r slug clientID requestedScope tc subject resp) :
    resp.accessToken.claims.lookup "cnf" = mappedClaim h s clientID subject "cnf" := by
  obtain ⟨jti, aud, hclaim⟩ := hx.claim (k := "cnf") (by decide)
  rw [hclaim]
  cases mappedClaim h s clientID subject "cnf" with
  | none => rfl
  | some v => exact h.jwt.set_other "cnf" (by decide) v

theorem mappedClaim_refresh (rt k) : mappedClaim h s clientID (.refresh rt) k = none := by
  unfold mappedClaim subjectUser
  dsimp only
  cases rt.userID.bind (userOf s) with
  | none | some user => exact Finmap.lookup_empty k

theorem subjectKept_iff
    (hx : Exchanged h s r slug clientID requestedScope tc subject resp) :
    SubjectKept s clientID subject resp ↔ subject.keptCond h s clientID = true := by
  have hcnf := hx.tokenCnf
  cases subject with
  | access claims =>
    unfold keptCond
    rw [Bool.and_eq_true, Option.isNone_iff_eq_none, List.all_eq_true]
    simp only [Option.all_eq_true, decide_eq_true_eq, ← hcnf]
    constructor
    · exact fun hk => ⟨hk.live, hk.bound⟩
    · rintro ⟨hlive, hbound⟩
      exact ⟨hlive, fun rt hrt => (by cases hrt), hbound⟩
  | refresh rt =>
    rw [mappedClaim_refresh] at hcnf
    unfold keptCond
    rw [Bool.and_eq_true, beq_iff_eq, List.all_eq_true]
    simp only [Option.isNone_iff_eq_none]
    constructor
    · intro hk
      refine ⟨hk.issuedTo rt rfl, fun m hm => ?_⟩
      cases hb : (refresh rt).boundTo m with
      | none => rfl
      | some key =>
        have hkey := hk.bound m hm key hb
        rw [hcnf] at hkey
        cases hkey
    · rintro ⟨hclient, hunbound⟩
      refine ⟨hx.unexpired, ?_, fun m hm key hb => ?_⟩
      · rintro rt ⟨⟩
        exact hclient
      · rw [hunbound m hm] at hb
        cases hb

end

theorem same_org_exchange_iff (h : ExchangeHandler) (ω : Nat → Env) (r : ExchangeRequest) (s : TokenStore)
    (tc : MintConfig) (clientID : String) (resp : TokenExchangeResponse)
    (hsame : hasPrefix r.resource crossOrgURN = false)
    (hauth : (execAlone h.toOIDCHandler ω (exchangeClient h r) s).1 = .ok (tc, clientID))
    (hok : (execAlone h.toOIDCHandler ω (tokenExchange h r) s).1 = .ok resp) :
    SameOrgKept h s clientID r resp ↔ sameOrgCond h s clientID r = true := by
  have hpost := execAlone_bind (ω := ω) (exchangeClient_post (h := h) (s := s) r)
    (Q := fun resp _ => ∃ subject, Exchanged h s r r.orgSlug clientID r.scope tc subject resp)
    (f := fun a => if hasPrefix r.resource crossOrgURN then crossOrgExchange h r a.2 else sameOrgExchange h r a.2 a.1) ?_
  · rw [show (execAlone h.toOIDCHandler ω (exchangeClient h r >>= _) s).1 = .ok resp from hok] at hpost
    obtain ⟨subject, hx⟩ := hpost
    unfold SameOrgKept sameOrgCond
    rw [hx.read, all_some, ← subjectKept_iff hx]
    simp
  · rintro ⟨tc', clientID'⟩ t ha ⟨⟨j, rfl⟩, htc⟩
    rw [hauth] at ha
    cases ha
    rw [hsame]
    refine .mono ?_ (sameOrgExchange_post htc)
    rintro (e | resp) t' hx
    · exact trivial
    · obtain ⟨subject, hx⟩ := hx
      exact ⟨subject, hx.of_spent⟩

def freeRequest : ExchangeRequest := { orgSlug := "acme", clientID := "app", subjectToken := "free" }

theorem same_org_exchange_kept : ∃ resp, exchangeResult freeRequest exchangeStore = .ok resp ∧ resp.scope = "openid" ∧
    SameOrgKept exchangeHandler exchangeStore "app" freeRequest resp := by
  obtain ⟨resp, hok, hscope⟩ := exists_ok (f := fun resp => resp.scope)
    (show (exchangeResult freeRequest exchangeStore).toOption.map _ = some "openid" by decide +kernel)
  obtain ⟨⟨tc, clientID⟩, hauth, hclient⟩ := exists_ok (f := fun a => a.2)
    (show (exchangeCaller freeRequest exchangeStore).toOption.map _ = some "app" by decide +kernel)
  cases hclient
  refine ⟨resp, hok, hscope, ?_⟩
  rw [same_org_exchange_iff exchangeHandler smoothly freeRequest exchangeStore tc "app" resp (by decide +kernel) hauth hok]
  decide +kernel

def revokedStore : TokenStore :=
  { exchangeStore with revoked := Function.update exchangeStore.revoked "j1" (.set () (some 600)) }

def carriedKeys (x : Except TokenErr TokenExchangeResponse) : Option (List (Option String)) :=
  x.toOption.map fun resp => bindings.map (confirmedKey (resp.accessToken.claims.lookup "cnf"))

/-- A revoked access token, a refresh token of another client, and a token bound to a key. -/
theorem same_org_exchange_unkept :
    carriedScope (exchangeResult freeRequest revokedStore) = some "openid" ∧
    ((revokedStore.revoked "j1").get revokedStore.now).isSome = true ∧
    carriedScope (exchangeResult { freeRequest with subjectToken := "theirs", subjectTokenType := .refreshToken }
      exchangeStore) = some "openid" ∧
    (exchangeStore.refresh.find (·.tokenHash == exchangeHandler.hashString "theirs")).map (·.clientID) = some "spy" ∧
    carriedKeys (exchangeResult { freeRequest with subjectToken := "bound" } exchangeStore) = some [none, none] ∧
    (exchangeTokens "bound").map (fun t => confirmedKey (t.2.lookup "cnf") "jkt") = some (some "k1") := by
  decide +kernel

end Clavex

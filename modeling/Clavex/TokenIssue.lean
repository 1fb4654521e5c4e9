import Clavex.Models

/-!
# Issuing access and ID tokens

`IssueAccessToken` and `IssueIDToken` up to the signature. The JWT library's
builder collects pairs and sets them on an empty token in that order, so the last
pair of a name stands; setting one of the registered claims to a value of the wrong
type is an error. Extra claims are ranged over in no particular order.
-/

namespace Clavex

open List

/-! ## The token builder -/

def registeredClaims : List String := ["aud", "exp", "iat", "iss", "jti", "nbf", "sub"]

/-- What the JWT library's `Set` stores under a name, `none` for an error, and the JSON
of a list of maps. -/
structure JwtLib where
  set : String → Json → Option Json
  set_text : ∀ k ∈ ["iss", "jti", "sub"], ∀ s, set k (.str s) = some (.str s)
  set_aud : ∀ s, set "aud" (.arr [.str s]) = some (.arr [.str s])
  set_time : ∀ k ∈ ["exp", "iat", "nbf"], ∀ t, set k (.num t 0) = some (.num t 0)
  set_other : ∀ k ∉ registeredClaims, ∀ v, set k v = some v
  details : List (GoMap Json) → Json

def build (J : JwtLib) : List (String × Json) → GoMap Json → Option (GoMap Json)
  | [], t => some t
  | (k, v) :: ps, t =>
    match J.set k v with
    | none => none
    | some v' => build J ps (t.insert k v')

variable (J : JwtLib)

theorem build_append (ps qs t) : build J (ps ++ qs) t = (build J ps t).bind (build J qs) := by
  induction ps generalizing t with
  | nil => rfl
  | cons p ps ih =>
    obtain ⟨k, v⟩ := p
    simp only [cons_append, build]
    cases J.set k v with
    | none => rfl
    | some v' => exact ih _

theorem build_perm {ps qs} (h : ps.Perm qs) (hn : (ps.map (·.1)).Nodup) (t) :
    build J ps t = build J qs t := by
  induction h generalizing t with
  | nil => rfl
  | cons p _ ih =>
    rw [map_cons, nodup_cons] at hn
    obtain ⟨k, v⟩ := p
    simp only [build]
    cases J.set k v with
    | none => rfl
    | some v' => exact ih hn.2 _
  | swap p q l =>
    have hne : q.1 ≠ p.1 := by
      simp only [map_cons, nodup_cons, mem_cons, not_or] at hn
      exact hn.1.1
    simp only [build]
    cases J.set p.1 p.2 <;> cases J.set q.1 q.2
    · rfl
    · rfl
    · rfl
    · simp only [Finmap.insert_insert_of_ne _ hne]
  | trans h₁ _ ih₁ ih₂ => rw [ih₁ hn, ih₂ ((h₁.map _).nodup_iff.mp hn)]

def rangePairs (l : List (Sigma fun _ : String => Json)) : List (String × Json) := l.map fun kv => (kv.1, kv.2)

theorem rangePairs_keys (l : List (Sigma fun _ : String => Json)) : (rangePairs l).map (·.1) = l.keys := by
  unfold rangePairs
  rw [map_map]
  rfl

def buildRange (base : List (String × Json)) (extra : GoMap Json) (rest : List (String × Json)) :
    Option (GoMap Json) :=
  extra.liftOn (fun l => build J (base ++ rangePairs l.entries ++ rest) ∅) <| by
    intro l l' hp
    have hn : ((rangePairs l.entries).map (·.1)).Nodup := by rw [rangePairs_keys]; exact l.nodupKeys
    have hpairs : build J (rangePairs l.entries) = build J (rangePairs l'.entries) :=
      funext fun t => build_perm J (hp.map _) hn t
    simp only [build_append, hpairs]

/-! ## Tokens -/

inductive Keys where
  | server
  | tenant (org : UUID)
  deriving DecidableEq

structure MintConfig where
  keys : Keys
  issuer : String
  (accessTokenTTL refreshTokenTTL idTokenTTL : Int)

structure UserClaims where
  (userID orgID email : String)
  (firstName lastName : String := "")
  (roles groups : List String := [])
  extraClaims : GoMap Json := ∅
  authTime : Int := 0
  (atHash cHash : String := "")
  authorizationDetails : List (GoMap Json) := []
  (acr reqClaims : String := "")

structure DPoPKey where
  (jkt jti : String)
  (alg ath : String := "")

structure MTLSCert where
  x5ts256 : String

structure Signed where
  keys : Keys
  alg : String
  claims : GoMap Json

def pairIf (c : Prop) [Decidable c] (k : String) (v : Json) : List (String × Json) := if c then [(k, v)] else []

def confirmation (dpop : Option DPoPKey) (mtls : Option MTLSCert) : List (String × Json) :=
  (match dpop with
    | some k => [("jkt", .str k.jkt)]
    | none => []) ++
  match mtls with
  | some c => [("x5t#S256", .str c.x5ts256)]
  | none => []

def accessBase (tc : MintConfig) (now : Int) (jti clientID scope : String) (user : Option UserClaims) :
    List (String × Json) :=
  [("jti", .str jti), ("iss", .str tc.issuer), ("aud", .arr [.str clientID]), ("iat", .num now 0),
    ("exp", .num (now + tc.accessTokenTTL) 0), ("scope", .str scope)] ++
  match user with
  | some u =>
    [("sub", .str u.userID), ("org_id", .str u.orgID), ("email", .str u.email),
      ("realm_access", .obj [("roles", .arr (u.roles.map .str))]), ("groups", .arr (u.groups.map .str))]
  | none => [("sub", .str clientID), ("client_id", .str clientID)]

def accessRest (user : Option UserClaims) (dpop : Option DPoPKey) (mtls : Option MTLSCert) :
    List (String × Json) :=
  (match user with
    | some u =>
      pairIf (u.authorizationDetails ≠ []) "authorization_details" (J.details u.authorizationDetails) ++
        pairIf (u.reqClaims ≠ "") "req_claims" (.str u.reqClaims)
    | none => []) ++
  pairIf (confirmation dpop mtls ≠ []) "cnf" (.obj (confirmation dpop mtls))

def extraOf (user : Option UserClaims) : GoMap Json :=
  match user with
  | some u => u.extraClaims
  | none => ∅

/-- `jti` is the fresh UUID. The pair is the signed token and the `jti` returned with it. -/
def issueAccessToken (tc : MintConfig) (now : Int) (jti clientID scope : String)
    (user : Option UserClaims) (dpop : Option DPoPKey) (mtls : Option MTLSCert) (signFails : Bool) :
    Option (Signed × String) :=
  match buildRange J (accessBase tc now jti clientID scope user) (extraOf user) (accessRest J user dpop mtls) with
  | none => none
  | some claims => if signFails then none else some (⟨tc.keys, "PS256", claims⟩, jti)

def resolveIDTokenAlg (alg : String) : String :=
  if alg = "RS256" then "RS256" else if alg = "ES256" then "ES256" else "PS256"

def idBase (tc : MintConfig) (now : Int) (jti clientID nonce : String) (user : UserClaims) : List (String × Json) :=
  [("jti", .str jti), ("iss", .str tc.issuer), ("sub", .str user.userID), ("aud", .arr [.str clientID]),
    ("iat", .num now 0), ("exp", .num (now + tc.idTokenTTL) 0)] ++
  pairIf (nonce ≠ "") "nonce" (.str nonce) ++
  pairIf (0 < user.authTime) "auth_time" (.num user.authTime 0) ++
  pairIf (user.acr ≠ "") "acr" (.str user.acr) ++
  pairIf (user.atHash ≠ "") "at_hash" (.str user.atHash) ++
  pairIf (user.cHash ≠ "") "c_hash" (.str user.cHash)

def issueIDToken (tc : MintConfig) (now : Int) (jti clientID nonce : String) (user : UserClaims)
    (alg : String) (signFails : Bool) : Option Signed :=
  match buildRange J (idBase tc now jti clientID nonce user) user.extraClaims [] with
  | none => none
  | some claims => if signFails then none else some ⟨tc.keys, alg, claims⟩

/-! ## Protocol mappers -/

inductive MapperType where
  | userProperty
  | userAttribute
  | hardcoded
  | roleList
  | groupMembership
  | other

structure Mapper where
  mapperType : MapperType
  claimName : String
  (attributeName claimValue : Option String := none)
  addToAccessToken : Bool := true

def mapperClaim (uc : UserClaims) (metadata : GoMap Json) (m : Mapper) : Option Json :=
  match m.mapperType with
  | .userProperty =>
    match m.attributeName with
    | some "email" => some (.str uc.email)
    | some "first_name" => some (.str uc.firstName)
    | some "last_name" => some (.str uc.lastName)
    | some "sub" => some (.str uc.userID)
    | _ => none
  | .userAttribute => m.attributeName.bind fun a => metadata.lookup a
  | .hardcoded => m.claimValue.map .str
  | .roleList => some (.arr (uc.roles.map .str))
  | .groupMembership => some (.arr (uc.groups.map .str))
  | .other => none

def resolveMapperExtraClaims (mappers : Option (List Mapper)) (uc : UserClaims) (metadata : GoMap Json) :
    GoMap Json :=
  (mappers.getD []).foldl (fun extra m =>
    if m.addToAccessToken then
      match mapperClaim uc metadata m with
      | some v => extra.insert m.claimName v
      | none => extra
    else extra) ∅

/-! ## Setting pairs in order -/

open Option

section
variable {J : JwtLib} {ps : List (String × Json)} {t t' : GoMap Json} {k : String} {v : Json}

theorem lookup_build_of_notMem (h : build J ps t = some t') (hk : k ∉ ps.map (·.1)) : t'.lookup k = t.lookup k := by
  induction ps generalizing t with
  | nil => cases h; rfl
  | cons p ps ih =>
    obtain ⟨k', v'⟩ := p
    simp only [map_cons, mem_cons, not_or] at hk
    simp only [build] at h
    split at h
    · cases h
    · rw [ih h hk.2, Finmap.lookup_insert_of_ne _ hk.1]

theorem lookup_build_of_mem (hn : (ps.map (·.1)).Nodup) (h : build J ps t = some t') (hp : (k, v) ∈ ps) :
    t'.lookup k = J.set k v := by
  induction ps generalizing t with
  | nil => cases hp
  | cons p ps ih =>
    rw [map_cons, nodup_cons] at hn
    simp only [build] at h
    split at h
    · cases h
    · rename_i w hw
      rcases mem_cons.mp hp with rfl | hp
      · rw [lookup_build_of_notMem h hn.1, Finmap.lookup_insert, hw]
      · exact ih hn.2 h hp

theorem build_eq_none : build J ps t = none ↔ ∃ p ∈ ps, J.set p.1 p.2 = none := by
  induction ps generalizing t with
  | nil => simp [build]
  | cons p ps ih =>
    simp only [build, exists_mem_cons_iff]
    cases hp : J.set p.1 p.2 with
    | none => simp
    | some w => simp [ih]

theorem mem_of_lookup (h : ps.lookup k = some v) : (k, v) ∈ ps := by
  induction ps with
  | nil => cases h
  | cons p ps ih =>
    rw [lookup_cons] at h
    split at h
    · rename_i hk
      cases h
      rw [eq_of_beq hk]
      exact mem_cons_self
    · exact mem_cons_of_mem _ (ih h)

theorem notMem_of_lookup (h : ps.lookup k = none) : k ∉ ps.map (·.1) := by
  rw [List.mem_map]
  rintro ⟨p, hp, rfl⟩
  exact absurd (lookup_eq_none_iff.mp h p hp) (by simp)

theorem lookup_build (hs : ∀ p ∈ ps, J.set p.1 p.2 = some p.2) (hn : (ps.map (·.1)).Nodup)
    (h : build J ps t = some t') : t'.lookup k = (ps.lookup k).or (t.lookup k) := by
  cases hk : ps.lookup k with
  | none => rw [lookup_build_of_notMem h (notMem_of_lookup hk)]; rfl
  | some v =>
    have hm := mem_of_lookup hk
    rw [lookup_build_of_mem hn h hm, hs _ hm]
    rfl

theorem mem_rangePairs (l : AList fun _ : String => Json) : (k, v) ∈ rangePairs l.entries ↔ l.lookup k = some v := by
  rw [← mem_def, AList.mem_lookup_iff]
  constructor
  · intro h
    obtain ⟨kv, hkv, heq⟩ := mem_map.mp h
    cases heq
    exact hkv
  · intro h
    exact mem_map.mpr ⟨⟨k, v⟩, h, rfl⟩

end

/-! ## Protected claims -/

def protectedClaims : List String := ["sub", "iss", "aud", "exp", "iat", "jti", "scope", "org_id", "cnf"]

def Rejected (J : JwtLib) (extra : GoMap Json) : Prop := ∃ k v, extra.lookup k = some v ∧ J.set k v = none

section
variable {J : JwtLib} {base rest : List (String × Json)} {extra t : GoMap Json} {k : String}

structure Plain (J : JwtLib) (ps : List (String × Json)) : Prop where
  stored : ∀ p ∈ ps, J.set p.1 p.2 = some p.2
  nodup : (ps.map (·.1)).Nodup

theorem plain_nil : Plain J [] := ⟨by simp, nodup_nil⟩

theorem lookup_buildRange (hb : Plain J base) (hr : Plain J rest) (h : buildRange J base extra rest = some t) :
    t.lookup k = (rest.lookup k).or (match extra.lookup k with
      | some v => J.set k v
      | none => base.lookup k) := by
  induction extra using Finmap.induction_on with | _ l
  have hl : ((rangePairs l.entries).map (·.1)).Nodup := by rw [rangePairs_keys]; exact l.nodupKeys
  simp only [buildRange, Finmap.liftOn_toFinmap, build_append, bind_eq_some_iff] at h
  obtain ⟨t₂, ⟨t₁, h₁, h₂⟩, h₃⟩ := h
  rw [lookup_build hr.stored hr.nodup h₃, Finmap.lookup_toFinmap]
  congr 1
  cases hk : l.lookup k with
  | some v => exact lookup_build_of_mem hl h₂ ((mem_rangePairs l).mpr hk)
  | none =>
    have hnot : k ∉ (rangePairs l.entries).map (·.1) := by
      intro hm
      obtain ⟨⟨_, v⟩, hp, rfl⟩ := mem_map.mp hm
      rw [(mem_rangePairs l).mp hp] at hk
      cases hk
    rw [lookup_build_of_notMem h₂ hnot, lookup_build hb.stored hb.nodup h₁, Finmap.lookup_empty, or_none]

theorem buildRange_eq_none (hb : Plain J base) (hr : Plain J rest) :
    buildRange J base extra rest = none ↔ Rejected J extra := by
  induction extra using Finmap.induction_on with | _ l
  have hplain : ∀ {ps : List (String × Json)}, Plain J ps → ¬ ∃ p ∈ ps, J.set p.1 p.2 = none := by
    rintro ps hps ⟨p, hp, hnone⟩
    rw [hps.stored p hp] at hnone
    cases hnone
  simp only [buildRange, Finmap.liftOn_toFinmap, build_eq_none, mem_append, or_and_right, exists_or]
  unfold Rejected
  simp only [Finmap.lookup_toFinmap, ← mem_rangePairs]
  constructor
  · rintro ((h | ⟨p, hp, hnone⟩) | h)
    · exact absurd h (hplain hb)
    · exact ⟨p.1, p.2, hp, hnone⟩
    · exact absurd h (hplain hr)
  · rintro ⟨k, v, hp, hnone⟩
    exact .inl (.inr ⟨(k, v), hp, hnone⟩)

theorem buildRange_carries (extra) {expected : String → Option Json} (hb : Plain J base) (hr : Plain J rest)
    (hexp : ∀ k ∈ protectedClaims, (rest ++ base).lookup k = expected k) :
    (∀ t, buildRange J base extra rest = some t → ∀ k ∈ protectedClaims, t.lookup k = expected k) ↔
      Rejected J extra ∨ ∀ k ∈ protectedClaims, rest.lookup k = none →
        ∀ v, extra.lookup k = some v → J.set k v = expected k := by
  constructor
  · intro h
    cases ht : buildRange J base extra rest with
    | none => exact .inl ((buildRange_eq_none hb hr).mp ht)
    | some t =>
      refine .inr fun k hk hnone v hv => ?_
      rw [← h t ht k hk, lookup_buildRange hb hr ht, hnone, hv]
      rfl
  · rintro h t ht k hk
    rcases h with h | h
    · rw [(buildRange_eq_none hb hr).mpr h] at ht
      cases ht
    · rw [lookup_buildRange hb hr ht]
      cases hrest : rest.lookup k with
      | some v => rw [← hexp k hk, lookup_append, hrest]; rfl
      | none =>
        rw [none_or]
        cases hv : extra.lookup k with
        | some v => exact h k hk hrest v hv
        | none =>
          rw [← hexp k hk, lookup_append, hrest]
          rfl

end

/-! ## Access tokens and ID tokens -/

def accessClaims (tc : MintConfig) (now : Int) (jti clientID scope : String) (user : Option UserClaims)
    (dpop : Option DPoPKey) (mtls : Option MTLSCert) : String → Option Json
  | "sub" => some (.str (match user with | some u => u.userID | none => clientID))
  | "iss" => some (.str tc.issuer)
  | "aud" => some (.arr [.str clientID])
  | "exp" => some (.num (now + tc.accessTokenTTL) 0)
  | "iat" => some (.num now 0)
  | "jti" => some (.str jti)
  | "scope" => some (.str scope)
  | "org_id" => user.map fun u => .str u.orgID
  | "cnf" => if confirmation dpop mtls = [] then none else some (.obj (confirmation dpop mtls))
  | _ => none

def idClaims (tc : MintConfig) (now : Int) (jti clientID : String) (user : UserClaims) : String → Option Json
  | "sub" => some (.str user.userID)
  | "iss" => some (.str tc.issuer)
  | "aud" => some (.arr [.str clientID])
  | "exp" => some (.num (now + tc.idTokenTTL) 0)
  | "iat" => some (.num now 0)
  | "jti" => some (.str jti)
  | _ => none

section
variable {J : JwtLib} {c : Prop} [Decidable c] {k k' : String} {v : Json}

theorem stored_pairIf (h : J.set k v = some v) : ∀ p ∈ pairIf c k v, J.set p.1 p.2 = some p.2 := by
  unfold pairIf
  split
  · simpa using h
  · simp

theorem keys_pairIf : ((pairIf c k v).map (·.1)).Sublist [k] := by
  unfold pairIf
  split
  · exact Sublist.refl _
  · exact nil_sublist _

theorem lookup_pairIf : (pairIf c k v).lookup k' = if c ∧ k' = k then some v else none := by
  unfold pairIf
  by_cases hk : k' = k
  · subst hk; split <;> simp [*]
  · have hb : (k' == k) = false := beq_eq_false_iff_ne.mpr hk
    split <;> simp [lookup_cons, hb, hk]

end

section
variable (J : JwtLib) (tc : MintConfig) (now : Int) (jti clientID scope nonce : String) (user : Option UserClaims)
  (uc : UserClaims) (dpop : Option DPoPKey) (mtls : Option MTLSCert)

theorem accessBase_plain : Plain J (accessBase tc now jti clientID scope user) := by
  unfold accessBase
  constructor
  · cases user <;> simp [J.set_text, J.set_aud, J.set_time, J.set_other, registeredClaims]
  · cases user <;> simp

theorem accessRest_plain : Plain J (accessRest J user dpop mtls) := by
  have other : ∀ k ∉ registeredClaims, ∀ (c : Prop) [Decidable c] v, ∀ p ∈ pairIf c k v, J.set p.1 p.2 = some p.2 :=
    fun k hk c _ v => stored_pairIf (J.set_other k hk v)
  unfold accessRest
  cases user with
  | none =>
    refine ⟨?_, ?_⟩
    · exact other _ (by decide) _ _
    · exact keys_pairIf.nodup (nodup_singleton _)
  | some u =>
    refine ⟨?_, ?_⟩
    · simp only [forall_mem_append]
      exact ⟨⟨other _ (by decide) _ _, other _ (by decide) _ _⟩, other _ (by decide) _ _⟩
    · simp only [map_append]
      exact ((keys_pairIf.append keys_pairIf).append keys_pairIf).nodup (by decide)

theorem accessClaims_eq :
    ∀ k ∈ protectedClaims, (accessRest J user dpop mtls ++ accessBase tc now jti clientID scope user).lookup k =
      accessClaims tc now jti clientID scope user dpop mtls k := by
  intro k hk
  simp only [protectedClaims, mem_cons, not_mem_nil, or_false] at hk
  unfold accessRest accessBase
  rcases hk with rfl | rfl | rfl | rfl | rfl | rfl | rfl | rfl | rfl <;> cases user <;>
    simp [accessClaims, lookup_append, lookup_pairIf, lookup_cons]

theorem idBase_plain : Plain J (idBase tc now jti clientID nonce uc) := by
  have other : ∀ k ∉ registeredClaims, ∀ (c : Prop) [Decidable c] v, ∀ p ∈ pairIf c k v, J.set p.1 p.2 = some p.2 :=
    fun k hk c _ v => stored_pairIf (J.set_other k hk v)
  unfold idBase
  refine ⟨?_, ?_⟩
  · simp only [forall_mem_append]
    refine ⟨⟨⟨⟨⟨?_, other _ (by decide) _ _⟩, other _ (by decide) _ _⟩, other _ (by decide) _ _⟩,
      other _ (by decide) _ _⟩, other _ (by decide) _ _⟩
    simp [J.set_text, J.set_aud, J.set_time]
  · simp only [map_append, map_cons, map_nil]
    exact ((((((Sublist.refl _).append keys_pairIf).append keys_pairIf).append keys_pairIf).append
      keys_pairIf).append keys_pairIf).nodup (by decide)

theorem idClaims_eq :
    ∀ k ∈ protectedClaims, ([] ++ idBase tc now jti clientID nonce uc).lookup k = idClaims tc now jti clientID uc k := by
  intro k hk
  simp only [protectedClaims, mem_cons, not_mem_nil, or_false] at hk
  unfold idBase
  rcases hk with rfl | rfl | rfl | rfl | rfl | rfl | rfl | rfl | rfl <;>
    simp [idClaims, lookup_append, lookup_pairIf, lookup_cons]

variable {J tc now jti clientID scope nonce user uc dpop mtls}

variable {signFails : Bool} {tok : Signed}

theorem issueAccessToken_some {r} :
    issueAccessToken J tc now jti clientID scope user dpop mtls signFails = some r ↔
      signFails = false ∧ r.1.keys = tc.keys ∧ r.1.alg = "PS256" ∧ r.2 = jti ∧
        buildRange J (accessBase tc now jti clientID scope user) (extraOf user) (accessRest J user dpop mtls) =
          some r.1.claims := by
  obtain ⟨⟨keys, alg, claims⟩, j⟩ := r
  unfold issueAccessToken
  cases buildRange J (accessBase tc now jti clientID scope user) (extraOf user) (accessRest J user dpop mtls) with
  | none => simp
  | some t =>
    cases signFails with
    | true => simp
    | false =>
      simp only [Bool.false_eq_true, ite_false, Option.some.injEq, Prod.mk.injEq, Signed.mk.injEq, true_and]
      constructor
      · rintro ⟨⟨rfl, rfl, rfl⟩, rfl⟩; exact ⟨rfl, rfl, rfl, rfl⟩
      · rintro ⟨rfl, rfl, rfl, rfl⟩; exact ⟨⟨rfl, rfl, rfl⟩, rfl⟩

theorem issueAccessToken_none :
    issueAccessToken J tc now jti clientID scope user dpop mtls signFails = none ↔
      signFails = true ∨ Rejected J (extraOf user) := by
  rw [← buildRange_eq_none (accessBase_plain J tc now jti clientID scope user) (accessRest_plain J user dpop mtls)]
  unfold issueAccessToken
  cases buildRange J (accessBase tc now jti clientID scope user) (extraOf user) (accessRest J user dpop mtls) with
  | none => simp
  | some t => cases signFails <;> simp

theorem issueIDToken_some {alg} :
    issueIDToken J tc now jti clientID nonce uc alg signFails = some tok ↔
      signFails = false ∧ tok.keys = tc.keys ∧ tok.alg = alg ∧
        buildRange J (idBase tc now jti clientID nonce uc) uc.extraClaims [] = some tok.claims := by
  obtain ⟨keys, alg', claims⟩ := tok
  unfold issueIDToken
  cases buildRange J (idBase tc now jti clientID nonce uc) uc.extraClaims [] with
  | none => simp
  | some t => cases signFails <;> simp [eq_comm]

theorem issueAccessToken_claim {j k}
    (h : issueAccessToken J tc now jti clientID scope user dpop mtls signFails = some (tok, j))
    (hk : k ∈ protectedClaims) (hx : (extraOf user).lookup k = none) :
    tok.claims.lookup k = accessClaims tc now jti clientID scope user dpop mtls k := by
  obtain ⟨-, -, -, -, ht⟩ := issueAccessToken_some.mp h
  rw [lookup_buildRange (accessBase_plain ..) (accessRest_plain ..) ht, hx, ← accessClaims_eq J _ _ _ _ _ _ _ _ k hk,
    lookup_append]

end

/-! ## When extra claims leave the protected ones alone -/

theorem lookup_accessRest (J user dpop mtls) {k} (hk : k ∈ protectedClaims) :
    (accessRest J user dpop mtls).lookup k = none ↔ (k = "cnf" → confirmation dpop mtls = []) := by
  simp only [protectedClaims, mem_cons, not_mem_nil, or_false] at hk
  unfold accessRest
  rcases hk with rfl | rfl | rfl | rfl | rfl | rfl | rfl | rfl | rfl <;> cases user <;>
    simp [lookup_append, lookup_pairIf]

theorem protected_claims_iff (J : JwtLib) (tc : MintConfig) (now now' : Int) (jti jti' clientID scope nonce alg : String)
    (user : Option UserClaims) (uc : UserClaims) (dpop : Option DPoPKey) (mtls : Option MTLSCert)
    (signFails signFails' : Bool) :
    ((∀ tok j, issueAccessToken J tc now jti clientID scope user dpop mtls signFails = some (tok, j) →
        tok.claims.lookup "jti" = some (.str j) ∧
        ∀ k ∈ protectedClaims, tok.claims.lookup k = accessClaims tc now jti clientID scope user dpop mtls k) ↔
      signFails = true ∨ Rejected J (extraOf user) ∨
        ∀ k ∈ protectedClaims, (k = "cnf" → confirmation dpop mtls = []) → ∀ v, (extraOf user).lookup k = some v →
          J.set k v = accessClaims tc now jti clientID scope user dpop mtls k) ∧
    ((∀ tok, issueIDToken J tc now' jti' clientID nonce uc alg signFails' = some tok →
        ∀ k ∈ protectedClaims, tok.claims.lookup k = idClaims tc now' jti' clientID uc k) ↔
      signFails' = true ∨ Rejected J uc.extraClaims ∨
        ∀ k ∈ protectedClaims, ∀ v, uc.extraClaims.lookup k = some v →
          J.set k v = idClaims tc now' jti' clientID uc k) := by
  constructor
  · have key := buildRange_carries (extraOf user) (accessBase_plain J tc now jti clientID scope user)
      (accessRest_plain J user dpop mtls) (accessClaims_eq J tc now jti clientID scope user dpop mtls)
    constructor
    · intro h
      cases signFails with
      | true => exact .inl rfl
      | false =>
        refine .inr ((key.mp fun t ht => ?_).imp_right fun hx k hk hc => hx k hk ((lookup_accessRest _ _ _ _ hk).mpr hc))
        exact (h ⟨tc.keys, "PS256", t⟩ jti (issueAccessToken_some.mpr ⟨rfl, rfl, rfl, rfl, ht⟩)).2
    · rintro h tok j htok
      obtain ⟨rfl, -, -, rfl, ht⟩ := issueAccessToken_some.mp htok
      have hall := key.mpr ((h.resolve_left (by decide)).imp_right fun hx k hk hc =>
        hx k hk ((lookup_accessRest _ _ _ _ hk).mp hc)) _ ht
      exact ⟨hall "jti" (by decide), hall⟩
  · have key := buildRange_carries uc.extraClaims (idBase_plain J tc now' jti' clientID nonce uc) plain_nil
      (idClaims_eq tc now' jti' clientID nonce uc)
    simp only [lookup_nil, forall_const] at key
    constructor
    · intro h
      cases signFails' with
      | true => exact .inl rfl
      | false =>
        exact .inr (key.mp fun t ht => h ⟨tc.keys, alg, t⟩ (issueIDToken_some.mpr ⟨rfl, rfl, rfl, ht⟩))
    · rintro h tok htok
      obtain ⟨rfl, -, -, ht⟩ := issueIDToken_some.mp htok
      exact key.mpr (h.resolve_left (by decide)) _ ht

/-! ## A mapper that names the subject -/

def jwx : JwtLib where
  set k v :=
    if k = "iss" ∨ k = "jti" ∨ k = "sub" then v.asString.map .str
    else if k = "aud" then
      match v with
      | .str s => some (.arr [.str s])
      | .arr l => if l.all (·.asString.isSome) then some v else none
      | _ => none
    else if k = "exp" ∨ k = "iat" ∨ k = "nbf" then
      match v with
      | .num m e => some (.num (m / 10 ^ e) 0)
      | _ => none
    else some v
  set_text := by
    intro k hk s
    simp only [List.mem_cons, List.not_mem_nil, or_false] at hk
    simp [hk, Json.asString]
  set_aud := fun s => by simp [Json.asString]
  set_time := by
    intro k hk t
    simp only [List.mem_cons, List.not_mem_nil, or_false] at hk
    rcases hk with rfl | rfl | rfl <;> simp
  set_other := by
    intro k hk v
    simp only [registeredClaims, List.mem_cons, List.not_mem_nil, or_false, not_or] at hk
    simp [hk]
  details := fun l => .num l.length 0

def mappedUser : UserClaims :=
  let uc : UserClaims := { userID := "alice", orgID := "acme", email := "alice@acme" }
  let mappers : List Mapper :=
    [{ mapperType := .hardcoded, claimName := "sub", claimValue := some "root" },
      { mapperType := .hardcoded, claimName := "jti", claimValue := some "0" }]
  { uc with extraClaims := resolveMapperExtraClaims (some mappers) uc ∅ }

theorem mapper_overrides_subject :
    ((issueAccessToken jwx ⟨.server, "https://id/acme", 300, 3600, 300⟩ 0 "fresh" "app" "openid" (some mappedUser) none
        none false).any fun r =>
      (r.1.claims.lookup "sub").bind Json.asString == some "root" &&
        (r.1.claims.lookup "jti").bind Json.asString == some "0" && r.2 == "fresh") = true ∧
    ((issueIDToken jwx ⟨.server, "https://id/acme", 300, 3600, 300⟩ 0 "fresh" "app" "" mappedUser "PS256" false).any
      fun tok => (tok.claims.lookup "sub").bind Json.asString == some "root") = true := by
  decide +kernel

end Clavex

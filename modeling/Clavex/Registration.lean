import Clavex.Federation
import Clavex.Strings

/-!
# Registering a relying party

`buildRegistrationData` filters what the relying party asks for by the metadata policies of
its trust chain. An empty list of grant or response types is replaced by a default before
the policies apply, an empty list of scopes after them.
-/

namespace Clavex

open List

/-- The `openid_relying_party` metadata. `jwks` is the raw JSON, empty when there is none. -/
structure RPOIDCMetadata where
  (redirectURIs postLogoutRedirectURIs grantTypes responseTypes : List String := [])
  (scope clientName logoURI : String := "")
  contacts : List String := []
  (jwksURI jwks tokenEndpointAuthMethod : String := "")

structure RPRegistrationData where
  (entityID name : String)
  (redirectURIs postLogoutRedirectURIs grantTypes responseTypes scopes contacts : List String)
  (logoURI jwksURI jwks tokenEndpointAuthMethod : String)

def parseScopes (scope : String) : List String := if scope = "" then [] else fields scope

def applySubsetPolicy (values subset : List String) : List String :=
  if subset = [] then values else values.filter fun v => decide (v ∈ subset)

def applyPolicies (subset : RPMetadataPolicy → List String) (policies : List RPMetadataPolicy)
    (values : List String) : List String :=
  policies.foldl (fun vs p => applySubsetPolicy vs (subset p)) values

def defaultIfEmpty (values : List String) (default : String) : List String := if values = [] then [default] else values

def buildRegistrationData (entityID : String) (rp : RPOIDCMetadata) (rpECJWKS : String)
    (policies : List RPMetadataPolicy) : RPRegistrationData where
  entityID := entityID
  name := if rp.clientName = "" then entityID else rp.clientName
  redirectURIs := rp.redirectURIs
  postLogoutRedirectURIs := rp.postLogoutRedirectURIs
  grantTypes := applyPolicies (·.grantTypesSubset) policies (defaultIfEmpty rp.grantTypes "authorization_code")
  responseTypes := applyPolicies (·.responseTypesSubset) policies (defaultIfEmpty rp.responseTypes "code")
  scopes := defaultIfEmpty (applyPolicies (·.scopeSubset) policies (parseScopes rp.scope)) "openid"
  contacts := rp.contacts
  logoURI := rp.logoURI
  jwksURI := rp.jwksURI
  -- the federation key signs statements, so it is the last resort
  jwks := if rp.jwks = "" ∧ rp.jwksURI = "" then rpECJWKS else rp.jwks
  tokenEndpointAuthMethod :=
    if rp.tokenEndpointAuthMethod = "" ∨ rp.tokenEndpointAuthMethod = "private_key_jwt" ∨
      rp.tokenEndpointAuthMethod = "none" then "private_key_jwt" else rp.tokenEndpointAuthMethod

/-! ## What the policies allow -/

def AllowedBy (subset : RPMetadataPolicy → List String) (policies : List RPMetadataPolicy) (v : String) : Prop :=
  ∀ p ∈ policies, subset p ≠ [] → v ∈ subset p

instance (subset : RPMetadataPolicy → List String) (policies : List RPMetadataPolicy) (v : String) :
    Decidable (AllowedBy subset policies v) :=
  inferInstanceAs (Decidable (∀ p ∈ policies, subset p ≠ [] → v ∈ subset p))

structure WithinPolicies (policies : List RPMetadataPolicy) (d : RPRegistrationData) : Prop where
  scopes : ∀ s ∈ d.scopes, AllowedBy (·.scopeSubset) policies s
  grantTypes : ∀ g ∈ d.grantTypes, AllowedBy (·.grantTypesSubset) policies g
  responseTypes : ∀ t ∈ d.responseTypes, AllowedBy (·.responseTypesSubset) policies t

section
variable {subset : RPMetadataPolicy → List String} {policies policies' : List RPMetadataPolicy} {v : String}

theorem AllowedBy.perm (h : policies'.Perm policies) : AllowedBy subset policies' v ↔ AllowedBy subset policies v := by
  unfold AllowedBy
  simp only [h.mem_iff]

theorem applySubsetPolicy_eq_filter (values l) :
    applySubsetPolicy values l = values.filter fun v => decide (l ≠ [] → v ∈ l) := by
  unfold applySubsetPolicy
  split
  · rename_i hl
    rw [filter_eq_self.mpr]
    intro a _
    exact decide_eq_true fun hne => absurd hl hne
  · rename_i hl
    apply filter_congr
    intro a _
    simp [hl]

theorem applyPolicies_eq_filter (values) :
    applyPolicies subset policies values = values.filter fun v => decide (AllowedBy subset policies v) := by
  induction policies generalizing values with
  | nil =>
    symm
    apply filter_eq_self.mpr
    intro a _
    exact decide_eq_true fun p hp => by cases hp
  | cons p policies ih =>
    have hstep : applyPolicies subset (p :: policies) values =
        applyPolicies subset policies (applySubsetPolicy values (subset p)) := rfl
    rw [hstep, ih, applySubsetPolicy_eq_filter, filter_filter]
    apply filter_congr
    intro a _
    rw [← Bool.decide_and]
    apply decide_eq_decide.mpr
    unfold AllowedBy
    rw [forall_mem_cons]
    exact And.comm

theorem applyPolicies_perm (h : policies'.Perm policies) (values) :
    applyPolicies subset policies' values = applyPolicies subset policies values := by
  rw [applyPolicies_eq_filter, applyPolicies_eq_filter]
  apply filter_congr
  intro a _
  exact decide_eq_decide.mpr (AllowedBy.perm h)

theorem mem_applyPolicies {values} :
    v ∈ applyPolicies subset policies values ↔ v ∈ values ∧ AllowedBy subset policies v := by
  rw [applyPolicies_eq_filter, mem_filter, decide_eq_true_eq]

end

theorem mem_parseScopes {scope s} : s ∈ parseScopes scope ↔ s ∈ fields scope := by
  unfold parseScopes
  split
  · rename_i h
    rw [h]
    rfl
  · rfl

theorem scopes_within_iff (policies values) :
    (∀ s ∈ defaultIfEmpty (applyPolicies (·.scopeSubset) policies values) "openid",
        AllowedBy (·.scopeSubset) policies s) ↔
      (∃ s ∈ values, AllowedBy (·.scopeSubset) policies s) ∨ AllowedBy (·.scopeSubset) policies "openid" := by
  unfold defaultIfEmpty
  split
  · rename_i hnil
    have hnone : ¬ ∃ s ∈ values, AllowedBy (·.scopeSubset) policies s := by
      intro hs
      obtain ⟨s, hs, ha⟩ := hs
      have hmem := mem_applyPolicies.mpr ⟨hs, ha⟩
      rw [hnil] at hmem
      cases hmem
    simp [hnone]
  · rename_i hne
    have hall : ∀ s ∈ applyPolicies (·.scopeSubset) policies values, AllowedBy (·.scopeSubset) policies s :=
      fun s hs => (mem_applyPolicies.mp hs).2
    obtain ⟨s, hs⟩ := exists_mem_of_ne_nil _ hne
    exact iff_of_true hall (.inl ⟨s, mem_applyPolicies.mp hs⟩)

/-- What is registered is within every policy, in whatever order they were collected, exactly
when a requested scope or `openid` is. -/
theorem registration_within_policies_iff (entityID : String) (rp : RPOIDCMetadata) (rpECJWKS : String)
    (policies : List RPMetadataPolicy) :
    (WithinPolicies policies (buildRegistrationData entityID rp rpECJWKS policies) ∧
        ∀ policies' : List RPMetadataPolicy, policies'.Perm policies →
          buildRegistrationData entityID rp rpECJWKS policies' =
            buildRegistrationData entityID rp rpECJWKS policies) ↔
      (∃ s ∈ fields rp.scope, AllowedBy (·.scopeSubset) policies s) ∨
        AllowedBy (·.scopeSubset) policies "openid" := by
  have hscopes := scopes_within_iff policies (parseScopes rp.scope)
  simp only [mem_parseScopes] at hscopes
  constructor
  · intro h
    exact hscopes.mp h.1.scopes
  · intro h
    refine ⟨⟨hscopes.mpr h, ?_, ?_⟩, fun policies' hp => ?_⟩
    · exact fun g hg => (mem_applyPolicies.mp hg).2
    · exact fun t ht => (mem_applyPolicies.mp ht).2
    · unfold buildRegistrationData
      simp only [applyPolicies_perm hp]

/-- A policy that allows `profile` only, and a relying party that asks for `email`: it is
registered with `openid`. -/
theorem registration_outside_policy :
    ¬ WithinPolicies [{ scopeSubset := ["profile"] }]
      (buildRegistrationData "https://rp.example" { scope := "email" } "" [{ scopeSubset := ["profile"] }]) := by
  intro h
  have hopenid := h.scopes "openid" (by decide +kernel)
  exact absurd hopenid (by decide +kernel)

end Clavex

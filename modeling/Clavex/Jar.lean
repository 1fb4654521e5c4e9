import Clavex.Assertion
import Clavex.TokenStore

/-!
# Request objects

`ParseJAR` on a compact JWT. Base64, JSON texts, key sets and the verification of a
signed JWT are left to the libraries. Times are in nanoseconds.
-/

namespace Clavex

/-- A verified `jwt.Token`. `pairs` is what ranging over all its claims yields, printed. -/
structure JarToken where
  iss : Option String := none
  aud : List String := []
  jti : String := ""
  (exp nbf iat : Option Int := none)
  pairs : List (String × String) := []

inductive JarErr where
  | core (text : String)
  | fapi (text : String)
  deriving DecidableEq

/-- The libraries over key sets `K`. `signed` is whether a key of the set has signed a compact
JWT; `parse` verifies that and the dates at a time, with a skew of 30 seconds. -/
structure JarReader (K : Type) where
  rawURLDecode : String → Except String String
  readJSON : String → Except String Json
  (mapTypeError sprint : Json → String)
  parseJWKS : String → Except String K
  signed : K → String → Bool
  parse : K → String → Int → Except String JarToken
  signed_of_parse : ∀ {keySet raw now token}, parse keySet raw now = .ok token → signed keySet raw = true

structure JarClient extends OIDCClient where
  requestObjectSigningAlg : String := ""
  (jwks jwksUri : Option String := none)
  metadata : GoMap Json := ∅

structure JarOptions where
  strict : Bool := false
  decrypter : Option (String → Except String String) := none

structure JarEnv (K : Type) where
  fetchJWKS : String → Except String K
  (parsedAt checkedAt : Int)

def isJWE (raw : String) : Bool := raw.toList.count '.' == 4

def unwrapJWE (o : JarOptions) (requestJWT : String) : Except JarErr String :=
  if isJWE requestJWT then
    match o.decrypter with
    | none => .error (.core "encrypted request objects are not supported")
    | some decryptJWE => ((decryptJWE requestJWT).map trimSpace).mapError .core
  else .ok requestJWT

def firstSegments (raw : String) : Option (String × String) :=
  match raw.toList.span (· ≠ '.') with
  | (_, []) => none
  | (a, _ :: b) => some (String.ofList a, String.ofList (b.takeWhile (· ≠ '.')))

def metaClaims : List String := ["iss", "aud", "exp", "nbf", "iat", "jti"]

def jarParams (pairs : List (String × String)) : GoMap String :=
  GoMap.ofMembers (pairs.filter fun kv => kv.1 ∉ metaClaims)

def jarPolicyErrorKey : String := "__jar_policy_error"
def jarPolicyDescKey : String := "__jar_policy_desc"
def jarJtiKey : String := "__jar_jti"
def jarExpKey : String := "__jar_exp"

def isFederationClient (client : JarClient) : Bool :=
  match client.metadata.lookup "federation_entity_id" with
  | some (.str s) => s ≠ ""
  | _ => false

section
variable {K : Type} (L : JarReader K)

/-! ## Unsecured objects -/

def isUnsecuredJWT (raw : String) : Bool :=
  match firstSegments raw with
  | none => false
  | some (header, _) =>
    match L.rawURLDecode header with
    | .error _ => false
    | .ok hdrBytes =>
      let hdr := unmarshal "" (strField "alg") (L.readJSON hdrBytes).toOption
      !hdr.2 && decide (foldName hdr.1 = foldName "none")

def readClaims (payload : String) : Except String (List (String × Json)) :=
  match L.readJSON payload with
  | .error err => .error err
  | .ok .null => .ok []
  | .ok (.obj ms) => .ok ms
  | .ok j => .error (L.mapTypeError j)

def parseUnsecuredJAR (raw : String) : Except JarErr (GoMap String) :=
  match firstSegments raw with
  | none => .error (.core "malformed unsigned JWT")
  | some (_, segment) =>
    match L.rawURLDecode segment with
    | .error err => .error (.core ("cannot decode unsigned JWT payload: " ++ err))
    | .ok payload =>
      match readClaims L payload with
      | .error err => .error (.core ("cannot parse unsigned JWT payload: " ++ err))
      | .ok claims => .ok (jarParams (claims.map fun kv => (kv.1, L.sprint kv.2)))

/-! ## Signed objects -/

def resolveClientKeySet (env : JarEnv K) (client : JarClient) : Except String K :=
  match client.jwks.filter fun jwks => 2 < byteLen jwks with
  | some jwks => (L.parseJWKS jwks).mapError ("invalid inline JWKS: " ++ ·)
  | none =>
    match client.jwksUri.filter (· ≠ "") with
    | some uri => (env.fetchJWKS uri).mapError ("could not fetch client jwks_uri: " ++ ·)
    | none => .error "client has no JWKS configured (set jwks or jwks_uri at registration)"

def checkIss (o : JarOptions) (client : JarClient) (token : JarToken) : Except JarErr Unit :=
  match token.iss with
  | some iss =>
    if iss ≠ client.clientID ∧ isFederationClient client = false then .error (.core "iss claim must equal client_id")
    else .ok ()
  | none => if o.strict then .error (.core "iss claim is required in the request object") else .ok ()

def checkAud (o : JarOptions) (client : JarClient) (issuer : String) (token : JarToken) : Except JarErr Unit :=
  if token.aud = [] then
    if o.strict then .error (.core "aud claim is required in the request object") else .ok ()
  else if issuer ≠ "" ∧ issuer ∉ token.aud ∧ isFederationClient client = false then
    .error (.core "aud claim does not include the authorization server issuer")
  else .ok ()

def checkFAPITiming (env : JarEnv K) (client : JarClient) (token : JarToken) : Except JarErr Unit :=
  if client.requestObjectSigningAlg ≠ "" ∧ isFederationClient client = false then
    match token.exp, token.nbf with
    | none, _ => .error (.core "exp claim is required in request object")
    | _, none => .error (.core "nbf claim is required in request object (FAPI 2.0 §5.3.4)")
    | some exp, some nbf =>
      if 3630 * second < env.checkedAt - nbf then
        .error (.fapi "request object nbf is more than 60 minutes in the past (FAPI 2.0 §5.3.3)")
      else if 3600 * second < exp - token.iat.getD nbf then
        .error (.fapi "request object lifetime must not exceed 60 minutes (FAPI 2.0 §5.3.3)")
      else .ok ()
  else .ok ()

def checkStrict (o : JarOptions) (token : JarToken) : Except JarErr Unit :=
  if o.strict then
    if token.exp = none then .error (.core "exp claim is required in the request object")
    else if token.nbf = none then .error (.core "nbf claim is required in the request object")
    else if token.iat = none then .error (.core "iat claim is required in the request object")
    else if token.jti = "" then .error (.core "jti claim is required in the request object")
    else .ok ()
  else .ok ()

def federationDesc (client : JarClient) (issuer : String) (token : JarToken) : String :=
  if token.iss.getD "" = "" then "request object is missing the required iss claim (OpenID Federation 12.1.1.1)"
  else if token.iss.getD "" ≠ client.clientID then
    "request object iss claim must equal the client_id (OpenID Federation 12.1.1.1)"
  else if token.aud = [] then "request object is missing the required aud claim (OpenID Federation 12.1.1.1)"
  else if issuer ≠ "" ∧ issuer ∉ token.aud then
    "request object aud claim must include the authorization server issuer (OpenID Federation 12.1.1.1)"
  else if token.exp = none then "request object is missing the required exp claim (OpenID Federation 12.1.1.1)"
  else if token.jti = "" then "request object is missing the required jti claim (OpenID Federation 12.1.1.1)"
  else ""

/-- The caller learns of a violation, or of the `jti` to spend, from reserved keys. -/
def federationParams (client : JarClient) (issuer : String) (token : JarToken) (params : GoMap String) : GoMap String :=
  if isFederationClient client then
    let desc := federationDesc client issuer token
    if desc ≠ "" then (params.insert jarPolicyErrorKey "invalid_request_object").insert jarPolicyDescKey desc
    else
      let params := params.insert jarJtiKey token.jti
      match token.exp with
      | some exp => params.insert jarExpKey (toString (exp / second))
      | none => params
  else params

def parseJAR (env : JarEnv K) (o : JarOptions) (client : JarClient) (issuer requestJWT : String) :
    Except JarErr (GoMap String) := do
  let raw ← unwrapJWE o requestJWT
  if isUnsecuredJWT L raw then
    if client.requestObjectSigningAlg ≠ "" then
      .error (.fapi ("request object must be signed - alg=none is not permitted " ++
        "(RFC 7518 sec. 3.6, FAPI 2.0 sec. 5.3.1)"))
    else parseUnsecuredJAR L raw
  else do
    let keySet ← (resolveClientKeySet L env client).mapError .core
    let token ← (L.parse keySet raw env.parsedAt).mapError .core
    checkIss o client token
    checkAud o client issuer token
    checkFAPITiming env client token
    checkStrict o token
    return federationParams client issuer token (jarParams token.pairs)

end

/-! ## What a strict request object carries -/

section
variable {K : Type} {L : JarReader K} {env : JarEnv K} {o : JarOptions} {client : JarClient} {issuer : String}
  {token : JarToken}

theorem checkIss_ok (ho : o.strict = true) (h : checkIss o client token = .ok ()) :
    token.iss.isSome ∧ (token.iss = some client.clientID ∨ isFederationClient client = true) := by
  unfold checkIss at h
  cases hiss : token.iss with
  | none =>
    rw [hiss] at h
    simp only [ho, ite_true] at h
    cases h
  | some iss =>
    rw [hiss] at h
    refine ⟨rfl, ?_⟩
    by_cases hc : iss ≠ client.clientID ∧ isFederationClient client = false
    · simp only [if_pos hc] at h
      cases h
    · rw [not_and_or, not_not, Bool.not_eq_false] at hc
      exact hc.imp (fun he => by rw [he]) id

theorem checkAud_ok (ho : o.strict = true) (h : checkAud o client issuer token = .ok ()) :
    token.aud ≠ [] ∧ (issuer = "" ∨ issuer ∈ token.aud ∨ isFederationClient client = true) := by
  unfold checkAud at h
  by_cases haud : token.aud = []
  · simp only [if_pos haud, ho, ite_true] at h
    cases h
  · refine ⟨haud, ?_⟩
    by_cases hc : issuer ≠ "" ∧ issuer ∉ token.aud ∧ isFederationClient client = false
    · rw [if_neg haud, if_pos hc] at h
      cases h
    · rw [not_and_or, not_and_or, not_not, not_not, Bool.not_eq_false] at hc
      exact hc

theorem checkStrict_ok (ho : o.strict = true) (h : checkStrict o token = .ok ()) :
    token.exp.isSome ∧ token.nbf.isSome ∧ token.iat.isSome ∧ token.jti ≠ "" := by
  unfold checkStrict at h
  rw [if_pos ho] at h
  by_cases hexp : token.exp = none
  · rw [if_pos hexp] at h; cases h
  rw [if_neg hexp] at h
  by_cases hnbf : token.nbf = none
  · rw [if_pos hnbf] at h; cases h
  rw [if_neg hnbf] at h
  by_cases hiat : token.iat = none
  · rw [if_pos hiat] at h; cases h
  rw [if_neg hiat] at h
  by_cases hjti : token.jti = ""
  · rw [if_pos hjti] at h; cases h
  simp only [Option.isSome_iff_ne_none]
  exact ⟨hexp, hnbf, hiat, hjti⟩

theorem federationDesc_eq_empty (h : federationDesc client issuer token = "") :
    token.iss = some client.clientID ∧ (issuer = "" ∨ issuer ∈ token.aud) := by
  unfold federationDesc at h
  by_cases hiss : token.iss.getD "" = ""
  · rw [if_pos hiss] at h
    exact absurd h (by decide)
  rw [if_neg hiss] at h
  by_cases hid : token.iss.getD "" ≠ client.clientID
  · rw [if_pos hid] at h
    exact absurd h (by decide)
  rw [if_neg hid] at h
  have hsome : token.iss = some client.clientID := by
    cases ht : token.iss with
    | none => rw [ht] at hiss; exact absurd rfl hiss
    | some iss => rw [ht, not_not] at hid; exact congrArg some hid
  refine ⟨hsome, ?_⟩
  by_cases hnil : token.aud = []
  · rw [if_pos hnil] at h
    exact absurd h (by decide)
  rw [if_neg hnil] at h
  by_cases haud : issuer ≠ "" ∧ issuer ∉ token.aud
  · rw [if_pos haud] at h
    exact absurd h (by decide)
  rwa [not_and_or, not_not, not_not] at haud

theorem federationParams_policyError {params} (hfed : isFederationClient client = true)
    (hdesc : federationDesc client issuer token ≠ "") :
    (federationParams client issuer token params).lookup jarPolicyErrorKey = some "invalid_request_object" := by
  have hne : jarPolicyErrorKey ≠ jarPolicyDescKey := by decide
  simp only [federationParams, if_pos hfed, if_pos hdesc]
  rw [Finmap.lookup_insert_of_ne _ hne, Finmap.lookup_insert]

theorem parseJAR_signed {requestJWT raw} {params} (hraw : unwrapJWE o requestJWT = .ok raw)
    (hsigned : isUnsecuredJWT L raw = false) (h : parseJAR L env o client issuer requestJWT = .ok params) :
    ∃ keySet token, resolveClientKeySet L env client = .ok keySet ∧ L.parse keySet raw env.parsedAt = .ok token ∧
      checkIss o client token = .ok () ∧ checkAud o client issuer token = .ok () ∧ checkStrict o token = .ok () ∧
      params = federationParams client issuer token (jarParams token.pairs) := by
  unfold parseJAR at h
  rw [hraw] at h
  simp only [bind, Except.bind, hsigned, Bool.false_eq_true, ite_false] at h
  obtain ⟨keySet, hkeys, h⟩ := except_bind_ok h
  obtain ⟨token, htoken, h⟩ := except_bind_ok h
  obtain ⟨⟨⟩, hiss, h⟩ := except_bind_ok h
  obtain ⟨⟨⟩, haud, h⟩ := except_bind_ok h
  obtain ⟨-, -, h⟩ := except_bind_ok h
  obtain ⟨⟨⟩, hstrict, h⟩ := except_bind_ok h
  cases h
  exact ⟨keySet, token, except_mapError_ok hkeys, except_mapError_ok htoken, hiss, haud, hstrict, rfl⟩

end

theorem strict_request_object_complete {K : Type} (L : JarReader K) (env : JarEnv K) (o : JarOptions)
    (client : JarClient) (issuer requestJWT raw : String) (ho : o.strict = true)
    (hraw : unwrapJWE o requestJWT = .ok raw) :
    (isUnsecuredJWT L raw = false → ∀ params, parseJAR L env o client issuer requestJWT = .ok params →
      ∃ keySet token, resolveClientKeySet L env client = .ok keySet ∧ L.signed keySet raw = true ∧
        L.parse keySet raw env.parsedAt = .ok token ∧ token.iss.isSome ∧ token.aud ≠ [] ∧ token.exp.isSome ∧
        token.nbf.isSome ∧ token.iat.isSome ∧ token.jti ≠ "" ∧
        ((token.iss = some client.clientID ∧ (issuer = "" ∨ issuer ∈ token.aud)) ∨
          (isFederationClient client = true ∧
            params.lookup jarPolicyErrorKey = some "invalid_request_object"))) ∧
    (isUnsecuredJWT L raw = true → client.requestObjectSigningAlg ≠ "" →
      ∃ err, parseJAR L env o client issuer requestJWT = .error err) := by
  constructor
  · intro hsigned params h
    obtain ⟨keySet, token, hkeys, htoken, hiss, haud, hstrict, rfl⟩ := parseJAR_signed hraw hsigned h
    obtain ⟨hsome, hiss⟩ := checkIss_ok ho hiss
    obtain ⟨hnil, haud⟩ := checkAud_ok ho haud
    obtain ⟨hexp, hnbf, hiat, hjti⟩ := checkStrict_ok ho hstrict
    refine ⟨keySet, token, hkeys, L.signed_of_parse htoken, htoken, hsome, hnil, hexp, hnbf, hiat, hjti, ?_⟩
    by_cases hfed : isFederationClient client = true
    · by_cases hdesc : federationDesc client issuer token = ""
      · exact .inl (federationDesc_eq_empty hdesc)
      · exact .inr ⟨hfed, federationParams_policyError hfed hdesc⟩
    · refine .inl ⟨hiss.resolve_right hfed, ?_⟩
      rcases haud with h | h | h
      · exact .inl h
      · exact .inr h
      · exact absurd h hfed
  · intro hunsecured halg
    unfold parseJAR
    rw [hraw]
    simp only [bind, Except.bind, hunsecured, ite_true, if_pos halg]
    exact ⟨_, rfl⟩

def signedToken : String → Except String JarToken
  | "rs256.request.sig" => .ok
      { iss := some "web", aud := ["https://id/acme"], jti := "r1", exp := some (1300 * second),
        nbf := some (1000 * second), iat := some (1000 * second), pairs := [("iss", "web"), ("scope", "openid")] }
  | "rs256.foreign.sig" => .ok
      { iss := some "https://rp", aud := ["https://other"], jti := "r2", exp := some (1300 * second),
        nbf := some (1000 * second), iat := some (1000 * second), pairs := [("scope", "openid")] }
  | _ => .error "could not verify message using any of the signatures or keys"

def plainJar : JarReader Unit where
  rawURLDecode := .ok
  readJSON
    | "none" => .ok (.obj [("alg", .str "none")])
    | "rs256" => .ok (.obj [("alg", .str "RS256")])
    | "scopes" => .ok (.obj [("scope", .str "openid")])
    | _ => .error "invalid character"
  mapTypeError _ := "json: cannot unmarshal into Go value of type map"
  sprint
    | .str s => s
    | _ => ""
  parseJWKS _ := .ok ()
  signed _ raw := raw = "rs256.request.sig" || raw = "rs256.foreign.sig"
  parse _ raw now := if now < 1330 * second then signedToken raw else .error "\"exp\" not satisfied"
  signed_of_parse := by
    intro keySet raw now token h
    by_cases hnow : now < 1330 * second
    · rw [if_pos hnow] at h
      unfold signedToken at h
      split at h
      · rfl
      · rfl
      · cases h
    · rw [if_neg hnow] at h
      cases h

def jarEnv : JarEnv Unit := { fetchJWKS := fun _ => .ok (), parsedAt := 1100 * second, checkedAt := 1100 * second }

def webClient : JarClient := { clientID := "web", orgID := 1, jwksUri := some "https://web/jwks" }

def federatedClient : JarClient :=
  { clientID := "rp", orgID := 1, jwksUri := some "https://rp/jwks",
    metadata := GoMap.ofMembers [("federation_entity_id", .str "https://rp")] }

theorem strict_request_object_complete_signed :
    (parseJAR plainJar jarEnv { strict := true } webClient "https://id/acme" "rs256.request.sig").isOk = true ∧
    ∃ token, signedToken "rs256.request.sig" = .ok token ∧ token.iss = some "web" ∧ "https://id/acme" ∈ token.aud := by
  refine ⟨by decide +kernel, ?_⟩
  have hraw : unwrapJWE { strict := true } "rs256.request.sig" = .ok "rs256.request.sig" := by decide +kernel
  obtain ⟨params, hparams⟩ : ∃ params, parseJAR plainJar jarEnv { strict := true } webClient "https://id/acme"
      "rs256.request.sig" = .ok params := ⟨_, rfl⟩
  obtain ⟨_, token, -, -, htoken, -, -, -, -, -, -, hclaims⟩ :=
    (strict_request_object_complete plainJar jarEnv { strict := true } webClient "https://id/acme" "rs256.request.sig"
      _ rfl hraw).1 (by decide +kernel) params hparams
  refine ⟨token, htoken, ?_⟩
  rcases hclaims with ⟨hiss, haud⟩ | ⟨hfed, -⟩
  · exact ⟨hiss, haud.resolve_left (by decide)⟩
  · exact absurd hfed (by decide +kernel)

/-- An object that nobody signed and that has none of the claims, and one of a federation
client with the `iss` of another party and the `aud` of another server. -/
theorem strict_request_object_incomplete :
    (isUnsecuredJWT plainJar "none.scopes." = true ∧
      (parseJAR plainJar jarEnv { strict := true } webClient "https://id/acme" "none.scopes.").map (·.lookup "scope") =
        .ok (some "openid")) ∧
    (parseJAR plainJar jarEnv { strict := true } federatedClient "https://id/acme" "rs256.foreign.sig").isOk = true ∧
    (signedToken "rs256.foreign.sig").map (fun t => (t.iss, t.aud)) = .ok (some "https://rp", ["https://other"]) := by
  decide +kernel

end Clavex

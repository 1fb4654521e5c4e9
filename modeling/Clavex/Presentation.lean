import Clavex.SdJwt

/-!
# Presentations of a credential

`VerifyDCQLPresentation`: the claims are read from the issuer's JWT and the disclosures, then
the issuer's signature, the times, the query and the key binding JWT of the holder are checked.
`now` and `kbNow` are the clock readings of the last two checks of times.
-/

namespace Clavex

/-! ## Decoding of a query, which is given as the members of its JSON text -/

def decStruct {α : Type} (fields : α → List (String × Json) → α × Bool) (cur : α) (j : Json) : Option α :=
  let r := unmarshal cur (fields cur) (some j)
  if r.2 then none else some r.1

def decItems {α : Type} (dec : α → Json → Option α) (z : α) : List α → List Json → Option (List α)
  | _, [] => some []
  | cur, j :: js =>
    match dec (cur.headD z) j with
    | none => none
    | some a => (decItems dec z cur.tail js).map (a :: ·)

def decSlice {α : Type} (dec : α → Json → Option α) (z : α) (cur : Option (List α)) : Json → Option (Option (List α))
  | .null => some none
  | .arr js => (decItems dec z (cur.getD []) js).map some
  | _ => none

def decBoolPtr (_ : Option Bool) : Json → Option (Option Bool)
  | .null => some none
  | .bool b => some (some b)
  | _ => none

structure DCQLClaimQuery where
  id : String := ""
  path : List Json := []
  deriving DecidableEq

structure SDJWTCredentialQuery where
  (id format : String := "")
  multiple : Bool := false
  requireBinding : Option Bool := none
  vctValues : List String := []
  claims : Option (List DCQLClaimQuery) := none
  claimSets : Option (List (List String)) := none

section
variable {S K : Type} (L : SDJWTLib S K)

def DCQLClaimQuery.fields (c : DCQLClaimQuery) (ms : List (String × Json)) : DCQLClaimQuery × Bool :=
  let id := decodeField decStr c.id "id" ms
  let path := decodeField (decSlice (fun _ j => some (L.read j)) .null) (some c.path) "path" ms
  (⟨id.1, path.1.getD []⟩, id.2 || path.2)

def decVCTValues : List String → Json → Option (List String) :=
  decStruct fun cur ms =>
    let r := decodeField (decSlice decStr "") (some cur) "vct_values" ms
    (r.1.getD [], r.2)

def SDJWTCredentialQuery.fields (q : SDJWTCredentialQuery) (ms : List (String × Json)) : SDJWTCredentialQuery × Bool :=
  let id := decodeField decStr q.id "id" ms
  let format := decodeField decStr q.format "format" ms
  let multiple := decodeField decBool q.multiple "multiple" ms
  let requireBinding := decodeField decBoolPtr q.requireBinding "require_cryptographic_holder_binding" ms
  let vctValues := decodeField decVCTValues q.vctValues "meta" ms
  let claims := decodeField (decSlice (decStruct (DCQLClaimQuery.fields L)) {}) q.claims "claims" ms
  let claimSets := decodeField (decSlice (fun cur j => (decSlice decStr "" (some cur) j).map (·.getD [])) []) q.claimSets
    "claim_sets" ms
  (⟨id.1, format.1, multiple.1, requireBinding.1, vctValues.1, claims.1, claimSets.1⟩,
    id.2 || format.2 || multiple.2 || requireBinding.2 || vctValues.2 || claims.2 || claimSets.2)

/-! ## What is supported -/

def dcqlID (s : String) : Bool := s ≠ "" && s.toList.all base64Rune

def checkComponent : Json → Except String Unit
  | .str _ | .null => .ok ()
  | .num m e => if m < 0 ∨ m % 10 ^ e ≠ 0 then .error "dcql: invalid array index" else .ok ()
  | _ => .error "dcql: invalid path component"

def checkComponents : List Json → Except String Unit
  | [] => .ok ()
  | component :: rest => do
    checkComponent component
    checkComponents rest

def checkClaimQueries (hasSets : Bool) : List String → List Bytes → List DCQLClaimQuery → Except String (List String)
  | ids, _, [] => .ok ids
  | ids, paths, claim :: rest =>
    if claim.path = [] then .error "dcql: claim path is required"
    else do
      checkComponents claim.path
      let path := (L.marshal (.arr claim.path)).getD []
      if path ∈ paths then .error "dcql: duplicate claim path"
      else if claim.id ≠ "" then
        if dcqlID claim.id = false ∨ claim.id ∈ ids then .error "dcql: invalid or duplicate claim id"
        else checkClaimQueries hasSets (claim.id :: ids) (path :: paths) rest
      else if hasSets then .error "dcql: claim id required with claim_sets"
      else checkClaimQueries hasSets ids (path :: paths) rest

def checkClaimSets (ids : List String) : List (List String) → Except String Unit
  | [] => .ok ()
  | set :: rest =>
    if set = [] then .error "dcql: empty claim set"
    else
      match set.find? (· ∉ ids) with
      | some id => .error ("dcql: unknown claim id " ++ quote id)
      | none => checkClaimSets ids rest

def checkCredentialQuery (c : SDJWTCredentialQuery) : Except String Unit :=
  if dcqlID c.id = false ∨ c.format ≠ "dc+sd-jwt" ∨ c.multiple = true then
    .error "dcql: expected a single dc+sd-jwt presentation with a valid query id"
  else if c.claims = some [] then .error "dcql: claims must not be empty"
  else if c.claimSets = some [] then .error "dcql: claim_sets must not be empty"
  else do
    let ids ← checkClaimQueries L c.claimSets.isSome [] [] (c.claims.getD [])
    checkClaimSets ids (c.claimSets.getD [])

/-- `credential_sets` is kept as raw JSON, which is not empty even for `null`. -/
def parseSDJWTDCQL (query : List (String × Json)) : Except String SDJWTCredentialQuery :=
  let credentials := decodeField (decSlice (decStruct (SDJWTCredentialQuery.fields L)) {}) none "credentials" query
  let credentialSets := decodeField (fun _ _ => some true) false "credential_sets" query
  if credentials.2 then .error "dcql: invalid query"
  else
    match credentials.1, credentialSets.1 with
    | some [c], false => do
      checkCredentialQuery L c
      return c
    | _, _ => .error "dcql: this verifier requires one credential query without credential_sets"

end

/-! ## Matching -/

def SDJWTCredentialQuery.requiresBinding (q : SDJWTCredentialQuery) : Bool := q.requireBinding.getD true

def dcqlPathExists : List Json → Json → Bool
  | [], _ => true
  | .str k :: rest, value =>
    match value.member k with
    | none => false
    | some next => dcqlPathExists rest next
  | .num m e :: rest, .arr items =>
    if m < 0 ∨ m % 10 ^ e ≠ 0 then false
    else
      match items[(m / 10 ^ e).toNat]? with
      | none => false
      | some next => dcqlPathExists rest next
  | .null :: rest, .arr items => items.any fun item => dcqlPathExists rest item
  | _, _ => false

def dcqlClaimExists (claims : GoMap Json) : List Json → Bool
  | [] => true
  | .str k :: rest =>
    match claims.lookup k with
    | none => false
    | some next => dcqlPathExists rest next
  | _ => false

def presentClaims (claims : GoMap Json) (qs : List DCQLClaimQuery) : GoMap Bool :=
  qs.foldl (fun present claim => present.insert claim.id (dcqlClaimExists claims claim.path)) ∅

def SDJWTCredentialQuery.matchClaims (q : SDJWTCredentialQuery) (claims : GoMap Json) : Except String Unit :=
  if q.vctValues ≠ [] ∧ textClaim claims "vct" ∉ q.vctValues then
    .error "dcql: credential type does not match vct_values"
  else
    let qs := q.claims.getD []
    match q.claimSets with
    | none =>
      if qs.all fun claim => dcqlClaimExists claims claim.path then .ok () else .error "dcql: required claim is missing"
    | some sets =>
      if sets.any fun set => set.all fun id => ((presentClaims claims qs).lookup id).getD false then .ok ()
      else .error "dcql: no requested claim set is satisfied"

section
variable {S K : Type} (L : SDJWTLib S K)

def extractSDJWTClaimsNoSigCheck (issuerJWT : String) (disclosureRaws : List String) : Except String (GoMap Json) :=
  match payloadSegment L.decodeString issuerJWT with
  | none => .error "decode jwt payload"
  | some payloadBytes =>
    match (L.parseJSON payloadBytes).bind decMembers with
    | none => .error "unmarshal jwt payload"
    | some payload =>
      let payload := payload.mapValues L.read
      applyDisclosures L (sdDigests (payload.lookup "_sd")) (withoutReserved payload) disclosureRaws

/-! ## The issuer -/

def verifyJWTSignature (compactJWT : String) (pubKey : K) : Except String Unit :=
  if ["ES256", "PS256", "RS256"].any fun alg => (L.parse alg pubKey compactJWT).isSome then .ok ()
  else .error "signature verification failed for all supported algorithms"

def checkIssuer (trustedIssuers : GoMap K) (requireTrusted : Bool) (issuerJWT iss : String) : Except String Unit :=
  match trustedIssuers.lookup iss with
  | some issuerKey => (verifyJWTSignature L issuerJWT issuerKey).mapError ("issuer signature invalid: " ++ ·)
  | none =>
    if requireTrusted then .error ("credential issuer " ++ quote iss ++ " is not in the configured trust anchors")
    else .ok ()

def validateCredentialTimes (compactJWT : String) (now : Int) : Except String Unit :=
  match L.parseInsecure compactJWT with
  | none => .error "credential validity"
  | some tok => if timesValid tok.claims.lookup now then .ok () else .error "credential validity"

/-! ## The holder -/

variable (claims : GoMap Json)

def extractHolderPublicKey : Except String K :=
  match claims.lookup "cnf" with
  | some (.obj cnf) =>
    match (Json.obj cnf).member "jwk" with
    | some (.obj jwk) =>
      match L.parseKey (.obj jwk) with
      | none => .error "parse cnf.jwk"
      | some key => .ok key
    | _ => .error "cnf.jwk missing or not an object"
  | _ => .error "cnf claim missing or not an object"

def boundText (issuerJWT : String) (disclosureRaws : List String) : String :=
  disclosureRaws.foldl (fun sb d => sb ++ "~" ++ d) issuerJWT ++ "~"

def dateClaim (k : String) : Option Int :=
  match claims.lookup k with
  | some (.num t 0) => some t
  | _ => none

def audience : List String :=
  match claims.lookup "aud" with
  | some (.arr items) => items.filterMap Json.asString
  | _ => []

def checkKBTime (kbNow : Int) : Except String Unit :=
  match dateClaim claims "iat" with
  | none => .error "iat claim missing from kb-jwt"
  | some iat =>
    if kbNow + 30 * 1000000000 < iat * 1000000000 then .error "kb-jwt iat is in the future"
    else if 300 * 1000000000 < kbNow - iat * 1000000000 then .error "kb-jwt iat too old"
    else .ok ()

def checkKBClaims (expectedNonce expectedAud issuerJWT : String) (disclosureRaws : List String) :
    Except String Unit :=
  if textClaim claims "nonce" ≠ expectedNonce then .error "nonce mismatch"
  else if expectedAud ∉ audience claims then .error "aud mismatch"
  else if textClaim claims "sd_hash" = "" then .error "sd_hash is required in kb-jwt"
  else if disclosureHash L (boundText issuerJWT disclosureRaws) ≠ textClaim claims "sd_hash" then
    .error "sd_hash mismatch: issuer JWT integrity check failed"
  else .ok ()

def verifyKBJWT (kbJWT : String) (holderKey : K) (expectedNonce expectedAud issuerJWT : String)
    (disclosureRaws : List String) (kbNow : Int) : Except String Unit :=
  if L.types kbJWT ≠ some ["kb+jwt"] then .error "protected typ must be kb+jwt"
  else
    match ["ES256", "PS256"].findSome? fun alg => L.parse alg holderKey kbJWT with
    | none => .error "signature invalid"
    | some tok => do
      checkKBTime tok.claims kbNow
      checkKBClaims L tok.claims expectedNonce expectedAud issuerJWT disclosureRaws

def checkKeyBinding (kbJWT expectedNonce expectedAud issuerJWT : String)
    (disclosureRaws : List String) (kbNow : Int) : Except String Unit :=
  if kbJWT = "" then .ok ()
  else do
    let holderKey ← (extractHolderPublicKey L claims).mapError ("kb-jwt: " ++ ·)
    (verifyKBJWT L kbJWT holderKey expectedNonce expectedAud issuerJWT disclosureRaws kbNow).mapError ("kb-jwt: " ++ ·)

/-! ## The result -/

structure VerifiedCredentialIdentity where
  (format issuer credentialType subject : String)
  (issuedAt expiresAt : Option Int)
  (issuerTrusted signedByLocalIssuer holderBound : Bool)
  issuerJWTHash : String
  status : Option Bytes

def publicKeysEqual (a b : Option K) : Bool :=
  match a, b with
  | some a, some b =>
    match L.marshalKey a, L.marshalKey b with
    | some ax, some bx => ax == bx
    | _, _ => false
  | _, _ => false

def hashToken (token : String) : String := encodeToHex (L.sum256 (utf8 token))

def verifiedSDJWTIdentity (raw : String) (trusted isLocal bound : Bool) : Except String VerifiedCredentialIdentity :=
  match L.parseInsecure raw with
  | none => .error "failed to parse jwt"
  | some tok =>
    let evidence (status : Option Bytes) : VerifiedCredentialIdentity :=
      { format := "dc+sd-jwt", issuer := textClaim tok.claims "iss", credentialType := textClaim tok.claims "vct",
        subject := textClaim tok.claims "sub", issuedAt := dateClaim tok.claims "iat",
        expiresAt := dateClaim tok.claims "exp", issuerTrusted := trusted, signedByLocalIssuer := isLocal,
        holderBound := bound, issuerJWTHash := hashToken L raw, status := status }
    match tok.claims.lookup "status" with
    | none => .ok (evidence none)
    | some value =>
      match L.marshal value with
      | none => .error "failed to marshal status"
      | some b => .ok (evidence (some b))

structure VerificationResult where
  claims : GoMap Json
  identity : VerifiedCredentialIdentity

structure PresentationRequest (K : Type) where
  dcqlQuery : List (String × Json)
  (expectedNonce expectedAud : String)
  trustedIssuers : GoMap K
  requireTrusted : Bool
  localPubKey : Option K := none

def verifyDCQLPresentation (r : PresentationRequest K) (vpToken : String) (now kbNow : Int) :
    Except String VerificationResult := do
  let (issuerJWT, disclosureRaws, kbJWT) ← (parseSDJWT vpToken).mapError ("parse vp_token: " ++ ·)
  let claims ← (extractSDJWTClaimsNoSigCheck L issuerJWT disclosureRaws).mapError ("extract sd-jwt claims: " ++ ·)
  let iss := textClaim claims "iss"
  let issuerKey := r.trustedIssuers.lookup iss
  checkIssuer L r.trustedIssuers r.requireTrusted issuerJWT iss
  validateCredentialTimes L issuerJWT now
  let query ← parseSDJWTDCQL L r.dcqlQuery
  if query.requiresBinding ∧ kbJWT = "" then .error "kb-jwt: DCQL requires cryptographic holder binding"
  else
    query.matchClaims claims
    checkKeyBinding L claims kbJWT r.expectedNonce r.expectedAud issuerJWT disclosureRaws kbNow
    let identity ← verifiedSDJWTIdentity L issuerJWT issuerKey.isSome (publicKeysEqual L issuerKey r.localPubKey)
      (kbJWT ≠ "")
    return ⟨claims, identity⟩

end

end Clavex

import Clavex.Merkle
import Clavex.Rows
import Clavex.TokenIssue

/-!
# SD-JWT credentials

`IssueSDJWT`, `ParseSDJWT` and `VerifyAndExtractClaims`. Claims that can be disclosed one by
one stand in the issuer's JWT as digests; what is disclosed is appended to it. JWS, base64url,
JSON text and SHA-256 are left to the libraries. Times and durations are in nanoseconds, the
time claims of a token in seconds.
-/

namespace Clavex

/-! ## The libraries -/

structure JWTToken where
  payload : Bytes
  claims : GoMap Json

structure JWSHeaders where
  (kid typ : String)
  x5c : List String := []

def base64Rune (c : Char) : Bool := c.isAlphanum || c == '-' || c == '_'

def splitDots (s : String) : List String := splitRune '.' s

def trimPadding (s : String) : String := String.ofList (s.toList.reverse.dropWhile (· == '=')).reverse

def payloadSegment (decode : String → Option Bytes) (compact : String) : Option Bytes :=
  match splitDots compact with
  | _ :: segment :: _ => decode (trimPadding segment)
  | _ => none

def CompactJWT (s : String) : Prop :=
  (splitDots s).length = 3 ∧ s.toList.all (fun c => base64Rune c || c == '.') = true

instance (s : String) : Decidable (CompactJWT s) := inferInstanceAs (Decidable (_ ∧ _))

/-- Signers and public keys, unpadded base64url, SHA-256, JSON text and the JWT library.
`read` is what a value is after it has been written as JSON and read into `any`: numbers are
64-bit floating point numbers then. `parse` verifies a token with a key and an algorithm,
`parseInsecure` does not verify it, `types` are the `typ` headers of its signatures. The
library also reads the JSON serialization of a JWS. -/
structure SDJWTLib (S K : Type) extends JwtLib where
  publicKey : S → K
  sum256 : Bytes → Bytes
  encodeToString : Bytes → String
  decodeString : String → Option Bytes
  marshal : Json → Option Bytes
  parseJSON : Bytes → Option Json
  read : Json → Json
  sign : String → S → JWSHeaders → GoMap Json → Option String
  parse : String → K → String → Option JWTToken
  parseInsecure : String → Option JWTToken
  types : String → Option (List String)
  parseKey : Json → Option K
  publicJWK : Json → Option Json
  marshalKey : K → Option Bytes
  decode_encode : ∀ b, decodeString (encodeToString b) = some b
  encode_nil : encodeToString [] = ""
  encode_rune : ∀ b, ∀ c ∈ (encodeToString b).toList, base64Rune c = true
  parse_marshal : ∀ {v b}, marshal v = some b → parseJSON b = some v
  parseJSON_nil : parseJSON [] = none
  read_text : ∀ s, read (.str s) = .str s
  read_texts : ∀ l : List String, read (.arr (l.map .str)) = .arr (l.map .str)
  read_read : ∀ v, read (read v) = read v
  sign_text : ∀ {alg s h t jwt}, sign alg s h t = some jwt → jwt ≠ "" ∧ '~' ∉ jwt.toList
  parse_sign : ∀ {alg s h t jwt}, sign alg s h t = some jwt → ∃ tok, parse alg (publicKey s) jwt = some tok ∧
    ∀ k, tok.claims.lookup k = if k ∈ registeredClaims then t.lookup k else (t.lookup k).map read
  parse_other : ∀ {alg alg' s h t jwt}, sign alg s h t = some jwt → alg' ≠ alg → parse alg' (publicKey s) jwt = none
  parse_compact : ∀ {alg key jwt tok}, parse alg key jwt = some tok → CompactJWT jwt →
    payloadSegment decodeString jwt = some tok.payload

/-! ## Times -/

def nsPerHour : Int := 3600 * 1000000000

def unixTime (t : Int) : Int := t / 1000000000

def timeClaim : Option Json → Option Int
  | some (.num t 0) => if t = 0 then none else some t
  | _ => none

def timesValid (get : String → Option Json) (now : Int) : Bool :=
  (timeClaim (get "exp")).all (fun exp => decide (unixTime now < exp)) &&
    (timeClaim (get "iat")).all (fun iat => decide (iat ≤ unixTime now)) &&
    (timeClaim (get "nbf")).all (fun nbf => decide (nbf ≤ unixTime now))

section
variable {S K : Type} (L : SDJWTLib S K)

/-! ## Disclosures -/

structure Disclosure where
  (salt name : String)
  value : Json
  (raw hash : String)

def disclosureHash (raw : String) : String := L.encodeToString (L.sum256 (utf8 raw))

def newDisclosure (salt : Option Bytes) (name : String) (value : Json) : Except String Disclosure :=
  match salt with
  | none => .error "generate salt"
  | some salt =>
    match L.marshal (.arr [.str (L.encodeToString salt), .str name, value]) with
    | none => .error "marshal disclosure"
    | some b =>
      .ok ⟨L.encodeToString salt, name, value, L.encodeToString b, disclosureHash L (L.encodeToString b)⟩

def newDisclosures (salts : Nat → Option Bytes) : Nat → List (String × Json) → Except String (List Disclosure)
  | _, [] => .ok []
  | i, (name, value) :: rest =>
    match newDisclosure L (salts i) name value with
    | .error e => .error ("create disclosure for " ++ quote name ++ ": " ++ e)
    | .ok d =>
      match newDisclosures salts (i + 1) rest with
      | .error e => .error e
      | .ok ds => .ok (d :: ds)

def decText : Json → Option String
  | .str s => some s
  | .null => some ""
  | _ => none

def decodeDisclosure (raw : String) : Except String (String × String × Json) :=
  match L.decodeString raw with
  | none => .error "base64url decode"
  | some b =>
    match L.parseJSON b with
    | some (.arr (salt :: name :: value :: _)) =>
      match decText salt with
      | none => .error "decode salt"
      | some salt =>
        match decText name with
        | none => .error "decode name"
        | some name => .ok (salt, name, L.read value)
    | _ => .error "unmarshal disclosure array"

/-! ## Issuing -/

/-- When the certificate of a signer is good: its deadline, `none` if it is not good now. -/
structure CertificateWindow where
  deadline : Option Int
  notBefore : Int

structure SDJWTParams (S : Type) where
  (issuer subject vct : String)
  disclosableClaims : Rows fun kv : String × Json => kv.1
  plainClaims : GoMap Json := ∅
  ttl : Int
  signer : S
  certificate : Option CertificateWindow := none
  (alg kid formatTyp : String := "")
  x5c : List String := []
  holderKey : Option Json := none

structure IssueEnv where
  now : Int
  salts : Nat → Option Bytes

variable (p : SDJWTParams S)

def SDJWTParams.algorithm (p : SDJWTParams S) : String := if p.alg = "" then "PS256" else p.alg

def SDJWTParams.headers (p : SDJWTParams S) : JWSHeaders :=
  ⟨p.kid, if p.formatTyp = "" then "dc+sd-jwt" else p.formatTyp, p.x5c⟩

def issueTimes (now : Int) : Except String (Int × Int) :=
  let hour := now - now % nsPerHour
  match p.certificate with
  | none => .ok (hour, hour + p.ttl)
  | some c =>
    match c.deadline with
    | none => .error "certificate is not valid"
    | some deadline =>
      .ok (if hour < c.notBefore then c.notBefore else hour,
        if deadline < hour + p.ttl then deadline else hour + p.ttl)

def sdAlg : String := "sha-256"

def issuerClaims (times : Int × Int) : List (String × Json) :=
  [("iss", .str p.issuer), ("sub", .str p.subject), ("iat", .num (unixTime times.1) 0),
    ("exp", .num (unixTime times.2) 0), ("vct", .str p.vct)]

def sdClaims (hashes : List String) : List (String × Json) := [("_sd_alg", .str sdAlg), ("_sd", .arr (hashes.map .str))]

def holderClaim : Except String (List (String × Json)) :=
  match p.holderKey with
  | none => .ok []
  | some key =>
    match L.publicJWK key with
    | none => .error "extract holder public key for cnf"
    | some pub => .ok [("cnf", .obj [("jwk", pub)])]

def serializeSDJWT (issuerJWT : String) (raws : List String) : String :=
  "~".intercalate (issuerJWT :: (raws ++ [""]))

def issueSDJWT (env : IssueEnv) : Except String (String × List Disclosure) :=
  match issueTimes p env.now with
  | .error e => .error e
  | .ok times =>
    match newDisclosures L env.salts 0 p.disclosableClaims.list with
    | .error e => .error e
    | .ok ds =>
      match holderClaim L p with
      | .error e => .error e
      | .ok holder =>
        match buildRange L.toJwtLib (issuerClaims p times ++ sdClaims (ds.map (·.hash))) p.plainClaims holder with
        | none => .error "build sd-jwt payload"
        | some tok =>
          match L.sign p.algorithm p.signer p.headers tok with
          | none => .error "sign sd-jwt"
          | some signed => .ok (serializeSDJWT signed (ds.map (·.raw)), ds)

/-! ## Parsing and verifying -/

def parseSDJWT (token : String) : Except String (String × List String × String) :=
  match splitRune '~' token with
  | [] => .error "invalid sd-jwt: missing issuer jwt"
  | issuerJWT :: rest =>
    if issuerJWT = "" then .error "invalid sd-jwt: missing issuer jwt"
    else
      let last := rest.getLast?.getD ""
      if last ≠ "" ∧ last.toList.count '.' = 2 then .ok (issuerJWT, rest.dropLast.filter (· ≠ ""), last)
      else .ok (issuerJWT, rest.filter (· ≠ ""), "")

def sdDigests : Option Json → List String
  | some (.arr items) => items.filterMap Json.asString
  | _ => []

def reservedNames : List String := ["_sd", "_sd_alg"]

def applyDisclosures (sdSet : List String) : GoMap Json → List String → Except String (GoMap Json)
  | claims, [] => .ok claims
  | claims, raw :: raws =>
    if disclosureHash L raw ∉ sdSet then
      .error ("disclosure hash " ++ quote (disclosureHash L raw) ++ " not found in _sd array")
    else
      match decodeDisclosure L raw with
      | .error e => .error ("decode disclosure: " ++ e)
      | .ok (_, name, value) =>
        if name ∈ claims ∨ name ∈ reservedNames then .error "disclosure duplicates an existing or reserved claim"
        else applyDisclosures sdSet (claims.insert name value) raws

def parseValid (key : K) (jwt : String) (now : Int) : List String → Option JWTToken
  | [] => none
  | alg :: algs =>
    match L.parse alg key jwt with
    | none => parseValid key jwt now algs
    | some tok => if timesValid tok.claims.lookup now then some tok else parseValid key jwt now algs

def withoutReserved (claims : GoMap Json) : GoMap Json := (claims.erase "_sd").erase "_sd_alg"

def verifyAndExtractClaims (issuerJWT : String) (disclosureRaws : List String) (pubKey : K) (now : Int) :
    Except String (GoMap Json) :=
  match parseValid L pubKey issuerJWT now ["PS256", "RS256", "ES256"] with
  | none => .error "verify issuer jwt"
  | some tok =>
    applyDisclosures L (sdDigests (tok.claims.lookup "_sd")) (withoutReserved (tok.claims.mapValues L.read)) disclosureRaws

end

end Clavex

import Clavex.Rows
import Clavex.Token
import Clavex.TokenIssue

/-!
# Tokens as strings

What is signed with the keys of an issuer, and how `parseSignedToken` reads a string back. Access
tokens, ID tokens, signed userinfo responses, JARM responses and what other handlers sign have the
same keys, and nothing but the claims and the algorithm tells them apart.
-/

namespace Clavex

/-- The JWT library: `sign` draws randomness, `kid` is the key id in the header of a string and
`verify` what a string says that has a PS256 signature of the key. -/
structure JwsLib (K : Type) where
  sign : K → (alg kid : String) → GoMap Json → Nat → Option String
  kid : String → Option String
  verify : K → String → Option (GoMap Json)
  time : Json → Option Int
  uuid : String → Option UUID
  kid_sign : ∀ key alg k claims n raw, sign key alg k claims n = some raw → kid raw = some k
  verify_sign : ∀ key k claims n raw, sign key "PS256" k claims n = some raw → verify key raw = some claims

/-! ## Signing -/

def signUserInfoClaims (J : JwtLib) (tc : MintConfig) (clientID : String) (claims : GoMap Json) (alg : String)
    (signFails : Bool) : Option Signed :=
  match buildRange J [("iss", .str tc.issuer), ("aud", .arr [.str clientID])] ((claims.erase "iss").erase "aud") [] with
  | none => none
  | some claims => if signFails then none else some ⟨tc.keys, alg, claims⟩

def jarmToken (J : JwtLib) (tc : MintConfig) (now : Int) (clientID : String) (params : List (String × Json)) :
    Option Signed :=
  (build J ([("iss", .str tc.issuer), ("aud", .arr [.str clientID]), ("iat", .num now 0), ("exp", .num (now + 60) 0)] ++
    params) ∅).map (⟨tc.keys, "PS256", ·⟩)

def buildJARMResponse (J : JwtLib) (tc : MintConfig) (now : Int) (clientID code state : String) : Option Signed :=
  jarmToken J tc now clientID (("code", .str code) :: pairIf (state ≠ "") "state" (.str state))

def buildJARMErrorResponse (J : JwtLib) (tc : MintConfig) (now : Int)
    (clientID errorCode errorDescription state : String) : Option Signed :=
  jarmToken J tc now clientID (("error", .str errorCode) ::
    pairIf (errorDescription ≠ "") "error_description" (.str errorDescription) ++ pairIf (state ≠ "") "state" (.str state))

/-- A call that signs with an issuer's keys. The others are the handlers that sign with them
without a `TokenConfig`, such as those of elevated tokens and request objects. -/
inductive Minting where
  | accessToken (now : Int) (jti clientID scope : String) (user : Option UserClaims) (dpop : Option DPoPKey)
      (mtls : Option MTLSCert)
  | idToken (now : Int) (jti clientID nonce : String) (user : UserClaims) (alg : String)
  | userInfo (clientID : String) (claims : GoMap Json) (alg : String)
  | jarm (now : Int) (clientID code state : String)
  | jarmError (now : Int) (clientID errorCode errorDescription state : String)
  | other (alg : String) (claims : GoMap Json)

def Minting.isAccessToken : Minting → Bool
  | accessToken .. => true
  | _ => false

def Minting.token (J : JwtLib) (tc : MintConfig) : Minting → Option Signed
  | accessToken now jti clientID scope user dpop mtls =>
    (issueAccessToken J tc now jti clientID scope user dpop mtls false).map (·.1)
  | idToken now jti clientID nonce user alg => issueIDToken J tc now jti clientID nonce user alg false
  | userInfo clientID claims alg => signUserInfoClaims J tc clientID claims alg false
  | jarm now clientID code state => buildJARMResponse J tc now clientID code state
  | jarmError now clientID errorCode errorDescription state =>
    buildJARMErrorResponse J tc now clientID errorCode errorDescription state
  | other alg claims => some ⟨tc.keys, alg, claims⟩

/-- The algorithm that the call is made with. -/
def Minting.alg : Minting → String
  | accessToken .. | jarm .. | jarmError .. => "PS256"
  | idToken _ _ _ _ _ alg | userInfo _ _ alg | other alg _ => alg

structure Minted {K : Type} (J : JwtLib) (lib : JwsLib K) where
  config : MintConfig
  minting : Minting
  key : K
  kid : String
  randomness : Nat
  signed : Signed
  raw : String
  minted : minting.token J config = some signed
  written : lib.sign key signed.alg kid signed.claims randomness = some raw

/-! ## Verification -/

inductive KeyType where
  | rsa
  | other (name : String)
deriving DecidableEq

structure VerificationKey (K : Type) where
  kid : String
  kty : KeyType := .rsa
  use : String := "sig"
  alg : String := ""
  key : K

structure KeyRing (K : Type) where
  issuer : String
  jwks : Option (List (VerificationKey K))

section
variable {K : Type}

def VerificationKey.eligible (key : VerificationKey K) : Bool :=
  decide (key.kty = .rsa ∧ (key.use = "" ∨ key.use = "sig") ∧ (key.alg = "" ∨ key.alg = "PS256"))

def eligibleKeys (set : List (VerificationKey K)) : List (VerificationKey K) :=
  (set.filter (·.eligible)).map fun key => { key with alg := "PS256" }

def lookupKey (keys : List (VerificationKey K)) (kid : String) : Option (VerificationKey K) :=
  if kid = "" then
    match keys with
    | [key] => some key
    | _ => none
  else keys.find? (·.kid == kid)

def KeyRing.keyFor (ring : KeyRing K) (kid : String) : Option K :=
  match ring.jwks with
  | none => none
  | some set => (lookupKey (eligibleKeys set) kid).map (·.key)

variable (lib : JwsLib K)

variable (claims : GoMap Json)

def readTexts (k : String) : List String :=
  match claims.lookup k with
  | some (.arr items) => items.filterMap Json.asString
  | some (.str s) => [s]
  | _ => []

def readTime (k : String) : Option (Option Int) :=
  match claims.lookup k with
  | none => some none
  | some v => (lib.time v).map fun t => if t = 0 then none else some t

def tokenWith (exp iat nbf : Option Int) : AccessToken where
  jti := textClaim claims "jti"
  sub := lib.uuid (textClaim claims "sub")
  orgID := lib.uuid (textClaim claims "org_id")
  issuer := textClaim claims "iss"
  exp := exp
  iat := iat
  nbf := nbf
  aud := readTexts claims "aud"
  scope := textClaim claims "scope"
  email := textClaim claims "email"

def readToken : Option AccessToken := do
  let exp ← readTime lib claims "exp"
  let iat ← readTime lib claims "iat"
  let nbf ← readTime lib claims "nbf"
  return tokenWith lib claims exp iat nbf

/-- The string verified with the key that its header names. A ring without eligible keys has
none for it. -/
def parseSignedToken (ring : KeyRing K) (raw : String) : Option AccessToken := do
  let kid ← lib.kid raw
  let key ← ring.keyFor kid
  let claims ← lib.verify key raw
  readToken lib claims

def KeyRing.tokenConfig (ring : KeyRing K) : TokenConfig := ⟨ring.issuer, parseSignedToken lib ring⟩

end

/-! ## Kinds of tokens -/

open List Option

theorem Minting.token_alg {J} {tc} {minting : Minting} {signed}
    (h : minting.token J tc = some signed) : signed.alg = minting.alg := by
  cases minting with
  | accessToken now jti clientID scope user dpop mtls =>
    obtain ⟨r, hr, rfl⟩ := map_eq_some_iff.mp h
    exact (issueAccessToken_some.mp hr).2.2.1
  | idToken now jti clientID nonce user alg => exact (issueIDToken_some.mp h).2.2.1
  | userInfo clientID claims alg =>
    simp only [Minting.token, signUserInfoClaims] at h
    split at h
    · cases h
    · cases h
      rfl
  | jarm | jarmError =>
    obtain ⟨claims, -, rfl⟩ := map_eq_some_iff.mp h
    rfl
  | other alg claims =>
    cases h
    rfl

section
variable {K : Type} {J : JwtLib} {lib : JwsLib K}

/-- What a key of the ring verifies was signed with that key and PS256 by a call of the log. -/
def Unforgeable (ring : KeyRing K) (log : List (Minted J lib)) : Prop :=
  ∀ kid key raw claims, ring.keyFor kid = some key → lib.verify key raw = some claims →
    ∃ m ∈ log, m.key = key ∧ m.raw = raw ∧ m.signed.alg = "PS256"

def IssuedAsAccessToken (log : List (Minted J lib)) (raw : String) : Prop :=
  ∃ m ∈ log, m.raw = raw ∧ m.minting.isAccessToken = true

/-- A call other than `IssueAccessToken` has another algorithm or a key that the ring does not trust. -/
def Separated (ring : KeyRing K) (m : Minted J lib) : Prop :=
  m.minting.isAccessToken = false → m.minting.alg = "PS256" → ring.keyFor m.kid ≠ some m.key

end

def mintConfig : MintConfig := ⟨.server, "https://id/acme", 300, 3600, 300⟩

def mintedUser : UserClaims := { userID := "alice", orgID := "acme", email := "alice@acme" }

def accessMinting : Minting := .accessToken 100 "j1" "app" "openid" (some mintedUser) none none

def idMinting (alg : String) : Minting := .idToken 100 "j2" "app" "n" mintedUser alg

def infoMinting : Minting := .userInfo "app" (GoMap.ofMembers [("sub", .str "alice")]) "PS256"

def jarmMinting : Minting := .jarm 100 "app" "code" "state"

def mintedClaims (minting : Minting) : GoMap Json := ((minting.token jwx mintConfig).map (·.claims)).getD ∅

/-- The strings with a PS256 signature of the only key are those of the table. -/
def tableJws (tokens : Rows (Prod.fst : String × GoMap Json → String)) : JwsLib Unit where
  sign _ alg kid claims _ :=
    if kid ≠ "k1" then none
    else if alg = "PS256" then (tokens.find fun x => decide (x.2 = claims)).map (·.1)
    else some "rs256"
  kid _ := some "k1"
  verify _ raw := (tokens.find fun x => decide (x.1 = raw)).map (·.2)
  time
    | .num t 0 => some t
    | _ => none
  uuid _ := none
  kid_sign := by
    intro key alg k claims n raw h
    split at h
    · cases h
    · rename_i hk
      rw [not_not.mp hk]
  verify_sign := by
    intro key k claims n raw h
    split at h
    · cases h
    · rw [if_pos rfl] at h
      obtain ⟨x, hx, rfl⟩ := map_eq_some_iff.mp h
      obtain ⟨hmem, hclaims⟩ := Rows.find_some hx
      rw [Rows.find_key hmem (decide_eq_true rfl) fun _ => of_decide_eq_true]
      exact congrArg some (of_decide_eq_true hclaims)

section
variable {tokens : Rows (Prod.fst : String × GoMap Json → String)}

def mintedAs (minting : Minting) (raw : String) (htoken : (minting.token jwx mintConfig).isSome = true)
    (hwritten : (tableJws tokens).sign () ((minting.token jwx mintConfig).get htoken).alg "k1"
      ((minting.token jwx mintConfig).get htoken).claims 0 = some raw) : Minted jwx (tableJws tokens) where
  config := mintConfig
  minting := minting
  key := ()
  kid := "k1"
  randomness := 0
  signed := (minting.token jwx mintConfig).get htoken
  raw := raw
  minted := (some_get htoken).symm
  written := hwritten

theorem tableJws_unforgeable {ring} {log : List (Minted jwx (tableJws tokens))}
    (h : ∀ x ∈ tokens.list, ∃ m ∈ log, m.raw = x.1 ∧ m.signed.alg = "PS256") : Unforgeable ring log := by
  intro kid key raw claims _ hverify
  obtain ⟨x, hx, -⟩ := map_eq_some_iff.mp hverify
  obtain ⟨hmem, hraw⟩ := Rows.find_some hx
  obtain ⟨m, hm, hm', halg⟩ := h x hmem
  exact ⟨m, hm, rfl, hm'.trans (of_decide_eq_true hraw), halg⟩

end

def oneKey : KeyRing Unit := { issuer := "https://id/acme", jwks := some [{ kid := "k1", key := () }] }

def oneToken : Rows (Prod.fst : String × GoMap Json → String) := Rows.empty.set ("access", mintedClaims accessMinting)

def separateLog : List (Minted jwx (tableJws oneToken)) :=
  [mintedAs accessMinting "access" (by decide +kernel) (by decide +kernel),
    mintedAs (idMinting "RS256") "rs256" (by decide +kernel) (by decide +kernel)]

def fourTokens : Rows (Prod.fst : String × GoMap Json → String) :=
  ((oneToken.set ("id", mintedClaims (idMinting "PS256"))).set ("info", mintedClaims infoMinting)).set
    ("jarm", mintedClaims jarmMinting)

def mixedLog : List (Minted jwx (tableJws fourTokens)) :=
  [mintedAs jarmMinting "jarm" (by decide +kernel) (by decide +kernel),
    mintedAs infoMinting "info" (by decide +kernel) (by decide +kernel),
    mintedAs (idMinting "PS256") "id" (by decide +kernel) (by decide +kernel),
    mintedAs accessMinting "access" (by decide +kernel) (by decide +kernel)]

end Clavex

import Clavex.Reach
import Clavex.Rows
import Mathlib.Data.List.DropRight

/-!
# Trust chains of a federation

`resolveChain` walks `authority_hints` up to a trust anchor, and `validateChain` walks the
statements of a chain back down to the relying party. Neither loop is bounded in the
source, so both functions take fuel: `none` means that it has run out. The pages of the
federation are a finite table; reading a JWT and verifying it is left to the library.
-/

namespace Clavex

def trimSlash (s : String) : String := String.ofList (s.toList.rdropWhile (· == '/'))

structure RPMetadataPolicy where
  (scopeSubset scopeSuperset scopeOneOf : List String := [])
  scopeValue : String := ""
  (grantTypesSubset responseTypesSubset : List String := [])
  deriving DecidableEq

structure EntityStatement where
  (issuer subject : String := "")
  expiresAt : Int := 0
  jwks : String := ""
  authorityHints : List String := []
  policy : Option RPMetadataPolicy := none
  deriving DecidableEq

/-- `pages` is what the URLs answer, `parse` is `parseEntityStatement`, and `parseSet` and
`verify` read a key set and check a signature with it. -/
structure Resolver (K : Type) where
  pages : List (String × String)
  parse : String → Option EntityStatement
  parseSet : String → Option K
  verify : K → String → Bool
  now : Int
  trustAnchors : List String
  trimmed : ∀ a ∈ trustAnchors, trimSlash a = a

theorem trimSlash_trimSlash (s) : trimSlash (trimSlash s) = trimSlash s := by
  simp only [trimSlash, String.toList_ofList]
  rw [List.rdropWhile_idempotent]

section
variable {K : Type}

def newResolver (pages : List (String × String)) (parse : String → Option EntityStatement)
    (parseSet : String → Option K) (verify : K → String → Bool) (now : Int) (trustAnchors : List String) :
    Resolver K where
  pages := pages
  parse := parse
  parseSet := parseSet
  verify := verify
  now := now
  trustAnchors := trustAnchors.map trimSlash
  trimmed := by
    intro a ha
    obtain ⟨b, -, rfl⟩ := List.mem_map.mp ha
    exact trimSlash_trimSlash b

variable (r : Resolver K)

/-! ## Fetching -/

def getJWT (url : String) : Option String := r.pages.lookup url

def configURL (entityID : String) : String := trimSlash entityID ++ "/.well-known/openid-federation"

def fetchEntityConfig (entityID : String) : Option EntityStatement := (getJWT r (configURL entityID)).bind r.parse

def fetchURL (issuerID subjectID : String) : String :=
  trimSlash issuerID ++ "/fetch?iss=" ++ issuerID ++ "&sub=" ++ subjectID

def fallbackURL (issuerID subjectID : String) : String :=
  trimSlash issuerID ++ "/.well-known/openid-federation?sub=" ++ subjectID

def fetchEntityStatement (issuerID subjectID : String) : Option String :=
  match getJWT r (fetchURL issuerID subjectID) with
  | some raw => some raw
  | none => getJWT r (fallbackURL issuerID subjectID)

def statementFetches (issuerID subjectID : String) : Nat :=
  if (getJWT r (fetchURL issuerID subjectID)).isSome then 1 else 2

/-! ## Resolving a chain -/

structure Resolution where
  fetches : Nat
  chain : Except String (List String)

def noPath (authorityHints : List String) : String :=
  "no path to a configured trust anchor found via authority_hints [" ++ " ".intercalate authorityHints ++ "]"

def resolveLoop (up : String → List String → Option Resolution) (rpEntityID : String) (authorityHints : List String) :
    List String → List String → List String → Nat → Option Resolution
  | [], _, _, n => some ⟨n, .error (noPath authorityHints)⟩
  | hint :: hints, visited, chain, n =>
    if trimSlash hint ∈ visited then resolveLoop up rpEntityID authorityHints hints visited chain n
    else
      match fetchEntityStatement r (trimSlash hint) rpEntityID with
      | none =>
        resolveLoop up rpEntityID authorityHints hints (trimSlash hint :: visited) chain
          (n + statementFetches r (trimSlash hint) rpEntityID)
      | some raw =>
        if trimSlash hint ∈ r.trustAnchors then
          some ⟨n + statementFetches r (trimSlash hint) rpEntityID, .ok (chain ++ [raw])⟩
        else
          match fetchEntityConfig r (trimSlash hint) with
          | none =>
            resolveLoop up rpEntityID authorityHints hints (trimSlash hint :: visited) (chain ++ [raw])
              (n + statementFetches r (trimSlash hint) rpEntityID + 1)
          | some interEC =>
            match up (trimSlash hint) interEC.authorityHints with
            | none => none
            | some ⟨m, .error _⟩ =>
              resolveLoop up rpEntityID authorityHints hints (trimSlash hint :: visited) (chain ++ [raw])
                (n + statementFetches r (trimSlash hint) rpEntityID + 1 + m)
            | some ⟨m, .ok subChain⟩ =>
              some ⟨n + statementFetches r (trimSlash hint) rpEntityID + 1 + m, .ok (chain ++ [raw] ++ subChain)⟩

def resolveChain : Nat → String → List String → Option Resolution
  | 0, _, _ => none
  | fuel + 1, rpEntityID, authorityHints =>
    resolveLoop r (resolveChain fuel) rpEntityID authorityHints authorityHints [rpEntityID] [] 0

/-! ## Validating a chain -/

structure ChainEntry where
  claims : EntityStatement
  raw : String
  deriving DecidableEq

def ChainEntry.key (e : ChainEntry) : String × String := (e.claims.issuer, e.claims.subject)

def readChain (chain : List String) : Option (Rows ChainEntry.key) :=
  chain.foldlM (fun stmts compact => (r.parse compact).map fun claims => stmts.set ⟨claims, compact⟩) .empty

def parseJWKS (jwks : String) : Option K := if jwks = "" then none else r.parseSet jwks

def verifyEntry (current : String) (e : ChainEntry) : Except String Unit :=
  match fetchEntityConfig r current with
  | none => .error ("trust chain: cannot fetch entity config of " ++ current)
  | some issuerEC =>
    match parseJWKS r issuerEC.jwks with
    | none => .error ("trust chain: bad JWKS from " ++ current)
    | some issuerJWKS =>
      if r.verify issuerJWKS e.raw = false then
        .error ("trust chain: entity statement from " ++ current ++ " about " ++ e.claims.subject ++
          " has invalid signature")
      else if 0 < e.claims.expiresAt ∧ e.claims.expiresAt < r.now then
        .error ("trust chain: entity statement from " ++ current ++ " about " ++ e.claims.subject ++ " has expired")
      else .ok ()

def findAnchor (stmts : List ChainEntry) : String :=
  ((stmts.find? fun e => decide (e.claims.issuer ∈ r.trustAnchors)).map (·.claims.issuer)).getD ""

def walkChain (stmts : List ChainEntry) (ord : MapOrder ChainEntry) (rpEntityID : String) :
    Nat → Nat → String → List RPMetadataPolicy → Option (Except String (List RPMetadataPolicy))
  | fuel, i, current, policies =>
    if current = rpEntityID then some (.ok policies)
    else
      match fuel with
      | 0 => none
      | fuel + 1 =>
        match (ord.range i stmts).find? fun e => e.claims.issuer == current && e.claims.subject != current with
        | none =>
          some (.error ("trust chain: no entity statement found from " ++ current ++ " toward RP " ++ rpEntityID))
        | some e =>
          match verifyEntry r current e with
          | .error msg => some (.error msg)
          | .ok () => walkChain stmts ord rpEntityID fuel (i + 1) e.claims.subject (policies ++ e.claims.policy.toList)

def validateChain (ord : MapOrder ChainEntry) (fuel : Nat) (rpEntityID : String) (chain : List String) :
    Option (Except String (List RPMetadataPolicy)) :=
  if chain = [] then some (.error "empty trust chain")
  else
    match readChain r chain with
    | none => some (.error "parse entity statement in chain")
    | some stmts =>
      let taEntityID := findAnchor r (ord.range 0 stmts.list)
      if taEntityID = "" then
        some (.error "trust chain does not contain a statement from a configured trust anchor")
      else walkChain r stmts.list ord rpEntityID fuel 1 taEntityID []

end

end Clavex

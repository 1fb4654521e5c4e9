import Clavex.Json
import Clavex.Merkle

/-!
# Status lists

Parsing and validating a status list token, the sources that sign such tokens, and how long
a fetched one may be kept. Reading a JWS, verifying it, URLs, key sets, base64 and zlib are
left to the libraries. Times and durations are in nanoseconds.
-/

namespace Clavex

inductive StatusError where
  | unavailable
  | invalid
  | revoked
  | suspended
  | unknown
  | other (msg : String)
  | detailed (cause : StatusError) (msg : String)
  deriving DecidableEq

def nsPerSecond : Int := 1000000000

/-! ## The libraries -/

structure URLParts where
  (scheme host hostname : String)
  hasUser : Bool := false
  (fragment opaquePart rawQuery : String := "")

inductive KeyKind where
  | rsa (bits : Nat)
  | ec (p256 : Bool)
  | other

/-- A key of a set. `isPrivate` is `none` when that cannot be told, `raw` when the key
cannot be read. -/
structure StatusJWK (K : Type) where
  kid : String
  isPrivate : Option Bool
  kty : String
  raw : Option K

structure JWSHead where
  typ : String
  critical : List String
  (alg kid : String)

structure StatusToken where
  iss : Option String := none
  sub : String := ""
  (iat exp nbf : Option Int := none)
  (ttl statusList : Option Json := none)

/-- `inflate` reads no more than 1 MiB and one byte, and tells how much of its input is left.
`digest` is SHA-256 of the JSON text in hexadecimal. -/
structure StatusLib (K : Type) where
  parseURL : String → Option URLParts
  parseSet : Json → Option (List (StatusJWK K))
  keyKind : K → KeyKind
  parseJWS : Bytes → Option (List JWSHead)
  parseJWT : String → K → Bytes → Option StatusToken
  decodeBase64 : String → Option Bytes
  inflate : Bytes → Option (Bytes × Nat)
  parseMediaType : String → Option String
  digest : Json → String

/-! ## References -/

structure StatusRef where
  idx : Int
  uri : String

structure StatusClaim where
  statusList : StatusRef

def buildStatusClaim (listURI : String) (index : Int) : StatusClaim := ⟨⟨index, listURI⟩⟩

def StatusClaim.json (c : StatusClaim) : Json :=
  .obj [("status_list", .obj [("idx", .num c.statusList.idx 0), ("uri", .str c.statusList.uri)])]

def decIntPtr (_ : Option Int) : Json → Option (Option Int)
  | .null => some none
  | .num m 0 => if -2 ^ 63 ≤ m ∧ m < 2 ^ 63 then some (some m) else none
  | _ => none

def decStrPtr (_ : Option String) : Json → Option (Option String)
  | .null => some none
  | .str s => some (some s)
  | _ => none

section
variable {K : Type} (L : StatusLib K)

def parseStatusClaim (raw : Json) : Except StatusError StatusClaim :=
  match decMembers raw with
  | none => .error .unknown
  | some mechanisms =>
    if mechanisms.len ≠ 1 then .error .unknown
    else
      match mechanisms.lookup "status_list" with
      | none => .error .unknown
      | some value =>
        let ref := unmarshal ((none, none) : Option Int × Option String) (fun ms =>
          let idx := decodeField decIntPtr none "idx" ms
          let uri := decodeField decStrPtr none "uri" ms
          ((idx.1, uri.1), idx.2 || uri.2)) (some value)
        match ref with
        | ((some idx, some uri), false) =>
          if idx < 0 ∨ 2147483647 < idx ∨ 2048 < uri.utf8ByteSize then .error .unknown
          else
            match L.parseURL uri with
            | none => .error .unknown
            | some u =>
              if u.scheme ≠ "https" ∨ u.host = "" ∨ u.hasUser ∨ u.fragment ≠ "" then .error .unknown
              else .ok (buildStatusClaim uri idx)
        | _ => .error .unknown

/-! ## Lists -/

structure ValidatedStatusList where
  bits : Nat
  data : Bytes
  freshUntil : Int

def statusWidths : List Nat := [1, 2, 4, 8]

def ValidatedStatusList.entry (s : ValidatedStatusList) (index : Nat) : Nat :=
  (s.data.getD (index / (8 / s.bits)) 0).toNat / 2 ^ (index % (8 / s.bits) * s.bits) % 2 ^ s.bits

def ValidatedStatusList.check (s : ValidatedStatusList) (index : Int) : Except StatusError Unit :=
  if s.bits ∉ statusWidths then .error .unknown
  else if index < 0 ∨ (s.data.length * (8 / s.bits) : Nat) ≤ index then .error .unknown
  else
    match s.entry index.toNat with
    | 0 => .ok ()
    | 1 => .error .revoked
    | 2 => .error .suspended
    | _ => .error .unknown

/-! ## Validating a token -/

structure StatusValidationPolicy where
  (requireIssuerClaim requireExpiration : Bool := false)

def zeroTime : Int := -62135596800 * nsPerSecond

variable (t : StatusToken)

def StatusToken.issuer : String := t.iss.getD ""

def StatusToken.issuedAt : Int := t.iat.getD zeroTime

def StatusToken.expiration : Int := t.exp.getD zeroTime

def StatusToken.notBefore : Int := t.nbf.getD zeroTime

def issuerMismatch (uri issuer : String) (policy : StatusValidationPolicy) : Bool :=
  decide (t.sub ≠ uri) ||
    (t.iss.isSome && (decide (t.issuer = "") || (decide (issuer ≠ "") && decide (t.issuer ≠ issuer)))) ||
    (policy.requireIssuerClaim && !t.iss.isSome)

def windowClosed (now : Int) (policy : StatusValidationPolicy) : Bool :=
  decide (t.issuedAt = zeroTime) || decide (now + 30 * nsPerSecond < t.issuedAt) || decide (now < t.notBefore) ||
    (t.exp.isSome &&
      (decide (t.expiration = zeroTime) || decide (t.expiration ≤ t.issuedAt) || decide (t.expiration ≤ now))) ||
    (policy.requireExpiration && !t.exp.isSome)

def ttlOf : Json → Option Int
  | .num m e => if m ≤ 0 ∨ 86400 * 10 ^ e < m then none else some (m * nsPerSecond / 10 ^ e)
  | _ => none

def earlier (a b : Int) : Int := if a < b then a else b

def freshDeadline (now maxAge : Int) : Except StatusError Int :=
  let fresh := t.issuedAt + maxAge
  let fresh := if t.exp.isSome then earlier t.expiration fresh else fresh
  match t.ttl with
  | none => .ok fresh
  | some v =>
    match ttlOf v with
    | none => .error (.other "invalid status token ttl")
    | some ttl => .ok (earlier (now + ttl) fresh)

def decodeStatusList (fresh index : Int) : Except StatusError ValidatedStatusList :=
  match t.statusList with
  | none => .error .unknown
  | some v =>
    let body := unmarshal ((none, none) : Option Int × Option String) (fun ms =>
      let bits := decodeField decIntPtr none "bits" ms
      let lst := decodeField decStrPtr none "lst" ms
      ((bits.1, lst.1), bits.2 || lst.2)) (some v)
    match body with
    | ((some bits, some lst), false) =>
      if bits < 0 ∨ bits.toNat ∉ statusWidths then .error (.other "unsupported status bit width")
      else if 192 * 1024 < lst.utf8ByteSize then .error (.other "compressed status list exceeds limit")
      else
        match L.decodeBase64 lst with
        | none => .error (.other "invalid status list encoding")
        | some compressed =>
          match L.inflate compressed with
          | none => .error (.other "invalid or oversized decompressed status list")
          | some (data, rest) =>
            if data.length = 0 ∨ 1024 * 1024 < data.length ∨ rest ≠ 0 then
              .error (.other "invalid or oversized decompressed status list")
            else if (data.length * (8 / bits.toNat) : Nat) ≤ index then .error .unknown
            else .ok ⟨bits.toNat, data, fresh⟩
    | _ => .error .unknown

def statusAlgorithms : List String := ["RS256", "PS256", "ES256"]

def validateClaims (ref : StatusClaim) (issuer : String) (now maxAge : Int)
    (policy : StatusValidationPolicy) : Except StatusError ValidatedStatusList :=
  if issuerMismatch t ref.statusList.uri issuer policy then
    .error (.other "status token issuer or URI does not match")
  else if windowClosed t now policy then .error (.other "invalid status token time window")
  else
    match freshDeadline t now maxAge with
    | .error e => .error e
    | .ok fresh =>
      if fresh ≤ now then .error (.other "status token is stale")
      else decodeStatusList L t fresh ref.statusList.idx

def validateStatusListToken (raw : Bytes) (ref : StatusClaim) (issuer : String) (key : K) (now maxAge : Int)
    (policy : StatusValidationPolicy) : Except StatusError ValidatedStatusList :=
  if 512 * 1024 < raw.length ∨ maxAge ≤ 0 ∨ 24 * 3600 * nsPerSecond < maxAge then .error .unknown
  else
    match parseStatusClaim L ref.json with
    | .error e => .error e
    | .ok _ =>
      match L.parseJWS raw with
      | some [head] =>
        if head.typ ≠ "statuslist+jwt" ∨ head.critical ≠ [] then .error (.other "status token type is invalid")
        else if head.alg ∉ statusAlgorithms then .error (.other "unsupported status signature algorithm")
        else
          match L.parseJWT head.alg key raw with
          | none => .error (.other "status signature is invalid")
          | some token => validateClaims L token ref issuer now maxAge policy
      | _ => .error .unknown

/-! ## Sources -/

structure StatusSource where
  (requireIssuerClaim requireExpiration : Bool := false)
  (format credentialIssuer credentialType statusIssuer : String)
  listURIs : List String
  jwks : Json
  maxAgeSeconds : Int := 0
  cacheSeconds : Option Int := none

def StatusSource.json (s : StatusSource) : Json :=
  .obj ((if s.requireIssuerClaim then [("require_issuer_claim", .bool true)] else []) ++
    (if s.requireExpiration then [("require_expiration", .bool true)] else []) ++
    [("format", .str s.format), ("credential_issuer", .str s.credentialIssuer),
      ("credential_type", .str s.credentialType), ("status_issuer", .str s.statusIssuer),
      ("list_uris", .arr (s.listURIs.map .str)), ("jwks", s.jwks)] ++
    (if s.maxAgeSeconds = 0 then [] else [("max_age_seconds", .num s.maxAgeSeconds 0)]) ++
    (match s.cacheSeconds with
      | none => []
      | some n => [("cache_seconds", .num n 0)]))

def statusCacheKey (scope : String) (source : StatusSource) (uri : String) : String :=
  L.digest (.arr [.str scope, source.json, .str uri])

def statusURL (raw : String) : Option URLParts :=
  if raw = "" ∨ 2048 < raw.utf8ByteSize ∨ trimSpace raw ≠ raw then none
  else
    match L.parseURL raw with
    | none => none
    | some u =>
      if u.scheme ≠ "https" ∨ u.hostname = "" ∨ u.hasUser ∨ u.fragment ≠ "" ∨ u.opaquePart ≠ "" ∨ u.rawQuery ≠ "" then
        none
      else some u

def weakKey : KeyKind → Bool
  | .rsa bits => decide (bits < 2048)
  | .ec p256 => !p256
  | .other => true

def checkKeys : List String → List (StatusJWK K) → Option (List (StatusJWK K))
  | _, [] => some []
  | seen, key :: rest =>
    if key.isPrivate ≠ some false ∨ (key.kty ≠ "RSA" ∧ key.kty ≠ "EC") then none
    else
      match key.raw with
      | none => none
      | some raw =>
        if weakKey (L.keyKind raw) then none
        else if key.kid ≠ "" ∧ key.kid ∈ seen then none
        else (checkKeys (key.kid :: seen) rest).map (key :: ·)

def StatusSource.keys (s : StatusSource) : Option (List (StatusJWK K)) :=
  match L.parseSet s.jwks with
  | none => none
  | some set => if set.length = 0 ∨ 20 < set.length then none else checkKeys L [] set

def statusFormats : List String := ["dc+sd-jwt", "mso_mdoc", "key-attestation+jwt", "wallet-attestation+jwt"]

def boundedText (s : String) (n : Nat) : Bool := decide (s ≠ "") && decide (s.utf8ByteSize ≤ n)

def StatusSource.validate (s : StatusSource) : Bool :=
  decide (s.format ∈ statusFormats) && boundedText s.credentialIssuer 1024 && boundedText s.credentialType 512 &&
    boundedText s.statusIssuer 1024 && decide (s.listURIs ≠ []) && decide (s.listURIs.length ≤ 100) &&
    decide (0 ≤ s.maxAgeSeconds) && decide (s.maxAgeSeconds ≤ 86400) &&
    s.cacheSeconds.all (fun n => decide (0 ≤ n) && decide (n ≤ 300)) &&
    s.listURIs.all (fun uri => (statusURL L uri).isSome) && decide s.listURIs.Nodup && (s.keys L).isSome

/-! ## Cache headers -/

def atoi (s : String) : Option Int :=
  let signed : Bool × List Char :=
    match s.toList with
    | '-' :: ds => (true, ds)
    | '+' :: ds | ds => (false, ds)
  if signed.2 = [] ∨ signed.2.all Char.isDigit = false then none
  else
    let n : Int := (signed.2.foldl (fun n d => 10 * n + (d.toNat - '0'.toNat)) 0 : Nat)
    let v := if signed.1 then -n else n
    if -2 ^ 63 ≤ v ∧ v < 2 ^ 63 then some v else none

def trimQuotes (s : String) : String :=
  String.ofList ((s.toList.dropWhile (· == '"')).reverse.dropWhile (· == '"')).reverse

def wrap64 (x : Int) : Int := (x + 2 ^ 63) % 2 ^ 64 - 2 ^ 63

structure CacheHeaders where
  (age cacheControl : String := "")

/-- One directive. `no-cache`, `no-store` and a `max-age` that is no positive number set the
deadline to now, another `max-age` can only bring it forward. -/
def applyDirective (age now : Int) (part : String) (deadline : Int) : Except StatusError Int :=
  let part := trimSpace (toLower part)
  if part = "no-cache" ∨ part = "no-store" then .ok now
  else if hasPrefix part "max-age=" then
    match atoi (trimQuotes (trimPfx part "max-age=")) with
    | none => .ok now
    | some seconds =>
      if 0 ≤ seconds ∧ 0 < age ∧ seconds ≤ age then .error .unavailable
      else if seconds ≤ 0 then .ok now
      else .ok (earlier (now + wrap64 (((if 86400 < seconds then 86400 else seconds) - age) * nsPerSecond)) deadline)
  else .ok deadline

def applyDirectives (age now : Int) : List String → Int → Except StatusError Int
  | [], deadline => .ok deadline
  | part :: parts, deadline =>
    match applyDirective age now part deadline with
    | .error e => .error e
    | .ok deadline => applyDirectives age now parts deadline

def CacheHeaders.ageSeconds (h : CacheHeaders) : Option Int :=
  if h.age = "" then some 0
  else
    match atoi h.age with
    | none => none
    | some age => if age < 0 then none else some age

def httpCacheDeadline (h : CacheHeaders) (now deadline : Int) : Except StatusError Int :=
  match h.ageSeconds with
  | none => .error .unavailable
  | some age => applyDirectives age now (splitRune ',' h.cacheControl) deadline

end

/-! ## Entries -/

theorem ValidatedStatusList.check_ok {s : ValidatedStatusList} {index} (h : s.check index = .ok ()) :
    0 ≤ index ∧ index < (s.data.length * (8 / s.bits) : Nat) ∧ s.entry index.toNat = 0 := by
  unfold ValidatedStatusList.check at h
  split at h
  · cases h
  split at h
  · cases h
  rename_i hrange
  rw [not_or, Int.not_lt, Int.not_le] at hrange
  refine ⟨hrange.1, hrange.2, ?_⟩
  split at h
  · assumption
  · cases h
  · cases h
  · cases h

/-! ## How long a token is fresh -/

theorem earlier_le_left (a b) : earlier a b ≤ a := by
  unfold earlier
  split <;> omega

theorem earlier_le_right (a b) : earlier a b ≤ b := by
  unfold earlier
  split <;> omega

structure FreshAt (t : StatusToken) (validatedAt maxAge now : Int) : Prop where
  age : now < t.issuedAt + maxAge
  exp : ∀ exp, t.exp = some exp → now < exp
  ttl : ∀ v, t.ttl = some v → ∃ ttl, ttlOf v = some ttl ∧ now < validatedAt + ttl

theorem freshDeadline_fresh {t validatedAt maxAge fresh now}
    (h : freshDeadline t validatedAt maxAge = .ok fresh) (hnow : now < fresh) : FreshAt t validatedAt maxAge now := by
  -- without `ttl` the deadline is that of `iat` and `exp`
  have hexp : ∀ fresh', now < fresh' →
      fresh' ≤ (if t.exp.isSome then earlier t.expiration (t.issuedAt + maxAge) else t.issuedAt + maxAge) →
      now < t.issuedAt + maxAge ∧ ∀ exp, t.exp = some exp → now < exp := by
    intro fresh' hlt hle
    cases hexp : t.exp with
    | none =>
      rw [hexp] at hle
      exact ⟨lt_of_lt_of_le hlt hle, fun exp he => by cases he⟩
    | some exp =>
      rw [hexp] at hle
      have hexpiration : t.expiration = exp := by
        unfold StatusToken.expiration
        rw [hexp]
        rfl
      have hboth : now < earlier exp (t.issuedAt + maxAge) := by
        rw [← hexpiration]
        exact lt_of_lt_of_le hlt hle
      refine ⟨lt_of_lt_of_le hboth (earlier_le_right ..), fun exp' he => ?_⟩
      cases he
      exact lt_of_lt_of_le hboth (earlier_le_left ..)
  unfold freshDeadline at h
  cases httl : t.ttl with
  | none =>
    rw [httl] at h
    cases h
    obtain ⟨hage, hexp⟩ := hexp _ hnow (le_refl _)
    exact ⟨hage, hexp, fun v hv => by rw [httl] at hv; cases hv⟩
  | some v =>
    rw [httl] at h
    dsimp only at h
    cases hval : ttlOf v with
    | none =>
      rw [hval] at h
      cases h
    | some ttl =>
      rw [hval] at h
      cases h
      obtain ⟨hage, hexp⟩ := hexp _ hnow (earlier_le_right ..)
      refine ⟨hage, hexp, fun v' hv => ?_⟩
      rw [httl] at hv
      cases hv
      exact ⟨ttl, hval, lt_of_lt_of_le hnow (earlier_le_left ..)⟩

section
variable {K : Type} {L : StatusLib K}

variable {t : StatusToken} {l : ValidatedStatusList} {ref : StatusClaim} {issuer : String} {validatedAt maxAge : Int}
  {policy : StatusValidationPolicy}

theorem decodeStatusList_fresh {fresh index}
    (h : decodeStatusList L t fresh index = .ok l) : l.freshUntil = fresh := by
  unfold decodeStatusList at h
  split at h
  · cases h
  dsimp only at h
  split at h
  · split at h
    · cases h
    split at h
    · cases h
    split at h
    · cases h
    split at h
    · cases h
    split at h
    · cases h
    · split at h
      · cases h
      · cases h
        rfl
  · cases h

theorem validateClaims_ok (h : validateClaims L t ref issuer validatedAt maxAge policy = .ok l) :
    t.sub = ref.statusList.uri ∧ ∀ now, now < l.freshUntil → FreshAt t validatedAt maxAge now := by
  unfold validateClaims at h
  split at h
  · cases h
  rename_i hissuer
  have hsub : t.sub = ref.statusList.uri := by
    by_contra hne
    apply hissuer
    unfold issuerMismatch
    rw [decide_eq_true hne]
    rfl
  split at h
  · cases h
  split at h
  · cases h
  rename_i fresh hfresh
  split at h
  · cases h
  · refine ⟨hsub, fun now hnow => freshDeadline_fresh hfresh ?_⟩
    rw [← decodeStatusList_fresh h]
    exact hnow

theorem validateStatusListToken_ok {raw key}
    (h : validateStatusListToken L raw ref issuer key validatedAt maxAge policy = .ok l) :
    ∃ head t, L.parseJWS raw = some [head] ∧ L.parseJWT head.alg key raw = some t ∧ t.sub = ref.statusList.uri ∧
      ∀ now, now < l.freshUntil → FreshAt t validatedAt maxAge now := by
  unfold validateStatusListToken at h
  split at h
  · cases h
  split at h
  · cases h
  split at h
  · rename_i head hhead
    split at h
    · cases h
    split at h
    · cases h
    · split at h
      · cases h
      · rename_i t ht
        exact ⟨head, t, hhead, ht, validateClaims_ok h⟩
  · cases h

end

/-! ## How long a response may be cached -/

def directiveDeadline (age now : Int) (part : String) : Option Int :=
  let part := trimSpace (toLower part)
  if part = "no-cache" ∨ part = "no-store" then some now
  else if hasPrefix part "max-age=" then
    match atoi (trimQuotes (trimPfx part "max-age=")) with
    | none => some now
    | some seconds =>
      if seconds ≤ 0 then some now
      else some (now + wrap64 (((if 86400 < seconds then 86400 else seconds) - age) * nsPerSecond))
  else none

/-- The directive sets the deadline to the current time. -/
def Resets (part : String) : Prop :=
  let part := trimSpace (toLower part)
  (part = "no-cache" ∨ part = "no-store") ∨
    hasPrefix part "max-age=" = true ∧ ∀ n, atoi (trimQuotes (trimPfx part "max-age=")) = some n → n ≤ 0

variable {age now deadline u x : Int} {part : String} {parts : List String}

theorem Resets.eq_now (h : Resets part) : directiveDeadline age now part = some now := by
  unfold directiveDeadline
  dsimp only at h ⊢
  rcases h with hstore | ⟨hmax, hneg⟩
  · exact if_pos hstore
  · rw [if_pos hmax]
    cases hn : atoi (trimQuotes (trimPfx (trimSpace (toLower part)) "max-age=")) with
    | none => exact ite_self _
    | some n =>
      dsimp only
      rw [if_pos (hneg n hn), ite_self]

theorem applyDirective_ok (h : applyDirective age now part deadline = .ok u) :
    Resets part ∧ u = now ∨
      ¬ Resets part ∧ u = ((directiveDeadline age now part).map (earlier · deadline)).getD deadline := by
  unfold applyDirective at h
  unfold directiveDeadline Resets
  dsimp only at h ⊢
  split at h
  · rename_i hstore
    cases h
    exact .inl ⟨.inl hstore, rfl⟩
  rename_i hstore
  rw [if_neg hstore]
  split at h
  · rename_i hmax
    rw [if_pos hmax]
    cases hseconds : atoi (trimQuotes (trimPfx (trimSpace (toLower part)) "max-age=")) with
    | none =>
      rw [hseconds] at h
      cases h
      exact .inl ⟨.inr ⟨hmax, fun n hn => by cases hn⟩, rfl⟩
    | some seconds =>
      rw [hseconds] at h
      dsimp only at h ⊢
      split at h
      · cases h
      split at h
      · rename_i hneg
        cases h
        exact .inl ⟨.inr ⟨hmax, fun n hn => Option.some.inj hn ▸ hneg⟩, rfl⟩
      · rename_i hpos
        cases h
        rw [if_neg hpos]
        refine .inr ⟨?_, rfl⟩
        rintro (hnone | ⟨-, hneg⟩)
        · exact hstore hnone
        · exact hpos (hneg seconds rfl)
  · rename_i hmax
    cases h
    rw [if_neg hmax]
    refine .inr ⟨?_, rfl⟩
    rintro (hnone | ⟨hpre, -⟩)
    · exact hstore hnone
    · exact hmax hpre

/-- A directive after which none resets gives a deadline of at most `x`. -/
def Cut (age now x : Int) : List String → Prop
  | [] => False
  | part :: parts =>
    (∀ p ∈ parts, ¬ Resets p) ∧ (∃ d, directiveDeadline age now part = some d ∧ d ≤ x) ∨ Cut age now x parts

theorem cut_of_mem (hnone : ∀ p ∈ parts, ¬ Resets p) (hp : part ∈ parts) {d} (hd : directiveDeadline age now part = some d)
    (hle : d ≤ x) : Cut age now x parts := by
  induction parts with
  | nil => cases hp
  | cons p parts ih =>
    have hrest := (List.forall_mem_cons.mp hnone).2
    rcases List.mem_cons.mp hp with rfl | hp
    · exact .inl ⟨hrest, d, hd, hle⟩
    · exact .inr (ih hrest hp)

theorem cut_of_resets (h : ∃ p ∈ parts, Resets p) (hle : now ≤ x) : Cut age now x parts := by
  induction parts with
  | nil => simp at h
  | cons p parts ih =>
    by_cases hrest : ∃ p ∈ parts, Resets p
    · exact .inr (ih hrest)
    · have hp : Resets p := by simpa [hrest] using h
      exact .inl ⟨fun q hq hreset => hrest ⟨q, hq, hreset⟩, now, hp.eq_now, hle⟩

theorem Cut.mem (h : Cut age now x parts) : ∃ p ∈ parts, ∃ d, directiveDeadline age now p = some d ∧ d ≤ x := by
  induction parts with
  | nil => cases h
  | cons p parts ih =>
    rcases h with ⟨-, hd⟩ | h
    · exact ⟨p, List.mem_cons_self .., hd⟩
    · obtain ⟨q, hq, hd⟩ := ih h
      exact ⟨q, List.mem_cons_of_mem _ hq, hd⟩

theorem applyDirectives_le_iff (h : applyDirectives age now parts deadline = .ok u) (x) :
    u ≤ x ↔ (∀ p ∈ parts, ¬ Resets p) ∧ deadline ≤ x ∨ Cut age now x parts := by
  induction parts generalizing deadline with
  | nil =>
    cases h
    simp [Cut]
  | cons part parts ih =>
    unfold applyDirectives at h
    split at h
    · cases h
    rename_i deadline' hd
    rw [ih h, Cut, List.forall_mem_cons]
    rcases applyDirective_ok hd with ⟨hreset, rfl⟩ | ⟨hreset, rfl⟩
    · simp [hreset, hreset.eq_now]
    · cases hpart : directiveDeadline age now part with
      | none => simp [hreset]
      | some d =>
        have hearlier : earlier d deadline ≤ x ↔ d ≤ x ∨ deadline ≤ x := by grind [earlier]
        simp only [Option.map_some, Option.getD_some, hearlier, Option.some.injEq, exists_eq_left']
        tauto

theorem applyDirectives_le (h : applyDirectives age now parts deadline = .ok u) (hu : now < u) :
    u ≤ deadline ∧ ∀ part ∈ parts, ∀ b, directiveDeadline age now part = some b → u ≤ b := by
  have hle := applyDirectives_le_iff h
  have hnone : ∀ p ∈ parts, ¬ Resets p := by
    intro p hp hreset
    exact not_le.mpr hu ((hle now).mpr (.inr (cut_of_resets ⟨p, hp, hreset⟩ le_rfl)))
  exact ⟨(hle _).mpr (.inl ⟨hnone, le_rfl⟩), fun part hp b hb => (hle b).mpr (.inr (cut_of_mem hnone hp hb le_rfl))⟩

def CacheableAt (h : CacheHeaders) (receivedAt now : Int) : Prop :=
  ∃ age, h.ageSeconds = some age ∧
    ∀ part ∈ splitRune ',' h.cacheControl, ∀ b, directiveDeadline age receivedAt part = some b → now < b

theorem httpCacheDeadline_cacheable {hd receivedAt deadline u now}
    (h : httpCacheDeadline hd receivedAt deadline = .ok u) (hu : receivedAt < u) (hnow : now < u) :
    now < deadline ∧ CacheableAt hd receivedAt now := by
  unfold httpCacheDeadline at h
  split at h
  · cases h
  · rename_i age hage
    obtain ⟨hle, hparts⟩ := applyDirectives_le h hu
    exact ⟨lt_of_lt_of_le hnow hle, age, hage, fun part hp b hb => lt_of_lt_of_le hnow (hparts part hp b hb)⟩

/-- The latest deadline that a `max-age` directive leaves; a number that cannot be read leaves none. -/
def maxAgeBound (age now : Int) (part : String) : Option Int :=
  let part := trimSpace (toLower part)
  if hasPrefix part "max-age=" then
    some (((atoi (trimQuotes (trimPfx part "max-age="))).map fun n => max now (now + (n - age) * nsPerSecond)).getD now)
  else none

theorem directiveDeadline_le {b} (hage : 0 ≤ age) (h : maxAgeBound age now part = some b) :
    now ≤ b ∧ (age * nsPerSecond ≤ 2 ^ 63 → ∃ d, directiveDeadline age now part = some d ∧ d ≤ b) := by
  unfold maxAgeBound at h
  unfold directiveDeadline
  dsimp only at h ⊢
  split at h
  · rename_i hmax
    rw [Option.some.injEq] at h
    subst h
    rw [if_pos hmax]
    cases hn : atoi (trimQuotes (trimPfx (trimSpace (toLower part)) "max-age=")) with
    | none => simp
    | some n =>
      simp only [Option.map_some, Option.getD_some]
      refine ⟨le_max_left .., fun hfits => ?_⟩
      split
      · exact ⟨now, rfl, le_max_left ..⟩
      split
      · exact ⟨now, rfl, le_max_left ..⟩
      · refine ⟨_, rfl, ?_⟩
        have hwrap : ∀ x : Int, -2 ^ 63 ≤ x → x < 2 ^ 63 → wrap64 x = x := by
          intro x hlo hhi
          unfold wrap64
          rw [Int.emod_eq_of_lt (by omega) (by omega), Int.add_sub_cancel]
        unfold nsPerSecond at hfits ⊢
        rw [hwrap _ (by split <;> omega) (by split <;> omega)]
        split <;> omega
  · cases h

/-- What the directives give is not later than what is asked for: the last one that resets the
deadline, or one after it, gives no later one than there was, and no `max-age` leaves a bound
that the deadline and all that the directives give are later than. -/
def DeadlineKept (age now deadline : Int) (parts : List String) : Prop :=
  ((∃ p ∈ parts, Resets p) → Cut age now deadline parts) ∧
    ∀ part ∈ parts, ∀ b, maxAgeBound age now part = some b →
      deadline ≤ b ∨ ∃ p ∈ parts, ∃ d, directiveDeadline age now p = some d ∧ d ≤ b

theorem StatusSource.json_inj {s s' : StatusSource} (h : s.json = s'.json) : s = s' := by
  obtain ⟨i, e, f, ci, ct, si, us, jwks, m, c⟩ := s
  obtain ⟨i', e', f', ci', ct', si', us', jwks', m', c'⟩ := s'
  simp only [StatusSource.json, Json.obj.injEq] at h
  -- the members that may be left out come first and last, and have names of their own
  have hflags : i = i' ∧ e = e' := by
    cases i <;> cases i' <;> cases e <;> cases e' <;> simp at h ⊢
  obtain ⟨rfl, rfl⟩ := hflags
  simp only [List.append_assoc, List.append_cancel_left_eq, List.cons_append, List.nil_append, List.cons.injEq,
    Prod.mk.injEq, true_and, Json.str.injEq, Json.arr.injEq] at h
  obtain ⟨rfl, rfl, rfl, rfl, hus, rfl, htail⟩ := h
  have hstr : Function.Injective Json.str := fun a b h => by
    cases h
    rfl
  obtain rfl : us = us' := List.map_injective_iff.mpr hstr hus
  have hlast : m = m' ∧ c = c' := by
    cases c <;> cases c' <;> by_cases hm : m = 0 <;> by_cases hm' : m' = 0 <;> simp [hm, hm'] at htail ⊢ <;> exact htail
  obtain ⟨rfl, rfl⟩ := hlast
  rfl

end Clavex

import Clavex.TokenIssue

/-!
# DPoP proofs

`ParseDPoPProof`: the checks on a proof sent in the `DPoP` header, up to the key it
proves possession of. Reading the JWS, comparing names and normalising URLs are left to
the libraries; their answers are the fields of `DPoPProof` and `ProofLib`.
-/

namespace Clavex

inductive ProofJWK where
  | publicKey
  | rsaPrivate
  | ecdsaPrivate

structure DPoPClaims where
  jti : String
  iat : Option Int
  (htm htu : String)
  ath : Option String := none

structure DPoPProof where
  signatures : Nat := 1
  (typ alg : String)
  jwk : Option ProofJWK
  verifies : Bool
  payload : Option DPoPClaims
  thumbprint : Option String

inductive DPoPError where
  | malformed
  | noSignatures
  | typ (got : String)
  | pkcs1 (alg : String)
  | alg (alg : String)
  | jwkRequired
  | privateKey
  | signature
  | payload
  | jtiRequired
  | iatRequired
  | tooOld (age : Int)
  | htm (proof request : String)
  | htu (proof request : String)
  | thumbprint

structure ProofLib where
  parse : String → Option DPoPProof
  equalFold : String → String → Bool
  normalizeHTU : String → String
  errorText : DPoPError → String

def dpopProofMaxAge : Int := 300

def rejectForbiddenDPoPAlg (alg : String) : Except DPoPError Unit :=
  if alg ∈ ["PS256", "PS384", "PS512", "ES256", "ES384", "ES512", "EdDSA"] then .ok ()
  else if alg ∈ ["RS256", "RS384", "RS512"] then .error (.pkcs1 alg)
  else .error (.alg alg)

def checkProofJWK : Option ProofJWK → Except DPoPError Unit
  | none => .error .jwkRequired
  | some .publicKey => .ok ()
  | some _ => .error .privateKey

def checkIssuedAt (now : Int) : Option Int → Except DPoPError Unit
  | none => .error .iatRequired
  | some iat =>
    let age := if now - iat < 0 then iat - now else now - iat
    if dpopProofMaxAge < age then .error (.tooOld age) else .ok ()

def checkProofClaims (L : ProofLib) (now : Int) (htm htu : String) (p : DPoPProof) (c : DPoPClaims) :
    Except DPoPError DPoPKey :=
  if c.jti = "" then .error .jtiRequired
  else do
    checkIssuedAt now c.iat
    if ¬ L.equalFold c.htm htm then .error (.htm c.htm htm)
    else if L.normalizeHTU c.htu ≠ htu then .error (.htu c.htu htu)
    else
      match p.thumbprint with
      | none => .error .thumbprint
      | some jkt => .ok { jkt := jkt, jti := c.jti, alg := p.alg, ath := c.ath.getD "" }

def checkProof (L : ProofLib) (now : Int) (htm htu : String) (p : DPoPProof) : Except DPoPError DPoPKey :=
  if p.signatures = 0 then .error .noSignatures
  else if ¬ L.equalFold p.typ "dpop+jwt" then .error (.typ p.typ)
  else do
    rejectForbiddenDPoPAlg p.alg
    checkProofJWK p.jwk
    if ¬ p.verifies then .error .signature
    else
      match p.payload with
      | none => .error .payload
      | some c => checkProofClaims L now htm htu p c

def parseDPoPProof (L : ProofLib) (now : Int) (proofJWT htm htu : String) : Except DPoPError (Option DPoPKey) :=
  if proofJWT = "" then .ok none
  else
    match L.parse proofJWT with
    | none => .error .malformed
    | some p => (checkProof L now htm htu p).map some

variable {L : ProofLib} {now : Int} {htm htu : String} {p : DPoPProof} {k : DPoPKey}

theorem checkProofClaims_ok {c} (h : checkProofClaims L now htm htu p c = .ok k) : c.iat.isSome ∧ k.jti = c.jti := by
  unfold checkProofClaims at h
  split at h
  · cases h
  obtain ⟨_, hiat, h⟩ := except_bind_ok h
  have hsome : c.iat.isSome := by
    cases hc : c.iat with
    | none => rw [hc] at hiat; cases hiat
    | some iat => rfl
  split at h
  · cases h
  split at h
  · cases h
  · split at h
    · cases h
    · cases h; exact ⟨hsome, rfl⟩

theorem checkProof_ok
    (h : checkProof L now htm htu p = .ok k) : ∃ c, p.payload = some c ∧ c.iat.isSome ∧ k.jti = c.jti := by
  unfold checkProof at h
  split at h
  · cases h
  split at h
  · cases h
  obtain ⟨-, -, h⟩ := except_bind_ok h
  obtain ⟨-, -, h⟩ := except_bind_ok h
  split at h
  · cases h
  · split at h
    · cases h
    · rename_i c hc
      exact ⟨c, hc, checkProofClaims_ok h⟩

end Clavex

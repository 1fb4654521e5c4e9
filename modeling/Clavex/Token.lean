import Clavex.Models

/-!
# Signed access tokens

`VerifyAccessToken` up to the cryptography: `parse` is what a string that some
eligible key signed says. The times are checked by the JWT library without skew,
and a claim that is missing is not checked.
-/

namespace Clavex

/-- `sub` and `orgID` are `none` when the claim is no UUID. -/
structure AccessToken where
  jti : String
  (sub orgID : Option UUID)
  issuer : String
  exp : Option Int
  (iat nbf : Option Int := none)
  aud : List String := []
  (scope email : String := "")

structure TokenConfig where
  issuer : String
  parse : String → Option AccessToken

def AccessToken.startedAt (t : AccessToken) (now : Int) : Bool :=
  t.iat.all (fun i => decide (i ≤ now)) && t.nbf.all (fun n => decide (n ≤ now))

def AccessToken.validAt (t : AccessToken) (now : Int) : Bool :=
  t.exp.all (fun e => decide (now < e)) && t.startedAt now

def TokenConfig.verifyAccessToken (tc : TokenConfig) (now : Int) (raw : String) : Option AccessToken :=
  match tc.parse raw with
  | none => none
  | some t => if t.validAt now && t.issuer == tc.issuer then some t else none

variable {tc : TokenConfig} {now now' : Int} {raw : String} {t : AccessToken}

theorem verifyAccessToken_some :
    tc.verifyAccessToken now raw = some t ↔ tc.parse raw = some t ∧ t.validAt now = true ∧ t.issuer = tc.issuer := by
  unfold TokenConfig.verifyAccessToken
  cases tc.parse raw with
  | none => simp
  | some t' =>
    simp only [Option.some.injEq, Option.ite_none_right_eq_some, Bool.and_eq_true, beq_iff_eq]
    constructor
    · rintro ⟨⟨h1, h2⟩, rfl⟩; exact ⟨rfl, h1, h2⟩
    · rintro ⟨rfl, h1, h2⟩; exact ⟨⟨h1, h2⟩, rfl⟩

theorem startedAt_of_le (hle : now ≤ now') (h : t.startedAt now = true) :
    t.startedAt now' = true := by
  unfold AccessToken.startedAt at h ⊢
  cases hi : t.iat <;> cases hn : t.nbf <;> simp [hi, hn] at h ⊢ <;> omega

theorem verifyAccessToken_exp {e}
    (h : tc.verifyAccessToken now raw = some t) (he : t.exp = some e) : now < e := by
  obtain ⟨-, hv, -⟩ := verifyAccessToken_some.mp h
  simp only [AccessToken.validAt, he, Option.all_some, Bool.and_eq_true, decide_eq_true_eq] at hv
  exact hv.1

theorem verifyAccessToken_never (hle : now ≤ now')
    (hstart : ∀ t, tc.parse raw = some t → t.startedAt now = true) (h : tc.verifyAccessToken now raw = none) :
    tc.verifyAccessToken now' raw = none := by
  cases h' : tc.verifyAccessToken now' raw with
  | none => rfl
  | some t =>
    obtain ⟨hp, hv, hiss⟩ := verifyAccessToken_some.mp h'
    have hs := hstart t hp
    have hnow : t.validAt now = true := by
      unfold AccessToken.validAt at hv ⊢
      rw [hs, Bool.and_true]
      cases he : t.exp with
      | none => rfl
      | some e =>
        simp only [he, Option.all_some, Bool.and_eq_true, decide_eq_true_eq] at hv ⊢
        omega
    rw [verifyAccessToken_some.mpr ⟨hp, hnow, hiss⟩] at h
    cases h

end Clavex

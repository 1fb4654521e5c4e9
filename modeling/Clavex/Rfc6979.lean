import Clavex.Mdoc
import Mathlib.Algebra.Field.ZMod
import Mathlib.Algebra.Module.ZMod

/-!
# Deterministic signatures

`rfc6979SignP256` with any HMAC, over any group of prime order and any map to x-coordinates. The
loop has fuel; the result is the pair that is marshalled.
-/

namespace Clavex

open Option Nat

section
variable {G : Type} (hmac : Bytes → Bytes → Bytes) (N : Nat) [AddCommGroup G] (g : G) (xCoord : G → Nat)

def fillBytes (n : Nat) : Bytes := (List.range 32).map fun i => UInt8.ofNat (n / 256 ^ (31 - i))

/-- What one nonce gives, `x` being the private scalar and `e` the digest. -/
def signWith (x e k : Nat) : Option (Nat × Nat) :=
  if 0 < k ∧ k < N then
    let r := xCoord (k • g) % N
    if r ≠ 0 then
      let s := (r * x + e) * (k : ZMod N)⁻¹.val % N
      if s ≠ 0 then some (r, s) else none
    else none
  else none

def drbgSeed (privScalar hash : Bytes) : Bytes × Bytes :=
  let h := fillBytes (if N ≤ beNat hash then beNat hash - N else beNat hash)
  let v := List.replicate 32 1
  let k := hmac (List.replicate 32 0) (v ++ [0] ++ privScalar ++ h)
  let v := hmac k v
  let k := hmac k (v ++ [1] ++ privScalar ++ h)
  (k, hmac k v)

def drbgRetry (kv : Bytes × Bytes) : Bytes × Bytes :=
  let v := hmac kv.1 kv.2
  let k := hmac kv.1 (v ++ [0])
  (k, hmac k v)

def trySign (x e : Nat) (kv : Bytes × Bytes) : Option (Nat × Nat) := signWith N g xCoord x e (beNat (hmac kv.1 kv.2))

def signLoop (x e : Nat) : Nat → Bytes × Bytes → Option (Nat × Nat)
  | 0, _ => none
  | fuel + 1, kv => (trySign hmac N g xCoord x e kv).or (signLoop x e fuel (drbgRetry hmac kv))

def rfc6979SignP256 (privScalar hash : Bytes) (fuel : Nat) : Option (Nat × Nat) :=
  signLoop hmac N g xCoord (beNat privScalar) (beNat hash) fuel (drbgSeed hmac N privScalar hash)

/-! ## The generator of the standard -/

namespace HmacDrbg

def update (state : Bytes × Bytes) (data : Bytes) : Bytes × Bytes :=
  let k := hmac state.1 (state.2 ++ [0] ++ data)
  let v := hmac k state.2
  if data = [] then (k, v)
  else
    let k := hmac k (v ++ [1] ++ data)
    (k, hmac k v)

/-- A block of output, and the state after it. -/
def generate (state : Bytes × Bytes) : Bytes × Bytes × Bytes :=
  let v := hmac state.1 state.2
  (v, update hmac (state.1, v) [])

def block (seed : Bytes) (n : Nat) : Bytes :=
  (generate hmac ((fun state => (generate hmac state).2)^[n]
    (update hmac (List.replicate 32 0, List.replicate 32 1) seed))).1

end HmacDrbg

/-- The candidates of the standard, from `int2octets` of the scalar and `bits2octets` of the digest. -/
def candidate (privScalar hash : Bytes) (n : Nat) : Nat :=
  beNat (HmacDrbg.block hmac (privScalar ++ fillBytes (beNat hash % N)) n)

theorem trySign_iterate {privScalar hash} (hhash : beNat hash < 2 * N) (x e n) :
    trySign hmac N g xCoord x e ((drbgRetry hmac)^[n] (drbgSeed hmac N privScalar hash)) =
      signWith N g xCoord x e (candidate hmac N privScalar hash n) := by
  have hretry : drbgRetry hmac = fun state => (HmacDrbg.generate hmac state).2 := by
    funext state
    simp [drbgRetry, HmacDrbg.generate, HmacDrbg.update]
  have hmod : (if N ≤ beNat hash then beNat hash - N else beNat hash) = beNat hash % N := by
    split
    · rw [mod_eq_sub_mod ‹_›, mod_eq_of_lt (by omega)]
    · rw [mod_eq_of_lt (by omega)]
  have hseed : drbgSeed hmac N privScalar hash =
      HmacDrbg.update hmac (List.replicate 32 0, List.replicate 32 1) (privScalar ++ fillBytes (beNat hash % N)) := by
    have hne : privScalar ++ fillBytes (beNat hash % N) ≠ [] := List.append_ne_nil_of_right_ne_nil _ (by simp [fillBytes])
    simp only [drbgSeed, HmacDrbg.update, hmod, List.append_assoc, if_neg hne]
  rw [trySign, hretry, hseed]
  rfl

variable {x e k r s : Nat}

theorem signLoop_first {n fuel} {kv} {sig} (hsig : trySign hmac N g xCoord x e ((drbgRetry hmac)^[n] kv) = some sig)
    (hnone : ∀ i < n, trySign hmac N g xCoord x e ((drbgRetry hmac)^[i] kv) = none) (hfuel : n < fuel) :
    signLoop hmac N g xCoord x e fuel kv = some sig := by
  obtain ⟨fuel, rfl⟩ := exists_eq_succ_of_ne_zero (ne_zero_of_lt hfuel)
  induction n generalizing fuel kv with
  | zero =>
    rw [Function.iterate_zero_apply] at hsig
    rw [signLoop, hsig, some_or]
  | succ n ih =>
    obtain ⟨fuel, rfl⟩ := exists_eq_succ_of_ne_zero (ne_zero_of_lt (lt_of_succ_lt_succ hfuel))
    have hfirst : trySign hmac N g xCoord x e kv = none := hnone 0 n.succ_pos
    rw [signLoop, hfirst, none_or]
    exact ih hsig (fun i hi => hnone (i + 1) (succ_lt_succ hi)) _ (lt_of_succ_lt_succ hfuel)

/-! ## What is signed verifies -/

/-- The pair is the signature with the nonce. -/
def SignedWith (x e k r s : Nat) : Prop :=
  (0 < k ∧ k < N) ∧ xCoord (k • g) % N = r ∧ r ≠ 0 ∧ (0 < s ∧ s < N) ∧ (s : ZMod N) * k = e + r * x

def Verifies [Module (ZMod N) G] (publicKey : G) (e r s : Nat) : Prop :=
  xCoord (((e : ZMod N) * (s : ZMod N)⁻¹) • g + ((r : ZMod N) * (s : ZMod N)⁻¹) • publicKey) % N = r

variable {N g xCoord} [Fact N.Prime]

theorem natCast_ne_zero (h : 0 < k ∧ k < N) : (k : ZMod N) ≠ 0 := by
  rw [Ne, ZMod.natCast_eq_zero_iff]
  exact not_dvd_of_pos_of_lt h.1 h.2

theorem signWith_iff : signWith N g xCoord x e k = some (r, s) ↔ SignedWith N g xCoord x e k r s := by
  have hpos : 0 < N := (Fact.out : N.Prime).pos
  unfold signWith SignedWith
  simp only [ite_none_right_eq_some, some.injEq, Prod.mk.injEq]
  refine and_congr_right fun hk => ?_
  have hk0 := natCast_ne_zero hk
  generalize xCoord (k • g) % N = r'
  have hs : ∀ s < N, ((r' * x + e) * (k : ZMod N)⁻¹.val % N = s ↔ (s : ZMod N) * k = e + r' * x) := by
    intro s hs
    have hmod := ZMod.natCast_eq_natCast_iff' ((r' * x + e) * (k : ZMod N)⁻¹.val) s N
    rw [mod_eq_of_lt hs] at hmod
    rw [← hmod]
    simp only [cast_mul, cast_add, ZMod.natCast_val, ZMod.cast_id', id, mul_inv_eq_iff_eq_mul₀ hk0]
    rw [eq_comm, add_comm]
  constructor
  · rintro ⟨hr, hs0, rfl, rfl⟩
    have hlt := mod_lt ((r' * x + e) * (k : ZMod N)⁻¹.val) hpos
    exact ⟨rfl, hr, ⟨pos_of_ne_zero hs0, hlt⟩, (hs _ hlt).mp rfl⟩
  · rintro ⟨rfl, hr, hslt, hsum⟩
    have heq := (hs s hslt.2).mpr hsum
    exact ⟨hr, heq ▸ hslt.1.ne', rfl, heq⟩

variable [Module (ZMod N) G]

theorem SignedWith.verifies (h : SignedWith N g xCoord x e k r s) : Verifies N g xCoord (x • g) e r s := by
  obtain ⟨hk, hr, -, hs, hsum⟩ := h
  have hs0 := natCast_ne_zero hs
  have hnonce : (e : ZMod N) * (s : ZMod N)⁻¹ + r * (s : ZMod N)⁻¹ * x = k := by
    field_simp
    rw [← hsum, mul_comm]
  rw [Verifies, ← cast_smul_eq_nsmul (ZMod N) x, smul_smul, ← add_smul, hnonce, cast_smul_eq_nsmul, hr]

/-- If some candidate of the standard is in range and gives nonzero `r` and `s`, then the first such
one is used, and its signature is in range and verifies. -/
theorem rfc6979SignP256_verifies (privScalar hash : Bytes) (hhash : beNat hash < 2 * N)
    (h : ∃ n r s, SignedWith N g xCoord (beNat privScalar) (beNat hash) (candidate hmac N privScalar hash n) r s) :
    ∃ n r s, SignedWith N g xCoord (beNat privScalar) (beNat hash) (candidate hmac N privScalar hash n) r s ∧
      (∀ i < n, ∀ r s, ¬ SignedWith N g xCoord (beNat privScalar) (beNat hash) (candidate hmac N privScalar hash i) r s) ∧
      (∀ fuel > n, rfc6979SignP256 hmac N g xCoord privScalar hash fuel = some (r, s)) ∧
      (1 ≤ r ∧ r < N) ∧ (1 ≤ s ∧ s < N) ∧ Verifies N g xCoord (beNat privScalar • g) (beNat hash) r s := by
  classical
  obtain ⟨r, s, hsigned⟩ := Nat.find_spec h
  have hnone : ∀ i < Nat.find h, ∀ r s,
      ¬ SignedWith N g xCoord (beNat privScalar) (beNat hash) (candidate hmac N privScalar hash i) r s :=
    fun i hi r s hi' => Nat.find_min h hi ⟨r, s, hi'⟩
  refine ⟨_, r, s, hsigned, hnone, fun fuel hfuel => ?_, ?_, hsigned.2.2.2.1, hsigned.verifies⟩
  · refine signLoop_first hmac N g xCoord ?_ (fun i hi => ?_) hfuel
    · rw [trySign_iterate hmac N g xCoord hhash, signWith_iff]
      exact hsigned
    · rw [trySign_iterate hmac N g xCoord hhash, eq_none_iff_forall_ne_some]
      rintro ⟨r, s⟩ hsome
      exact hnone i hi r s (signWith_iff.mp hsome)
  · exact hsigned.2.1 ▸ ⟨pos_of_ne_zero (hsigned.2.1 ▸ hsigned.2.2.1), mod_lt _ (Fact.out : N.Prime).pos⟩

end

/-- A byte that depends on all of the key and the message. -/
def byteMac (key msg : Bytes) : Bytes := [UInt8.ofNat ((key ++ msg).foldl (fun n b => 3 * n + b.toNat + 1) 0 % 16)]

/-- The first candidate is 0, the second is 4. -/
theorem rfc6979SignP256_verifies_thirteen :
    rfc6979SignP256 byteMac 13 (1 : ZMod 13) ZMod.val [3] [15] 2 = some (4, 10) ∧
      Verifies 13 (1 : ZMod 13) ZMod.val (beNat [3] • 1) 15 4 10 := by
  have hsigned : SignedWith 13 (1 : ZMod 13) ZMod.val (beNat [3]) (beNat [15]) (candidate byteMac 13 [3] [15] 1) 4 10 := by
    unfold SignedWith
    decide +kernel
  have hsome : rfc6979SignP256 byteMac 13 (1 : ZMod 13) ZMod.val [3] [15] 2 = some (4, 10) := by decide +kernel
  have : Fact (Nat.Prime 13) := ⟨by decide⟩
  obtain ⟨n, r, s, -, hfirst, hfuel, -, -, hv⟩ := rfc6979SignP256_verifies byteMac [3] [15] (by decide) ⟨1, 4, 10, hsigned⟩
  have hn : n < 2 := by_contra fun hn => hfirst 1 (by omega) 4 10 hsigned
  rw [hfuel 2 hn] at hsome
  cases hsome
  exact ⟨hfuel 2 hn, hv⟩

end Clavex

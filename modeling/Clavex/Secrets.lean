import Clavex.Merkle

/-!
# Secrets at rest

`Encrypt` writes a version byte, the nonce and the sealed text in base64url. A column may still
hold a plain text: `Decrypt` and `NeedsEncryption` tell the two apart by their form.
-/

namespace Clavex

/-- AES-256-GCM without additional data, and base64url without padding. Texts are byte strings. -/
structure SecretLib where
  gcmSeal : Vector UInt8 32 → Bytes → Bytes → Bytes
  gcmOpen : Vector UInt8 32 → Bytes → Bytes → Option Bytes
  encode : Bytes → Bytes
  decode : Bytes → Option Bytes
  open_seal : ∀ key nonce plain, gcmOpen key nonce (gcmSeal key nonce plain) = some plain
  tag_le : ∀ key nonce plain, 16 ≤ (gcmSeal key nonce plain).length
  decode_encode : ∀ b, decode (encode b) = some b
  decode_nil : decode [] = some []
  decode_dollar : ∀ {s}, 36 ∈ s → decode s = none

def versionByte : UInt8 := 1

def nonceSize : Nat := 12

structure Encryptor where
  key : Vector UInt8 32

variable (L : SecretLib) (e : Encryptor)

def Encryptor.encrypt (random : Except String (Vector UInt8 nonceSize)) (plaintext : Bytes) : Except String Bytes :=
  match random with
  | .error err => .error ("nonce: " ++ err)
  | .ok nonce => .ok (L.encode (versionByte :: (nonce.toList ++ L.gcmSeal e.key nonce.toList plaintext)))

def ownFormat (s : Bytes) : Option Bytes :=
  (L.decode s).filter fun buf => 1 + nonceSize + 16 ≤ buf.length && buf.head? == some versionByte

def Encryptor.decrypt (ciphertext : Bytes) : Except String Bytes :=
  if ciphertext = [] then .ok []
  else
    match ownFormat L ciphertext with
    | none => .ok ciphertext
    | some buf =>
      match L.gcmOpen e.key ((buf.drop 1).take nonceSize) ((buf.drop 1).drop nonceSize) with
      | none => .error "decrypt: authentication failed"
      | some plain => .ok plain

def isEncrypted (s : Bytes) : Bool := s ≠ [] && (ownFormat L s).isSome

def isPasswordHash (s : Bytes) : Bool := (utf8 "$argon2").isPrefixOf s

def needsEncryption (s : Bytes) : Bool := s ≠ [] && !isEncrypted L s && !isPasswordHash s

variable {L e}

theorem ownFormat_encode {b} (h : 28 ≤ b.length) :
    ownFormat L (L.encode (versionByte :: b)) = some (versionByte :: b) := by
  rw [ownFormat, L.decode_encode, Option.filter_some_pos]
  simp [nonceSize, h]

theorem encode_ne_nil {b} (hb : b ≠ []) : L.encode b ≠ [] := by
  intro h
  have hdec := L.decode_encode b
  rw [h, L.decode_nil] at hdec
  exact hb (Option.some.inj hdec).symm

theorem isEncrypted_encode {b} (h : 28 ≤ b.length) : isEncrypted L (L.encode (versionByte :: b)) = true := by
  simp [isEncrypted, ownFormat_encode h, encode_ne_nil]

theorem needsEncryption_of_isEncrypted {s} (h : isEncrypted L s = true) : needsEncryption L s = false := by
  simp [needsEncryption, h]

open List

theorem isEncrypted_passwordHash {s} (h : isPasswordHash s = true) : isEncrypted L s = false := by
  obtain ⟨t, rfl⟩ := isPrefixOf_iff_prefix.mp h
  have hdollar : (36 : UInt8) ∈ utf8 "$argon2" ++ t := mem_append_left _ (by decide)
  simp [isEncrypted, ownFormat, L.decode_dollar hdollar]

variable (L e)

/-- A plain text is read as it is, and is due for encryption unless it is empty or a password hash,
exactly when it does not have the form of a ciphertext. -/
theorem secrets_told_apart :
    (∀ random s c, e.encrypt L random s = .ok c → e.decrypt L c = .ok s ∧ needsEncryption L c = false) ∧
    ∀ s, e.decrypt L s = .ok s ∧ (needsEncryption L s = true ↔ s ≠ [] ∧ isPasswordHash s = false) ↔
      isEncrypted L s = false := by
  constructor
  · intro random s c h
    cases random with
    | error err => cases h
    | ok nonce =>
      cases h
      have hn : nonce.toList.length = nonceSize := nonce.length_toList
      generalize nonce.toList = n at hn ⊢
      have htag := L.tag_le e.key n s
      generalize hct : L.gcmSeal e.key n s = ct at htag ⊢
      have hlen : 28 ≤ (n ++ ct).length := by
        rw [length_append, hn]
        exact Nat.add_le_add_left htag 12
      refine ⟨?_, needsEncryption_of_isEncrypted (isEncrypted_encode hlen)⟩
      rw [Encryptor.decrypt, if_neg (encode_ne_nil (cons_ne_nil _ _)), ownFormat_encode hlen]
      simp [take_left' hn, drop_left' hn, ← hct, L.open_seal]
  · intro s
    by_cases hs : s = []
    · simp [hs, Encryptor.decrypt, needsEncryption, isEncrypted]
    cases henc : isEncrypted L s with
    | false =>
      have hform : ownFormat L s = none := by simpa [isEncrypted, hs] using henc
      simp [Encryptor.decrypt, needsEncryption, hs, hform, henc]
    | true =>
      cases hhash : isPasswordHash s with
      | false => simp [needsEncryption, hs, henc]
      | true => rw [isEncrypted_passwordHash hhash] at henc; cases henc

def unpair : Bytes → Bytes
  | x :: y :: s => (x * 16 + y) :: unpair s
  | _ => []

/-- A byte is written as two, neither of which is a dollar sign. -/
def pairLib : SecretLib where
  gcmSeal _ _ plain := replicate 16 0 ++ plain
  gcmOpen _ _ ct := some (ct.drop 16)
  encode b := b.flatMap fun x => [x / 16, x % 16]
  decode s := if 36 ∈ s then none else some (unpair s)
  open_seal _ _ _ := by simp
  tag_le _ _ _ := by simp
  decode_encode b := by
    rw [if_neg (by simp; grind)]
    induction b <;> simp_all [unpair]
    grind
  decode_nil := rfl
  decode_dollar h := if_pos h

/-- A token that decodes to the version byte and 28 more bytes is taken for a ciphertext. -/
theorem plain_secret_never_encrypted :
    let s := pairLib.encode (versionByte :: replicate 28 0)
    needsEncryption pairLib s = false ∧ s ≠ [] ∧ isPasswordHash s = false := by
  decide

end Clavex

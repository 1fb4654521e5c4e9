import Clavex.CredentialState

/-!
# Notifications of wallets

`OID4VCIHandler.Notification`. A wallet reports what became of a credential, and one that was
deleted or failed is revoked. The credential is named by its hash.
-/

namespace Clavex

structure WalletOffer where
  (id orgID : UUID)
  userID : Option UUID
  walletGrantVersion : Nat
  accessTokenHash : Option String
  accessTokenExpiresAt : Option Int
deriving DecidableEq

structure WalletGrant where
  (id offerID : UUID)
  expiresAt : Int
  revokedAt : Option Int

structure WalletToken where
  tokenHash : String
  grantID : UUID
  access : Bool
  expiresAt : Int

structure NotificationRequest where
  (notificationID event : String)
  eventDescription : Option String := none
  credentialID : Option String

/-- `holder` has the columns `user_id` and `sd_jwt_hash` of issued credentials. -/
structure NotificationStore where
  now : Int
  orgs : List (String × UUID)
  offers : List WalletOffer
  grants : List WalletGrant
  tokens : List WalletToken
  holder : UUID → Option UUID × String
  status : StatusStore
  notifications : List (UUID × NotificationRequest × Option UUID)

namespace NotificationStore

variable (s : NotificationStore)

def getOfferByAccessToken (tokenHash : String) : Option WalletOffer :=
  s.offers.find? fun o => decide
    ((o.walletGrantVersion = 0 ∧ o.accessTokenHash = some tokenHash ∧ (∃ t ∈ o.accessTokenExpiresAt, s.now < t) ∧
      ∀ g ∈ s.grants, g.offerID ≠ o.id) ∨
    ∃ t ∈ s.tokens, t.tokenHash = tokenHash ∧ t.access ∧ s.now < t.expiresAt ∧
      ∃ g ∈ s.grants, g.id = t.grantID ∧ g.offerID = o.id ∧ s.now < g.expiresAt ∧ g.revokedAt = none)

def getIssuedCredentialByHash (orgID : UUID) (sdJWTHash : String) : Option IssuedCredential :=
  s.status.creds.find fun c => decide (c.orgID = orgID ∧ (s.holder c.id).2 = sdJWTHash)

end NotificationStore

/-- `body` is `none` if it cannot be read, and `some none` if it is not JSON. -/
structure NotificationCall where
  (orgSlug token : String)
  body : Option (Option NotificationRequest)

inductive NotificationReply where
  | error (status : Nat) (error description : String)
  | noContent

structure NotificationEnv where
  (offerFails orgFails lookupFails recordFails : Bool := false)

def validNotificationEvents : List String := ["credential_accepted", "credential_deleted", "credential_failure"]

section
variable (hashToken : String → String) (env : NotificationEnv)

def notify (org : UUID) (n : NotificationRequest) (s : NotificationStore) : NotificationStore × Option CredentialReq :=
  let cred := if env.lookupFails ∨ n.credentialID.getD "" = "" then none
    else s.getIssuedCredentialByHash org (n.credentialID.getD "")
  (if env.recordFails then s else { s with notifications := (org, n, cred.map (·.id)) :: s.notifications },
    match cred with
    | none => none
    | some c =>
      if n.event = "credential_deleted" ∨ n.event = "credential_failure" then
        some (.revokeIssuedCredential c.id ("wallet_" ++ n.event))
      else none)

def checkNotification (call : NotificationCall) (s : NotificationStore) :
    Except NotificationReply (UUID × NotificationRequest) :=
  if call.token = "" then .error (.error 401 "invalid_token" "missing access token")
  else if call.orgSlug = "" then .error (.error 400 "Bad Request" "")
  else
    match s.orgs.lookup call.orgSlug with
    | none => .error (.error 404 "Not Found" "")
    | some org =>
      if env.orgFails then .error (.error 404 "Not Found" "")
      else if env.offerFails = false ∧ ∃ o ∈ s.getOfferByAccessToken (hashToken call.token), o.orgID ≠ org then
        .error (.error 401 "invalid_token" "")
      else
        match call.body with
        | none => .error (.error 400 "invalid_request" "")
        | some none => .error (.error 400 "invalid_request" "request body must be valid JSON")
        | some (some n) =>
          if n.notificationID = "" then .error (.error 400 "invalid_notification_id" "notification_id is required")
          else if n.event ∉ validNotificationEvents then
            .error (.error 400 "invalid_request"
              "event must be credential_accepted, credential_deleted, or credential_failure")
          else .ok (org, n)

def notification (call : NotificationCall) (s : NotificationStore) :
    NotificationReply × NotificationStore × Option CredentialReq :=
  match checkNotification hashToken env call s with
  | .error reply => (reply, s, none)
  | .ok (org, n) => (.noContent, notify env org n s)

/-! ## Who revokes -/

/-- The token is a live one of the wallet of the credential's user, or one that `verify` takes for
an access token with that subject. -/
def TokenOfHolder (verify : UUID → String → Option UUID) (s : NotificationStore) (org : UUID) (token : String)
    (c : IssuedCredential) : Prop :=
  ∃ user, (s.holder c.id).1 = some user ∧ (verify org token = some user ∨
    ∃ o, s.getOfferByAccessToken (hashToken token) = some o ∧ o.orgID = org ∧ o.userID = some user)

/-- The call reports the loss of the credential, and nothing about it is refused. -/
structure Reports (s : NotificationStore) (call : NotificationCall) (org : UUID) (n : NotificationRequest)
    (c : IssuedCredential) : Prop where
  token : call.token ≠ ""
  slug : call.orgSlug ≠ ""
  tenant : s.orgs.lookup call.orgSlug = some org ∧ env.orgFails = false
  offer : env.offerFails = false → ∀ o ∈ s.getOfferByAccessToken (hashToken call.token), o.orgID = org
  body : call.body = some (some n)
  id : n.notificationID ≠ ""
  event : n.event = "credential_deleted" ∨ n.event = "credential_failure"
  named : n.credentialID.getD "" ≠ "" ∧ env.lookupFails = false
  credential : s.getIssuedCredentialByHash org (n.credentialID.getD "") = some c

/-- The offer of the token is for the user of the credential, or the token verifies for them. That
the offer is of the organisation is checked, unless the offer cannot be read. -/
def ReportedByHolder (verify : UUID → String → Option UUID) (s : NotificationStore) (call : NotificationCall) : Prop :=
  ∀ org n c, Reports hashToken env s call org n c →
    ∃ user, (s.holder c.id).1 = some user ∧ (verify org call.token = some user ∨
      ∃ o, s.getOfferByAccessToken (hashToken call.token) = some o ∧ o.userID = some user ∧
        (env.offerFails = true → o.orgID = org))

variable {hashToken env} {s : NotificationStore}

theorem notification_asks_iff {call req} : (notification hashToken env call s).2.2 = some req ↔
    ∃ org n c, Reports hashToken env s call org n c ∧ req = .revokeIssuedCredential c.id ("wallet_" ++ n.event) := by
  constructor
  · intro h
    unfold notification checkNotification at h
    repeat' split at h
    all_goals try cases h
    rename_i hcheck
    repeat' split at hcheck
    all_goals try cases hcheck
    simp only [notify] at h
    split at h
    · cases h
    rename_i c hcred
    split at h
    · cases h
      rename_i hevent
      rw [Option.ite_none_left_eq_some, not_or] at hcred
      refine ⟨_, _, c, ⟨‹_›, ‹_›, ⟨‹_›, Bool.eq_false_of_not_eq_true ‹_›⟩, ?_, ‹_›, ‹_›, hevent, ?_, hcred.2⟩, rfl⟩
      · grind
      · grind
    · cases h
  · rintro ⟨org, n, c, h, rfl⟩
    have hoffer : ¬ (env.offerFails = false ∧ ∃ o ∈ s.getOfferByAccessToken (hashToken call.token), o.orgID ≠ org) := by
      rintro ⟨hread, o, ho, hne⟩
      exact hne (h.offer hread o ho)
    have hevent : n.event ∈ validNotificationEvents := by
      rcases h.event with hevent | hevent <;> simp [hevent, validNotificationEvents]
    have hread : ¬ (env.lookupFails = true ∨ n.credentialID.getD "" = "") := by simp [h.named]
    have hcheck : checkNotification hashToken env call s = .ok (org, n) := by
      simp only [checkNotification, if_neg h.token, if_neg h.slug, h.tenant, h.body, if_neg h.id]
      rw [if_neg Bool.false_ne_true, if_neg hoffer, if_neg (not_not.mpr hevent)]
    simp only [notification, hcheck, notify, if_neg hread, h.credential]
    exact if_pos h.event

end

def walletHolder : NotificationStore where
  now := 0
  orgs := [("acme", 1)]
  offers := [⟨2, 1, some 7, 0, some "at", some 300⟩]
  grants := []
  tokens := []
  holder _ := (some 7, "hash")
  status := ⟨⟨[{ id := 3, orgID := 1, statusListID := none, statusIndex := none }], by decide⟩, .empty, []⟩
  notifications := []

def deletedCall (token : String) : NotificationCall :=
  ⟨"acme", token, some (some ⟨"n", "credential_deleted", none, some "hash"⟩)⟩

end Clavex

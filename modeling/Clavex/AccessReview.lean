import Clavex.Pool
import Clavex.TokenStore

/-!
# Access reviews

A worker on every replica goes through the same round: it activates the campaigns that are
due and writes their items, takes away the roles of items whose campaign has ended without a
decision, and completes campaigns that have nothing left to decide. Reviewers decide items
through links. Every statement stands by itself.
-/

namespace Clavex

inductive CampaignStatus where
  | pending
  | active
  | completed
  | cancelled
deriving DecidableEq

inductive ReviewDecision where
  | pending
  | approved
  | revoked
  | autoRevoked
deriving DecidableEq

structure AccessReviewCampaign where
  (id orgID : UUID)
  status : CampaignStatus
  (startsAt endsAt : Int)
  autoRevoke : Bool
deriving DecidableEq

structure AccessReviewItem where
  (id campaignID orgID userID roleID reviewerID : UUID)
  decision : ReviewDecision
  (token comment : String)

structure UserRole where
  (userID roleID : UUID)

def UserRole.key (r : UserRole) : UUID × UUID := (r.userID, r.roleID)

/-- `activatedWith` and `rolesTaken` are records: the assignments at the time a campaign was
activated, and the items whose role an auto-revocation took away. -/
structure ReviewStore where
  now : Int
  users : Rows User.id
  userRoles : Rows UserRole.key
  campaigns : Rows AccessReviewCampaign.id
  items : Rows AccessReviewItem.id
  activatedWith : UUID → List (UUID × UUID)
  rolesTaken : List UUID

namespace ReviewStore

variable (s : ReviewStore)

def assignmentsOf (orgID : UUID) : List (UUID × UUID) :=
  (s.userRoles.list.filter fun r =>
    s.users.list.any fun u => decide (u.id = r.userID ∧ u.orgID = orgID ∧ u.isActive = true)).map UserRole.key

def due (c : AccessReviewCampaign) : Bool := decide (c.status = .pending ∧ c.startsAt ≤ s.now)

def setStatus (status : CampaignStatus) (c : AccessReviewCampaign) : AccessReviewCampaign := { c with status }

theorem setStatus_id (status c) : (setStatus status c).id = c.id := rfl

def activateDue : List AccessReviewCampaign × ReviewStore :=
  ((s.campaigns.list.filter s.due).map (setStatus .active),
    { s with
      campaigns := s.campaigns.modify s.due (setStatus .active) (setStatus_id .active)
      activatedWith := fun id =>
        match s.campaigns.find fun c => decide (c.id = id) && s.due c with
        | some c => s.assignmentsOf c.orgID
        | none => s.activatedWith id })

def insertItem (i : AccessReviewItem) : ReviewStore :=
  if s.items.list.any fun j => decide (j.token = i.token) then s
  else
    match s.items.push i with
    | none => s
    | some items => { s with items }

def expired (i : AccessReviewItem) : Bool :=
  decide (i.decision = .pending) &&
    s.campaigns.list.any fun c => decide (c.id = i.campaignID ∧ c.status = .active ∧ c.autoRevoke = true ∧ c.endsAt ≤ s.now)

def hasRole (userID roleID : UUID) : Bool :=
  s.userRoles.list.any fun r => decide (r.userID = userID ∧ r.roleID = roleID)

def unassignRole (i : AccessReviewItem) : ReviewStore :=
  { s with
    userRoles := s.userRoles.delete fun r => decide (r.userID = i.userID ∧ r.roleID = i.roleID)
    rolesTaken := if s.hasRole i.userID i.roleID then i.id :: s.rolesTaken else s.rolesTaken }

def decided (decision : ReviewDecision) (comment : String) (i : AccessReviewItem) : AccessReviewItem := { i with decision, comment }

theorem decided_id (decision comment i) : (decided decision comment i).id = i.id :=
  rfl

def marked (i : AccessReviewItem) : AccessReviewItem := { i with decision := .autoRevoked }

theorem marked_id (i) : (marked i).id = i.id := rfl

def autoRevokeItem (id : UUID) : ReviewStore :=
  { s with items := s.items.modify (fun i => decide (i.id = id ∧ i.decision = .pending)) marked marked_id }

def undecided (c : AccessReviewCampaign) : Bool :=
  s.items.list.any fun i => decide (i.campaignID = c.id ∧ i.decision = .pending)

def completeCampaigns : ReviewStore :=
  { s with
    campaigns := s.campaigns.modify (fun c => decide (c.status = .active) && !s.undecided c) (setStatus .completed)
      (setStatus_id .completed) }

def decideItem (token : String) (decision : ReviewDecision) (comment : String) :
    Option AccessReviewItem × ReviewStore :=
  ((s.items.find fun i => decide (i.token = token ∧ i.decision = .pending)).map (decided decision comment),
    { s with
      items := s.items.modify (fun i => decide (i.token = token ∧ i.decision = .pending)) (decided decision comment)
        (decided_id decision comment) })

end ReviewStore

/-! ## Statements -/

inductive ReviewOp where
  | activateDueCampaigns
  | listAssignments (orgID : UUID)
  | listUsers (orgID : UUID)
  | randomToken
  | createItem (c : AccessReviewCampaign) (pair : UUID × UUID) (reviewerID : UUID) (token : String)
  | listExpiredPendingItems
  | unassignRole (item : AccessReviewItem)
  | autoRevokeItem (id : UUID)
  | completeCampaigns
  | getItemByToken (token : String)
  | decideItem (token : String) (decision : ReviewDecision) (comment : String)

@[reducible] def ReviewOp.Resp : ReviewOp → Type
  | .activateDueCampaigns => Option (List AccessReviewCampaign)
  | .listAssignments _ => Option (List (UUID × UUID))
  | .listUsers _ => Option (List User)
  | .randomToken => Option String
  | .createItem .. => Bool
  | .listExpiredPendingItems => Option (List AccessReviewItem)
  | .unassignRole _ | .autoRevokeItem _ | .completeCampaigns => Bool
  | .getItemByToken _ => Option (Option AccessReviewItem)
  | .decideItem .. => Option AccessReviewItem

inductive StmtFate where
  | done
  | failed
  /-- carried out, with the answer lost -/
  | lost
deriving DecidableEq

/-- `id` and `token` are what is drawn at random. -/
structure ReviewEnv where
  fate : StmtFate
  id : UUID
  token : String

def newItem (id : UUID) (c : AccessReviewCampaign) (pair : UUID × UUID) (reviewerID : UUID) (token : String) : AccessReviewItem :=
  ⟨id, c.id, c.orgID, pair.1, pair.2, reviewerID, .pending, token, ""⟩

def reviewCarryOut (env : ReviewEnv) : (op : ReviewOp) → ReviewStore → op.Resp × ReviewStore
  | .activateDueCampaigns, s => (some s.activateDue.1, s.activateDue.2)
  | .listAssignments orgID, s => (some (s.assignmentsOf orgID), s)
  | .listUsers orgID, s => (some (s.users.list.filter fun u => decide (u.orgID = orgID)), s)
  | .randomToken, s => (some env.token, s)
  | .createItem c pair reviewerID token, s => (true, s.insertItem (newItem env.id c pair reviewerID token))
  | .listExpiredPendingItems, s => (some (s.items.list.filter s.expired), s)
  | .unassignRole item, s => (true, s.unassignRole item)
  | .autoRevokeItem id, s => (true, s.autoRevokeItem id)
  | .completeCampaigns, s => (true, s.completeCampaigns)
  | .getItemByToken token, s => (some (s.items.find fun i => decide (i.token = token)), s)
  | .decideItem token decision comment, s => s.decideItem token decision comment

def reviewError : (op : ReviewOp) → op.Resp
  | .activateDueCampaigns | .listAssignments _ | .listUsers _ | .randomToken => none
  | .createItem .. => false
  | .listExpiredPendingItems => none
  | .unassignRole _ | .autoRevokeItem _ | .completeCampaigns => false
  | .getItemByToken _ | .decideItem .. => none

def reviewSem (env : ReviewEnv) (op : ReviewOp) (s : ReviewStore) : op.Resp × ReviewStore :=
  match env.fate with
  | .done => reviewCarryOut env op s
  | .failed => (reviewError op, s)
  | .lost => (reviewError op, (reviewCarryOut env op s).2)

abbrev ReviewProg := Prog ReviewOp ReviewOp.Resp HTTPError

abbrev reviewStmt (op : ReviewOp) : ReviewProg op.Resp := Prog.call op

/-! ## The worker -/

def bulkCreateItems (c : AccessReviewCampaign) (reviewerID : UUID) : List (UUID × UUID) → ReviewProg Unit
  | [] => return ()
  | pair :: pairs => do
    let some token ← reviewStmt .randomToken | return ()
    if ← reviewStmt (.createItem c pair reviewerID token) then bulkCreateItems c reviewerID pairs

def defaultReviewer (users : List User) : Option UUID :=
  match users.find? fun u => u.isActive with
  | none => none
  | some u => if u.id = 0 then none else some u.id

def generateCampaignItems (c : AccessReviewCampaign) : ReviewProg Unit := do
  match ← reviewStmt (.listAssignments c.orgID) with
  | none | some [] => return ()
  | some (pair :: pairs) =>
    let users ← reviewStmt (.listUsers c.orgID)
    match defaultReviewer (users.getD []) with
    | none => return ()
    | some reviewerID => bulkCreateItems c reviewerID (pair :: pairs)

def generateAll : List AccessReviewCampaign → ReviewProg Unit
  | [] => return ()
  | c :: cs => do
    generateCampaignItems c
    generateAll cs

def autoRevoke : List AccessReviewItem → ReviewProg Unit
  | [] => return ()
  | item :: items => do
    if ← reviewStmt (.unassignRole item) then
      let _ ← reviewStmt (.autoRevokeItem item.id)
      autoRevoke items
    else autoRevoke items

def processAccessReviews : ReviewProg Unit := do
  let activated ← reviewStmt .activateDueCampaigns
  generateAll (activated.getD [])
  let expired ← reviewStmt .listExpiredPendingItems
  autoRevoke (expired.getD [])
  let _ ← reviewStmt .completeCampaigns

/-! ## The reviewer's link -/

def parseDecision (decision : String) : Option ReviewDecision :=
  if decision = "approved" then some .approved else if decision = "revoked" then some .revoked else none

def decideReview (token decision comment : String) : ReviewProg AccessReviewItem := do
  Prog.require (token ≠ "") ⟨400, "token is required"⟩
  match parseDecision decision with
  | none => Prog.fail ⟨400, "decision must be 'approved' or 'revoked'"⟩
  | some decision =>
    match ← reviewStmt (.getItemByToken token) with
    | none => Prog.fail ⟨500, "Internal Server Error"⟩
    | some none => Prog.fail ⟨404, "token not found or already used"⟩
    | some (some item) =>
      Prog.require (item.decision = .pending) ⟨409, "decision already recorded"⟩
      let some updated ← reviewStmt (.decideItem token decision comment) | Prog.fail ⟨500, "Internal Server Error"⟩
      return updated

/-! ## All of them at once -/

inductive ReviewReq where
  | round
  | decide (token decision comment : String)

inductive ReviewReply where
  | roundEnded
  | recorded (item : AccessReviewItem)

/-- What goes on outside: time, admins who manage users and roles, and campaigns that are
created or cancelled. -/
inductive ReviewEvent where
  | tick (d : Nat)
  | putUser (u : User)
  | assignRole (r : UserRole)
  | removeRole (userID roleID : UUID)
  | createCampaign (c : AccessReviewCampaign)
  | cancelCampaign (id : UUID)

def reviewOther : ReviewEvent → ReviewStore → ReviewStore
  | .tick d, s => { s with now := s.now + d }
  | .putUser u, s => if u.id = 0 then s else { s with users := s.users.set u }
  | .assignRole r, s => { s with userRoles := s.userRoles.set r }
  | .removeRole userID roleID, s =>
    { s with userRoles := s.userRoles.delete fun r => decide (r.userID = userID ∧ r.roleID = roleID) }
  | .createCampaign c, s =>
    match s.campaigns.push { c with status := .pending } with
    | none => s
    | some campaigns => { s with campaigns }
  | .cancelCampaign id, s =>
    { s with
      campaigns := s.campaigns.modify (fun c => decide (c.id = id)) (ReviewStore.setStatus .cancelled)
        (ReviewStore.setStatus_id .cancelled) }

def reviewMain : ReviewReq → ReviewProg ReviewReply
  | .round => do
    processAccessReviews
    return .roundEnded
  | .decide token decision comment => do
    let item ← decideReview token decision comment
    return .recorded item

def reviewSystem : System ReviewReq ReviewOp ReviewOp.Resp HTTPError ReviewReply ReviewStore ReviewEnv ReviewEvent where
  main := reviewMain
  sem := reviewSem
  other := reviewOther

end Clavex

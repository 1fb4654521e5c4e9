import Clavex.Pool
import Clavex.StatusList
import Clavex.TokenStore

/-!
# SCIM provisioning

The inbound SCIM endpoints for users and groups. Ids are global, so every handler has to see
to it that a user or group belongs to the organisation of the token. Each statement of a
handler may fail, and may have been carried out all the same.
-/

namespace Clavex

structure ScimGroup where
  (id orgID : UUID)
  name : String
  isSystem : Bool

structure GroupMember where
  (groupID userID : UUID)

def GroupMember.key (m : GroupMember) : UUID × UUID := (m.groupID, m.userID)

structure ScimToken where
  orgID : UUID
  tokenHash : String

structure ScimStore where
  orgs : List Organization
  tokens : List ScimToken
  users : Rows User.id
  groups : Rows ScimGroup.id
  members : Rows GroupMember.key

/-! ## Statements -/

inductive ScimOp where
  | orgBySlug (slug : String)
  | validateToken (orgID : UUID) (tokenHash : String)
  | listUsers (orgID : UUID)
  | getUser (id : UUID)
  | createUser (orgID : UUID) (email : String) (firstName lastName : Option String)
  | updateUser (id : UUID) (firstName lastName : Option String) (isActive : Option Bool)
  | deleteUser (id : UUID)
  | listGroups (orgID : UUID)
  | getGroup (id : UUID)
  | createGroup (orgID : UUID) (name : String)
  | deleteGroup (id : UUID)
  | listMembers (groupID : UUID)
  | addMember (groupID userID : UUID)
  | removeMember (groupID userID : UUID)

@[reducible] def ScimOp.Resp : ScimOp → Type
  | .orgBySlug _ => Option Organization
  | .validateToken .. => Bool
  | .listUsers _ => Except String (List User)
  | .getUser _ => Option User
  | .createUser .. => Except String User
  | .updateUser .. => Option User
  | .deleteUser _ => Bool
  | .listGroups _ => Except String (List ScimGroup)
  | .getGroup _ => Option ScimGroup
  | .createGroup .. => Except String ScimGroup
  | .deleteGroup _ => Bool
  | .listMembers _ => List User
  | .addMember .. | .removeMember .. => Unit

def uniqueViolation : String := "duplicate key value violates unique constraint"

def updatedUser (firstName lastName : Option String) (isActive : Option Bool) (u : User) : User :=
  { u with
    firstName := firstName.orElse fun _ => u.firstName
    lastName := lastName.orElse fun _ => u.lastName
    isActive := isActive.getD u.isActive }

theorem updatedUser_id (firstName lastName isActive u) : (updatedUser firstName lastName isActive u).id = u.id := rfl

namespace ScimStore

variable (s : ScimStore)

def insertUser (u : User) : Except String User × ScimStore :=
  if s.users.list.any fun v => decide (v.orgID = u.orgID ∧ v.email = u.email) then (.error uniqueViolation, s)
  else
    match s.users.push u with
    | none => (.error uniqueViolation, s)
    | some users => (.ok u, { s with users })

def insertGroup (g : ScimGroup) : Except String ScimGroup × ScimStore :=
  if s.groups.list.any fun v => decide (v.orgID = g.orgID ∧ v.name = g.name) then (.error uniqueViolation, s)
  else
    match s.groups.push g with
    | none => (.error uniqueViolation, s)
    | some groups => (.ok g, { s with groups })

def user? (id : UUID) : Option User := s.users.find fun u => decide (u.id = id)

def group? (id : UUID) : Option ScimGroup := s.groups.find fun g => decide (g.id = id)

def updateUser (id : UUID) (firstName lastName : Option String) (isActive : Option Bool) : ScimStore :=
  { s with
    users := s.users.modify (fun u => decide (u.id = id)) (updatedUser firstName lastName isActive)
      (updatedUser_id firstName lastName isActive) }

def deleteUser (id : UUID) : ScimStore :=
  { s with
    users := s.users.delete fun u => decide (u.id = id)
    members := s.members.delete fun m => decide (m.userID = id) }

def deleteGroup (id : UUID) : ScimStore :=
  { s with
    groups := s.groups.delete fun g => decide (g.id = id)
    members := s.members.delete fun m => decide (m.groupID = id) }

def listMembers (groupID : UUID) : List User :=
  s.users.list.filter fun u => s.members.list.any fun m => decide (m.groupID = groupID ∧ m.userID = u.id)

def addMember (groupID userID : UUID) : ScimStore :=
  if (s.group? groupID).isNone || (s.user? userID).isNone then s
  else
    match s.members.push ⟨groupID, userID⟩ with
    | none => s
    | some members => { s with members }

def removeMember (groupID userID : UUID) : ScimStore :=
  { s with members := s.members.delete fun m => decide (m.groupID = groupID ∧ m.userID = userID) }

end ScimStore

/-- A statement as it is carried out; `id` is what the database draws for a new row. -/
def carryOut (id : UUID) : (op : ScimOp) → ScimStore → op.Resp × ScimStore
  | .orgBySlug slug, s => (s.orgs.find? fun o => decide (o.slug = slug), s)
  | .validateToken orgID hash, s => (s.tokens.any fun t => decide (t.orgID = orgID ∧ t.tokenHash = hash), s)
  | .listUsers orgID, s => (.ok (s.users.list.filter fun u => decide (u.orgID = orgID)), s)
  | .getUser userID, s => (s.user? userID, s)
  | .createUser orgID email firstName lastName, s =>
    s.insertUser { id, orgID, email, firstName, lastName }
  | .updateUser userID firstName lastName isActive, s =>
    ((s.user? userID).map (updatedUser firstName lastName isActive), s.updateUser userID firstName lastName isActive)
  | .deleteUser userID, s => (true, s.deleteUser userID)
  | .listGroups orgID, s => (.ok (s.groups.list.filter fun g => decide (g.orgID = orgID)), s)
  | .getGroup groupID, s => (s.group? groupID, s)
  | .createGroup orgID name, s => s.insertGroup { id, orgID, name, isSystem := false }
  | .deleteGroup groupID, s =>
    match s.group? groupID with
    | some g => if g.isSystem then (false, s) else (true, s.deleteGroup groupID)
    | none => (false, s)
  | .listMembers groupID, s => (s.listMembers groupID, s)
  | .addMember groupID userID, s => ((), s.addMember groupID userID)
  | .removeMember groupID userID, s => ((), s.removeMember groupID userID)

def errorReply (e : String) : (op : ScimOp) → op.Resp
  | .orgBySlug _ => none
  | .validateToken .. => false
  | .listUsers _ => .error e
  | .getUser _ => none
  | .createUser .. => .error e
  | .updateUser .. => none
  | .deleteUser _ => false
  | .listGroups _ => .error e
  | .getGroup _ => none
  | .createGroup .. => .error e
  | .deleteGroup _ => false
  | .listMembers _ => []
  | .addMember .. | .removeMember .. => ()

inductive ScimFate where
  | done
  | failed (e : String)
  | lost (e : String)

structure ScimEnv where
  fate : ScimFate
  id : UUID

def scimSem (env : ScimEnv) (op : ScimOp) (s : ScimStore) : op.Resp × ScimStore :=
  match env.fate with
  | .done => carryOut env.id op s
  | .failed e => (errorReply e op, s)
  | .lost e => (errorReply e op, (carryOut env.id op s).2)

abbrev ScimProg := Prog ScimOp ScimOp.Resp HTTPError

abbrev scimStmt (op : ScimOp) : ScimProg op.Resp := Prog.call op

/-! ## Requests -/

structure ScimUserBody where
  userName : String
  active : Bool
  (givenName familyName : String)
  /-- value and `primary` of each address -/
  emails : List (String × Bool)

structure ScimGroupBody where
  displayName : String
  members : List String

structure ScimPatchOp where
  (op path : String)
  value : Json

structure ScimPage where
  (startIndex count : Option Int)

inductive ScimCall where
  | listUsers (page : ScimPage) (filter : String)
  | getUser (id : String)
  | createUser (body : Option ScimUserBody)
  | replaceUser (id : String) (body : Option ScimUserBody)
  | patchUser (id : String) (patch : Option (List ScimPatchOp))
  | deleteUser (id : String)
  | listGroups (page : ScimPage)
  | getGroup (id : String)
  | createGroup (body : Option ScimGroupBody)
  | replaceGroup (id : String) (body : Option ScimGroupBody)
  | patchGroup (id : String) (patch : Option (List ScimPatchOp))
  | deleteGroup (id : String)

structure ScimRequest where
  (orgSlug authorization : String)
  call : ScimCall

inductive ScimReply where
  | users (total startIndex count : Int) (resources : List User)
  | user (status : Nat) (resource : User)
  | groups (total startIndex count : Int) (resources : List (ScimGroup × List User))
  | group (status : Nat) (resource : ScimGroup) (members : List User)
  | noContent

structure ScimHandler where
  parseUUID : String → Option UUID
  uuidString : UUID → String
  hashToken : String → String
  equalFold : String → String → Bool
  /-- `fmt.Sprintf` with the verb `%v`. -/
  sprint : Json → String

namespace ScimHandler

variable (h : ScimHandler)

/-! ## Users -/

def parsePage (page : ScimPage) : Int × Int :=
  ((page.startIndex.filter fun v => decide (0 < v)).getD 1, (page.count.filter fun v => decide (0 < v)).getD 100)

/-- `startIndex-1+count` is a sum of machine integers. A slice that ends before it starts panics. -/
def pageOf {α : Type} (page : Int × Int) (all : List α) : Option (List α) :=
  let total : Int := all.length
  let last := min (Int.bmod (page.1 - 1 + page.2) (2 ^ 64)) total
  let first := min (max (page.1 - 1) 0) total
  if last < first then none else some ((all.take last.toNat).drop first.toNat)

def panicked {α : Type} : Option α → ScimProg α
  | none => .fail ⟨500, "Internal Server Error"⟩
  | some a => .ret a

def splitFilter (filter : String) : Option (String × String × String) :=
  match splitRune ' ' filter with
  | attr :: op :: value :: rest => some (attr, op, " ".intercalate (value :: rest))
  | _ => none

def applyUserFilter (users : List User) (filter : String) : List User :=
  match splitFilter filter with
  | none => users
  | some (attr, op, value) =>
    let val := trimQuotes value
    if toLower op ≠ "eq" then users
    else if toLower attr = "username" ∨ toLower attr = "emails.value" then users.filter fun u => h.equalFold u.email val
    else if toLower attr = "id" then users.filter fun u => decide (h.uuidString u.id = val)
    else []

def parseID (raw what : String) : ScimProg UUID :=
  match h.parseUUID raw with
  | none => .fail ⟨400, "invalid " ++ what ++ " id"⟩
  | some id => .ret id

def bound {α : Type} (body : Option α) (what : String) : ScimProg α :=
  match body with
  | none => .fail ⟨400, "invalid " ++ what ++ " body"⟩
  | some a => .ret a

def userInOrg (orgID id : UUID) : ScimProg User := do
  let some u ← scimStmt (.getUser id) | Prog.fail ⟨404, "User not found"⟩
  Prog.require (u.orgID = orgID) ⟨404, "User not found"⟩
  return u

def groupInOrg (orgID id : UUID) : ScimProg ScimGroup := do
  let some g ← scimStmt (.getGroup id) | Prog.fail ⟨404, "Group not found"⟩
  Prog.require (g.orgID = orgID) ⟨404, "Group not found"⟩
  return g

def memberInOrg (orgID id : UUID) : ScimProg Bool := do
  let some u ← scimStmt (.getUser id) | return false
  return decide (u.orgID = orgID)

def listUsers (orgID : UUID) (page : ScimPage) (filter : String) : ScimProg ScimReply := do
  match ← scimStmt (.listUsers orgID) with
  | .error e => Prog.fail ⟨500, e⟩
  | .ok all =>
    let users := if filter = "" then all else h.applyUserFilter all filter
    let p := parsePage page
    let resources ← panicked (pageOf p users)
    return .users users.length p.1 p.2 resources

variable (orgID : UUID)

def getUser (id : String) : ScimProg ScimReply := do
  let id ← h.parseID id "user"
  let u ← userInOrg orgID id
  return .user 200 u

def nonEmpty (s : String) : Option String := if s = "" then none else some s

def emailOf (body : ScimUserBody) : String :=
  if body.userName ≠ "" then body.userName
  else ((body.emails.find? fun e => e.2).map Prod.fst).getD ""

def createUser (orgID : UUID) (body : Option ScimUserBody) : ScimProg ScimReply := do
  let body ← bound body "request"
  Prog.require (emailOf body ≠ "") ⟨400, "userName or primary email required"⟩
  match ← scimStmt (.createUser orgID (emailOf body) (nonEmpty body.givenName) (nonEmpty body.familyName)) with
  | .error e => Prog.fail (if strContains e "unique" then ⟨409, "User already exists"⟩ else ⟨500, e⟩)
  | .ok u =>
    if body.active then return .user 201 u
    else
      let _ ← scimStmt (.updateUser u.id none none (some false))
      return .user 201 { u with isActive := false }

def replaceUser (id : String) (body : Option ScimUserBody) : ScimProg ScimReply := do
  let id ← h.parseID id "user"
  let _ ← userInOrg orgID id
  let body ← bound body "request"
  let some u ← scimStmt (.updateUser id (nonEmpty body.givenName) (nonEmpty body.familyName) (some body.active))
    | Prog.fail ⟨404, "User not found"⟩
  return .user 200 u

def parseBoolValue : Json → Bool
  | .bool b => b
  | .str s => decide (toLower s = "true")
  | _ => false

def patchUserOps (id : UUID) : List ScimPatchOp → User → ScimProg User
  | [], u => return u
  | op :: ops, u =>
    if toLower op.op = "replace" ∨ toLower op.op = "add" then
      if toLower op.path = "active" then do
        let _ ← scimStmt (.updateUser id none none (some (parseBoolValue op.value)))
        patchUserOps id ops { u with isActive := parseBoolValue op.value }
      else if toLower op.path = "name.givenname" then do
        let _ ← scimStmt (.updateUser id (some (h.sprint op.value)) u.lastName none)
        patchUserOps id ops { u with firstName := some (h.sprint op.value) }
      else if toLower op.path = "name.familyname" then do
        let _ ← scimStmt (.updateUser id u.firstName (some (h.sprint op.value)) none)
        patchUserOps id ops { u with lastName := some (h.sprint op.value) }
      else patchUserOps id ops u
    else patchUserOps id ops u

def emptyUser : User := { id := 0, orgID := 0, email := "", isActive := false }

def patchUser (id : String) (patch : Option (List ScimPatchOp)) : ScimProg ScimReply := do
  let id ← h.parseID id "user"
  let u ← userInOrg orgID id
  let ops ← bound patch "patch"
  let _ ← h.patchUserOps id ops u
  -- the error of the second look-up is dropped
  let again ← scimStmt (.getUser id)
  return .user 200 (again.getD emptyUser)

def deleteUser (orgID : UUID) (id : String) : ScimProg ScimReply := do
  let id ← h.parseID id "user"
  let _ ← userInOrg orgID id
  let deleted ← scimStmt (.deleteUser id)
  Prog.require (deleted = true) ⟨404, "User not found"⟩
  return .noContent

/-! ## Groups -/

def withMembers : List ScimGroup → ScimProg (List (ScimGroup × List User))
  | [] => return []
  | g :: gs => do
    let members ← scimStmt (.listMembers g.id)
    let rest ← withMembers gs
    return (g, members) :: rest

def listGroups (orgID : UUID) (page : ScimPage) : ScimProg ScimReply := do
  match ← scimStmt (.listGroups orgID) with
  | .error e => Prog.fail ⟨500, e⟩
  | .ok all =>
    let p := parsePage page
    let groups ← panicked (pageOf p all)
    let resources ← withMembers groups
    return .groups all.length p.1 p.2 resources

def getGroup (id : String) : ScimProg ScimReply := do
  let id ← h.parseID id "group"
  let g ← groupInOrg orgID id
  let members ← scimStmt (.listMembers id)
  return .group 200 g members

def addInitial (groupID : UUID) : List String → ScimProg Unit
  | [] => return ()
  | m :: ms =>
    match h.parseUUID m with
    | none => addInitial groupID ms
    | some userID => do
      scimStmt (.addMember groupID userID)
      addInitial groupID ms

def createGroup (orgID : UUID) (body : Option ScimGroupBody) : ScimProg ScimReply := do
  let body ← bound body "request"
  Prog.require (body.displayName ≠ "") ⟨400, "displayName required"⟩
  match ← scimStmt (.createGroup orgID body.displayName) with
  | .error e => Prog.fail (if strContains e "unique" then ⟨409, "Group already exists"⟩ else ⟨500, e⟩)
  | .ok g =>
    h.addInitial g.id body.members
    let members ← scimStmt (.listMembers g.id)
    return .group 201 g members

def addChecked (orgID groupID : UUID) : List String → ScimProg Unit
  | [] => return ()
  | m :: ms =>
    match h.parseUUID m with
    | none => addChecked orgID groupID ms
    | some userID => do
      if ← memberInOrg orgID userID then scimStmt (.addMember groupID userID)
      addChecked orgID groupID ms

def removeAll (groupID : UUID) : List UUID → ScimProg Unit
  | [] => return ()
  | userID :: ids => do
    scimStmt (.removeMember groupID userID)
    removeAll groupID ids

def replaceGroup (id : String) (body : Option ScimGroupBody) : ScimProg ScimReply := do
  let id ← h.parseID id "group"
  let g ← groupInOrg orgID id
  let body ← bound body "request"
  let existing ← scimStmt (.listMembers id)
  removeAll id (existing.map User.id)
  h.addChecked orgID id body.members
  let members ← scimStmt (.listMembers id)
  return .group 200 g members

def extractMembers : Json → List String
  | .arr items => items.filterMap fun item => (item.member "value").bind Json.asString
  | .obj ms => (((Json.obj ms).member "value").bind Json.asString).toList
  | _ => []

def patchGroupOps (orgID groupID : UUID) : List ScimPatchOp → ScimProg Unit
  | [] => return ()
  | op :: ops => do
    if toLower op.path = "members" then
      if toLower op.op = "add" then h.addChecked orgID groupID (extractMembers op.value)
      else if toLower op.op = "remove" then removeAll groupID ((extractMembers op.value).filterMap h.parseUUID)
    patchGroupOps orgID groupID ops

def patchGroup (id : String) (patch : Option (List ScimPatchOp)) : ScimProg ScimReply := do
  let id ← h.parseID id "group"
  let g ← groupInOrg orgID id
  let ops ← bound patch "patch"
  h.patchGroupOps orgID id ops
  let members ← scimStmt (.listMembers id)
  return .group 200 g members

def deleteGroup (orgID : UUID) (id : String) : ScimProg ScimReply := do
  let id ← h.parseID id "group"
  let _ ← groupInOrg orgID id
  let deleted ← scimStmt (.deleteGroup id)
  Prog.require (deleted = true) ⟨404, "Group not found"⟩
  return .noContent

def handle : ScimCall → ScimProg ScimReply
  | .listUsers page filter => h.listUsers orgID page filter
  | .getUser id => h.getUser orgID id
  | .createUser body => createUser orgID body
  | .replaceUser id body => h.replaceUser orgID id body
  | .patchUser id patch => h.patchUser orgID id patch
  | .deleteUser id => h.deleteUser orgID id
  | .listGroups page => listGroups orgID page
  | .getGroup id => h.getGroup orgID id
  | .createGroup body => h.createGroup orgID body
  | .replaceGroup id body => h.replaceGroup orgID id body
  | .patchGroup id patch => h.patchGroup orgID id patch
  | .deleteGroup id => h.deleteGroup orgID id

def bearerToken (q : ScimRequest) : String := trimPfx q.authorization "Bearer "

def serve (q : ScimRequest) : ScimProg ScimReply := do
  let some org ← scimStmt (.orgBySlug q.orgSlug) | Prog.fail ⟨404, "Organization not found"⟩
  Prog.require (bearerToken q ≠ "") ⟨401, "Missing Bearer token"⟩
  let valid ← scimStmt (.validateToken org.id (h.hashToken (bearerToken q)))
  Prog.require (valid = true) ⟨401, "Invalid token"⟩
  h.handle org.id q.call

end ScimHandler

def scimSystem (h : ScimHandler) : System ScimRequest ScimOp ScimOp.Resp HTTPError ScimReply ScimStore ScimEnv Empty where
  main := h.serve
  sem := scimSem
  other e := nomatch e

end Clavex

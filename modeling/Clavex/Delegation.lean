import Clavex.TokenEndpoint

/-!
# Delegated administration

Admin roles carry permission tokens, and an admin's token has those of the roles assigned to
them. An admin without any assignment is unrestricted. `AdminDelegationHandler` changes roles
and assignments, each request in one transaction.
-/

namespace Clavex

open List Rows

/-! ## Permission tokens -/

def permissionResources : List String :=
  ["users", "roles", "groups", "clients", "identity_providers", "security", "audit", "sessions", "branding", "smtp",
    "sms", "webhooks", "compliance", "delegated_admins"]

def allPermissions : List String := permissionResources.flatMap fun r => [r ++ ":read", r ++ ":write"]

def hasSuffix (s t : String) : Bool := t.toList.isSuffixOf s.toList

def trimSuffix (s t : String) : String :=
  if hasSuffix s t then String.ofList (s.toList.take (s.toList.length - t.toList.length)) else s

/-- The claims of an admin token. No permissions at all stand for full access. -/
structure AdminClaims where
  (subject orgID : UUID)
  isSuperAdmin : Bool
  permissions : Option (List String)
deriving DecidableEq

def effectivePermissions : Option AdminClaims → List String
  | none => []
  | some claims =>
    if claims.isSuperAdmin then allPermissions
    else
      match claims.permissions with
      | none => allPermissions
      | some perms => perms

def heldTokens (perms : List String) : List String :=
  perms.flatMap fun p => p :: if hasSuffix p ":write" then [trimSuffix p ":write" ++ ":read"] else []

def permissionsNotHeld (claims : Option AdminClaims) (requested : List String) : List String :=
  match claims with
  | none => requested
  | some claims =>
    if claims.isSuperAdmin then []
    else
      match claims.permissions with
      | none => []
      | some perms => requested.filter fun p => !decide (p ∈ heldTokens perms)

def validatePermissions (perms : List String) : Except HTTPError Unit :=
  match perms.find? fun p => !decide (p ∈ allPermissions) with
  | none => .ok ()
  | some p => .error ⟨400, "unknown permission token: " ++ p⟩

/-! ## Tables -/

structure AdminRole where
  (id orgID : UUID)
  name : String
  description : Option String
  permissions : List String
  isSystem : Bool

structure AdminRoleAssignment where
  (orgID userID roleID : UUID)

def AdminRoleAssignment.key (a : AdminRoleAssignment) : UUID × UUID := (a.userID, a.roleID)

/-- `userRoles` are the names of a user's ordinary roles, which decide who is an admin. -/
structure DelegationStore where
  users : Rows User.id
  userRoles : UUID → List String
  roles : Rows AdminRole.id
  assignments : Rows AdminRoleAssignment.key

variable (s : DelegationStore)

def DelegationStore.assigned (userID orgID : UUID) : List AdminRoleAssignment :=
  s.assignments.list.filter fun a => decide (a.userID = userID ∧ a.orgID = orgID)

def DelegationStore.rolePermissions (roleID : UUID) : List String :=
  (s.roles.list.filter fun r => decide (r.id = roleID)).flatMap AdminRole.permissions

def DelegationStore.getPermissionsForUser (userID orgID : UUID) : Option (List String) :=
  match s.assigned userID orgID with
  | [] => none
  | a :: as => some ((a :: as).flatMap fun a => s.rolePermissions a.roleID).dedup

/-! ## Login -/

def DelegationStore.login (userID : UUID) (lookup : Bool) : Except HTTPError AdminClaims :=
  match s.users.find fun u => decide (u.id = userID) with
  | none => .error ⟨401, "invalid credentials"⟩
  | some user =>
    let isSuperAdmin := decide ("super_admin" ∈ s.userRoles user.id)
    if !(isSuperAdmin || decide ("admin" ∈ s.userRoles user.id)) then .error ⟨403, "admin role required"⟩
    else
      .ok
        { subject := user.id
          orgID := user.orgID
          isSuperAdmin
          -- a look-up that fails leaves the admin unrestricted
          permissions := if isSuperAdmin || !lookup then none else s.getPermissionsForUser user.id user.orgID }

/-! ## Requests -/

def requireOrgAccess (claims : AdminClaims) (orgID : UUID) : Except HTTPError Unit :=
  if claims.isSuperAdmin || decide (orgID = claims.orgID) then .ok ()
  else .error ⟨403, "access to this organization is not allowed"⟩

def requireResourcePermission (resource : String) (readOnly : Bool) (claims : AdminClaims) : Except HTTPError Unit :=
  if claims.isSuperAdmin then .ok ()
  else
    match claims.permissions with
    | none => .ok ()
    | some perms =>
      if decide (resource ++ ":write" ∈ perms) || (readOnly && decide (resource ++ ":read" ∈ perms)) then .ok ()
      else .error ⟨403, "insufficient permissions: " ++ resource ++ (if readOnly then ":read" else ":write") ++ " required"⟩

structure AdminRoleRequest where
  (name description : String)
  permissions : Option (List String)

def AdminRoleRequest.bindAndValidate (req : AdminRoleRequest) : Except HTTPError (List String) :=
  match req.permissions with
  | none => .error ⟨422, ""⟩
  | some perms =>
    if req.name = "" ∨ 120 < req.name.length ∨ 512 < req.description.length then .error ⟨422, ""⟩
    else .ok perms

def AdminRoleRequest.desc (req : AdminRoleRequest) : Option String :=
  if req.description = "" then none else some req.description

def AdminRoleRequest.grantable (req : AdminRoleRequest) (claims : AdminClaims) : Except HTTPError (List String) := do
  let perms ← req.bindAndValidate
  match validatePermissions perms with
  | .error e => .error ⟨400, e.text⟩
  | .ok () =>
    if permissionsNotHeld (some claims) perms = [] then .ok perms
    else .error ⟨403, "cannot grant permissions you do not hold: " ++ ", ".intercalate (permissionsNotHeld (some claims) perms)⟩

namespace DelegationStore

variable (s : DelegationStore)

/-- `id` is what `gen_random_uuid` draws, and `works` says whether the transaction goes through. -/
def create (claims : AdminClaims) (orgID : UUID) (req : AdminRoleRequest) (id : UUID) (works : Bool) :
    Except HTTPError DelegationStore := do
  let perms ← req.grantable claims
  if !works || s.roles.list.any fun r => decide (r.orgID = orgID ∧ r.name = req.name) then
    throw ⟨409, "an admin role with this name already exists"⟩
  else
    match s.roles.push ⟨id, orgID, req.name, req.desc, perms, false⟩ with
    | none => throw ⟨409, "an admin role with this name already exists"⟩
    | some roles => return { s with roles }

def updated (req : AdminRoleRequest) (perms : List String) (r : AdminRole) : AdminRole :=
  { r with
    name := if r.isSystem then r.name else req.name
    description := req.desc
    permissions := perms }

theorem updated_id (req perms r) : (updated req perms r).id = r.id := rfl

def update (claims : AdminClaims) (orgID roleID : UUID) (req : AdminRoleRequest) (works : Bool) :
    Except HTTPError DelegationStore := do
  let perms ← req.grantable claims
  match s.roles.find fun r => decide (r.id = roleID ∧ r.orgID = orgID) with
  | none => throw ⟨404, "Not Found"⟩
  | some role =>
    if !works || s.roles.list.any (fun r => decide (r.orgID = orgID ∧ r.name = (updated req perms role).name ∧ r.id ≠ roleID)) then
      throw ⟨404, "Not Found"⟩
    else
      return { s with
        roles := s.roles.modify (fun r => decide (r.id = roleID ∧ r.orgID = orgID)) (updated req perms) (updated_id req perms) }

def deleteRole (orgID roleID : UUID) (works : Bool) : Except HTTPError DelegationStore :=
  if !works then .error ⟨500, "Internal Server Error"⟩
  else
    match s.roles.find fun r => decide (r.id = roleID ∧ r.orgID = orgID ∧ r.isSystem = false) with
    | none => .error ⟨404, "role not found or is a system role"⟩
    | some _ =>
      .ok { s with
        roles := s.roles.delete fun r => decide (r.id = roleID)
        assignments := s.assignments.delete fun a => decide (a.roleID = roleID) }

def assignUserRole (orgID userID roleID : UUID) (works : Bool) : Except HTTPError DelegationStore :=
  if !works || (s.users.find fun u => decide (u.id = userID)).isNone || (s.roles.find fun r => decide (r.id = roleID)).isNone then
    .error ⟨500, "Internal Server Error"⟩
  else
    match s.assignments.push ⟨orgID, userID, roleID⟩ with
    | none => .ok s
    | some assignments => .ok { s with assignments }

def unassignUserRole (orgID userID roleID : UUID) (works : Bool) : Except HTTPError DelegationStore :=
  if !works then .error ⟨500, "Internal Server Error"⟩
  else
    match s.assignments.find fun a => decide (a.orgID = orgID ∧ a.userID = userID ∧ a.roleID = roleID) with
    | none => .error ⟨404, "Not Found"⟩
    | some _ =>
      .ok { s with assignments := s.assignments.delete fun a => decide (a.orgID = orgID ∧ a.userID = userID ∧ a.roleID = roleID) }

end DelegationStore

inductive DelegationReq where
  | create (req : AdminRoleRequest) (id : UUID)
  | update (roleID : UUID) (req : AdminRoleRequest)
  | delete (roleID : UUID)
  | assign (userID roleID : UUID)
  | unassign (userID roleID : UUID)

def DelegationStore.handle (claims : AdminClaims) (orgID : UUID) (works : Bool) :
    DelegationReq → Except HTTPError DelegationStore
  | .create req id => do
    requireOrgAccess claims orgID
    requireResourcePermission "delegated_admins" false claims
    s.create claims orgID req id works
  | .update roleID req => do
    requireOrgAccess claims orgID
    requireResourcePermission "delegated_admins" false claims
    s.update claims orgID roleID req works
  | .delete roleID => do
    requireOrgAccess claims orgID
    requireResourcePermission "delegated_admins" false claims
    s.deleteRole orgID roleID works
  | .assign userID roleID => do
    requireOrgAccess claims orgID
    requireResourcePermission "users" false claims
    requireResourcePermission "delegated_admins" false claims
    s.assignUserRole orgID userID roleID works
  | .unassign userID roleID => do
    requireOrgAccess claims orgID
    requireResourcePermission "users" false claims
    requireResourcePermission "delegated_admins" false claims
    s.unassignUserRole orgID userID roleID works

/-! ## Runs -/

/-- `tokens` are those that are about, and `acted` are the admins whose requests were carried out. -/
structure DelegationState where
  store : DelegationStore
  tokens : List AdminClaims
  acted : List UUID

inductive DelegationMove where
  | login (userID : UUID) (lookup : Bool)
  | request (claims : AdminClaims) (orgID : UUID) (req : DelegationReq) (works : Bool)

def delegationStep (s : DelegationState) : DelegationMove → DelegationState
  | .login userID lookup =>
    match s.store.login userID lookup with
    | .ok claims => { s with tokens := claims :: s.tokens }
    | .error _ => s
  | .request claims orgID req works =>
    if claims ∈ s.tokens then
      match s.store.handle claims orgID works req with
      | .ok store => { s with store, acted := claims.subject :: s.acted }
      | .error _ => s
    else s

def DelegationState.held (s : DelegationState) (userID : UUID) : List String :=
  heldTokens ((s.tokens.filter fun c => decide (c.subject = userID)).flatMap (fun c => effectivePermissions (some c)) ++
    match s.store.login userID true with
    | .ok claims => effectivePermissions (some claims)
    | .error _ => [])

/-! ## Implied read tokens -/

theorem hasSuffix_read (s) : hasSuffix (s ++ ":read") ":write" = false := by
  rw [Bool.eq_false_iff]
  intro h
  obtain ⟨l, hl⟩ := isSuffixOf_iff_suffix.mp h
  have hlast := congrArg List.getLast? hl
  simp at hlast

variable {p : String} {perms : List String} {claims : AdminClaims} {s s' : DelegationStore} {userID orgID : UUID}

theorem mem_heldTokens :
    p ∈ heldTokens perms ↔ ∃ q ∈ perms, p = q ∨ (hasSuffix q ":write" = true ∧ p = trimSuffix q ":write" ++ ":read") := by
  unfold heldTokens
  simp only [mem_flatMap, mem_cons]
  refine exists_congr fun q => and_congr_right fun _ => or_congr_right ?_
  by_cases h : hasSuffix q ":write" = true <;> simp [h]

theorem subset_heldTokens (h : p ∈ perms) : p ∈ heldTokens perms :=
  mem_heldTokens.mpr ⟨p, h, .inl rfl⟩

theorem heldTokens_closed {q} (hq : q ∈ heldTokens perms)
    (h : p = q ∨ (hasSuffix q ":write" = true ∧ p = trimSuffix q ":write" ++ ":read")) : p ∈ heldTokens perms := by
  rcases h with rfl | ⟨hw, rfl⟩
  · exact hq
  · obtain ⟨r, hr, rfl | ⟨_, rfl⟩⟩ := mem_heldTokens.mp hq
    · exact mem_heldTokens.mpr ⟨q, hr, .inr ⟨hw, rfl⟩⟩
    · rw [hasSuffix_read] at hw
      cases hw

theorem validatePermissions_ok (h : validatePermissions perms = .ok ()) : ∀ p ∈ perms, p ∈ allPermissions := by
  intro p hp
  unfold validatePermissions at h
  split at h
  · rename_i hnone
    have := find?_eq_none.mp hnone p hp
    simpa using this
  · cases h

theorem permissionsNotHeld_nil (hknown : ∀ p ∈ perms, p ∈ allPermissions)
    (h : permissionsNotHeld (some claims) perms = []) :
    ∀ p ∈ perms, p ∈ heldTokens (effectivePermissions (some claims)) := by
  intro p hp
  simp only [permissionsNotHeld] at h
  simp only [effectivePermissions]
  split
  · exact subset_heldTokens (hknown p hp)
  · rename_i hsuper
    rw [if_neg hsuper] at h
    cases hperms : claims.permissions with
    | none => exact subset_heldTokens (hknown p hp)
    | some held =>
      simp only [hperms, filter_eq_nil_iff] at h
      simpa using h p hp

theorem grantable_held {req : AdminRoleRequest}
    (h : req.grantable claims = .ok perms) : ∀ p ∈ perms, p ∈ heldTokens (effectivePermissions (some claims)) := by
  obtain ⟨bound, _, h⟩ := except_bind_ok h
  split at h
  · cases h
  rename_i hvalid
  split at h
  · rename_i hheld
    cases h
    exact permissionsNotHeld_nil (validatePermissions_ok hvalid) hheld
  · cases h

/-! ## Logins -/

open DelegationStore

theorem mem_assigned {a} :
    a ∈ s.assigned userID orgID ↔ a ∈ s.assignments.list ∧ a.userID = userID ∧ a.orgID = orgID := by
  simp [assigned]

theorem mem_rolePermissions {roleID} :
    p ∈ s.rolePermissions roleID ↔ ∃ r ∈ s.roles.list, r.id = roleID ∧ p ∈ r.permissions := by
  simp [rolePermissions, and_assoc]

structure LoginClaims (s : DelegationStore) (userID : UUID) (c : AdminClaims) : Prop where
  subject : c.subject = userID
  permissions : c.permissions = if c.isSuperAdmin then none else s.getPermissionsForUser userID c.orgID

theorem login_of_same (husers : s'.users = s.users) (hroles : s'.userRoles = s.userRoles) {c'}
    (h : s'.login userID true = .ok c') :
    LoginClaims s' userID c' ∧
      ∃ c, s.login userID true = .ok c ∧ LoginClaims s userID c ∧ c.isSuperAdmin = c'.isSuperAdmin ∧ c.orgID = c'.orgID := by
  unfold login at h ⊢
  rw [husers, hroles] at h
  cases hfind : s.users.find fun u => decide (u.id = userID) with
  | none => rw [hfind] at h; cases h
  | some user =>
    have hid : user.id = userID := of_decide_eq_true (find_some hfind).2
    simp only [hfind] at h ⊢
    split at h
    · cases h
    rename_i hadmin
    cases h
    refine ⟨⟨hid, ?_⟩, _, if_neg hadmin, ⟨hid, ?_⟩, rfl, rfl⟩
    · simp [hid]
    · simp [hid]

theorem mem_effectivePermissions {c} (h : LoginClaims s userID c) :
    p ∈ effectivePermissions (some c) ↔
      ((c.isSuperAdmin = true ∨ s.assigned userID c.orgID = []) ∧ p ∈ allPermissions) ∨
        (c.isSuperAdmin = false ∧ ∃ a ∈ s.assigned userID c.orgID, p ∈ s.rolePermissions a.roleID) := by
  simp only [effectivePermissions, h.permissions]
  cases hsuper : c.isSuperAdmin with
  | true => simp
  | false =>
    unfold getPermissionsForUser
    cases has : s.assigned userID c.orgID with
    | nil | cons a as => simp

/-! ## What a request can change -/

structure Grants (G : String → Prop) (free : UUID → UUID → Prop) (s s' : DelegationStore) : Prop where
  users : s'.users = s.users
  userRoles : s'.userRoles = s.userRoles
  perms : ∀ userID orgID, ∀ a ∈ s'.assigned userID orgID, ∀ p ∈ s'.rolePermissions a.roleID,
    G p ∨ ∃ b ∈ s.assigned userID orgID, p ∈ s.rolePermissions b.roleID
  kept : ∀ userID orgID, s'.assigned userID orgID = [] → s.assigned userID orgID = [] ∨ free userID orgID

section
variable {G : String → Prop} {free : UUID → UUID → Prop} {s s' : DelegationStore} {claims : AdminClaims}
  {orgID roleID userID id : UUID} {req : AdminRoleRequest} {works : Bool}

theorem Grants.login (h : Grants G free s s') {c'} (hlogin : s'.login userID true = .ok c') {p}
    (hp : p ∈ effectivePermissions (some c')) :
    G p ∨ (free userID c'.orgID ∧ p ∈ allPermissions) ∨
      ∃ c, s.login userID true = .ok c ∧ p ∈ effectivePermissions (some c) := by
  obtain ⟨hc', c, hc, hclaims, hsuper, horg⟩ := login_of_same h.users h.userRoles hlogin
  rcases (mem_effectivePermissions hc').mp hp with ⟨hfull | hnone, hall⟩ | ⟨hnot, a, ha, hpa⟩
  · exact .inr (.inr ⟨c, hc, (mem_effectivePermissions hclaims).mpr (.inl ⟨.inl (hsuper.trans hfull), hall⟩)⟩)
  · rcases h.kept _ _ hnone with hbefore | hfree
    · rw [← horg] at hbefore
      exact .inr (.inr ⟨c, hc, (mem_effectivePermissions hclaims).mpr (.inl ⟨.inr hbefore, hall⟩)⟩)
    · exact .inr (.inl ⟨hfree, hall⟩)
  · rcases h.perms _ _ a ha p hpa with hG | ⟨b, hb, hpb⟩
    · exact .inl hG
    · rw [← horg] at hb
      exact .inr (.inr ⟨c, hc, (mem_effectivePermissions hclaims).mpr (.inr ⟨hsuper.trans hnot, b, hb, hpb⟩)⟩)

theorem create_grants (h : s.create claims orgID req id works = .ok s')
    (hG : ∀ p ∈ heldTokens (effectivePermissions (some claims)), G p) : Grants G free s s' := by
  obtain ⟨perms, hperms, h⟩ := except_bind_ok h
  split at h
  · cases h
  split at h
  · cases h
  rename_i roles hpush
  cases h
  refine ⟨rfl, rfl, fun userID orgID a ha p hp => ?_, fun _ _ hnone => .inl hnone⟩
  obtain ⟨r, hr, hid, hpr⟩ := mem_rolePermissions.mp hp
  rw [push_some hpush] at hr
  rcases mem_cons.mp hr with rfl | hr
  · exact .inl (hG p (grantable_held hperms p hpr))
  · exact .inr ⟨a, ha, mem_rolePermissions.mpr ⟨r, hr, hid, hpr⟩⟩

theorem update_grants (h : s.update claims orgID roleID req works = .ok s')
    (hG : ∀ p ∈ heldTokens (effectivePermissions (some claims)), G p) : Grants G free s s' := by
  obtain ⟨perms, hperms, h⟩ := except_bind_ok h
  split at h
  · cases h
  split at h
  · cases h
  cases h
  refine ⟨rfl, rfl, fun userID orgID a ha p hp => ?_, fun _ _ hnone => .inl hnone⟩
  obtain ⟨r, hr, hid, hpr⟩ := mem_rolePermissions.mp hp
  simp only [mem_modify] at hr
  obtain ⟨r₀, hr₀, rfl⟩ := hr
  split at hid
  · rename_i hsel
    rw [if_pos hsel] at hpr
    exact .inl (hG p (grantable_held hperms p hpr))
  · rename_i hsel
    rw [if_neg hsel] at hpr
    exact .inr ⟨a, ha, mem_rolePermissions.mpr ⟨r₀, hr₀, hid, hpr⟩⟩

/-- Who has nothing left had only what was deleted. -/
theorem deleted_of_assigned_nil {p b u o}
    (hnone : assigned { s with assignments := s.assignments.delete p } u o = [])
    (hb : b ∈ s.assigned u o) : p b = true := by
  by_contra hne
  obtain ⟨hmem, huser⟩ := mem_assigned.mp hb
  have hleft : b ∈ ([] : List AdminRoleAssignment) := by
    rw [← hnone]
    exact mem_assigned.mpr ⟨mem_delete.mpr ⟨hmem, eq_false_of_ne_true hne⟩, huser⟩
  exact absurd hleft not_mem_nil

theorem deleteRole_grants (h : s.deleteRole orgID roleID works = .ok s')
    (hkept : ∀ a ∈ s.assignments.list, a.roleID = roleID →
      (∃ b ∈ s.assigned a.userID a.orgID, b.roleID ≠ roleID) ∨ free a.userID a.orgID) : Grants G free s s' := by
  unfold deleteRole at h
  split at h
  · cases h
  split at h
  · cases h
  cases h
  refine ⟨rfl, rfl, fun userID orgID a ha p hp => .inr ?_, fun userID orgID hnone => ?_⟩
  · obtain ⟨ha, huser⟩ := mem_assigned.mp ha
    obtain ⟨r, hr, hid, hpr⟩ := mem_rolePermissions.mp hp
    exact ⟨a, mem_assigned.mpr ⟨(mem_delete.mp ha).1, huser⟩,
      mem_rolePermissions.mpr ⟨r, (mem_delete.mp hr).1, hid, hpr⟩⟩
  · by_cases hempty : s.assigned userID orgID = []
    · exact .inl hempty
    obtain ⟨a, ha⟩ := exists_mem_of_ne_nil _ hempty
    have hgone : ∀ b ∈ s.assigned userID orgID, b.roleID = roleID :=
      fun b hb => of_decide_eq_true (deleted_of_assigned_nil hnone hb)
    obtain ⟨hmem, rfl, rfl⟩ := mem_assigned.mp ha
    rcases hkept a hmem (hgone a ha) with ⟨b, hb, hne⟩ | hfree
    · exact absurd (hgone b hb) hne
    · exact .inr hfree

theorem assignUserRole_grants (h : s.assignUserRole orgID userID roleID works = .ok s')
    (hG : ∀ p ∈ s.rolePermissions roleID, G p) : Grants G free s s' := by
  unfold assignUserRole at h
  split at h
  · cases h
  split at h
  · cases h
    exact ⟨rfl, rfl, fun _ _ a ha p hp => .inr ⟨a, ha, hp⟩, fun _ _ hnone => .inl hnone⟩
  · rename_i assignments hpush
    cases h
    have hlist := push_some hpush
    refine ⟨rfl, rfl, fun u o a ha p hp => ?_, fun u o hnone => .inl ?_⟩
    · obtain ⟨ha, huser⟩ := mem_assigned.mp ha
      rw [hlist] at ha
      rcases mem_cons.mp ha with rfl | ha
      · exact .inl (hG p hp)
      · exact .inr ⟨a, mem_assigned.mpr ⟨ha, huser⟩, hp⟩
    · refine eq_nil_iff_forall_not_mem.mpr fun a ha => ?_
      obtain ⟨ha, huser⟩ := mem_assigned.mp ha
      have hstill : a ∈ ([] : List AdminRoleAssignment) := by
        rw [← hnone]
        exact mem_assigned.mpr ⟨by rw [hlist]; exact mem_cons_of_mem _ ha, huser⟩
      exact absurd hstill not_mem_nil

theorem unassignUserRole_grants (h : s.unassignUserRole orgID userID roleID works = .ok s')
    (hkept : (∃ b ∈ s.assigned userID orgID, b.roleID ≠ roleID) ∨ free userID orgID) : Grants G free s s' := by
  unfold unassignUserRole at h
  split at h
  · cases h
  split at h
  · cases h
  cases h
  refine ⟨rfl, rfl, fun u o a ha p hp => .inr ?_, fun u o hnone => ?_⟩
  · obtain ⟨ha, huser⟩ := mem_assigned.mp ha
    exact ⟨a, mem_assigned.mpr ⟨(mem_delete.mp ha).1, huser⟩, hp⟩
  · by_cases hempty : s.assigned u o = []
    · exact .inl hempty
    have hgone : ∀ b ∈ s.assigned u o, b.orgID = orgID ∧ b.userID = userID ∧ b.roleID = roleID :=
      fun b hb => of_decide_eq_true (deleted_of_assigned_nil hnone hb)
    obtain ⟨a, ha⟩ := exists_mem_of_ne_nil _ hempty
    obtain ⟨horg, huser, _⟩ := hgone a ha
    obtain ⟨_, rfl, rfl⟩ := mem_assigned.mp ha
    rw [← horg, ← huser] at hkept
    rcases hkept with ⟨b, hb, hne⟩ | hfree
    · exact absurd (hgone b hb).2.2 hne
    · exact .inr hfree

end

/-! ## Runs -/

/-- Roles are assigned by admins who hold their tokens, and nobody loses the last assignment
who did not start without one. -/
def DelegationOk (start : DelegationStore) (s : DelegationState) : DelegationMove → Prop
  | .login _ lookup => lookup = true
  | .request claims _ (.assign _ roleID) _ =>
    ∀ p ∈ s.store.rolePermissions roleID, p ∈ heldTokens (effectivePermissions (some claims))
  | .request _ orgID (.unassign userID roleID) _ =>
    (∃ b ∈ s.store.assigned userID orgID, b.roleID ≠ roleID) ∨ start.assigned userID orgID = []
  | .request _ _ (.delete roleID) _ =>
    ∀ a ∈ s.store.assignments.list, a.roleID = roleID →
      (∃ b ∈ s.store.assigned a.userID a.orgID, b.roleID ≠ roleID) ∨ start.assigned a.userID a.orgID = []
  | .request _ _ (.create _ _) _ | .request _ _ (.update _ _) _ => True

theorem handle_grants {start s req works G}
    (hok : DelegationOk start s (.request claims orgID req works))
    (h : s.store.handle claims orgID works req = .ok s')
    (hG : ∀ p ∈ heldTokens (effectivePermissions (some claims)), G p) :
    Grants G (fun userID orgID => start.assigned userID orgID = []) s.store s' := by
  cases req with
  | create req id =>
    obtain ⟨_, _, h⟩ := except_bind_ok h
    obtain ⟨_, _, h⟩ := except_bind_ok h
    exact create_grants h hG
  | update roleID req =>
    obtain ⟨_, _, h⟩ := except_bind_ok h
    obtain ⟨_, _, h⟩ := except_bind_ok h
    exact update_grants h hG
  | delete roleID =>
    obtain ⟨_, _, h⟩ := except_bind_ok h
    obtain ⟨_, _, h⟩ := except_bind_ok h
    exact deleteRole_grants h hok
  | assign userID roleID =>
    obtain ⟨_, _, h⟩ := except_bind_ok h
    obtain ⟨_, _, h⟩ := except_bind_ok h
    obtain ⟨_, _, h⟩ := except_bind_ok h
    exact assignUserRole_grants h fun p hp => hG p (hok p hp)
  | unassign userID roleID =>
    obtain ⟨_, _, h⟩ := except_bind_ok h
    obtain ⟨_, _, h⟩ := except_bind_ok h
    obtain ⟨_, _, h⟩ := except_bind_ok h
    exact unassignUserRole_grants h hok

section
variable {start : DelegationState}

def Granted (start s : DelegationState) (p : String) : Prop := ∃ a ∈ s.acted, p ∈ start.held a

structure Bounded (start s : DelegationState) : Prop where
  users : s.store.users = start.store.users
  userRoles : s.store.userRoles = start.store.userRoles
  tokens : ∀ c ∈ s.tokens, ∀ p ∈ effectivePermissions (some c), p ∈ start.held c.subject ∨ Granted start s p
  logins : ∀ userID c, s.store.login userID true = .ok c →
    ∀ p ∈ effectivePermissions (some c), p ∈ start.held userID ∨ Granted start s p

variable {s : DelegationState} {c : AdminClaims} {p : String}

theorem login_held {userID} (h : s.store.login userID true = .ok c)
    (hp : p ∈ effectivePermissions (some c)) : p ∈ s.held userID := by
  refine subset_heldTokens (mem_append_right _ ?_)
  rw [h]
  exact hp

theorem Bounded.refl (s) : Bounded s s where
  users := rfl
  userRoles := rfl
  tokens c hc _ hp := .inl (subset_heldTokens (mem_append_left _
    (mem_flatMap.mpr ⟨c, mem_filter.mpr ⟨hc, decide_eq_true rfl⟩, hp⟩)))
  logins _ _ h _ hp := .inl (login_held h hp)

theorem Bounded.granted (h : Bounded start s) (hc : c ∈ s.tokens)
    (hp : p ∈ heldTokens (effectivePermissions (some c))) : ∃ a ∈ c.subject :: s.acted, p ∈ start.held a := by
  obtain ⟨q, hq, hqp⟩ := mem_heldTokens.mp hp
  obtain ⟨a, ha, hqa⟩ : ∃ a ∈ c.subject :: s.acted, q ∈ start.held a := by
    rcases h.tokens c hc q hq with hown | ⟨a, ha, hqa⟩
    · exact ⟨_, mem_cons_self .., hown⟩
    · exact ⟨a, mem_cons_of_mem _ ha, hqa⟩
  exact ⟨a, ha, heldTokens_closed hqa hqp⟩

theorem Bounded.step (h : Bounded start s) {m} (hm : DelegationOk start.store s m) :
    Bounded start (delegationStep s m) := by
  cases m with
  | login userID lookup =>
    cases (hm : lookup = true)
    simp only [delegationStep]
    split
    · rename_i claims hlogin
      refine ⟨h.users, h.userRoles, fun c hc p hp => ?_, h.logins⟩
      rcases mem_cons.mp hc with rfl | hc
      · have hsubject := (login_of_same rfl rfl hlogin).1.subject
        rw [hsubject]
        exact h.logins userID c hlogin p hp
      · exact h.tokens c hc p hp
    · exact h
  | request claims orgID req works =>
    simp only [delegationStep]
    split
    · rename_i hmem
      split
      · rename_i store hhandle
        have hgrants := handle_grants hm hhandle fun _ hp => h.granted hmem hp
        refine ⟨hgrants.users.trans h.users, hgrants.userRoles.trans h.userRoles, fun c hc p hp => ?_, ?_⟩
        · exact (h.tokens c hc p hp).imp_right fun ⟨a, ha, hpa⟩ => ⟨a, mem_cons_of_mem _ ha, hpa⟩
        · intro userID c hlogin p hp
          rcases hgrants.login hlogin hp with hgranted | ⟨hfree, hall⟩ | ⟨c₀, hc₀, hp₀⟩
          · exact .inr hgranted
          · -- a user without assignments at the start had everything then
            obtain ⟨hc, c₀, hc₀, hclaims, -, horg⟩ :=
              login_of_same (hgrants.users.trans h.users) (hgrants.userRoles.trans h.userRoles) hlogin
            refine .inl (login_held hc₀ ((mem_effectivePermissions hclaims).mpr (.inl ⟨.inr ?_, hall⟩)))
            rw [horg]
            exact hfree
          · exact (h.logins userID c₀ hc₀ p hp₀).imp_right fun ⟨a, ha, hpa⟩ => ⟨a, mem_cons_of_mem _ ha, hpa⟩
      · exact h
    · exact h

end

/-- A later login has no token that neither the user nor an admin who acted held at the start. -/
theorem delegation_never_escalates {start t : DelegationState} {ms : List DelegationMove}
    (h : Trace delegationStep (DelegationOk start.store) start ms t) {userID : UUID} {c : AdminClaims}
    (hlogin : t.store.login userID true = .ok c) {p : String} (hp : p ∈ effectivePermissions (some c)) :
    p ∈ start.held userID ∨ ∃ a ∈ t.acted, p ∈ start.held a :=
  (h.inv (Bounded start) (fun _ _ hI hok => hI.step hok) (Bounded.refl start)).logins userID c hlogin p hp

/-! ## Two admins -/

def helpdeskRole : AdminRole := ⟨1, 7, "helpdesk", none, ["users:write", "delegated_admins:write"], false⟩

def auditorRole : AdminRole := ⟨2, 7, "auditor", none, ["audit:write"], false⟩

def helpdeskStore : DelegationStore where
  users := ⟨[⟨10, 7, "a@example.com", none, none, none, true, false, false, [], ∅⟩,
    ⟨11, 7, "b@example.com", none, none, none, true, false, false, [], ∅⟩], by decide⟩
  userRoles _ := ["admin"]
  roles := ⟨[helpdeskRole, auditorRole], by decide⟩
  assignments := ⟨[⟨7, 10, 1⟩, ⟨7, 11, 1⟩], by decide⟩

def helpdeskClaims : AdminClaims := ⟨10, 7, false, some ["users:write", "delegated_admins:write"]⟩

def helpdeskStart : DelegationState := ⟨helpdeskStore, [], []⟩

def readerMoves : List DelegationMove :=
  [.login 10 true, .request helpdeskClaims 7 (.create ⟨"reader", "", some ["users:read"]⟩ 3) true,
    .request helpdeskClaims 7 (.assign 11 3) true]

theorem delegation_never_escalates_for_reader :
    (run delegationStep helpdeskStart readerMoves).store.getPermissionsForUser 11 7 =
        some ["users:read", "users:write", "delegated_admins:write"] ∧
      ("users:read" ∈ helpdeskStart.held 11 ∨
        ∃ a ∈ (run delegationStep helpdeskStart readerMoves).acted, "users:read" ∈ helpdeskStart.held a) := by
  have h : Trace delegationStep (DelegationOk helpdeskStore) helpdeskStart readerMoves
      (run delegationStep helpdeskStart readerMoves) := by
    refine Trace.run_cons rfl (Trace.run_cons trivial (Trace.run_cons ?_ (Trace.run_nil _)))
    show ∀ p ∈ rolePermissions _ 3, p ∈ _
    decide
  have hlogin : (run delegationStep helpdeskStart readerMoves).store.login 11 true =
      .ok ⟨11, 7, false, some ["users:read", "users:write", "delegated_admins:write"]⟩ := rfl
  exact ⟨by decide, delegation_never_escalates h hlogin (by decide)⟩

/-- The first admin gives themselves the auditor role, or takes the second one's only role away.
At the next login there are tokens nobody held. -/
theorem delegation_escalates :
    let gained := run delegationStep helpdeskStart [.login 10 true, .request helpdeskClaims 7 (.assign 10 2) true]
    let freed := run delegationStep helpdeskStart [.login 10 true, .request helpdeskClaims 7 (.unassign 11 1) true]
    (gained.acted = [10] ∧
      gained.store.login 10 true = .ok ⟨10, 7, false, some ["audit:write", "users:write", "delegated_admins:write"]⟩ ∧
      "audit:write" ∉ helpdeskStart.held 10) ∧
    freed.acted = [10] ∧ freed.store.login 11 true = .ok ⟨11, 7, false, none⟩ ∧
      "audit:write" ∈ effectivePermissions (some ⟨11, 7, false, none⟩) ∧ "audit:write" ∉ helpdeskStart.held 11 :=
  ⟨⟨rfl, rfl, by decide⟩, rfl, rfl, by decide, by decide⟩

end Clavex

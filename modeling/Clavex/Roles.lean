import Clavex.Models
import Clavex.Reach
import Clavex.Rows
import Mathlib.Data.List.Sort

/-!
# Roles of a user

Roles are assigned to users and to groups, and a composite role brings its child roles with
it, in any graph. Both queries for the roles of a user walk the graph from the rows of
`user_roles`.
-/

namespace Clavex

open Relation List

structure Role where
  (id orgID : UUID)
  name : String

structure RoleStore where
  roles : Rows Role.id
  unique : (roles.list.map fun r => (r.orgID, r.name)).Nodup
  (userRoles roleMembers groupMembers groupRoles : List (UUID × UUID))

namespace RoleStore

variable (s : RoleStore) (userID : UUID)

/-- `ORDER BY name` is by code points here. -/
def listRoles (groupID : UUID) : List Role :=
  (s.roles.list.filter fun r => (groupID, r.id) ∈ s.groupRoles).insertionSort (·.name ≤ ·.name)

def columns (r : Role) : UUID × String := (r.id, r.name)

def childRows (row : UUID × String) : List (UUID × String) :=
  (s.roles.list.filter fun r => (row.1, r.id) ∈ s.roleMembers).map columns

def assignedRows : List (UUID × String) := (s.roles.list.filter fun r => (userID, r.id) ∈ s.userRoles).map columns

def roleTree : List (UUID × String) :=
  recursiveUnion s.childRows (s.roles.list.length + 1) (s.assignedRows userID) (s.assignedRows userID)

def flattenRoleNames (fails : Option String) : Except String (List String) :=
  match fails with
  | some e => .error ("flatten roles: " ++ e)
  | none => .ok (((s.roleTree userID).map Prod.snd).dedup.insertionSort (· ≤ ·))

def hasRoleFlattened (orgID : UUID) (roleName : String) (fails : Option String) : Except String Bool :=
  match fails with
  | some e => .error e
  | none => .ok ((s.roleTree userID).any fun rt =>
      s.roles.list.any fun rr => decide (rr.id = rt.1 ∧ rr.orgID = orgID ∧ rt.2 = roleName))

/-! ## The least set of roles -/

inductive Closure (start : Role → Prop) : Role → Prop
  | start {r} (h : start r) : Closure start r
  | child {p r} (hp : Closure start p) (hr : r ∈ s.roles.list) (hm : (p.id, r.id) ∈ s.roleMembers) :
    Closure start r

def Direct (r : Role) : Prop := r ∈ s.roles.list ∧ (userID, r.id) ∈ s.userRoles

def ThroughGroup (r : Role) : Prop := ∃ g, (g, userID) ∈ s.groupMembers ∧ r ∈ s.listRoles g

def Effective : Role → Prop := s.Closure fun r => s.Direct userID r ∨ s.ThroughGroup userID r

variable {s userID} {start start' : Role → Prop} {r : Role}

theorem Closure.trans (hstart : ∀ r, start r → s.Closure start' r) (h : s.Closure start r) : s.Closure start' r := by
  induction h with
  | start h => exact hstart _ h
  | child _ hr hm ih => exact .child ih hr hm

theorem Closure.mem_roles (hstart : ∀ r, start r → r ∈ s.roles.list) (h : s.Closure start r) : r ∈ s.roles.list := by
  cases h with
  | start h => exact hstart _ h
  | child _ hr _ => exact hr

theorem closure_direct_mem (h : s.Closure (s.Direct userID) r) : r ∈ s.roles.list := h.mem_roles fun _ h => h.1

theorem mem_childRows {row x} :
    x ∈ s.childRows row ↔ ∃ r ∈ s.roles.list, (row.1, r.id) ∈ s.roleMembers ∧ columns r = x := by
  simp [childRows, and_assoc]

theorem mem_roleTree {x} : x ∈ s.roleTree userID ↔ ∃ r, s.Closure (s.Direct userID) r ∧ columns r = x := by
  have hrows : ∀ row, ∀ x ∈ s.childRows row, x ∈ s.roles.list.map columns := by
    intro row x hx
    obtain ⟨r, hr, -, rfl⟩ := mem_childRows.mp hx
    exact mem_map_of_mem hr
  rw [roleTree, ← length_map, mem_recursiveUnion hrows]
  constructor
  · rintro ⟨a, ha, hax⟩
    induction hax with
    | refl =>
      obtain ⟨r, hr, rfl⟩ := mem_map.mp ha
      simp only [mem_filter, decide_eq_true_eq] at hr
      exact ⟨r, .start hr, rfl⟩
    | tail _ hbc ih =>
      obtain ⟨p, hp, rfl⟩ := ih
      obtain ⟨r, hr, hm, rfl⟩ := mem_childRows.mp hbc
      exact ⟨r, .child hp hr hm, rfl⟩
  · rintro ⟨r, hr, rfl⟩
    induction hr with
    | start h => exact ⟨_, mem_map_of_mem (by simpa [Direct] using h), .refl⟩
    | child _ hr hm ih =>
      obtain ⟨a, ha, hap⟩ := ih
      exact ⟨a, ha, hap.tail (mem_childRows.mpr ⟨_, hr, hm, rfl⟩)⟩

theorem mem_flattened {name} :
    name ∈ ((s.roleTree userID).map Prod.snd).dedup.insertionSort (· ≤ ·) ↔
      ∃ r, s.Closure (s.Direct userID) r ∧ r.name = name := by
  rw [mem_insertionSort, mem_dedup, mem_map]
  constructor
  · intro ⟨x, hx, hname⟩
    obtain ⟨r, hr, rfl⟩ := mem_roleTree.mp hx
    exact ⟨r, hr, hname⟩
  · intro ⟨r, hr, hname⟩
    exact ⟨columns r, mem_roleTree.mpr ⟨r, hr, rfl⟩, hname⟩

end RoleStore

/-- The groups of the user bring no role that the user does not have without them. -/
def GroupsAddNothing (s : RoleStore) (userID : UUID) : Prop :=
  ∀ r, s.ThroughGroup userID r → s.Closure (s.Direct userID) r

open RoleStore

theorem effective_of_groupsAddNothing {s} {userID} (h : GroupsAddNothing s userID) (r) :
    s.Effective userID r ↔ s.Closure (s.Direct userID) r := by
  refine ⟨Closure.trans fun r hr => ?_, Closure.trans fun _ hr => .start (.inl hr)⟩
  rcases hr with hr | hr
  · exact .start hr
  · exact h r hr

theorem mem_held {s : RoleStore} {userID orgID} {roleName} :
    ((s.roleTree userID).any fun rt => s.roles.list.any fun rr =>
      decide (rr.id = rt.1 ∧ rr.orgID = orgID ∧ rt.2 = roleName)) = true ↔
      ∃ r, s.Closure (s.Direct userID) r ∧ r.orgID = orgID ∧ r.name = roleName := by
  simp only [any_eq_true, decide_eq_true_eq]
  constructor
  · intro ⟨rt, hrt, rr, hrr, hid, horg, hname⟩
    obtain ⟨r, hr, rfl⟩ := mem_roleTree.mp hrt
    have : rr = r := Rows.eq_of_key hrr (closure_direct_mem hr) hid
    exact ⟨r, hr, this ▸ horg, hname⟩
  · intro ⟨r, hr, horg, hname⟩
    exact ⟨_, mem_roleTree.mpr ⟨r, hr, rfl⟩, r, closure_direct_mem hr, rfl, horg, hname⟩

/-- `FlattenRoleNames` yields each name of an effective role once, and `HasRoleFlattened` finds
the effective roles of the organisation, exactly if groups add nothing. -/
theorem flattened_roles_effective (s : RoleStore) (userID : UUID) :
    ((∃ names, s.flattenRoleNames userID none = .ok names ∧ names.Nodup ∧
      ∀ name, name ∈ names ↔ ∃ r, s.Effective userID r ∧ r.name = name) ∧
    ∀ orgID roleName, ∃ held, s.hasRoleFlattened userID orgID roleName none = .ok held ∧
      (held = true ↔ ∃ r, s.Effective userID r ∧ r.orgID = orgID ∧ r.name = roleName)) ↔ GroupsAddNothing s userID := by
  constructor
  · rintro ⟨-, hheld⟩ r ⟨g, hg, hr⟩
    obtain ⟨held, hok, hiff⟩ := hheld r.orgID r.name
    cases hok
    obtain ⟨r', hr', horg, hname⟩ := mem_held.mp (hiff.mpr ⟨r, .start (.inr ⟨g, hg, hr⟩), rfl, rfl⟩)
    have hmem : r ∈ s.roles.list := (mem_filter.mp ((mem_insertionSort _).mp hr)).1
    exact inj_on_of_nodup_map s.unique (closure_direct_mem hr') hmem (Prod.ext horg hname) ▸ hr'
  · intro h
    simp only [effective_of_groupsAddNothing h]
    refine ⟨⟨_, rfl, ?_, fun _ => mem_flattened⟩, fun orgID roleName => ⟨_, rfl, mem_held⟩⟩
    exact (perm_insertionSort _ _).nodup_iff.mpr (nodup_dedup _)

def cyclicRoles (groupRole : UUID) : RoleStore where
  roles := ⟨[⟨1, 9, "ops"⟩, ⟨2, 9, "audit"⟩, ⟨3, 9, "admin"⟩], by decide⟩
  unique := by decide
  userRoles := [(7, 1)]
  roleMembers := [(1, 2), (2, 1)]
  groupMembers := [(5, 7)]
  groupRoles := [(5, groupRole)]

theorem flattened_roles_in_cycle : (cyclicRoles 2).flattenRoleNames 7 none = .ok ["audit", "ops"] ∧
    "audit" ∈ ["audit", "ops"] ∧ ∃ r, (cyclicRoles 2).Effective 7 r ∧ r.name = "audit" := by
  have hadd : GroupsAddNothing (cyclicRoles 2) 7 := by
    intro r ⟨g, _, hr⟩
    have hr := (mem_insertionSort _).mp hr
    simp only [cyclicRoles, mem_filter, mem_singleton, decide_eq_true_eq, Prod.mk.injEq] at hr
    obtain ⟨hmem, -, hid⟩ := hr
    refine .child (.start (r := ⟨1, 9, "ops"⟩) ⟨by simp [cyclicRoles], by simp [cyclicRoles]⟩) hmem ?_
    simp [cyclicRoles, hid]
  obtain ⟨⟨names, hok, -, hnames⟩, -⟩ := (flattened_roles_effective (cyclicRoles 2) 7).mpr hadd
  have heq : (cyclicRoles 2).flattenRoleNames 7 none = .ok ["audit", "ops"] := by decide
  rw [heq] at hok
  cases hok
  exact ⟨heq, by simp, (hnames "audit").mp (by simp)⟩

theorem group_role_not_flattened : (cyclicRoles 3).Effective 7 ⟨3, 9, "admin"⟩ ∧
    (cyclicRoles 3).flattenRoleNames 7 none = .ok ["audit", "ops"] ∧
    (cyclicRoles 3).hasRoleFlattened 7 9 "admin" none = .ok false := by
  refine ⟨.start (.inr ⟨5, by simp [cyclicRoles], ?_⟩), by decide, by decide⟩
  exact (mem_insertionSort _).mpr (by simp [cyclicRoles])

end Clavex

import Clavex.Scim

/-!
# Requests stay within their organisation

What a token of one organisation can reach is closed under every statement its requests make:
rows of other organisations stay as they were, and memberships join rows of one organisation.
The one statement that steps out of this is the first filling of a new group.
-/

namespace Clavex

open List Prog Rows ScimHandler ScimStore

/-! ## Rows of other organisations -/

def ForeignUser (s : ScimStore) (orgID id : UUID) : Prop := ∃ u ∈ s.users.list, u.id = id ∧ u.orgID ≠ orgID

def ForeignGroup (s : ScimStore) (orgID id : UUID) : Prop := ∃ g ∈ s.groups.list, g.id = id ∧ g.orgID ≠ orgID

def SameOrg (s : ScimStore) : Prop :=
  ∀ m ∈ s.members.list, ∃ g ∈ s.groups.list, ∃ u ∈ s.users.list, g.id = m.groupID ∧ u.id = m.userID ∧ g.orgID = u.orgID

def otherMember (s : ScimStore) (orgID : UUID) (m : GroupMember) : Bool :=
  s.groups.list.any fun g => decide (g.id = m.groupID ∧ g.orgID ≠ orgID)

structure Isolated (base : ScimStore) (orgID : UUID) (s : ScimStore) : Prop where
  tokens : s.tokens = base.tokens
  users : s.users.list.filter (fun u => decide (u.orgID ≠ orgID)) = base.users.list.filter fun u => decide (u.orgID ≠ orgID)
  groups : s.groups.list.filter (fun g => decide (g.orgID ≠ orgID)) = base.groups.list.filter fun g => decide (g.orgID ≠ orgID)
  members : s.members.list.filter (otherMember base orgID) = base.members.list.filter (otherMember base orgID)
  sameOrg : SameOrg s

theorem mem_of_filter_eq {α : Type} {l l' : List α} {q} (h : l.filter q = l'.filter q) {a} (hq : q a = true)
    (ha : a ∈ l) : a ∈ l' := by
  have hmem : a ∈ l.filter q := mem_filter.mpr ⟨ha, hq⟩
  rw [h] at hmem
  exact (mem_filter.mp hmem).1

section
variable {α : Type} {key org : α → UUID} {t t' : Rows key} {orgID : UUID}

theorem foreign_iff {id} (h : t.list.filter (fun a => decide (org a ≠ orgID)) = t'.list.filter fun a => decide (org a ≠ orgID)) :
    (∃ a ∈ t'.list, key a = id ∧ org a ≠ orgID) ↔ ∃ a ∈ t.list, key a = id ∧ org a ≠ orgID := by
  constructor
  · rintro ⟨a, ha, hid, horg⟩
    exact ⟨a, mem_of_filter_eq h.symm (decide_eq_true horg) ha, hid, horg⟩
  · rintro ⟨a, ha, hid, horg⟩
    exact ⟨a, mem_of_filter_eq h (decide_eq_true horg) ha, hid, horg⟩

theorem own_iff {a} (ha : a ∈ t.list) : org a = orgID ↔ ¬ ∃ b ∈ t.list, key b = key a ∧ org b ≠ orgID := by
  constructor
  · rintro horg ⟨b, hb, hid, hne⟩
    rw [eq_of_key hb ha hid] at hne
    exact hne horg
  · intro hnot
    by_contra hne
    exact hnot ⟨a, ha, rfl, hne⟩

end

theorem otherMember_iff {s orgID m} : otherMember s orgID m = true ↔ ForeignGroup s orgID m.groupID := by
  simp [otherMember, ForeignGroup]

section
variable {base s : ScimStore} {orgID id : UUID}

namespace Isolated

theorem refl (h : SameOrg base) : Isolated base orgID base := ⟨rfl, rfl, rfl, rfl, h⟩

section
variable (h : Isolated base orgID s)
include h

theorem foreignUser : ForeignUser base orgID id ↔ ForeignUser s orgID id := foreign_iff h.users

theorem foreignGroup : ForeignGroup base orgID id ↔ ForeignGroup s orgID id := foreign_iff h.groups

theorem ownUser {u} (hu : u ∈ s.users.list) : u.orgID = orgID ↔ ¬ ForeignUser base orgID u.id := by
  rw [h.foreignUser]
  exact own_iff hu

theorem ownGroup {g} (hg : g ∈ s.groups.list) : g.orgID = orgID ↔ ¬ ForeignGroup base orgID g.id := by
  rw [h.foreignGroup]
  exact own_iff hg

theorem member_ends {m} (hm : m ∈ s.members.list) :
    ForeignGroup base orgID m.groupID ↔ ForeignUser base orgID m.userID := by
  obtain ⟨g, hg, u, hu, hgid, huid, horg⟩ := h.sameOrg m hm
  rw [← hgid, ← huid, ← not_iff_not, ← h.ownGroup hg, ← h.ownUser hu, horg]

theorem otherMember_false {m} (hm : m ∈ s.members.list)
    (hown : ¬ ForeignGroup base orgID m.groupID ∨ ¬ ForeignUser base orgID m.userID) :
    otherMember base orgID m = false := by
  rw [← h.member_ends hm, or_self, ← otherMember_iff] at hown
  exact Bool.eq_false_iff.mpr hown

/-! ## Statements -/

theorem insertUser {u} (hu : u.orgID = orgID) : Isolated base orgID (s.insertUser u).2 := by
  unfold ScimStore.insertUser
  split
  · exact h
  split
  · exact h
  rename_i users hpush
  have hlist := push_some hpush
  refine ⟨h.tokens, ?_, h.groups, h.members, fun m hm => ?_⟩
  · rw [hlist, filter_cons_of_neg (by simp [hu])]
    exact h.users
  · obtain ⟨g, hg, v, hv, hends⟩ := h.sameOrg m hm
    exact ⟨g, hg, v, by rw [hlist]; exact mem_cons_of_mem _ hv, hends⟩

theorem insertGroup {g} (hg : g.orgID = orgID) : Isolated base orgID (s.insertGroup g).2 := by
  unfold ScimStore.insertGroup
  split
  · exact h
  split
  · exact h
  rename_i groups hpush
  have hlist := push_some hpush
  refine ⟨h.tokens, h.users, ?_, h.members, fun m hm => ?_⟩
  · rw [hlist, filter_cons_of_neg (by simp [hg])]
    exact h.groups
  · obtain ⟨v, hv, u, hu, hends⟩ := h.sameOrg m hm
    exact ⟨v, by rw [hlist]; exact mem_cons_of_mem _ hv, u, hu, hends⟩

theorem updateUser (hid : ¬ ForeignUser base orgID id) (firstName lastName isActive) :
    Isolated base orgID (s.updateUser id firstName lastName isActive) := by
  refine ⟨h.tokens, ?_, h.groups, h.members, fun m hm => ?_⟩
  · rw [← h.users]
    rw [ScimStore.updateUser, filter_modify]
    intro u hu hsel
    have hown : u.orgID = orgID := (h.ownUser hu).mpr (by rw [of_decide_eq_true hsel]; exact hid)
    exact ⟨by simp [hown], by simp [updatedUser, hown]⟩
  · obtain ⟨g, hg, u, hu, hgid, huid, horg⟩ := h.sameOrg m hm
    refine ⟨g, hg, if decide (u.id = id) then updatedUser firstName lastName isActive u else u, ?_, hgid, ?_, ?_⟩
    · exact mem_map_of_mem hu
    · split <;> exact huid
    · split <;> exact horg

theorem deleteUser (hid : ¬ ForeignUser base orgID id) : Isolated base orgID (s.deleteUser id) := by
  refine ⟨h.tokens, ?_, h.groups, ?_, fun m hm => ?_⟩
  · rw [← h.users]
    refine filter_delete fun u hu hsel => ?_
    have hown : u.orgID = orgID := (h.ownUser hu).mpr (by rw [of_decide_eq_true hsel]; exact hid)
    simp [hown]
  · rw [← h.members]
    refine filter_delete fun m hm hsel => h.otherMember_false hm (.inr ?_)
    rw [of_decide_eq_true hsel]
    exact hid
  · obtain ⟨hm, hne⟩ := mem_delete.mp hm
    obtain ⟨g, hg, u, hu, hgid, huid, horg⟩ := h.sameOrg m hm
    refine ⟨g, hg, u, mem_delete.mpr ⟨hu, ?_⟩, hgid, huid, horg⟩
    rw [huid]
    exact hne

theorem deleteGroup (hid : ¬ ForeignGroup base orgID id) : Isolated base orgID (s.deleteGroup id) := by
  refine ⟨h.tokens, h.users, ?_, ?_, fun m hm => ?_⟩
  · rw [← h.groups]
    refine filter_delete fun g hg hsel => ?_
    have hown : g.orgID = orgID := (h.ownGroup hg).mpr (by rw [of_decide_eq_true hsel]; exact hid)
    simp [hown]
  · rw [← h.members]
    refine filter_delete fun m hm hsel => h.otherMember_false hm (.inl ?_)
    rw [of_decide_eq_true hsel]
    exact hid
  · obtain ⟨hm, hne⟩ := mem_delete.mp hm
    obtain ⟨g, hg, u, hu, hgid, huid, horg⟩ := h.sameOrg m hm
    refine ⟨g, mem_delete.mpr ⟨hg, ?_⟩, u, hu, hgid, huid, horg⟩
    rw [hgid]
    exact hne

theorem addMember {groupID userID} (hg : ¬ ForeignGroup base orgID groupID)
    (hu : ¬ ForeignUser base orgID userID) : Isolated base orgID (s.addMember groupID userID) := by
  unfold ScimStore.addMember
  split
  · exact h
  rename_i hexist
  split
  · exact h
  rename_i members hpush
  have hlist := push_some hpush
  refine ⟨h.tokens, h.users, h.groups, ?_, fun m hm => ?_⟩
  · rw [hlist, filter_cons_of_neg]
    · exact h.members
    · rw [otherMember_iff]
      exact hg
  · rw [hlist] at hm
    rcases mem_cons.mp hm with rfl | hm
    · -- the foreign keys give the two rows, and neither is foreign
      simp only [Bool.or_eq_true, Option.isNone_iff_eq_none, not_or] at hexist
      obtain ⟨g, hgroup⟩ := Option.ne_none_iff_exists'.mp hexist.1
      obtain ⟨u, huser⟩ := Option.ne_none_iff_exists'.mp hexist.2
      obtain ⟨hgmem, hgid⟩ := find_some hgroup
      obtain ⟨humem, huid⟩ := find_some huser
      have hgid := of_decide_eq_true hgid
      have huid := of_decide_eq_true huid
      have hgorg : g.orgID = orgID := (h.ownGroup hgmem).mpr (by rw [hgid]; exact hg)
      have huorg : u.orgID = orgID := (h.ownUser humem).mpr (by rw [huid]; exact hu)
      exact ⟨g, hgmem, u, humem, hgid, huid, hgorg.trans huorg.symm⟩
    · exact h.sameOrg m hm

theorem removeMember {groupID} (hg : ¬ ForeignGroup base orgID groupID) (userID) :
    Isolated base orgID (s.removeMember groupID userID) := by
  refine ⟨h.tokens, h.users, h.groups, ?_, fun m hm => h.sameOrg m (mem_delete.mp hm).1⟩
  rw [← h.members]
  refine filter_delete fun m hm hsel => h.otherMember_false hm (.inl ?_)
  rw [(of_decide_eq_true hsel).1]
  exact hg

end

end Isolated

def StaysIn (base : ScimStore) (orgID : UUID) : ScimOp → Prop
  | .createUser o _ _ _ => o = orgID
  | .updateUser id _ _ _ | .deleteUser id => ¬ ForeignUser base orgID id
  | .createGroup o _ => o = orgID
  | .deleteGroup id => ¬ ForeignGroup base orgID id
  | .addMember groupID userID => ¬ ForeignGroup base orgID groupID ∧ ¬ ForeignUser base orgID userID
  | .removeMember groupID _ => ¬ ForeignGroup base orgID groupID
  | _ => True

theorem Isolated.carryOut (h : Isolated base orgID s) {op} (hop : StaysIn base orgID op) (id) :
    Isolated base orgID (Clavex.carryOut id op s).2 := by
  cases op with
  | createUser o email firstName lastName => exact h.insertUser hop
  | updateUser userID firstName lastName isActive => exact h.updateUser hop firstName lastName isActive
  | deleteUser userID => exact h.deleteUser hop
  | createGroup o name => exact h.insertGroup hop
  | deleteGroup groupID =>
    simp only [Clavex.carryOut]
    split
    · split
      · exact h
      · exact h.deleteGroup hop
    · exact h
  | addMember groupID userID => exact h.addMember hop.1 hop.2
  | removeMember groupID userID => exact h.removeMember hop userID
  | _ => exact h

theorem Isolated.sem (h : Isolated base orgID s) {op} (hop : StaysIn base orgID op) (env) :
    Isolated base orgID (scimSem env op s).2 := by
  unfold scimSem
  split
  · exact h.carryOut hop env.id
  · exact h
  · exact h.carryOut hop env.id

end

/-! ## Replies of single statements -/

abbrev Safe {α : Type} (base : ScimStore) (orgID : UUID) (Q : α → Prop) (p : ScimProg α) : Prop :=
  p.Steady scimSem (fun _ _ _ => True) (Isolated base orgID) Q

section
variable {base : ScimStore} {orgID : UUID} {α : Type}

variable {op : ScimOp} {groupID id : UUID} {Q : α → Prop} {what : String}

theorem safe_stmt {Q} (hop : StaysIn base orgID op) (hdone : ∀ id s, Isolated base orgID s → Q (carryOut id op s).1)
    (herr : ∀ e, Q (errorReply e op)) : Safe base orgID Q (scimStmt op) := by
  intro env s hs _
  refine ⟨hs.sem hop env, ?_⟩
  unfold scimSem
  split
  · exact hdone env.id s hs
  · exact herr _
  · exact herr _

theorem safe_getUser (id) :
    Safe base orgID (fun r => ∀ u, r = some u → (u.orgID = orgID ↔ ¬ ForeignUser base orgID id))
      (scimStmt (.getUser id)) := by
  refine safe_stmt trivial (fun _ s hs u hu => ?_) nofun
  obtain ⟨hmem, hid⟩ := find_some hu
  exact of_decide_eq_true hid ▸ hs.ownUser hmem

theorem safe_getGroup (id) :
    Safe base orgID (fun r => ∀ g, r = some g → (g.orgID = orgID ↔ ¬ ForeignGroup base orgID id))
      (scimStmt (.getGroup id)) := by
  refine safe_stmt trivial (fun _ s hs g hg => ?_) nofun
  obtain ⟨hmem, hid⟩ := find_some hg
  exact of_decide_eq_true hid ▸ hs.ownGroup hmem

theorem safe_listMembers (hg : ¬ ForeignGroup base orgID groupID) :
    Safe base orgID (fun us => ∀ u ∈ us, u.orgID = orgID) (scimStmt (.listMembers groupID)) := by
  refine safe_stmt trivial (fun _ s hs u hu => ?_) (fun _ _ hu => absurd hu not_mem_nil)
  obtain ⟨humem, hany⟩ := mem_filter.mp hu
  obtain ⟨m, hm, hends⟩ := any_eq_true.mp hany
  obtain ⟨hgid, huid⟩ := of_decide_eq_true hends
  rw [hs.ownUser humem, ← huid, ← hs.member_ends hm, hgid]
  exact hg

theorem safe_updateUser (hid : ¬ ForeignUser base orgID id) (firstName lastName isActive) :
    Safe base orgID (fun r => ∀ u, r = some u → u.orgID = orgID) (scimStmt (.updateUser id firstName lastName isActive)) := by
  refine safe_stmt hid (fun _ s hs u hu => ?_) nofun
  obtain ⟨v, hv, rfl⟩ := Option.map_eq_some_iff.mp hu
  obtain ⟨hmem, hvid⟩ := find_some hv
  exact (hs.ownUser hmem).mpr (by rw [of_decide_eq_true hvid]; exact hid)

theorem safe_createUser (email firstName lastName) :
    Safe base orgID (fun r => ∀ u, r = .ok u → u.orgID = orgID ∧ ¬ ForeignUser base orgID u.id)
      (scimStmt (.createUser orgID email firstName lastName)) := by
  refine safe_stmt rfl (fun id s hs u hu => ?_) nofun
  have hafter : Isolated base orgID (s.insertUser { id, orgID, email, firstName, lastName }).2 := hs.insertUser rfl
  simp only [carryOut, insertUser] at hu hafter
  split at hu
  · cases hu
  split at hu
  · cases hu
  rename_i hfree _ users hpush
  cases hu
  rw [if_neg hfree, hpush] at hafter
  refine ⟨rfl, (hafter.ownUser ?_).mp rfl⟩
  rw [push_some hpush]
  exact mem_cons_self ..

theorem safe_createGroup (name) :
    Safe base orgID (fun r => ∀ g, r = .ok g → g.orgID = orgID ∧ ¬ ForeignGroup base orgID g.id)
      (scimStmt (.createGroup orgID name)) := by
  refine safe_stmt rfl (fun id s hs g hg => ?_) nofun
  have hafter : Isolated base orgID (s.insertGroup { id, orgID, name, isSystem := false }).2 := hs.insertGroup rfl
  simp only [carryOut, insertGroup] at hg hafter
  split at hg
  · cases hg
  split at hg
  · cases hg
  rename_i hfree _ groups hpush
  cases hg
  rw [if_neg hfree, hpush] at hafter
  refine ⟨rfl, (hafter.ownGroup ?_).mp rfl⟩
  rw [push_some hpush]
  exact mem_cons_self ..

theorem safe_do (hop : StaysIn base orgID op) {f} (hf : ∀ r, Safe base orgID Q (f r)) :
    Safe base orgID Q (scimStmt op >>= f) :=
  .bind (safe_stmt hop (fun _ _ _ => trivial) fun _ => trivial) fun r (_ : True) => hf r

/-! ## Checks -/

variable (h : ScimHandler)

theorem safe_parseID {raw f} (hf : ∀ id, Safe base orgID Q (f id)) : Safe base orgID Q (h.parseID raw what >>= f) := by
  unfold parseID
  cases h.parseUUID raw with
  | none => exact trivial
  | some id => exact hf id

theorem safe_bound {β} {body : Option β} {f} (hf : ∀ b, body = some b → Safe base orgID Q (f b)) :
    Safe base orgID Q (bound body what >>= f) := by
  cases body with
  | none => exact trivial
  | some b => exact hf b rfl

theorem safe_userInOrg (id) :
    Safe base orgID (fun u => u.orgID = orgID ∧ ¬ ForeignUser base orgID id) (userInOrg orgID id) := by
  refine .bind (safe_getUser id) fun r hr => ?_
  cases r with
  | none => exact trivial
  | some u => exact .require fun horg => ⟨horg, (hr u rfl).mp horg⟩

theorem safe_groupInOrg (id) :
    Safe base orgID (fun g => g.orgID = orgID ∧ ¬ ForeignGroup base orgID id) (groupInOrg orgID id) := by
  refine .bind (safe_getGroup id) fun r hr => ?_
  cases r with
  | none => exact trivial
  | some g => exact .require fun horg => ⟨horg, (hr g rfl).mp horg⟩

theorem safe_memberInOrg (id) :
    Safe base orgID (fun b => b = true → ¬ ForeignUser base orgID id) (memberInOrg orgID id) := by
  refine .bind (safe_getUser id) fun r hr => ?_
  cases r with
  | none => exact nofun
  | some u => exact fun hown => (hr u rfl).mp (of_decide_eq_true hown)

/-! ## Loops -/

theorem safe_patchUserOps (hid : ¬ ForeignUser base orgID id) (ops u) :
    Safe base orgID (fun _ => True) (h.patchUserOps id ops u) := by
  induction ops generalizing u with
  | nil => exact trivial
  | cons op ops ih =>
    unfold patchUserOps
    split
    · split
      · exact safe_do (by exact hid) fun _ => ih _
      · split
        · exact safe_do (by exact hid) fun _ => ih _
        · split
          · exact safe_do (by exact hid) fun _ => ih _
          · exact ih u
    · exact ih u

theorem safe_withMembers {gs} (hgs : ∀ g ∈ gs, g.orgID = orgID ∧ ¬ ForeignGroup base orgID g.id) :
    Safe base orgID (fun rs => ∀ r ∈ rs, r.1.orgID = orgID ∧ ∀ u ∈ r.2, u.orgID = orgID) (withMembers gs) := by
  induction gs with
  | nil => exact fun _ hr => absurd hr not_mem_nil
  | cons g gs ih =>
    rw [forall_mem_cons] at hgs
    refine .bind (safe_listMembers hgs.1.2) fun us hus => ?_
    refine .bind (ih hgs.2) fun rs hrs => ?_
    exact forall_mem_cons.mpr ⟨⟨hgs.1.1, hus⟩, hrs⟩

section
variable (hg : ¬ ForeignGroup base orgID groupID)
include hg

theorem safe_removeAll (ids) : Safe base orgID (fun _ => True) (removeAll groupID ids) := by
  induction ids with
  | nil => exact trivial
  | cons id ids ih =>
    exact safe_do (by exact hg) fun _ => ih

theorem safe_addChecked (ms) : Safe base orgID (fun _ => True) (h.addChecked orgID groupID ms) := by
  induction ms with
  | nil => exact trivial
  | cons m ms ih =>
    unfold addChecked
    split
    · exact ih
    rename_i userID _
    refine .bind (safe_memberInOrg userID) fun own hown => ?_
    cases own with
    | true =>
      exact safe_do (by exact ⟨hg, hown rfl⟩) fun _ => ih
    | false => exact ih

theorem safe_addInitial {ms} (hms : ∀ m ∈ ms, ∀ id, h.parseUUID m = some id → ¬ ForeignUser base orgID id) :
    Safe base orgID (fun _ => True) (h.addInitial groupID ms) := by
  induction ms with
  | nil => exact trivial
  | cons m ms ih =>
    rw [forall_mem_cons] at hms
    unfold addInitial
    split
    · exact ih hms.2
    · rename_i userID hparse
      exact safe_do (by exact ⟨hg, hms.1 userID hparse⟩) fun _ => ih hms.2

theorem safe_patchGroupOps (ops) : Safe base orgID (fun _ => True) (h.patchGroupOps orgID groupID ops) := by
  induction ops with
  | nil => exact trivial
  | cons op ops ih =>
    unfold patchGroupOps
    split
    · split
      · exact .bind (safe_addChecked h hg _) fun _ _ => ih
      · split
        · exact .bind (safe_removeAll hg _) fun _ _ => ih
        · exact ih
    · exact ih

end

/-! ## Requests -/

def ReplyWithin (orgID : UUID) : ScimReply → Prop
  | .users _ _ _ us => ∀ u ∈ us, u.orgID = orgID
  | .user _ u => u.orgID = orgID ∨ u = ScimHandler.emptyUser
  | .groups _ _ _ gs => ∀ r ∈ gs, r.1.orgID = orgID ∧ ∀ u ∈ r.2, u.orgID = orgID
  | .group _ g us => g.orgID = orgID ∧ ∀ u ∈ us, u.orgID = orgID
  | .noContent => True

def InitialWithin (base : ScimStore) (orgID : UUID) : ScimCall → Prop
  | .createGroup (some body) => ∀ m ∈ body.members, ∀ id, h.parseUUID m = some id → ¬ ForeignUser base orgID id
  | _ => True

theorem safe_pageOf {α} {page} {all : List α} :
    Safe base orgID (fun as => ∀ a ∈ as, a ∈ all) (panicked (pageOf page all)) := by
  unfold pageOf
  dsimp only
  split
  · exact trivial
  · exact fun a ha => mem_of_mem_take (mem_of_mem_drop ha)

theorem pageOf_eq {page} (all : List α) (hstart : 0 < page.1) (hcount : 0 < page.2)
    (hmachine : page.1 < 2 ^ 63 ∧ page.2 < 2 ^ 63) :
    pageOf page all = if page.1 - 1 + page.2 < 2 ^ 63 then some ((all.drop (page.1 - 1).toNat).take page.2.toNat)
      else none := by
  obtain ⟨first, count⟩ := page
  obtain ⟨c, rfl⟩ := Int.eq_ofNat_of_zero_le hcount.le
  obtain ⟨s, hs⟩ := Int.eq_ofNat_of_zero_le (Int.sub_nonneg_of_le hstart)
  simp only [Int.zero_add] at hs
  dsimp only at hmachine
  have hfirst : (min (max (s : Int) 0) all.length).toNat = min s all.length := by omega
  unfold pageOf
  simp only [hs, hfirst, Int.toNat_natCast]
  by_cases hfits : (s : Int) + c < 2 ^ 63
  · have hsum : Int.bmod (s + c) (2 ^ 64) = s + c := Int.bmod_eq_of_le (by omega) (by omega)
    have hlast : (min ((s : Int) + c) all.length).toNat = min (s + c) all.length := by omega
    rw [if_pos hfits, hsum, hlast, if_neg (by omega), ← take_eq_take_min, drop_take, ← drop_eq_drop_min]
    rcases Nat.le_total s all.length with hle | hle
    · rw [Nat.min_eq_left hle, Nat.add_sub_cancel_left]
    · simp [drop_of_length_le hle]
  · have hneg : Int.bmod (s + c) (2 ^ 64) < 0 := by
      rw [← Int.sub_bmod_right, Int.bmod_eq_of_le (by omega) (by omega)]
      omega
    rw [if_neg hfits, if_pos (by omega)]

theorem flatMap_pages (all : List α) (count n) :
    (range n).flatMap (fun k => (all.drop (k * count)).take count) = all.take (n * count) := by
  induction n with
  | zero => simp
  | succ n ih => rw [range_succ, flatMap_append, ih, flatMap_singleton, Nat.succ_mul, take_add]

theorem parsePage_pos (page) : 0 < (parsePage page).1 ∧ 0 < (parsePage page).2 := by
  have hpos : ∀ (v : Option Int) (d : Int), 0 < d → 0 < (v.filter fun v => decide (0 < v)).getD d := by
    intro v d hd
    cases v with
    | none => exact hd
    | some v => grind
  exact ⟨hpos _ 1 (by decide), hpos _ 100 (by decide)⟩

/-- The `k`-th page of the size. -/
def pageAt (all : List α) (count : Int) (k : Nat) : Option (List α) :=
  pageOf (parsePage ⟨some (1 + k * count), some count⟩) all

theorem pageAt_eq (all : List α) {c k : Nat} (hcount : 0 < (c : Int)) (hmax : (c : Int) < 2 ^ 63)
    (hfirst : 1 + k * (c : Int) < 2 ^ 63) :
    pageAt all c k = if (k + 1) * (c : Int) < 2 ^ 63 then some ((all.drop (k * c)).take c) else none := by
  have hstart : 0 < 1 + k * (c : Int) := Int.add_pos_of_pos_of_nonneg Int.one_pos (Int.mul_nonneg (by omega) hcount.le)
  have hparse : parsePage ⟨some (1 + k * (c : Int)), some c⟩ = (1 + k * (c : Int), (c : Int)) := by
    simp [parsePage, Option.filter, hstart, Int.natCast_pos.mp hcount]
  have hdrop : ((k : Int) * c).toNat = k * c := rfl
  rw [pageAt, hparse, @pageOf_eq _ (_, _) all hstart hcount ⟨hfirst, hmax⟩]
  simp [hdrop, Int.add_mul]

/-- A request gets a slice of the list exactly if its last index is a machine integer, and pages of
one size make up the list exactly if that of the last page is. -/
theorem pages_partition (all : List α) :
    (∀ page, (ScimHandler.parsePage page).1 < 2 ^ 63 ∧ (ScimHandler.parsePage page).2 < 2 ^ 63 →
      ((ScimHandler.pageOf (ScimHandler.parsePage page) all).isSome ↔
        (ScimHandler.parsePage page).1 - 1 + (ScimHandler.parsePage page).2 < 2 ^ 63)) ∧
    ∀ (count : Int) (n : Nat), 0 < count → count < 2 ^ 63 → (∀ k < n, 1 + k * count < 2 ^ 63) → all.length ≤ n * count →
      ((∀ k < n, (pageAt all count k).isSome) ∧ (List.range n).flatMap (fun k => (pageAt all count k).getD []) = all ↔
        n * count < 2 ^ 63) := by
  constructor
  · intro page hmachine
    rw [pageOf_eq all (parsePage_pos page).1 (parsePage_pos page).2 hmachine, Option.isSome_ite]
  · intro count n hcount hmax hmachine hall
    obtain ⟨c, rfl⟩ := Int.eq_ofNat_of_zero_le hcount.le
    have hpage := fun k hk => pageAt_eq all hcount hmax (hmachine k hk)
    constructor
    · rintro ⟨hsome, -⟩
      cases n with
      | zero => simp
      | succ n =>
        have hlast := hsome n n.lt_succ_self
        rw [hpage n n.lt_succ_self] at hlast
        exact Option.isSome_ite.mp hlast
    · intro hfits
      have hget : ∀ k < n, pageAt all c k = some ((all.drop (k * c)).take c) := by
        intro k hk
        have hle : (k + 1) * (c : Int) ≤ n * c := Int.mul_le_mul_of_nonneg_right (by omega) (by omega)
        exact (hpage k hk).trans (if_pos (Int.lt_of_le_of_lt hle hfits))
      refine ⟨fun k hk => by rw [hget k hk]; rfl, ?_⟩
      calc _ = (range n).flatMap fun k => (all.drop (k * c)).take c :=
            flatMap_congr fun k hk => by rw [hget k (mem_range.mp hk)]; rfl
        _ = all.take (n * c) := flatMap_pages all c n
        _ = all := take_of_length_le (by exact_mod_cast hall)

/-- The sum overflows, so the slice ends before it starts. -/
theorem page_panics : ScimHandler.pageOf (ScimHandler.parsePage ⟨some (2 ^ 63 - 1), some 100⟩) [()] = none := by
  decide

theorem mem_applyUserFilter {us filter u} (hu : u ∈ h.applyUserFilter us filter) : u ∈ us := by
  unfold applyUserFilter at hu
  split at hu
  · exact hu
  split at hu
  · exact hu
  split at hu
  · exact (mem_filter.mp hu).1
  · split at hu
    · exact (mem_filter.mp hu).1
    · exact absurd hu not_mem_nil

theorem safe_listUsers (page filter) : Safe base orgID (ReplyWithin orgID) (h.listUsers orgID page filter) := by
  have hlist : Safe base orgID (fun r => ∀ us, r = .ok us → ∀ u ∈ us, u.orgID = orgID) (scimStmt (.listUsers orgID)) := by
    refine safe_stmt trivial (fun _ s _ us hus u hu => ?_) nofun
    cases hus
    exact of_decide_eq_true (mem_filter.mp hu).2
  refine .bind hlist fun r hr => ?_
  cases r with
  | error e => exact trivial
  | ok us =>
    refine .bind safe_pageOf fun us' hus' u hu => ?_
    have hmem := hus' u hu
    split at hmem
    · exact hr us rfl u hmem
    · exact hr us rfl u (mem_applyUserFilter h hmem)

theorem safe_createUserRequest (body) : Safe base orgID (ReplyWithin orgID) (createUser orgID body) := by
  refine safe_bound fun b _ => .require fun _ => ?_
  refine .bind (safe_createUser _ _ _) fun r hr => ?_
  cases r with
  | error e => exact trivial
  | ok u =>
    obtain ⟨horg, hown⟩ := hr u rfl
    dsimp only
    split
    · exact .inl horg
    · exact safe_do (by exact hown) fun _ => .inl horg

theorem safe_patchUser (id patch) : Safe base orgID (ReplyWithin orgID) (h.patchUser orgID id patch) := by
  refine safe_parseID h fun id => ?_
  refine .bind (safe_userInOrg id) fun u hu => ?_
  refine safe_bound fun ops _ => ?_
  refine .bind (safe_patchUserOps h hu.2 ops u) fun _ _ => ?_
  refine .bind (safe_getUser id) fun r hr => ?_
  cases r with
  | none => exact .inr rfl
  | some v => exact .inl ((hr v rfl).mpr hu.2)

theorem safe_listGroups (page) : Safe base orgID (ReplyWithin orgID) (listGroups orgID page) := by
  have hlist : Safe base orgID (fun r => ∀ gs, r = .ok gs → ∀ g ∈ gs, g.orgID = orgID ∧ ¬ ForeignGroup base orgID g.id)
      (scimStmt (.listGroups orgID)) := by
    refine safe_stmt trivial (fun _ s hs gs hgs g hg => ?_) nofun
    cases hgs
    obtain ⟨hmem, horg⟩ := mem_filter.mp hg
    have horg := of_decide_eq_true horg
    exact ⟨horg, (hs.ownGroup hmem).mp horg⟩
  refine .bind hlist fun r hr => ?_
  cases r with
  | error e => exact trivial
  | ok gs =>
    refine .bind safe_pageOf fun gs' hgs' => ?_
    exact .bind (safe_withMembers fun g hg => hr gs rfl g (hgs' g hg)) fun _ hrs => hrs

theorem safe_createGroupRequest {body} (hbody : InitialWithin h base orgID (.createGroup body)) :
    Safe base orgID (ReplyWithin orgID) (h.createGroup orgID body) := by
  refine safe_bound fun b hb => .require fun _ => ?_
  subst hb
  refine .bind (safe_createGroup _) fun r hr => ?_
  cases r with
  | error e => exact trivial
  | ok g =>
    obtain ⟨horg, hown⟩ := hr g rfl
    refine .bind (safe_addInitial h hown hbody) fun _ _ => ?_
    exact .bind (safe_listMembers hown) fun us hus => ⟨horg, hus⟩

theorem safe_handle {c} (hc : InitialWithin h base orgID c) :
    Safe base orgID (ReplyWithin orgID) (h.handle orgID c) := by
  cases c with
  | listUsers page filter => exact safe_listUsers h page filter
  | getUser id =>
    refine safe_parseID h fun id => ?_
    exact .bind (safe_userInOrg id) fun u hu => .inl hu.1
  | createUser body => exact safe_createUserRequest body
  | replaceUser id body =>
    refine safe_parseID h fun id => ?_
    refine .bind (safe_userInOrg id) fun u hu => ?_
    refine safe_bound fun b _ => ?_
    refine .bind (safe_updateUser hu.2 _ _ _) fun r hr => ?_
    cases r with
    | none => exact trivial
    | some v => exact .inl (hr v rfl)
  | patchUser id patch => exact safe_patchUser h id patch
  | deleteUser id =>
    refine safe_parseID h fun id => ?_
    refine .bind (safe_userInOrg id) fun u hu => ?_
    exact safe_do (by exact hu.2) fun _ => .require fun _ => trivial
  | listGroups page => exact safe_listGroups page
  | getGroup id =>
    refine safe_parseID h fun id => ?_
    refine .bind (safe_groupInOrg id) fun g hg => ?_
    exact .bind (safe_listMembers hg.2) fun us hus => ⟨hg.1, hus⟩
  | createGroup body => exact safe_createGroupRequest h hc
  | replaceGroup id body =>
    refine safe_parseID h fun id => ?_
    refine .bind (safe_groupInOrg id) fun g hg => ?_
    refine safe_bound fun b _ => ?_
    refine .bind (safe_listMembers hg.2) fun existing _ => ?_
    refine .bind (safe_removeAll hg.2 _) fun _ _ => ?_
    refine .bind (safe_addChecked h hg.2 _) fun _ _ => ?_
    exact .bind (safe_listMembers hg.2) fun us hus => ⟨hg.1, hus⟩
  | patchGroup id patch =>
    refine safe_parseID h fun id => ?_
    refine .bind (safe_groupInOrg id) fun g hg => ?_
    refine safe_bound fun ops _ => ?_
    refine .bind (safe_patchGroupOps h hg.2 ops) fun _ _ => ?_
    exact .bind (safe_listMembers hg.2) fun us hus => ⟨hg.1, hus⟩
  | deleteGroup id =>
    refine safe_parseID h fun id => ?_
    refine .bind (safe_groupInOrg id) fun g hg => ?_
    exact safe_do (by exact hg.2) fun _ => .require fun _ => trivial

def ScimTokenOf (base : ScimStore) (orgID : UUID) (q : ScimRequest) : Prop :=
  ∀ t ∈ base.tokens, t.tokenHash = h.hashToken (ScimHandler.bearerToken q) → t.orgID = orgID

theorem safe_serve {q} (htoken : ScimTokenOf h base orgID q) (hcall : InitialWithin h base orgID q.call) :
    Safe base orgID (ReplyWithin orgID) (h.serve q) := by
  refine safe_do ?_ fun r => ?_
  · exact trivial
  cases r with
  | none => exact trivial
  | some org =>
    refine .require fun _ => ?_
    have hvalid : Safe base orgID (fun b => b = true → org.id = orgID)
        (scimStmt (.validateToken org.id (h.hashToken (bearerToken q)))) := by
      refine safe_stmt trivial (fun _ s hs hany => ?_) nofun
      obtain ⟨t, ht, heq⟩ := any_eq_true.mp hany
      obtain ⟨horg, hhash⟩ := of_decide_eq_true heq
      rw [hs.tokens] at ht
      exact horg.symm.trans (htoken t ht hhash)
    refine .bind hvalid fun valid hv => .require fun htrue => ?_
    rw [hv htrue]
    exact safe_handle h hcall

end

/-! ## Runs -/

/-- Requests with tokens of one organisation leave every other one as it was, add memberships
only between its own groups and users, and show nothing of another. -/
theorem scim_isolated (h : ScimHandler) {base : ScimStore} {orgID : UUID} {ms : List (PoolMove ScimRequest ScimEnv Empty)}
    {t : Pool ScimRequest ScimOp ScimOp.Resp HTTPError ScimReply ScimStore} (hbase : SameOrg base)
    (hreqs : ∀ i q, .start i q ∈ ms → ScimTokenOf h base orgID q ∧ InitialWithin h base orgID q.call)
    (htrace : Trace (scimSystem h).step (Meets fun _ _ _ _ => True) (Pool.init base) ms t) :
    (∀ m ∈ t.store.members.list, m ∈ base.members.list ∨
      ∃ g ∈ t.store.groups.list, ∃ u ∈ t.store.users.list,
        g.id = m.groupID ∧ u.id = m.userID ∧ g.orgID = orgID ∧ u.orgID = orgID) ∧
    Isolated base orgID t.store ∧ ∀ q r, (q, .ok r) ∈ t.log → ReplyWithin orgID r := by
  obtain ⟨hstore, hlog⟩ := System.steady (J := Isolated base orgID)
    (fun i q hq => safe_serve h (hreqs i q hq).1 (hreqs i q hq).2) (fun e => nomatch e) htrace (Isolated.refl hbase)
  refine ⟨fun m hm => ?_, hstore, hlog⟩
  obtain ⟨g, hg, u, hu, hgid, huid, horg⟩ := hstore.sameOrg m hm
  by_cases hown : g.orgID = orgID
  · exact .inr ⟨g, hg, u, hu, hgid, huid, hown, horg.symm.trans hown⟩
  · refine .inl (mem_of_filter_eq hstore.members (otherMember_iff.mpr ?_) hm)
    rw [hstore.foreignGroup]
    exact ⟨g, hg, hgid, hown⟩

/-! ## Two organisations -/

def plainScim : ScimHandler where
  parseUUID s := if s = "alice" then some 10 else if s = "bob" then some 20 else none
  uuidString _ := ""
  hashToken s := s
  equalFold a b := decide (a = b)
  sprint _ := ""

def alice : User := { id := 10, orgID := 1, email := "alice@acme.example" }

def bob : User := { id := 20, orgID := 2, email := "bob@other.example" }

def scimOrgs : ScimStore where
  orgs := [⟨1, "Acme", "acme", false⟩, ⟨2, "Other", "other", false⟩]
  tokens := [⟨1, "secret"⟩]
  users := ⟨[alice, bob], by decide⟩
  groups := .empty
  members := .empty

def createGroupWith (member : String) : ScimRequest := ⟨"acme", "Bearer secret", .createGroup (some ⟨"devs", [member]⟩)⟩

def createGroupMoves (member : String) : List (PoolMove ScimRequest ScimEnv Empty) :=
  .start 0 (createGroupWith member) :: List.replicate 6 (.advance 0 ⟨.done, 5⟩)

theorem scim_isolated_for_alice :
    let t := run (scimSystem plainScim).step (Pool.init scimOrgs) (createGroupMoves "alice")
    t.store.members.list = [⟨5, 10⟩] ∧ t.log = [(createGroupWith "alice", .ok (.group 201 ⟨5, 1, "devs", false⟩ [alice]))] ∧
      Isolated scimOrgs 1 t.store := by
  have hreqs : ∀ i q, .start i q ∈ createGroupMoves "alice" →
      ScimTokenOf plainScim scimOrgs 1 q ∧ InitialWithin plainScim scimOrgs 1 q.call := by
    intro i q hq
    simp only [createGroupMoves, mem_cons, mem_replicate, PoolMove.start.injEq, reduceCtorEq, and_false, or_false] at hq
    obtain ⟨_, rfl⟩ := hq
    constructor
    · intro t ht _
      rw [mem_singleton.mp ht]
    · intro m hm id hid
      rw [mem_singleton.mp hm] at hid
      cases hid
      rintro ⟨u, hu, hid, horg⟩
      rcases mem_cons.mp hu with rfl | hu
      · exact horg rfl
      · rw [mem_singleton.mp hu] at hid
        exact absurd hid (by decide)
  have hbase : SameOrg scimOrgs := fun _ hm => absurd hm not_mem_nil
  exact ⟨rfl, rfl, (scim_isolated plainScim hbase hreqs (Trace.run_always (fun p m => Meets.always p m) _ _)).2.1⟩

/-- A new group that starts with a user of another organisation: the membership is there, and the
reply shows the user. -/
theorem scim_member_of_other_org :
    let t := run (scimSystem plainScim).step (Pool.init scimOrgs) (createGroupMoves "bob")
    t.store.members.list = [⟨5, 20⟩] ∧ bob ∈ t.store.users.list ∧ bob.id = 20 ∧ bob.orgID ≠ 1 ∧
      t.log = [(createGroupWith "bob", .ok (.group 201 ⟨5, 1, "devs", false⟩ [bob]))] :=
  ⟨rfl, mem_cons_of_mem _ (mem_singleton.mpr rfl), rfl, by decide, rfl⟩

end Clavex

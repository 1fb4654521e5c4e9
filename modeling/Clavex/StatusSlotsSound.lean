import Clavex.StatusSlots

/-!
# Slots are reserved once

A transaction sees the lists of an organisation as they are as soon as it has the organisation's
advisory lock, and nobody else writes to them until it ends (`issueCredentials_disciplined`). So
what holds of one transaction at a time, that a slot is free when it is reserved and that the
bitmap has as many bits as `next_slot` says, holds whatever the interleaving.
-/

namespace Clavex

open SlotStore List Rows

variable {lists : Rows CredentialStatusList.id} {r : CredentialStatusList} {index : Nat} {w : SlotWork}

/-! ## The bitmap -/

theorem occupiedAt_eq (occupied index) : occupiedAt occupied index = bitAt occupied index :=
  and_bitMask_ne_zero _ (Nat.mod_lt _ (by decide))

theorem eight_mul_slotBytes : 8 * (slotCount / 8) = slotCount := by decide

def freeSlots (occupied : Bytes) : List Nat := (List.range slotCount).filter fun i => !bitAt occupied i

variable {occupied : Bytes} {reserved : List (UUID × Nat)} {db : SlotStore}

theorem mem_freeSlots {i} : i ∈ freeSlots occupied ↔ i < slotCount ∧ bitAt occupied i = false := by
  simp [freeSlots]

theorem findSlot_eq (occupied rank is) : findSlot occupied rank is = (is.filter fun i => !bitAt occupied i)[rank]? := by
  induction is generalizing rank with
  | nil => rfl
  | cons i is ih =>
    rw [findSlot, occupiedAt_eq]
    cases hbit : bitAt occupied i with
    | true => simp [hbit, ih]
    | false =>
      cases rank with
      | zero => simp [hbit]
      | succ rank => simp [hbit, ih]

structure SlotsCounted (r : CredentialStatusList) : Prop where
  size : r.allocatedSlots.length = slotCount / 8
  used : (usedSlots r.allocatedSlots : Int) = r.nextSlot

theorem usedSlots_add_free (h : occupied.length = slotCount / 8) :
    usedSlots occupied + (freeSlots occupied).length = slotCount := by
  rw [usedSlots, sum_onesCount8, h, eight_mul_slotBytes, freeSlots, countP_add_filter_not, length_range]

theorem SlotsCounted.free (h : SlotsCounted r) :
    ((freeSlots r.allocatedSlots).length : Int) = slotCount - r.nextSlot := by
  have hall := usedSlots_add_free h.size
  have hused := h.used
  omega

theorem slotsCounted_newList (id org listIndex) : SlotsCounted (newList id org listIndex) where
  size := length_replicate
  used := by
    show ((replicate (slotCount / 8) (0 : UInt8)).map onesCount8).sum = (0 : Int)
    rw [map_replicate, sum_replicate]
    decide

def reserve (r : CredentialStatusList) (index : Nat) : CredentialStatusList :=
  { r with allocatedSlots := setBit r.allocatedSlots index, nextSlot := r.nextSlot + 1 }

theorem SlotsCounted.reserve (h : SlotsCounted r) (hfree : index ∈ freeSlots r.allocatedSlots) :
    SlotsCounted (reserve r index) where
  size := by
    rw [Clavex.reserve, length_setBit]
    exact h.size
  used := by
    obtain ⟨hlt, hbit⟩ := mem_freeSlots.mp hfree
    have hindex : index < 8 * r.allocatedSlots.length := by
      rw [h.size, eight_mul_slotBytes]
      exact hlt
    have hused := h.used
    rw [Clavex.reserve, usedSlots, sum_onesCount8_setBit hindex hbit]
    rw [usedSlots] at hused
    rw [Int.natCast_add, hused]
    rfl

/-! ## What the lists and the reservations have to do with each other -/

structure SlotsSound (lists : Rows CredentialStatusList.id) (reserved : List (UUID × Nat)) : Prop where
  counted : ∀ r ∈ lists.list, SlotsCounted r
  once : reserved.Nodup
  marked : ∀ pair ∈ reserved, ∃ r ∈ lists.list, r.id = pair.1 ∧ bitAt r.allocatedSlots pair.2 = true

theorem SlotsSound.empty : SlotsSound .empty [] where
  counted r hr := by cases hr
  once := nodup_nil
  marked pair hpair := by cases hpair

theorem SlotsSound.insert (h : SlotsSound lists reserved) {id} (hnew : ∀ r ∈ lists.list, r.id ≠ id)
    (org listIndex) : SlotsSound (lists.set (newList id org listIndex)) reserved where
  counted r hr := by
    rcases mem_set.mp hr with rfl | ⟨hr, _⟩
    · exact slotsCounted_newList id org listIndex
    · exact h.counted r hr
  once := h.once
  marked pair hpair := by
    obtain ⟨r, hr, hid, hbit⟩ := h.marked pair hpair
    exact ⟨r, mem_set.mpr (.inr ⟨hr, hnew r hr⟩), hid, hbit⟩

theorem SlotsSound.reserve (h : SlotsSound lists reserved) (hr : r ∈ lists.list)
    (hfree : index ∈ freeSlots r.allocatedSlots) :
    SlotsSound (lists.set (reserve r index)) ((r.id, index) :: reserved) := by
  obtain ⟨hlt, hbit⟩ := mem_freeSlots.mp hfree
  have hindex : index < 8 * r.allocatedSlots.length := by
    rw [(h.counted r hr).size, eight_mul_slotBytes]
    exact hlt
  have hself : Clavex.reserve r index ∈ (lists.set (Clavex.reserve r index)).list := mem_set.mpr (.inl rfl)
  constructor
  · intro r' hr'
    rcases mem_set.mp hr' with rfl | ⟨hr', _⟩
    · exact (h.counted r hr).reserve hfree
    · exact h.counted r' hr'
  · refine nodup_cons.mpr ⟨fun hmem => ?_, h.once⟩
    -- a slot that was reserved before has its bit set
    obtain ⟨r', hr', hid, hbit'⟩ := h.marked _ hmem
    rw [eq_of_key hr' hr hid, hbit] at hbit'
    cases hbit'
  · intro pair hpair
    rcases mem_cons.mp hpair with rfl | hpair
    · refine ⟨_, hself, rfl, ?_⟩
      rw [Clavex.reserve, bitAt_setBit hindex]
      simp
    · obtain ⟨r', hr', hid, hbit'⟩ := h.marked pair hpair
      by_cases heq : r'.id = r.id
      · refine ⟨_, hself, heq ▸ hid, ?_⟩
        rw [eq_of_key hr' hr heq] at hbit'
        rw [Clavex.reserve, bitAt_setBit hindex, hbit', Bool.true_or]
      · exact ⟨r', mem_set.mpr (.inr ⟨hr', heq⟩), hid, hbit'⟩

/-! ## A transaction -/

def slotAgree : SlotKey → SlotStore → SlotStore → Prop
  | .org org, db, db' => ofOrg db.lists org = ofOrg db'.lists org
  | .row id, db, db' => byID db.lists id = byID db'.lists id

structure SlotProgress (db : SlotStore) (held : List SlotKey) (w : SlotWork) : Prop where
  sound : SlotsSound (db.visible w) (w.taken ++ db.issued)
  own : ∀ r ∈ w.own, .row r.id ∈ held ∧ .org r.orgID ∈ held ∧ ∀ b ∈ db.lists.list, b.id = r.id → b.orgID = r.orgID
  taken : ∀ pair ∈ w.taken, .row pair.1 ∈ held

section
variable {db db' : SlotStore} {held held' : List SlotKey}

theorem SlotProgress.mono (h : SlotProgress db held w) (hsub : held ⊆ held') : SlotProgress db held' w where
  sound := h.sound
  own r hr := ⟨hsub (h.own r hr).1, hsub (h.own r hr).2.1, (h.own r hr).2.2⟩
  taken pair hpair := hsub (h.taken pair hpair)

variable {org id : UUID}

theorem byID_visible (h : slotAgree (.row id) db db') (w) : byID (db'.visible w) id = byID (db.visible w) id :=
  (find_overlay_congr h w.own).symm

theorem byID_of_mem (h : r ∈ lists.list) : byID lists r.id = some r :=
  find_key h (decide_eq_true rfl) fun _ hb => of_decide_eq_true hb

theorem SlotProgress.publish (h : SlotProgress db held w) {k} (hk : k ∉ held) (issued) :
    slotAgree k db ⟨db.visible w, issued⟩ := by
  cases k with
  | org org =>
    refine (filter_overlay fun r hr => ?_).symm
    have hne : r.orgID ≠ org := fun heq => hk (heq ▸ (h.own r hr).2.1)
    refine ⟨decide_eq_false hne, fun b hb hid => decide_eq_false ?_⟩
    rw [(h.own r hr).2.2 b hb hid]
    exact hne
  | row id =>
    refine (find_overlay fun r hr => ?_).symm
    exact fun heq => hk (heq ▸ (h.own r hr).1)

theorem SlotProgress.insert (h : SlotProgress db held w) (hnew : byID (db.visible w) id = none)
    (horg : .org org ∈ held) (listIndex) : SlotProgress db (.row id :: held) { w with own := newList id org listIndex :: w.own } := by
  have hfresh : ∀ r ∈ (db.visible w).list, r.id ≠ id := fun r hr => of_decide_eq_false (find_none hnew r hr)
  have hmono := h.mono (subset_cons_self (.row id) held)
  refine ⟨h.sound.insert hfresh org listIndex, fun r hr => ?_, hmono.taken⟩
  rcases mem_cons.mp hr with rfl | hr
  · refine ⟨mem_cons_self .., mem_cons_of_mem _ horg, fun b hb hid => ?_⟩
    obtain ⟨c, hc, hcb⟩ : ∃ c ∈ (db.visible w).list, c.id = b.id := exists_overlay.mpr (.inr ⟨b, hb, rfl⟩)
    exact absurd (hcb.trans hid) (hfresh c hc)
  · exact hmono.own r hr

theorem SlotProgress.reserve (h : SlotProgress db held w) (hr : r ∈ (db.visible w).list) (horg : .org r.orgID ∈ held)
    (hrow : .row r.id ∈ held) (hfree : index ∈ freeSlots r.allocatedSlots) :
    SlotProgress db held ⟨reserve r index :: w.own, (r.id, index) :: w.taken⟩ := by
  refine ⟨h.sound.reserve hr hfree, fun r' hr' => ?_, fun pair hpair => ?_⟩
  · rcases mem_cons.mp hr' with rfl | hr'
    · refine ⟨hrow, horg, fun b hb hid => ?_⟩
      rcases mem_overlay hr with hown | hdb
      · exact (h.own r hown).2.2 b hb hid
      · have heq : b = r := eq_of_key hb hdb hid
        rw [heq]
        rfl
    · exact h.own r' hr'
  · rcases mem_cons.mp hpair with rfl | hpair
    · exact hrow
    · exact h.taken pair hpair

variable {α : Type} {Q : α → List SlotKey → SlotWork → Prop}

abbrev SlotsDisciplined (db : SlotStore) (Q : α → List SlotKey → SlotWork → Prop) (p : SlotProg α) (held : List SlotKey)
    (w : SlotWork) : Prop :=
  slotLang.Disciplined slotAgree db (SlotProgress db) Q p held w

theorem slot_statement {op k} (h : SlotProgress db held w) (hfail : ∃ e, k op.refusal = .fail e)
    (hlocal : ∀ env db', (∀ key ∈ slotLocks env op ++ held, slotAgree key db db') → carry env op db' w = carry env op db w)
    (hcarry : ∀ env, SlotsDisciplined db Q (k (carry env op db w).1) (slotLocks env op ++ held) (carry env op db w).2) :
    SlotsDisciplined db Q (slotStmt op >>= k) held w := by
  obtain ⟨e, hfail⟩ := hfail
  show SlotsDisciplined db Q (.ask op k) held w
  refine TxnLang.Disciplined.statement h hlocal ?_ (fun env => ?_) hcarry
  · rw [hfail]
    exact h
  · rw [hfail]
    exact h.mono (subset_append_right ..)

theorem carry_insertList (env org listIndex db w) :
    carry env (.insertList org listIndex) db w = (none, w) ∨
    (byID (db.visible w) env.id = none ∧ carry env (.insertList org listIndex) db w =
      (some (newList env.id org listIndex), { w with own := newList env.id org listIndex :: w.own })) := by
  simp only [carry]
  split
  · exact .inl rfl
  · rename_i hcan
    simp only [Bool.or_eq_true, not_or, Option.not_isSome_iff_eq_none] at hcan
    exact .inr ⟨hcan.1, rfl⟩

theorem getOrCreateStatusList_disciplined (h : SlotProgress db held w) (horg : .org org ∈ held) :
    SlotsDisciplined db (fun sl held' w' => w'.taken = w.taken ∧
      ∃ r ∈ (db.visible w').list, r.id = sl.id ∧ .org r.orgID ∈ held') (getOrCreateStatusList org) held w := by
  have hvisible : ∀ {db'}, (∀ key ∈ held, slotAgree key db db') → ofOrg (db'.visible w) org = ofOrg (db.visible w) org :=
    fun hagree => (filter_overlay_congr (hagree _ horg) w.own).symm
  refine slot_statement h ⟨_, rfl⟩ (fun env db' hagree => ?_) fun env => ?_
  · simp [carry, activeList, hvisible hagree]
  · simp only [carry, slotLocks, nil_append]
    cases hactive : activeList (db.visible w) org with
    | some sl =>
      have hmem := List.maxOn?_mem hactive
      obtain ⟨hsl, hslorg⟩ := List.mem_filter.mp (List.mem_filter.mp hmem).1
      exact ⟨h, rfl, sl, hsl, rfl, of_decide_eq_true hslorg ▸ horg⟩
    | none =>
      refine slot_statement h ⟨_, rfl⟩ (fun env db' hagree => ?_) fun env => ?_
      · simp [carry, hvisible hagree]
      · simp only [carry, slotLocks, nil_append]
        refine slot_statement h ⟨_, rfl⟩ (fun env db' hagree => ?_) fun env => ?_
        · have hid := byID_visible (hagree (.row env.id) (mem_cons_self ..)) w
          have horg' := hvisible fun key hkey => hagree key (mem_cons_of_mem _ hkey)
          simp [carry, hid, horg']
        · generalize nextIdx ((ofOrg (db.visible w) org).map fun r => r.listIndex).max? = listIndex
          rcases carry_insertList env org listIndex db w with hinsert | ⟨hnew, hinsert⟩
          · rw [hinsert]
            exact h.mono (subset_cons_self ..)
          · rw [hinsert]
            refine ⟨h.insert hnew horg _, rfl, _, mem_set.mpr (.inl rfl), rfl, ?_⟩
            exact mem_cons_of_mem _ horg

theorem allocateRandomStatusIndex_disciplined (h : SlotProgress db held w) {list}
    (hlist : ∃ r ∈ (db.visible w).list, r.id = list ∧ .org r.orgID ∈ held) :
    SlotsDisciplined db (fun index _ w' => w'.taken = (list, index) :: w.taken) (allocateRandomStatusIndex list) held w := by
  obtain ⟨r, hr, rfl, horg⟩ := hlist
  have hfind : byID (db.visible w) r.id = some r := byID_of_mem hr
  have hlocal : ∀ {held' : List SlotKey} {db'}, .row r.id ∈ held' → (∀ key ∈ held', slotAgree key db db') →
      byID (db'.visible w) r.id = byID (db.visible w) r.id :=
    fun hrow hagree => byID_visible (hagree _ hrow) w
  refine slot_statement h ⟨_, rfl⟩ (fun env db' hagree => ?_) fun env => ?_
  · simp [carry, hlocal (mem_cons_self ..) hagree]
  · have h' : SlotProgress db (.row r.id :: held) w := h.mono (subset_cons_self ..)
    simp only [carry, hfind, slotLocks, Option.map_some]
    refine .require h' fun hsize => .require h' fun hused => ?_
    refine slot_statement h' ⟨_, rfl⟩ (fun env db' hagree => rfl) fun env => ?_
    simp only [carry, slotLocks, nil_append]
    split
    · exact h'
    rename_i index hindex
    rw [findSlot_eq] at hindex
    have hfree : index ∈ freeSlots r.allocatedSlots := mem_of_getElem? hindex
    refine slot_statement h' ⟨_, rfl⟩ (fun env db' hagree => ?_) fun env => ?_
    · simp [carry, hlocal (mem_cons_self ..) hagree]
    · simp only [carry, hfind, slotLocks]
      have h'' : SlotProgress db (.row r.id :: .row r.id :: held) w := h'.mono (subset_cons_self ..)
      split
      · exact ⟨h''.reserve hr (mem_cons_of_mem _ (mem_cons_of_mem _ horg)) (mem_cons_self ..) hfree, rfl⟩
      · exact h''

theorem allocateCredentialStatus_disciplined (h : SlotProgress db held w) (org) :
    SlotsDisciplined db (fun pair _ w' => w'.taken = pair :: w.taken) (allocateCredentialStatus org) held w := by
  refine slot_statement h ⟨_, rfl⟩ (fun env db' hagree => rfl) fun env => ?_
  have h' : SlotProgress db (.org org :: held) w := h.mono (subset_cons_self ..)
  refine .bind (getOrCreateStatusList_disciplined h' (mem_cons_self ..)) fun sl held₁ w₁ h₁ hsl => ?_
  refine .bind (allocateRandomStatusIndex_disciplined h₁ hsl.2) fun index held₂ w₂ h₂ hindex => ⟨h₂, ?_⟩
  show w₂.taken = (sl.id, index) :: w.taken
  rw [hindex, hsl.1]

theorem issueCredentials_disciplined (orgs) (h : SlotProgress db held w) :
    SlotsDisciplined db (fun pairs _ w' => w'.taken = pairs.reverse ++ w.taken) (issueCredentials orgs) held w := by
  induction orgs generalizing held w with
  | nil => exact ⟨h, rfl⟩
  | cons org orgs ih =>
    refine .bind (allocateCredentialStatus_disciplined h org) fun pair held₁ w₁ h₁ hpair => ?_
    refine .bind (ih h₁) fun pairs held₂ w₂ h₂ hpairs => ⟨h₂, ?_⟩
    show w₂.taken = (pair :: pairs).reverse ++ w.taken
    rw [hpairs, hpair, reverse_cons, append_assoc, singleton_append]

end

theorem SlotProgress.begin (h : SlotsSound db.lists db.issued) : SlotProgress db [] ⟨[], []⟩ :=
  ⟨h, nofun, nofun⟩

theorem slotSystem_serial : slotSystem.Serial slotAgree (fun _ _ => True) (fun _ _ _ => True) SlotProgress
    fun db => SlotsSound db.lists db.issued where
  refl k _ := by cases k <;> rfl
  stamp _ := trivial
  body {db orgs t} h _ := by
    refine (issueCredentials_disciplined orgs (.begin h)).mono fun pairs held w hw _ => ⟨fun k hk => hw.publish hk _, fun _ => ?_⟩
    exact ⟨hw.sound, fun _ _ => trivial⟩
  stmt _ s := nomatch s
  other e := nomatch e

/-! ## Ranks -/

theorem ne_nextIdx {rows : List Int} {i} (h : i ∈ rows) : i ≠ nextIdx rows.max? := by
  cases hmax : rows.max? with
  | none =>
    rw [max?_eq_none_iff.mp hmax] at h
    cases h
  | some maxIdx =>
    have hle := (max?_eq_some_iff.mp hmax).2 i h
    simp only [nextIdx]
    omega

def listFor (db : SlotStore) (w : SlotWork) (org id : UUID) : CredentialStatusList :=
  (activeList (db.visible w) org).getD (newList id org (nextIdx ((ofOrg (db.visible w) org).map fun r => r.listIndex).max?))

def allocated (db : SlotStore) (w : SlotWork) (org : UUID) (env : SlotEnv) : Except SlotError (UUID × Nat) :=
  ((allocateCredentialStatus org).exec (fun op w => carry env op db w) w).1

section
variable {db : SlotStore} {org : UUID} {env : SlotEnv}

theorem getOrCreateStatusList_exec (hsound : ∀ r ∈ (db.visible w).list, SlotsCounted r)
    (hfresh : activeList (db.visible w) org = none → byID (db.visible w) env.id = none) :
    ∃ w', (getOrCreateStatusList org).exec (fun op w => carry env op db w) w = (.ok (listFor db w org env.id), w') ∧
      listFor db w org env.id ∈ (db.visible w').list ∧ SlotsCounted (listFor db w org env.id) ∧
      (listFor db w org env.id).nextSlot < slotCount := by
  unfold listFor
  cases hactive : activeList (db.visible w) org with
  | some sl =>
    have hmem := List.maxOn?_mem hactive
    obtain ⟨hopen, hnext⟩ := List.mem_filter.mp hmem
    obtain ⟨hsl, -⟩ := mem_filter.mp hopen
    have hselect : carry env (.selectList org) db w = (some (some sl), w) := by rw [carry, hactive]
    refine ⟨w, ?_, hsl, hsound sl hsl, of_decide_eq_true hnext⟩
    simp [getOrCreateStatusList, hselect]
  | none =>
    let listIndex := nextIdx ((ofOrg (db.visible w) org).map fun r => r.listIndex).max?
    have hindex : ((ofOrg (db.visible w) org).any fun r => decide (r.listIndex = listIndex)) = false := by
      apply any_eq_false.mpr
      intro r hr
      rw [decide_eq_true_eq]
      exact ne_nextIdx (mem_map_of_mem hr)
    have hselect : carry env (.selectList org) db w = (some none, w) := by rw [carry, hactive]
    have hmax : carry env (.selectMaxIndex org) db w =
        (some ((ofOrg (db.visible w) org).map fun r => r.listIndex).max?, w) := rfl
    have hinsert : carry env (.insertList org listIndex) db w =
        (some (newList env.id org listIndex), { w with own := newList env.id org listIndex :: w.own }) := by
      rw [carry, hfresh hactive, hindex]
      rfl
    have hzero : (0 : Int) < slotCount := by decide
    refine ⟨{ w with own := newList env.id org listIndex :: w.own }, ?_, mem_set.mpr (.inl rfl), slotsCounted_newList .., hzero⟩
    simp [getOrCreateStatusList, hselect, hmax, hinsert, listIndex]

theorem allocateRandomStatusIndex_exec (hr : r ∈ (db.visible w).list) (hcounted : SlotsCounted r)
    (hnext : r.nextSlot < slotCount) (hrank : (freeSlots r.allocatedSlots)[env.rank]? = some index) :
    ∃ w', (allocateRandomStatusIndex r.id).exec (fun op w => carry env op db w) w = (.ok index, w') := by
  have hfind : byID (db.visible w) r.id = some r := byID_of_mem hr
  have hfree := hcounted.free
  have hused := hcounted.used
  have hmem : index ∈ freeSlots r.allocatedSlots := mem_of_getElem? hrank
  have hlt : env.rank < (freeSlots r.allocatedSlots).length := (List.getElem?_eq_some_iff.mp hrank).1
  have hmod : env.rank % (slotCount - r.nextSlot.toNat) = env.rank := Nat.mod_eq_of_lt (by omega)
  have hslot : findSlot r.allocatedSlots env.rank (range slotCount) = some index := by
    rw [findSlot_eq]
    exact hrank
  have hchecks : checks (reserve r index) = true := by
    refine decide_eq_true ⟨(hcounted.reserve hmem).size, ?_, ?_⟩
    · simp only [reserve]
      omega
    · simp only [reserve]
      omega
  have hnonneg : 0 ≤ r.nextSlot := by omega
  have hselect : carry env (.selectSlots r.id) db w = (some (r.allocatedSlots, r.nextSlot), w) := by
    rw [carry, hfind]
    rfl
  have hdraw : carry env (.drawRank (slotCount - r.nextSlot.toNat)) db w = (some env.rank, w) := by rw [carry, hmod]
  have hupdate : carry env (.updateSlots r.id (setBit r.allocatedSlots index) index) db w =
      (true, ⟨reserve r index :: w.own, (r.id, index) :: w.taken⟩) := by
    rw [carry, hfind]
    exact if_pos hchecks
  refine ⟨⟨reserve r index :: w.own, (r.id, index) :: w.taken⟩, ?_⟩
  simp [allocateRandomStatusIndex, hselect, hcounted.size, hused, hnext, hnonneg, hdraw, hslot, hupdate]

theorem allocated_eq (env) (hsound : ∀ r ∈ (db.visible w).list, SlotsCounted r)
    (hfresh : activeList (db.visible w) org = none → byID (db.visible w) env.id = none)
    (hrank : (freeSlots (listFor db w org env.id).allocatedSlots)[env.rank]? = some index) :
    allocated db w org env = .ok ((listFor db w org env.id).id, index) := by
  obtain ⟨w', hexec, hmem, hcounted, hnext⟩ := getOrCreateStatusList_exec hsound hfresh
  obtain ⟨w'', hindex⟩ := allocateRandomStatusIndex_exec hmem hcounted hnext hrank
  have hlock : carry env (.lockOrg org) db w = (true, w) := rfl
  simp [allocated, allocateCredentialStatus, Prog.exec_bind, hlock, hexec, hindex]

end

/-- Every rank is answered with the free slot that has it, so that a free slot is the answer to one
rank. If a list has to be made first, that its `id` is new is left to `gen_random_uuid()`. -/
def RanksExact (db : SlotStore) (w : SlotWork) : Prop :=
  ∀ (org : UUID) (env : SlotEnv), (activeList (db.visible w) org = none → byID (db.visible w) env.id = none) →
    let list := listFor db w org env.id
    ((freeSlots list.allocatedSlots).length : Int) = slotCount - list.nextSlot ∧
    (∀ rank index, (freeSlots list.allocatedSlots)[rank]? = some index →
      allocated db w org { env with rank } = .ok (list.id, index)) ∧
    ∀ slot ∈ freeSlots list.allocatedSlots, ∃! rank, rank < (freeSlots list.allocatedSlots).length ∧
      allocated db w org { env with rank } = .ok (list.id, slot)

theorem ranksExact (hsound : ∀ r ∈ (db.visible w).list, SlotsCounted r) : RanksExact db w := by
  intro org env hfresh list
  have hanswer : ∀ rank index, (freeSlots list.allocatedSlots)[rank]? = some index →
      allocated db w org { env with rank } = .ok (list.id, index) :=
    fun rank index hrank => allocated_eq { env with rank } hsound hfresh hrank
  obtain ⟨_, _, _, hcounted, _⟩ := getOrCreateStatusList_exec hsound hfresh
  refine ⟨hcounted.free, hanswer, fun slot hslot => ?_⟩
  obtain ⟨rank, hlt, hget⟩ := mem_iff_getElem.mp hslot
  refine ⟨rank, ⟨hlt, hanswer rank slot (List.getElem?_eq_some_iff.mpr ⟨hlt, hget⟩)⟩, fun rank' ⟨hlt', hrank'⟩ => ?_⟩
  -- two ranks with one answer are the same, as no slot is listed twice
  rw [hanswer rank' _ (getElem?_eq_getElem hlt')] at hrank'
  have hslot' : (freeSlots list.allocatedSlots)[rank'] = slot := by
    simpa using hrank'
  exact (nodup_range.filter _).getElem_inj_iff.mp (hslot'.trans hget.symm)

/-! ## Every interleaving -/

theorem issued_coarseSem (c op) (db) : db.issued ⊆ (slotSystem.coarseSem c op db).2.issued := by
  cases op with
  | stmt s => cases s
  | txn orgs =>
    simp only [TxnSystem.coarseSem]
    cases c.2 with
    | undone e => exact List.Subset.refl _
    | committed t es told =>
      simp only [TxnSystem.atomic]
      split
      · exact subset_append_right ..
      · exact List.Subset.refl _
      · exact List.Subset.refl _

theorem atomic_sound {db} (h : SlotsSound db.lists db.issued) (orgs c) :
    SlotsSound (slotSystem.atomic orgs c db).2.lists (slotSystem.atomic orgs c db).2.issued ∧
      ∀ pairs, (slotSystem.atomic orgs c db).1 = .ok pairs → pairs ⊆ (slotSystem.atomic orgs c db).2.issued := by
  cases c with
  | undone e => exact ⟨h, fun _ hok => by cases hok⟩
  | committed t es told =>
    simp only [TxnSystem.atomic]
    cases hrest : (run (slotSystem.lang.step db) (slotSystem.begun orgs t) es).rest with
    | fail | ask => exact ⟨h, fun _ hok => by cases hok⟩
    | ret pairs =>
      have hend := (slotSystem_serial.body (t := t) h trivial).returns hrest
      have htaken := (issueCredentials_disciplined orgs (.begin h)).returns (s := slotSystem.begun orgs t) hrest
      refine ⟨(hend.2 trivial).1, fun pairs' hok x hx => ?_⟩
      cases told with
      | false => cases hok
      | true =>
        cases hok
        refine mem_append_left _ (htaken ▸ ?_)
        exact mem_append_left _ (mem_reverse.mpr hx)

theorem logged_issued {db} {cs t cond} (h : SlotsSound db.lists db.issued)
    (hrun : Trace slotSystem.coarse.step (Meets cond) (Pool.init db) cs t) :
    ∀ orgs pairs, (orgs, .ok pairs) ∈ t.log → pairs ⊆ t.store.issued := by
  refine (System.promised (J := fun db => SlotsSound db.lists db.issued) (R := fun _ pairs db => pairs ⊆ db.issued)
    (C := fun orgs pr db => pr = slotSystem.main orgs ∨ (∃ e, pr = .fail e) ∨ ∃ pairs, pr = .ret pairs ∧ pairs ⊆ db.issued)
    ⟨fun _ _ _ _ => .inl rfl, ?_, ?_, ?_, fun e => e.elim⟩ hrun h).2
  · rintro orgs pairs db (h | ⟨e, h⟩ | ⟨a, h, hsub⟩)
    · cases h
    · cases h
    · cases h
      exact hsub
  · rintro orgs op k c db - hdb (h | ⟨e, h⟩ | ⟨a, h, -⟩)
    · cases h
      obtain ⟨hsound, hanswered⟩ := atomic_sound hdb orgs c.2
      refine ⟨hsound, .inr ?_⟩
      simp only [TxnSystem.coarse, TxnSystem.coarseSem]
      cases hr : (slotSystem.atomic orgs c.2 db).1 with
      | error e => exact .inl ⟨e, rfl⟩
      | ok pairs => exact .inr ⟨pairs, rfl, hanswered pairs hr⟩
    · cases h
    · cases h
  · intro c op db
    have hmono := issued_coarseSem c op db
    refine ⟨fun orgs pr => ?_, fun orgs pairs hsub => List.Subset.trans hsub hmono⟩
    refine Or.imp_right (Or.imp_right ?_)
    rintro ⟨pairs, hret, hsub⟩
    exact ⟨pairs, hret, List.Subset.trans hsub hmono⟩

structure SlotsReserved (p : slotSystem.PoolOf) : Prop where
  issued : p.db.issued.Nodup
  logged : ∀ {orgs pairs}, (orgs, .ok pairs) ∈ p.log → pairs ⊆ p.db.issued
  ofOpen : ∀ {i t s}, p.txns i = some (t, s) → (s.work.taken ++ p.db.issued).Nodup
  apart : ∀ {i j t t' s s'}, i ≠ j → p.txns i = some (t, s) → p.txns j = some (t', s') → s.work.taken.Disjoint s'.work.taken
  returned : ∀ {i t s pairs}, p.txns i = some (t, s) → s.rest = .ret pairs → s.work.taken = pairs.reverse
  counted : ∀ r ∈ p.db.lists.list, (usedSlots r.allocatedSlots : Int) = r.nextSlot
  countedOpen : ∀ {i t s}, p.txns i = some (t, s) → ∀ r ∈ (p.db.visible s.work).list,
    (usedSlots r.allocatedSlots : Int) = r.nextSlot
  ranks : ∀ {i t s}, p.txns i = some (t, s) → RanksExact p.db s.work

/-- Whatever the interleaving of issuances, of the transactions that are open or committed no two
have reserved the same slot, and none has reserved one twice; what a transaction returns is what it
reserved, and what it answers is kept. `next_slot` counts the bits of `allocated_slots`, and a call answers every rank with the
free slot that has it. -/
theorem reserved_slots_unique {db : SlotStore} (h0 : SlotsSound db.lists db.issued)
    (ms : List (TxnMove (List UUID) SlotEnv Empty)) : SlotsReserved (run slotSystem.step (TxnPool.init db) ms) := by
  have htrace : Trace slotSystem.step (slotSystem.AtCommit fun _ _ _ => True) (TxnPool.init db) ms
      (run slotSystem.step (TxnPool.init db) ms) :=
    Trace.run_always (fun p m => .of_forall (fun _ _ _ => trivial) p m) ..
  obtain ⟨hsound, hsessions, cs, hcoarse⟩ := TxnSystem.refines slotSystem_serial htrace (.init db) h0
  generalize run slotSystem.step (TxnPool.init db) ms = p at hsound hsessions hcoarse
  have hwork : ∀ {i t s}, p.txns i = some (t, s) → SlotProgress p.db s.held s.work :=
    fun htxn => hsessions.inv slotSystem_serial hsound htxn
  constructor
  · exact hsound.once
  · exact logged_issued h0 hcoarse _ _
  · intro i t s htxn
    exact (hwork htxn).sound.once
  · intro i j t t' s s' hij htxn htxn' pair hpair hpair'
    -- both would have the lock of the list
    have hlock := hsessions.held htxn _ ((hwork htxn).taken pair hpair)
    have hlock' := hsessions.held htxn' _ ((hwork htxn').taken pair hpair')
    rw [hlock] at hlock'
    exact hij (Option.some.inj hlock')
  · intro i t s pairs htxn hrest
    obtain ⟨q, orgs, k, es, _, _, rfl⟩ := hsessions.txn htxn
    have htaken := (issueCredentials_disciplined orgs (.begin hsound)).returns hrest
    exact htaken.trans (append_nil _)
  · exact fun r hr => (hsound.counted r hr).used
  · exact fun htxn r hr => ((hwork htxn).sound.counted r hr).used
  · exact fun htxn => ranksExact (hwork htxn).sound.counted

/-- Two issuances of one organisation that draw the same rank. -/
def twoIssuances : List (TxnMove (List UUID) SlotEnv Empty) :=
  [.start 0 [1], .start 1 [1], .advance 0 {}, .advance 1 {}] ++
    List.replicate 10 (.advance 0 { id := 7, rank := 5 }) ++ List.replicate 10 (.advance 1 { id := 8, rank := 5 })

theorem reserved_slots_unique_for_two :
    let p := run slotSystem.step (TxnPool.init ⟨.empty, []⟩) twoIssuances
    p.db.issued = [(7, 6), (7, 5)] ∧ SlotsReserved p :=
  ⟨by decide +kernel, reserved_slots_unique SlotsSound.empty _⟩

/-- Some run of whole transactions, each at its commit, ends in the same way. -/
def Serialised (db : SlotStore) (ms : List (TxnMove (List UUID) SlotEnv Empty)) : Prop :=
  ∃ cs, Trace slotSystem.coarse.step (fun _ _ => True) ⟨db, fun _ => none, []⟩ cs
    (run slotSystem.step (TxnPool.init db) ms).coarse

theorem issuances_serialised {db : SlotStore} (h : SlotsSound db.lists db.issued) (ms) : Serialised db ms := by
  obtain ⟨cs, hcs⟩ := (TxnSystem.refines slotSystem_serial
    (.run_always (.of_forall fun _ _ _ => trivial) (.init db) ms) (.init db) h).coarse
  exact ⟨cs, hcs.mono fun _ _ _ => trivial⟩

theorem issuances_serialised_for_two : Serialised ⟨.empty, []⟩ twoIssuances :=
  issuances_serialised SlotsSound.empty _

end Clavex

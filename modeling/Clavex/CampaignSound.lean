import Clavex.AccessReviewSound

/-!
# Completed campaigns

A campaign is activated by one statement, its items are written by others, and it is completed by
a last one. Where rounds do not overlap and the statements in between work, a campaign is
completed only when every assignment it was activated with has an item and all items are decided.
-/

namespace Clavex

open List Function Bool Rows ReviewStore

variable {th : ReviewThreads} {ids : List UUID}

/-! ## Items of a campaign -/

section
variable {s s' : ReviewStore}

def HasItem (s : ReviewStore) (campaignID : UUID) (pair : UUID × UUID) : Prop :=
  ∃ i ∈ s.items.list, i.campaignID = campaignID ∧ i.userID = pair.1 ∧ i.roleID = pair.2

def Itemised (s : ReviewStore) (id : UUID) : Prop := ∀ pair ∈ s.activatedWith id, HasItem s id pair

def AllDecided (s : ReviewStore) (id : UUID) : Prop := ∀ i ∈ s.items.list, i.campaignID = id → i.decision ≠ .pending

structure ItemsOnly (ids : List UUID) (s s' : ReviewStore) : Prop where
  users : s'.users = s.users
  campaigns : s'.campaigns = s.campaigns
  activatedWith : s'.activatedWith = s.activatedWith
  items : ∀ {id pair}, HasItem s id pair → HasItem s' id pair
  pending : ∀ i' ∈ s'.items.list, i'.decision = .pending →
    i'.campaignID ∈ ids ∨ ∃ i ∈ s.items.list, i.campaignID = i'.campaignID ∧ i.decision = .pending

namespace ItemsOnly

theorem of_items (hu : s'.users = s.users) (hc : s'.campaigns = s.campaigns) (ha : s'.activatedWith = s.activatedWith)
    (hi : s'.items = s.items) : ItemsOnly ids s s' := by
  refine ⟨hu, hc, ha, fun h => ?_, fun i hmem hp => .inr ⟨i, ?_, rfl, hp⟩⟩
  · unfold HasItem
    rw [hi]
    exact h
  · rw [hi] at hmem
    exact hmem

theorem of_modify {p f hf} (hp : ∀ i, p i = true → i.decision = .pending)
    (hkeep : ∀ i, (f i).campaignID = i.campaignID ∧ (f i).userID = i.userID ∧ (f i).roleID = i.roleID) :
    ItemsOnly ids s { s with items := s.items.modify p f hf } := by
  refine ⟨rfl, rfl, rfl, ?_, ?_⟩
  · rintro id pair ⟨i, hi, hid, hu, hr⟩
    refine ⟨if p i then f i else i, mem_map_of_mem hi, ?_⟩
    split
    · obtain ⟨h1, h2, h3⟩ := hkeep i
      rw [h1, h2, h3]
      exact ⟨hid, hu, hr⟩
    · exact ⟨hid, hu, hr⟩
  · intro i' hi' hpending
    obtain ⟨i, hi, rfl⟩ := mem_map.mp hi'
    right
    by_cases hsel : p i = true
    · refine ⟨i, hi, ?_, hp i hsel⟩
      rw [if_pos hsel]
      exact (hkeep i).1.symm
    · rw [if_neg hsel] at hpending ⊢
      exact ⟨i, hi, rfl, hpending⟩

theorem autoRevokeItem (id) : ItemsOnly ids s (s.autoRevokeItem id) :=
  of_modify (fun _ h => (of_decide_eq_true h).2) fun _ => ⟨rfl, rfl, rfl⟩

theorem decideItem (token d comment) : ItemsOnly ids s (s.decideItem token d comment).2 :=
  of_modify (fun _ h => (of_decide_eq_true h).2) fun _ => ⟨rfl, rfl, rfl⟩

end ItemsOnly

theorem Itemised.mono (h : ItemsOnly ids s s') {id} (hc : Itemised s id) : Itemised s' id := by
  intro pair hpair
  rw [h.activatedWith] at hpair
  exact h.items (hc pair hpair)

theorem AllDecided.mono (h : ItemsOnly ids s s') {id} (hid : id ∉ ids) (hd : AllDecided s id) : AllDecided s' id := by
  intro i' hi' hcamp hpending
  rcases h.pending i' hi' hpending with hmem | ⟨i, hi, heq, hp⟩
  · exact hid (hcamp ▸ hmem)
  · exact hd i hi (heq.trans hcamp) hp

theorem insertItem_new {i} (hid : i.id ∉ s.items.list.map AccessReviewItem.id)
    (htoken : ∀ j ∈ s.items.list, j.token ≠ i.token) : (s.insertItem i).items.list = i :: s.items.list := by
  have hany : (s.items.list.any fun j => decide (j.token = i.token)) = false := by
    rw [any_eq_false]
    intro j hj
    simp only [decide_eq_true_eq]
    exact htoken j hj
  simp only [insertItem, hany, push, dif_neg hid]
  rfl

end

/-! ## Where a round is -/

def ReviewPhase.todo : ReviewPhase → List AccessReviewCampaign
  | .generating cs => cs
  | .choosing c _ cs | .drawing c _ _ _ cs | .inserting c _ _ _ cs _ => c :: cs
  | _ => []

def Progress (s : ReviewStore) : ReviewPhase → Prop
  | .choosing c pairs _ => pairs = s.assignmentsOf c.orgID ∧ pairs ≠ []
  | .drawing c _ pair pairs _
  | .inserting c _ pair pairs _ _ => ∀ p ∈ s.assignmentsOf c.orgID, p ∈ pair :: pairs ∨ HasItem s c.id p
  | _ => True

structure CampaignInv (s : ReviewStore) (φ : ReviewPhase) : Prop where
  users : ∀ u ∈ s.users.list, u.id ≠ 0
  active : ∀ c ∈ s.campaigns.list, c.status = .active → Itemised s c.id ∨ c.id ∈ φ.todo.map (·.id)
  completed : ∀ c ∈ s.campaigns.list, c.status = .completed → Itemised s c.id ∧ AllDecided s c.id ∧ c.id ∉ φ.todo.map (·.id)
  todo : ∀ c ∈ φ.todo, s.activatedWith c.id = s.assignmentsOf c.orgID
  progress : Progress s φ

namespace CampaignInv

variable {s s' : ReviewStore} {φ ψ : ReviewPhase}

theorem go (h : CampaignInv s φ) (hsub : ∀ c ∈ ψ.todo, c ∈ φ.todo)
    (hcov : ∀ c ∈ φ.todo, c ∈ ψ.todo ∨ ∀ p ∈ s.assignmentsOf c.orgID, HasItem s c.id p) (hp : Progress s ψ) : CampaignInv s ψ where
  users := h.users
  active := by
    intro c hc hact
    rcases h.active c hc hact with hcov' | hmem
    · exact .inl hcov'
    obtain ⟨d, hd, hdc⟩ := mem_map.mp hmem
    rcases hcov d hd with hin | hall
    · exact .inr (hdc ▸ mem_map_of_mem hin)
    · left
      intro pair hpair
      rw [← hdc, h.todo d hd] at hpair
      exact hdc ▸ hall pair hpair
  completed := by
    intro c hc hcomp
    obtain ⟨hcov', hdec, hnot⟩ := h.completed c hc hcomp
    refine ⟨hcov', hdec, fun hmem => hnot ?_⟩
    obtain ⟨d, hd, hdc⟩ := mem_map.mp hmem
    exact hdc ▸ mem_map_of_mem (hsub d hd)
  todo c hc := h.todo c (hsub c hc)
  progress := hp

theorem idle (h : CampaignInv s φ) (hφ : φ.todo = []) (hψ : ψ.todo = []) (hp : Progress s ψ) : CampaignInv s ψ :=
  h.go (by simp [hψ]) (by simp [hφ]) hp

theorem mono (h : CampaignInv s φ) (hs : ItemsOnly (φ.todo.map (·.id)) s s')
    (hroles : ∀ c ∈ φ.todo, s'.assignmentsOf c.orgID = s.assignmentsOf c.orgID) : CampaignInv s' φ where
  users := by rw [hs.users]; exact h.users
  active := by
    intro c hc hact
    rw [hs.campaigns] at hc
    exact (h.active c hc hact).imp_left (Itemised.mono hs)
  completed := by
    intro c hc hcomp
    rw [hs.campaigns] at hc
    obtain ⟨hcov, hdec, hnot⟩ := h.completed c hc hcomp
    exact ⟨hcov.mono hs, hdec.mono hs hnot, hnot⟩
  todo := by
    intro c hc
    rw [hs.activatedWith, hroles c hc]
    exact h.todo c hc
  progress := by
    have hp := h.progress
    cases φ with
    | choosing c pairs cs =>
      simp only [Progress, hroles c (mem_cons_self ..)] at hp ⊢
      exact hp
    | drawing c reviewerID pair pairs cs | inserting c reviewerID pair pairs cs token =>
      simp only [Progress, hroles c (mem_cons_self ..)] at hp ⊢
      exact fun p hmem => (hp p hmem).imp_right hs.items
    | _ => trivial

theorem campaigns (h : CampaignInv s φ) {campaigns}
    (hc : ∀ c ∈ campaigns.list, c ∈ s.campaigns.list ∨ (c.status ≠ .active ∧ c.status ≠ .completed)) :
    CampaignInv { s with campaigns } φ where
  users := h.users
  active := by
    intro c hmem hact
    rcases hc c hmem with hold | ⟨hnot, _⟩
    · exact h.active c hold hact
    · exact absurd hact hnot
  completed := by
    intro c hmem hcomp
    rcases hc c hmem with hold | ⟨_, hnot⟩
    · exact h.completed c hold hcomp
    · exact absurd hcomp hnot
  todo := h.todo
  progress := h.progress

end CampaignInv

/-! ## Statements of a round -/

def GenerationWorks (s : ReviewStore) (env : ReviewEnv) (_ : ReviewReq) : ReviewOp → Prop
  | .activateDueCampaigns => env.fate ≠ .lost
  | .listAssignments _ | .listUsers _ | .randomToken => env.fate = .done
  | .createItem _ _ _ token =>
    env.fate = .done ∧ env.id ∉ s.items.list.map AccessReviewItem.id ∧ ∀ j ∈ s.items.list, j.token ≠ token
  | _ => True

section
variable {s : ReviewStore} {env : ReviewEnv}

theorem sem_done (h : env.fate = .done) (op) : reviewSem env op s = reviewCarryOut env op s := by
  simp only [reviewSem, h]

variable {op : ReviewOp} {c d : AccessReviewCampaign} {token : String} {φ : ReviewPhase}

theorem sem_store {I : ReviewStore → Prop} (h : I s) (hdone : I (reviewCarryOut env op s).2) :
    I (reviewSem env op s).2 := by
  unfold reviewSem
  split
  · exact hdone
  · exact h
  · exact hdone

theorem mem_activateDue (h : c ∈ s.activateDue.2.campaigns.list) :
    (c ∈ s.campaigns.list ∧ s.due c = false) ∨ ∃ d ∈ s.campaigns.list, s.due d = true ∧ c = setStatus .active d := by
  obtain ⟨d, hd, rfl⟩ := mem_map.mp h
  by_cases hdue : s.due d = true
  · rw [if_pos hdue]
    exact .inr ⟨d, hd, hdue, rfl⟩
  · rw [if_neg hdue]
    exact .inl ⟨hd, eq_false_iff.mpr hdue⟩

theorem activatedWith_due (hd : d ∈ s.campaigns.list) (hdue : s.due d = true) :
    s.activateDue.2.activatedWith d.id = s.assignmentsOf d.orgID := by
  have hfind : (s.campaigns.find fun c => decide (c.id = d.id) && s.due c) = some d := by
    refine find_key hd ?_ fun c hc => ?_
    · rw [hdue, Bool.and_true]
      exact decide_eq_true rfl
    · exact of_decide_eq_true (Bool.and_eq_true _ _ ▸ hc).1
  simp only [activateDue, hfind]

theorem activatedWith_not_due (hd : d ∈ s.campaigns.list) (hdue : s.due d = false) :
    s.activateDue.2.activatedWith d.id = s.activatedWith d.id := by
  have hfind : (s.campaigns.find fun c => decide (c.id = d.id) && s.due c) = none := by
    refine find?_eq_none.mpr fun c hc hsel => ?_
    obtain ⟨hid, hcdue⟩ := and_eq_true _ _ ▸ hsel
    rw [eq_of_key hc hd (of_decide_eq_true hid), hdue] at hcdue
    cases hcdue
  simp only [activateDue, hfind]

theorem CampaignInv.activate (h : CampaignInv s .opening) : CampaignInv s.activateDue.2 (.generating s.activateDue.1) where
  users := h.users
  active := by
    intro c hc hact
    rcases mem_activateDue hc with ⟨hold, hdue⟩ | ⟨d, hd, hdue, rfl⟩
    · rcases h.active c hold hact with hcov | hmem
      · left
        intro pair hpair
        rw [activatedWith_not_due hold hdue] at hpair
        exact hcov pair hpair
      · cases hmem
    · right
      exact mem_map_of_mem (mem_map_of_mem (mem_filter.mpr ⟨hd, hdue⟩))
  completed := by
    intro c hc hcomp
    rcases mem_activateDue hc with ⟨hold, hdue⟩ | ⟨d, hd, hdue, rfl⟩
    · obtain ⟨hcov, hdec, _⟩ := h.completed c hold hcomp
      refine ⟨fun pair hpair => ?_, hdec, fun hmem => ?_⟩
      · rw [activatedWith_not_due hold hdue] at hpair
        exact hcov pair hpair
      · -- a campaign in the list was due before
        obtain ⟨e, he, hec⟩ := mem_map.mp hmem
        obtain ⟨d, hd, rfl⟩ := mem_map.mp he
        obtain ⟨hd, hddue⟩ := mem_filter.mp hd
        rw [eq_of_key hd hold hec, hdue] at hddue
        cases hddue
    · cases hcomp
  todo := by
    intro c hc
    obtain ⟨d, hd, rfl⟩ := mem_map.mp hc
    obtain ⟨hd, hdue⟩ := mem_filter.mp hd
    show s.activateDue.2.activatedWith d.id = s.assignmentsOf d.orgID
    exact activatedWith_due hd hdue
  progress := trivial

theorem defaultReviewer_isSome (hu : ∀ u ∈ s.users.list, u.id ≠ 0) {orgID} (h : s.assignmentsOf orgID ≠ []) :
    ∃ reviewerID, defaultReviewer (s.users.list.filter fun u => decide (u.orgID = orgID)) = some reviewerID := by
  obtain ⟨pair, hpair⟩ := exists_mem_of_ne_nil _ h
  obtain ⟨r, hr, _⟩ := mem_map.mp hpair
  obtain ⟨u, hmem, hcond⟩ := any_eq_true.mp (mem_filter.mp hr).2
  obtain ⟨_, horg, hactive⟩ := of_decide_eq_true hcond
  have hin : u ∈ s.users.list.filter fun u => decide (u.orgID = orgID) := mem_filter.mpr ⟨hmem, decide_eq_true horg⟩
  unfold defaultReviewer
  cases hfind : (s.users.list.filter fun u => decide (u.orgID = orgID)).find? fun u => u.isActive with
  | none => exact absurd hactive (find?_eq_none.mp hfind u hin)
  | some v =>
    have hv : v.id ≠ 0 := hu v (mem_filter.mp (mem_of_find?_eq_some hfind)).1
    exact ⟨v.id, if_neg hv⟩

theorem CampaignInv.insert {reviewerID pair pairs cs}
    (h : CampaignInv s (.inserting c reviewerID pair pairs cs token))
    (hid : env.id ∉ s.items.list.map AccessReviewItem.id) (htoken : ∀ j ∈ s.items.list, j.token ≠ token) :
    CampaignInv (s.insertItem (newItem env.id c pair reviewerID token)) (filling c reviewerID cs pairs) := by
  have hlist : (s.insertItem (newItem env.id c pair reviewerID token)).items.list =
      newItem env.id c pair reviewerID token :: s.items.list := insertItem_new hid htoken
  have hsame : ∃ items, s.insertItem (newItem env.id c pair reviewerID token) = { s with items } := by
    simp only [insertItem]
    split
    · exact ⟨s.items, rfl⟩
    · split
      · exact ⟨s.items, rfl⟩
      · exact ⟨_, rfl⟩
  obtain ⟨items, hitems⟩ := hsame
  rw [hitems] at hlist ⊢
  have hnew : HasItem { s with items } c.id pair := ⟨_, hlist ▸ mem_cons_self .., rfl, rfl, rfl⟩
  have hmono : CampaignInv { s with items } (.inserting c reviewerID pair pairs cs token) := by
    refine h.mono ⟨rfl, rfl, rfl, ?_, ?_⟩ fun _ _ => rfl
    · rintro id p ⟨i, hi, hp⟩
      exact ⟨i, hlist ▸ mem_cons_of_mem _ hi, hp⟩
    · intro i hi hpending
      rcases mem_cons.mp (hlist ▸ hi) with rfl | hold
      · exact .inl (mem_cons_self ..)
      · exact .inr ⟨i, hold, rfl, hpending⟩
  -- the pair at hand has its item now
  have hrest : ∀ p ∈ assignmentsOf { s with items } c.orgID, p ∈ pairs ∨ HasItem { s with items } c.id p := by
    intro p hp
    rcases hmono.progress p hp with hmem | hitem
    · rcases mem_cons.mp hmem with rfl | hmem
      · exact .inr hnew
      · exact .inl hmem
    · exact .inr hitem
  cases pairs with
  | nil =>
    refine hmono.go (fun d hd => mem_cons_of_mem _ hd) (fun d hd => ?_) trivial
    rcases mem_cons.mp hd with rfl | hd
    · exact .inr fun p hp => (hrest p hp).resolve_left not_mem_nil
    · exact .inl hd
  | cons next pairs => exact hmono.go (fun d hd => hd) (fun d hd => .inl hd) hrest

theorem CampaignInv.complete (h : CampaignInv s (.revoking [])) : CampaignInv s.completeCampaigns .ended := by
  have hcases : ∀ {c}, c ∈ s.completeCampaigns.campaigns.list → c ∈ s.campaigns.list ∨
      ∃ d ∈ s.campaigns.list, d.status = .active ∧ s.undecided d = false ∧ c = setStatus .completed d := by
    intro c hc
    obtain ⟨d, hd, rfl⟩ := mem_map.mp hc
    split
    · rename_i hsel
      simp only [Bool.and_eq_true, decide_eq_true_eq, Bool.not_eq_eq_eq_not, Bool.not_true] at hsel
      exact .inr ⟨d, hd, hsel.1, hsel.2, rfl⟩
    · exact .inl hd
  refine ⟨h.users, fun c hc hact => ?_, fun c hc hcomp => ?_, nofun, trivial⟩
  · rcases hcases hc with hold | ⟨d, _, _, _, rfl⟩
    · exact h.active c hold hact
    · cases hact
  · rcases hcases hc with hold | ⟨d, hd, hact, hundecided, rfl⟩
    · exact h.completed c hold hcomp
    · refine ⟨(h.active d hd hact).resolve_right not_mem_nil, fun i hi hcamp hpending => ?_, not_mem_nil⟩
      have hnot := any_eq_false.mp hundecided i hi
      simp only [decide_eq_true_eq] at hnot
      exact hnot ⟨hcamp, hpending⟩

theorem CampaignInv.step (h : CampaignInv s φ) {f} (hs : ReviewStep .round φ op f)
    (hok : GenerationWorks s env .round op) : CampaignInv (reviewSem env op s).2 (f (reviewSem env op s).1) := by
  cases hs with
  | activate =>
    cases hfate : env.fate with
    | done =>
      simp only [reviewSem, hfate]
      exact h.activate
    | failed =>
      simp only [reviewSem, hfate]
      exact h.idle rfl rfl trivial
    | lost => exact absurd hfate hok
  | assignments c cs =>
    rw [sem_done hok]
    simp only [reviewCarryOut]
    cases hpairs : s.assignmentsOf c.orgID with
    | nil =>
      refine h.go (fun d hd => mem_cons_of_mem _ hd) (fun d hd => ?_) trivial
      rcases mem_cons.mp hd with rfl | hd
      · right
        simp [hpairs]
      · exact .inl hd
    | cons pair pairs => exact h.go (fun d hd => hd) (fun d hd => .inl hd) ⟨hpairs.symm, cons_ne_nil _ _⟩
  | users c pairs cs =>
    rw [sem_done hok]
    simp only [reviewCarryOut, Option.getD_some]
    obtain ⟨hpairs, hne⟩ := h.progress
    obtain ⟨reviewerID, hreviewer⟩ := defaultReviewer_isSome h.users (hpairs ▸ hne)
    rw [hreviewer]
    cases pairs with
    | nil => exact absurd rfl hne
    | cons pair pairs =>
      refine h.go (fun d hd => hd) (fun d hd => .inl hd) fun p hp => .inl ?_
      rw [hpairs]
      exact hp
  | draw c reviewerID pair pairs cs =>
    rw [sem_done hok]
    exact h.go (fun d hd => hd) (fun d hd => .inl hd) h.progress
  | insert c reviewerID pair pairs cs token =>
    obtain ⟨hdone, hid, htoken⟩ := hok
    rw [sem_done hdone]
    exact h.insert hid htoken
  | expire =>
    refine sem_store (I := fun s => CampaignInv s _) ?_ ?_
    · exact h.idle rfl rfl trivial
    · exact h.idle rfl rfl trivial
  | unassign item items =>
    have hnext : CampaignInv s (if (reviewSem env (.unassignRole item) s).1 then .marking item items else .revoking items) := by
      split <;> exact h.idle rfl rfl trivial
    refine sem_store (I := fun t => CampaignInv t _) hnext (hnext.mono (.of_items rfl rfl rfl rfl) ?_)
    split <;> simp [ReviewPhase.todo]
  | mark item items =>
    have hnext : CampaignInv s (.revoking items) := h.idle rfl rfl trivial
    exact sem_store (I := fun s => CampaignInv s _) hnext (hnext.mono (.autoRevokeItem item.id) (by simp [ReviewPhase.todo]))
  | complete =>
    exact sem_store (I := fun s => CampaignInv s _) (h.idle rfl rfl trivial) h.complete

theorem CampaignInv.decided {φ'} (h : CampaignInv s φ) {decision comment f}
    (hs : ReviewStep (.decide token decision comment) φ' op f) : CampaignInv (reviewSem env op s).2 φ := by
  cases hs with
  | look => exact sem_store (I := fun s => CampaignInv s _) h h
  | decide token decision comment d hd =>
    exact sem_store (I := fun s => CampaignInv s _) h (h.mono (.decideItem token d comment) fun _ _ => rfl)

end

/-! ## Whole runs -/

inductive RoundAt (th : ReviewThreads) : ReviewPhase → Prop
  | idle : (∀ i ψ, th i ≠ some (.round, ψ)) → RoundAt th .ended
  | going {φ} (j : Nat) : th j = some (.round, φ) → (∀ i ψ, th i = some (.round, ψ) → i = j) → RoundAt th φ

namespace RoundAt

variable {φ φ' ψ : ReviewPhase} {i : Nat} {q : ReviewReq}

theorem step (h : RoundAt th φ) (hi : th i = some (.round, φ')) :
    φ' = φ ∧ RoundAt (update th i (some (.round, ψ))) ψ := by
  cases h with
  | idle hno => exact absurd hi (hno i φ')
  | going j hj hone =>
    obtain rfl := hone i φ' hi
    rw [hj] at hi
    refine ⟨by cases hi; rfl, .going i (update_self ..) fun k ψ' hk => ?_⟩
    rcases Once.update_cases hk with ⟨rfl, _⟩ | ⟨_, hk⟩
    · rfl
    · exact hone k ψ' hk

theorem apart (h : RoundAt th φ) (hi : ∀ ψ, th i ≠ some (.round, ψ)) {o} (ho : ∀ ψ, o ≠ some (.round, ψ)) :
    RoundAt (update th i o) φ := by
  have hback : ∀ {k ψ}, update th i o k = some (.round, ψ) → th k = some (.round, ψ) := by
    intro k ψ hk
    rcases Once.update_cases hk with ⟨_, hx⟩ | ⟨_, hk⟩
    · exact absurd hx (ho ψ)
    · exact hk
  cases h with
  | idle hno => exact .idle fun k ψ hk => hno k ψ (hback hk)
  | going j hj hone =>
    have hji : j ≠ i := by
      rintro rfl
      exact hi _ hj
    refine .going j ?_ fun k ψ hk => hone k ψ (hback hk)
    rw [update_of_ne hji]
    exact hj

theorem start (h : RoundAt th φ) (hno : ∀ i ψ, th i ≠ some (.round, ψ)) :
    φ = .ended ∧ RoundAt (update th i (some (.round, ψ))) ψ := by
  cases h with
  | going j hj _ => exact absurd hj (hno j _)
  | idle _ =>
    refine ⟨rfl, .going i (update_self ..) fun k ψ' hk => ?_⟩
    rcases Once.update_cases hk with ⟨rfl, _⟩ | ⟨_, hk⟩
    · rfl
    · exact absurd hk (hno k ψ')

theorem finish (h : RoundAt th φ) (hi : th i = some (.round, .ended)) : φ = .ended ∧ RoundAt (update th i none) .ended := by
  cases h with
  | idle hno => exact absurd hi (hno i _)
  | going j hj hone =>
    obtain rfl := hone i _ hi
    rw [hj] at hi
    refine ⟨by cases hi; rfl, .idle fun k ψ hk => ?_⟩
    obtain ⟨hne, hk⟩ := Once.update_none hk
    exact hne (hone k ψ hk)

end RoundAt

def NoRound (p : ReviewPool) : Prop := ∀ i pr, p.calls i ≠ some (.round, pr)

theorem NoRound.threads {p} (h : NoRound p) (ht : Tracks reviewProtocol ReviewDone p.calls th) :
    ∀ i ψ, th i ≠ some (.round, ψ) := by
  intro i ψ hi
  have hcall := ht i
  cases hc : p.calls i with
  | none =>
    rw [hc, hi] at hcall
    cases hcall
  | some call =>
    obtain ⟨q, pr⟩ := call
    rw [hc] at hcall
    obtain ⟨φ, hφ, _⟩ := hcall
    rw [hi] at hφ
    cases hφ
    exact h i pr hc

def RoundsApart (p : ReviewPool) : ReviewMove → Prop
  | .start _ .round => NoRound p
  | .start _ (.decide ..) => True
  | .advance i env => Meets GenerationWorks p (.advance i env : ReviewMove)
  | .other (.putUser _) | .other (.assignRole _) | .other (.removeRole ..) => NoRound p
  | .other _ => True

abbrev ReviewRunInv (s : ReviewStore) (th : ReviewThreads) : Prop := ∃ φ, RoundAt th φ ∧ CampaignInv s φ

theorem CampaignInv.between {s} (h : CampaignInv s .ended) {users userRoles} (hu : ∀ u ∈ users.list, u.id ≠ 0) :
    CampaignInv { s with users, userRoles } .ended :=
  ⟨hu, h.active, h.completed, nofun, trivial⟩

theorem RoundAt.ended {φ} (h : RoundAt th φ) (hno : ∀ i ψ, th i ≠ some (.round, ψ)) : φ = .ended := by
  cases h with
  | idle _ => rfl
  | going j hj _ => exact absurd hj (hno j _)

theorem reviewRunInv_other {p} (e) (hok : RoundsApart p (.other e)) (ht : Tracks reviewProtocol ReviewDone p.calls th)
    (h : ReviewRunInv p.store th) : ReviewRunInv (reviewOther e p.store) th := by
  obtain ⟨φ, hat, hinv⟩ := h
  cases e with
  | tick d => exact ⟨φ, hat, hinv.users, hinv.active, hinv.completed, hinv.todo, by cases φ <;> exact hinv.progress⟩
  | putUser u =>
    obtain rfl := hat.ended (hok.threads ht)
    refine ⟨_, hat, ?_⟩
    simp only [reviewOther]
    split
    · exact hinv
    rename_i hu
    refine hinv.between fun v hv => ?_
    rcases mem_set.mp hv with rfl | ⟨hv, _⟩
    · exact hu
    · exact hinv.users v hv
  | assignRole r | removeRole userID roleID =>
    obtain rfl := hat.ended (hok.threads ht)
    exact ⟨_, hat, hinv.between hinv.users⟩
  | createCampaign c =>
    refine ⟨φ, hat, ?_⟩
    simp only [reviewOther]
    split
    · exact hinv
    rename_i campaigns hpush
    refine hinv.campaigns fun d hd => ?_
    rw [push_some hpush] at hd
    rcases mem_cons.mp hd with rfl | hd
    · exact .inr (by simp)
    · exact .inl hd
  | cancelCampaign id =>
    refine ⟨φ, hat, hinv.campaigns fun d hd => ?_⟩
    obtain ⟨c, hc, rfl⟩ := mem_map.mp hd
    split
    · exact .inr (by simp [setStatus])
    · exact .inl hc

theorem reviewRunInv_kept :
    KeptIf reviewSystem reviewProtocol (fun _ => .opening) ReviewDone RoundsApart fun s th _ => ReviewRunInv s th where
  start := by
    rintro p th i q hok ht ⟨φ, hat, hinv⟩ hi
    cases q with
    | round =>
      obtain ⟨rfl, hat'⟩ := hat.start (hok.threads ht)
      exact ⟨_, hat', hinv.idle rfl rfl trivial⟩
    | decide token decision comment => exact ⟨φ, hat.apart (fun ψ h => by rw [hi] at h; cases h) nofun, hinv⟩
  step := by
    rintro p th i q φ op f env hok hnext ⟨φ', hat, hinv⟩ hi hs
    simp only [RoundsApart, Meets, hnext] at hok
    cases q with
    | round =>
      obtain ⟨rfl, hat'⟩ := hat.step hi
      exact ⟨_, hat', hinv.step hs hok⟩
    | decide token decision comment => exact ⟨φ', hat.apart (fun ψ h => by rw [hi] at h; cases h) nofun, hinv.decided hs⟩
  finish := by
    rintro s th log i q φ r ⟨φ', hat, hinv⟩ hi hdone
    cases q with
    | round =>
      obtain rfl : φ = .ended := hdone
      obtain ⟨rfl, hat'⟩ := hat.finish hi
      exact ⟨_, hat', hinv⟩
    | decide token decision comment => exact ⟨φ', hat.apart (fun ψ h => by rw [hi] at h; cases h) nofun, hinv⟩
  other e hok ht h := reviewRunInv_other e hok ht h

/-- A completed campaign has an item for every assignment of its activation, and its items are decided. -/
theorem completed_campaign_reviewed {s : ReviewStore} {ms : List ReviewMove} {t : ReviewPool}
    (hs : ∀ c ∈ s.campaigns.list, c.status = .pending ∨ c.status = .cancelled) (hu : ∀ u ∈ s.users.list, u.id ≠ 0)
    (h : Trace reviewSystem.step RoundsApart (Pool.init s) ms t) {c : AccessReviewCampaign}
    (hc : c ∈ t.store.campaigns.list) (hcomp : c.status = .completed) :
    (∀ pair ∈ t.store.activatedWith c.id, ∃ i ∈ t.store.items.list,
      i.campaignID = c.id ∧ i.userID = pair.1 ∧ i.roleID = pair.2) ∧
    ∀ i ∈ t.store.items.list, i.campaignID = c.id → i.decision ≠ .pending := by
  have h0 : CampaignInv s .ended := by
    refine ⟨hu, fun c hc hact => ?_, fun c hc hcomp => ?_, nofun, trivial⟩
    · rcases hs c hc with hp | hp <;> rw [hp] at hact <;> cases hact
    · rcases hs c hc with hp | hp <;> rw [hp] at hcomp <;> cases hcomp
  have hidle : Tracks reviewProtocol ReviewDone (Pool.init s).calls fun _ => none := fun _ => rfl
  obtain ⟨_, _, φ, _, hinv⟩ := System.inv_if reviewMain_follows reviewRunInv_kept h hidle ⟨.ended, .idle nofun, h0⟩
  obtain ⟨hcov, hdec, _⟩ := hinv.completed c hc hcomp
  exact ⟨hcov, hdec⟩

/-! ## Rounds that generate all items and rounds that do not -/

instance (s : ReviewStore) (env : ReviewEnv) (q : ReviewReq) : (op : ReviewOp) → Decidable (GenerationWorks s env q op)
  | .activateDueCampaigns => inferInstanceAs (Decidable (env.fate ≠ .lost))
  | .listAssignments _ | .listUsers _ | .randomToken => inferInstanceAs (Decidable (env.fate = .done))
  | .createItem _ _ _ token =>
    inferInstanceAs (Decidable (env.fate = .done ∧ env.id ∉ s.items.list.map AccessReviewItem.id ∧
      ∀ j ∈ s.items.list, j.token ≠ token))
  | .listExpiredPendingItems | .unassignRole _ | .autoRevokeItem _ | .completeCampaigns | .getItemByToken _
  | .decideItem .. => .isTrue trivial

def dueReview : ReviewStore where
  now := 5
  users := Rows.empty.set { id := 2, orgID := 1, email := "ada@example.com" }
  userRoles := (Rows.empty.set ⟨2, 3⟩).set ⟨2, 4⟩
  campaigns := Rows.empty.set ⟨1, 1, .pending, 0, 4, true⟩
  items := .empty
  activatedWith := fun _ => []
  rolesTaken := []

def works (i : Nat) (id : UUID) (token : String) : ReviewMove := .advance i ⟨.done, id, token⟩

def dueRun (ms : List ReviewMove) : ReviewPool := run reviewSystem.step (Pool.init dueReview) ms

def fullRound : List ReviewMove :=
  [(0, ""), (0, ""), (0, ""), (0, "a"), (1, ""), (0, "b"), (2, ""), (0, ""), (0, ""), (0, ""), (0, ""), (0, ""), (0, "")].map
    fun e => works 0 e.1 e.2

theorem completed_campaign_reviewed_in_one_round :
    (dueRun (.start 0 .round :: fullRound)).store.activatedWith 1 = [(2, 4), (2, 3)] ∧
    ⟨1, 1, .completed, 0, 4, true⟩ ∈ (dueRun (.start 0 .round :: fullRound)).store.campaigns.list ∧
    ∀ i ∈ (dueRun (.start 0 .round :: fullRound)).store.items.list, i.campaignID = 1 → i.decision ≠ .pending := by
  have hcomp : ⟨1, 1, .completed, 0, 4, true⟩ ∈ (dueRun (.start 0 .round :: fullRound)).store.campaigns.list := by
    decide +kernel
  refine ⟨by decide +kernel, hcomp, ?_⟩
  have hsteps : Trace reviewSystem.step (Meets GenerationWorks) (reviewSystem.step (Pool.init dueReview) (.start 0 .round))
      fullRound (dueRun (.start 0 .round :: fullRound)) := Trace.of_checkRun (by decide +kernel)
  have hapart : Trace reviewSystem.step RoundsApart (reviewSystem.step (Pool.init dueReview) (.start 0 .round)) fullRound
      (dueRun (.start 0 .round :: fullRound)) := by
    refine hsteps.mem.mono fun p m hm => ?_
    obtain ⟨e, _, rfl⟩ := mem_map.mp hm.2
    exact hm.1
  have hstart : NoRound (Pool.init dueReview) := fun _ _ h => by cases h
  have hrun : Trace reviewSystem.step RoundsApart (Pool.init dueReview) (.start 0 .round :: fullRound)
      (dueRun (.start 0 .round :: fullRound)) := .cons hstart hapart
  exact (completed_campaign_reviewed (by decide) (by decide) hrun hcomp rfl).2

/-- A second worker completes the campaign that the first one has just activated; and the insert of
an item fails, and the same round goes on to complete the campaign. -/
theorem campaign_completed_without_items :
    (let t := dueRun [.start 0 .round, works 0 0 "", .start 1 .round, works 1 0 "", works 1 0 "", works 1 0 ""]
    t.store.activatedWith 1 = [(2, 4), (2, 3)] ∧ t.store.items.list = [] ∧
      t.store.campaigns.list.map AccessReviewCampaign.status = [.completed]) ∧
    (let t := dueRun [.start 0 .round, works 0 0 "", works 0 0 "", works 0 0 "", works 0 0 "a", .advance 0 ⟨.failed, 1, ""⟩,
      works 0 0 "", works 0 0 ""]
    t.store.activatedWith 1 = [(2, 4), (2, 3)] ∧ t.store.items.list = [] ∧
      t.store.campaigns.list.map AccessReviewCampaign.status = [.completed]) := by
  decide +kernel

end Clavex

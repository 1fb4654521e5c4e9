import Clavex.AccessReview

/-!
# Roles taken away

The phases of a round, and what holds of the items a round takes roles for. A worker lists an
item while it is pending and its campaign has ended. If decisions come before the end of their
campaign only, nobody decides the item after that, and it ends as `auto_revoked`.
-/

namespace Clavex

open List Function Prog ReviewStore

/-! ## Phases of a round -/

inductive ReviewPhase where
  | opening
  | generating (cs : List AccessReviewCampaign)
  | choosing (c : AccessReviewCampaign) (pairs : List (UUID × UUID)) (cs : List AccessReviewCampaign)
  | drawing (c : AccessReviewCampaign) (reviewerID : UUID) (pair : UUID × UUID) (pairs : List (UUID × UUID))
      (cs : List AccessReviewCampaign)
  | inserting (c : AccessReviewCampaign) (reviewerID : UUID) (pair : UUID × UUID) (pairs : List (UUID × UUID))
      (cs : List AccessReviewCampaign) (token : String)
  | revoking (items : List AccessReviewItem)
  | marking (item : AccessReviewItem) (items : List AccessReviewItem)
  | ended

variable (c : AccessReviewCampaign)

def filling (reviewerID : UUID) (cs : List AccessReviewCampaign) : List (UUID × UUID) → ReviewPhase
  | [] => .generating cs
  | pair :: pairs => .drawing c reviewerID pair pairs cs

def afterAssignments (cs : List AccessReviewCampaign) : Option (List (UUID × UUID)) → ReviewPhase
  | some (pair :: pairs) => .choosing c (pair :: pairs) cs
  | some [] | none => .generating cs

def afterUsers (pairs : List (UUID × UUID)) (cs : List AccessReviewCampaign) : Option UUID → ReviewPhase
  | none => .generating cs
  | some reviewerID => filling c reviewerID cs pairs

def afterToken (reviewerID : UUID) (pair : UUID × UUID) (pairs : List (UUID × UUID))
    (cs : List AccessReviewCampaign) : Option String → ReviewPhase
  | none => .generating cs
  | some token => .inserting c reviewerID pair pairs cs token

inductive ReviewStep : ReviewReq → ReviewPhase → (op : ReviewOp) → (op.Resp → ReviewPhase) → Prop
  | activate : ReviewStep .round .opening .activateDueCampaigns fun r => .generating (r.getD [])
  | assignments (c : AccessReviewCampaign) (cs : List AccessReviewCampaign) :
      ReviewStep .round (.generating (c :: cs)) (.listAssignments c.orgID) (afterAssignments c cs)
  | users (c : AccessReviewCampaign) (pairs : List (UUID × UUID)) (cs : List AccessReviewCampaign) :
      ReviewStep .round (.choosing c pairs cs) (.listUsers c.orgID) fun r => afterUsers c pairs cs (defaultReviewer (r.getD []))
  | draw (c : AccessReviewCampaign) (reviewerID : UUID) (pair : UUID × UUID) (pairs : List (UUID × UUID))
      (cs : List AccessReviewCampaign) :
      ReviewStep .round (.drawing c reviewerID pair pairs cs) .randomToken (afterToken c reviewerID pair pairs cs)
  | insert (c : AccessReviewCampaign) (reviewerID : UUID) (pair : UUID × UUID) (pairs : List (UUID × UUID))
      (cs : List AccessReviewCampaign) (token : String) :
      ReviewStep .round (.inserting c reviewerID pair pairs cs token) (.createItem c pair reviewerID token) fun ok =>
        if ok then filling c reviewerID cs pairs else .generating cs
  | expire : ReviewStep .round (.generating []) .listExpiredPendingItems fun r => .revoking (r.getD [])
  | unassign (item : AccessReviewItem) (items : List AccessReviewItem) :
      ReviewStep .round (.revoking (item :: items)) (.unassignRole item) fun ok =>
        if ok then .marking item items else .revoking items
  | mark (item : AccessReviewItem) (items : List AccessReviewItem) :
      ReviewStep .round (.marking item items) (.autoRevokeItem item.id) fun _ => .revoking items
  | complete : ReviewStep .round (.revoking []) .completeCampaigns fun _ => .ended
  | look (token decision comment : String) :
      ReviewStep (.decide token decision comment) .opening (.getItemByToken token) fun _ => .opening
  | decide (token decision comment : String) (d : ReviewDecision) (hd : parseDecision decision = some d) :
      ReviewStep (.decide token decision comment) .opening (.decideItem token d comment) fun _ => .opening

def reviewProtocol : Protocol ReviewReq ReviewOp ReviewOp.Resp where
  Phase := ReviewPhase
  Step := ReviewStep

def ReviewDone (q : ReviewReq) (φ : ReviewPhase) (_ : Except HTTPError ReviewReply) : Prop :=
  match q with
  | .round => φ = .ended
  | .decide .. => φ = .opening

abbrev EndsIn (ψ : ReviewPhase) (φ : ReviewPhase) (r : Except HTTPError Unit) : Prop := φ = ψ ∧ r = .ok ()

theorem bulkCreateItems_follows (reviewerID cs pairs) :
    (bulkCreateItems c reviewerID pairs).Follows reviewProtocol .round (EndsIn (.generating cs)) (filling c reviewerID cs pairs) := by
  induction pairs with
  | nil => exact ⟨rfl, rfl⟩
  | cons pair pairs ih =>
    refine .ask (.draw c reviewerID pair pairs cs) (Option.forall.2 ⟨⟨rfl, rfl⟩, fun token => ?_⟩)
    refine .ask (.insert c reviewerID pair pairs cs token) fun ok => ?_
    cases ok with
    | true => exact ih
    | false => exact ⟨rfl, rfl⟩

theorem generateCampaignItems_follows (cs) :
    (generateCampaignItems c).Follows reviewProtocol .round (EndsIn (.generating cs)) (.generating (c :: cs)) := by
  refine .ask (.assignments c cs) (Option.forall.2 ⟨⟨rfl, rfl⟩, fun pairs => ?_⟩)
  cases pairs with
  | nil => exact ⟨rfl, rfl⟩
  | cons pair pairs =>
    refine .ask (.users c (pair :: pairs) cs) fun users => ?_
    show Follows reviewProtocol _ _ (afterUsers c (pair :: pairs) cs (defaultReviewer (users.getD [])))
      (match defaultReviewer (users.getD []) with
      | none => pure ()
      | some reviewerID => bulkCreateItems c reviewerID (pair :: pairs))
    cases defaultReviewer (users.getD []) with
    | none => exact ⟨rfl, rfl⟩
    | some reviewerID => exact bulkCreateItems_follows c reviewerID cs (pair :: pairs)

theorem generateAll_follows (cs) :
    (generateAll cs).Follows reviewProtocol .round (EndsIn (.generating [])) (.generating cs) := by
  induction cs with
  | nil => exact ⟨rfl, rfl⟩
  | cons c cs ih =>
    apply (generateCampaignItems_follows c cs).bind
    · rintro ψ _ ⟨rfl, _⟩
      exact ih
    · rintro ψ e ⟨_, he⟩
      cases he

theorem autoRevoke_follows (items) :
    (autoRevoke items).Follows reviewProtocol .round (EndsIn (.revoking [])) (.revoking items) := by
  induction items with
  | nil => exact ⟨rfl, rfl⟩
  | cons item items ih =>
    refine .ask (.unassign item items) fun ok => ?_
    cases ok with
    | true => exact .ask (.mark item items) fun _ => ih
    | false => exact ih

theorem processAccessReviews_follows :
    processAccessReviews.Follows reviewProtocol .round (EndsIn .ended) .opening := by
  refine .ask .activate fun r => ?_
  apply (generateAll_follows (r.getD [])).bind
  · rintro ψ _ ⟨rfl, _⟩
    refine .ask .expire fun r => ?_
    apply (autoRevoke_follows (r.getD [])).bind
    · rintro ψ _ ⟨rfl, _⟩
      exact .ask .complete fun _ => ⟨rfl, rfl⟩
    · rintro ψ e ⟨_, he⟩
      cases he
  · rintro ψ e ⟨_, he⟩
    cases he

theorem decideReview_follows (token decision comment) :
    (decideReview token decision comment).Follows reviewProtocol (.decide token decision comment)
      (fun φ _ => φ = .opening) .opening := by
  refine .require (fun _ => ?_) fun _ => rfl
  cases hd : parseDecision decision with
  | none => exact rfl
  | some d =>
    refine .ask (.look token decision comment) (Option.forall.2 ⟨rfl, fun found => ?_⟩)
    cases found with
    | none => exact rfl
    | some item =>
      refine .require (fun _ => ?_) fun _ => rfl
      refine .ask (.decide token decision comment d hd) fun r => ?_
      cases r <;> exact rfl

theorem reviewMain_follows (q) : (reviewMain q).Follows reviewProtocol q (ReviewDone q) .opening := by
  cases q with
  | round =>
    apply processAccessReviews_follows.bind
    · rintro ψ _ ⟨rfl, _⟩
      exact rfl
    · rintro ψ e ⟨_, he⟩
      cases he
  | decide token decision comment =>
    apply (decideReview_follows token decision comment).bind
    · rintro ψ _ rfl
      exact rfl
    · rintro ψ _ rfl
      exact rfl

/-! ## What becomes of an item -/

def BeforeEnd (s : ReviewStore) (i : AccessReviewItem) : Prop :=
  ∀ c ∈ s.campaigns.list, c.id = i.campaignID → s.now < c.endsAt

structure ReviewLe (s s' : ReviewStore) : Prop where
  now : s.now ≤ s'.now
  campaigns : ∀ c ∈ s.campaigns.list, ∃ c' ∈ s'.campaigns.list, c'.id = c.id ∧ c'.endsAt = c.endsAt
  items : ∀ i ∈ s.items.list, ∃ i' ∈ s'.items.list, i'.id = i.id ∧ i'.campaignID = i.campaignID ∧
    (i'.decision = i.decision ∨ (i.decision = .pending ∧ (i'.decision = .autoRevoked ∨ BeforeEnd s i)))

namespace ReviewLe

variable {s s' : ReviewStore}

theorem items_refl : ∀ i ∈ s.items.list, ∃ i' ∈ s.items.list, i'.id = i.id ∧ i'.campaignID = i.campaignID ∧
    (i'.decision = i.decision ∨ (i.decision = .pending ∧ (i'.decision = .autoRevoked ∨ BeforeEnd s i))) :=
  fun i hi => ⟨i, hi, rfl, rfl, .inl rfl⟩

theorem campaigns_refl : ∀ c ∈ s.campaigns.list, ∃ c' ∈ s.campaigns.list, c'.id = c.id ∧ c'.endsAt = c.endsAt :=
  fun c hc => ⟨c, hc, rfl, rfl⟩

theorem refl (s) : ReviewLe s s := ⟨Int.le_refl _, campaigns_refl, items_refl⟩

theorem setStatus {p status} :
    ∀ c ∈ s.campaigns.list, ∃ c' ∈ (s.campaigns.modify p (setStatus status) (setStatus_id status)).list,
      c'.id = c.id ∧ c'.endsAt = c.endsAt := by
  intro c hc
  refine ⟨if p c then ReviewStore.setStatus status c else c, mem_map_of_mem hc, ?_, ?_⟩
  · split <;> rfl
  · split <;> rfl

theorem insertItem (i) : ReviewLe s (s.insertItem i) := by
  unfold ReviewStore.insertItem
  split
  · exact .refl s
  split
  · exact .refl s
  · rename_i items hpush
    refine ⟨Int.le_refl _, campaigns_refl, fun j hj => ⟨j, ?_, rfl, rfl, .inl rfl⟩⟩
    rw [Rows.push_some hpush]
    exact mem_cons_of_mem _ hj

theorem autoRevokeItem (id) : ReviewLe s (s.autoRevokeItem id) := by
  refine ⟨Int.le_refl _, campaigns_refl, fun i hi => ?_⟩
  refine ⟨if decide (i.id = id ∧ i.decision = .pending) then marked i else i, mem_map_of_mem hi, ?_⟩
  split
  · rename_i hsel
    exact ⟨rfl, rfl, .inr ⟨(of_decide_eq_true hsel).2, .inl rfl⟩⟩
  · exact ⟨rfl, rfl, .inl rfl⟩

theorem decideItem {token} (h : ∀ i ∈ s.items.list, i.token = token → i.decision = .pending → BeforeEnd s i)
    (decision comment) : ReviewLe s (s.decideItem token decision comment).2 := by
  refine ⟨Int.le_refl _, campaigns_refl, fun i hi => ?_⟩
  refine ⟨if decide (i.token = token ∧ i.decision = .pending) then decided decision comment i else i,
    mem_map_of_mem hi, ?_⟩
  split
  · rename_i hsel
    obtain ⟨htoken, hpending⟩ := of_decide_eq_true hsel
    exact ⟨rfl, rfl, .inr ⟨hpending, .inr (h i hi htoken hpending)⟩⟩
  · exact ⟨rfl, rfl, .inl rfl⟩

end ReviewLe

/-- Reviewers decide before the end of the campaign, the removal of a role is not reported as an
error once it is carried out, and its item is marked. -/
def DecidedInTime (s : ReviewStore) (env : ReviewEnv) (_ : ReviewReq) : ReviewOp → Prop
  | .decideItem token _ _ => ∀ i ∈ s.items.list, i.token = token → i.decision = .pending → BeforeEnd s i
  | .unassignRole _ => env.fate ≠ .lost
  | .autoRevokeItem _ => env.fate ≠ .failed
  | _ => True

section
variable {s : ReviewStore}

variable {env : ReviewEnv} {q : ReviewReq} {op : ReviewOp} {id : UUID}

theorem carryOut_reviewLe (h : DecidedInTime s env q op) : ReviewLe s (reviewCarryOut env op s).2 := by
  cases op with
  | activateDueCampaigns => exact ⟨Int.le_refl _, ReviewLe.setStatus, ReviewLe.items_refl⟩
  | createItem c pair reviewerID token => exact .insertItem _
  | unassignRole item => exact ⟨Int.le_refl _, ReviewLe.campaigns_refl, ReviewLe.items_refl⟩
  | autoRevokeItem id => exact .autoRevokeItem id
  | completeCampaigns => exact ⟨Int.le_refl _, ReviewLe.setStatus, ReviewLe.items_refl⟩
  | decideItem token decision comment => exact .decideItem h decision comment
  | _ => exact .refl s

theorem sem_reviewLe (h : DecidedInTime s env q op) : ReviewLe s (reviewSem env op s).2 := by
  unfold reviewSem
  split
  · exact carryOut_reviewLe h
  · exact .refl s
  · exact carryOut_reviewLe h

theorem other_reviewLe (e) : ReviewLe s (reviewOther e s) := by
  cases e with
  | tick d => exact ⟨Int.le_add_of_nonneg_right (Int.natCast_nonneg d), ReviewLe.campaigns_refl, ReviewLe.items_refl⟩
  | putUser u =>
    simp only [reviewOther]
    split
    · exact .refl s
    · exact ⟨Int.le_refl _, ReviewLe.campaigns_refl, ReviewLe.items_refl⟩
  | createCampaign c =>
    simp only [reviewOther]
    split
    · exact .refl s
    · rename_i campaigns hpush
      refine ⟨Int.le_refl _, fun d hd => ⟨d, ?_, rfl, rfl⟩, ReviewLe.items_refl⟩
      rw [Rows.push_some hpush]
      exact mem_cons_of_mem _ hd
  | cancelCampaign id => exact ⟨Int.le_refl _, ReviewLe.setStatus, ReviewLe.items_refl⟩
  | _ => exact ⟨Int.le_refl _, ReviewLe.campaigns_refl, ReviewLe.items_refl⟩

def LeftOpen (s : ReviewStore) (id : UUID) : Prop :=
  ∃ i ∈ s.items.list, i.id = id ∧ (i.decision = .pending ∨ i.decision = .autoRevoked) ∧
    ∃ c ∈ s.campaigns.list, c.id = i.campaignID ∧ c.endsAt ≤ s.now

def AutoRevoked (s : ReviewStore) (id : UUID) : Prop := ∃ i ∈ s.items.list, i.id = id ∧ i.decision = .autoRevoked

variable {s' : ReviewStore}

theorem ReviewLe.leftOpen (h : ReviewLe s s') (ho : LeftOpen s id) : LeftOpen s' id := by
  obtain ⟨i, hi, rfl, hdec, c, hc, hcid, hend⟩ := ho
  obtain ⟨i', hi', hid, hcamp, hdec'⟩ := h.items i hi
  obtain ⟨c', hc', hcid', hend'⟩ := h.campaigns c hc
  refine ⟨i', hi', hid, ?_, c', hc', by rw [hcid', hcid, hcamp], ?_⟩
  · rcases hdec' with heq | ⟨_, hauto | hbefore⟩
    · rw [heq]
      exact hdec
    · exact .inr hauto
    · have := hbefore c hc hcid
      omega
  · have := h.now
    omega

theorem ReviewLe.autoRevoked (h : ReviewLe s s') (ha : AutoRevoked s id) : AutoRevoked s' id := by
  obtain ⟨i, hi, rfl, hdec⟩ := ha
  obtain ⟨i', hi', hid, _, hdec'⟩ := h.items i hi
  refine ⟨i', hi', hid, ?_⟩
  rcases hdec' with heq | ⟨hpending, _⟩
  · exact heq.trans hdec
  · rw [hdec] at hpending
    cases hpending

theorem leftOpen_of_expired {i} (hi : i ∈ s.items.list) (h : s.expired i = true) : LeftOpen s i.id := by
  unfold expired at h
  rw [Bool.and_eq_true, any_eq_true] at h
  obtain ⟨hpending, c, hc, hcond⟩ := h
  obtain ⟨hcid, _, _, hend⟩ := of_decide_eq_true hcond
  exact ⟨i, hi, rfl, .inl (of_decide_eq_true hpending), c, hc, hcid, hend⟩

theorem autoRevoked_mark (h : LeftOpen s id) : AutoRevoked (s.autoRevokeItem id) id := by
  obtain ⟨i, hi, rfl, hdec, _⟩ := h
  refine ⟨if decide (i.id = i.id ∧ i.decision = .pending) then marked i else i, mem_map_of_mem hi, ?_⟩
  rcases hdec with hpending | hauto
  · rw [if_pos (decide_eq_true ⟨rfl, hpending⟩)]
    exact ⟨rfl, rfl⟩
  · split
    · exact ⟨rfl, rfl⟩
    · exact ⟨rfl, hauto⟩

theorem rolesTaken_carryOut (h : ∀ item, op ≠ .unassignRole item) :
    (reviewCarryOut env op s).2.rolesTaken = s.rolesTaken := by
  cases op with
  | unassignRole item => exact absurd rfl (h item)
  | createItem c pair reviewerID token =>
    simp only [reviewCarryOut, insertItem]
    split
    · rfl
    · split <;> rfl
  | _ => rfl

theorem rolesTaken_sem (h : ∀ item, op ≠ .unassignRole item) : (reviewSem env op s).2.rolesTaken = s.rolesTaken := by
  unfold reviewSem
  split
  · exact rolesTaken_carryOut h
  · rfl
  · exact rolesTaken_carryOut h

theorem rolesTaken_other (e) : (reviewOther e s).rolesTaken = s.rolesTaken := by
  cases e with
  | putUser u | createCampaign c => simp only [reviewOther]; split <;> rfl
  | _ => rfl

end

/-! ## Every role that was taken away -/

def ReviewPhase.listed : ReviewPhase → List AccessReviewItem
  | .revoking items => items
  | .marking item items => item :: items
  | _ => []

section
variable (c : AccessReviewCampaign) (cs : List AccessReviewCampaign)

@[simp] theorem listed_filling (reviewerID pairs) : (filling c reviewerID cs pairs).listed = [] := by
  cases pairs <;> rfl

@[simp] theorem listed_afterAssignments (r) : (afterAssignments c cs r).listed = [] := by
  cases r with
  | none => rfl
  | some pairs => cases pairs <;> rfl

@[simp] theorem listed_afterUsers (pairs r) : (afterUsers c pairs cs r).listed = [] := by
  cases r with
  | none => rfl
  | some reviewerID => exact listed_filling c cs reviewerID pairs

@[simp] theorem listed_afterToken (reviewerID pair pairs r) :
    (afterToken c reviewerID pair pairs cs r).listed = [] := by
  cases r <;> rfl

end

abbrev ReviewThreads := Threads ReviewReq ReviewPhase

abbrev ReviewMove := PoolMove ReviewReq ReviewEnv ReviewEvent

abbrev ReviewPool := Pool ReviewReq ReviewOp ReviewOp.Resp HTTPError ReviewReply ReviewStore

structure TakenInv (s : ReviewStore) (th : ReviewThreads) : Prop where
  listed : ∀ {j q φ}, th j = some (q, φ) → ∀ item ∈ φ.listed, LeftOpen s item.id
  taken : ∀ id ∈ s.rolesTaken, LeftOpen s id ∧
    (AutoRevoked s id ∨ ∃ j item items, th j = some (.round, .marking item items) ∧ item.id = id)

namespace TakenInv

variable {s s' : ReviewStore} {th : ReviewThreads} {j : Nat} {q : ReviewReq} {φ ψ : ReviewPhase}

section
variable (h : TakenInv s th)
include h

theorem step (hj : th j = some (q, φ)) (hle : ReviewLe s s')
    (hlisted : ∀ item ∈ ψ.listed, LeftOpen s' item.id)
    (hmark : ∀ item items, φ = .marking item items → AutoRevoked s' item.id)
    (htaken : ∀ id ∈ s'.rolesTaken, id ∈ s.rolesTaken ∨
      (LeftOpen s' id ∧ ∃ item items, q = .round ∧ ψ = .marking item items ∧ item.id = id)) :
    TakenInv s' (update th j (some (q, ψ))) := by
  constructor
  · intro k q' φ' hk item hitem
    rcases Once.update_cases hk with ⟨rfl, hself⟩ | ⟨_, hk⟩
    · cases hself
      exact hlisted item hitem
    · exact hle.leftOpen (h.listed hk item hitem)
  · intro id hid
    rcases htaken id hid with hold | ⟨hopen, item, items, rfl, rfl, hitem⟩
    · obtain ⟨hopen, hrev | ⟨k, item, items, hk, hitem⟩⟩ := h.taken id hold
      · exact ⟨hle.leftOpen hopen, .inl (hle.autoRevoked hrev)⟩
      · refine ⟨hle.leftOpen hopen, ?_⟩
        by_cases hkj : k = j
        · subst hkj
          rw [hj] at hk
          cases hk
          exact .inl (hitem ▸ hmark item items rfl)
        · refine .inr ⟨k, item, items, ?_, hitem⟩
          rw [update_of_ne hkj]
          exact hk
    · exact ⟨hopen, .inr ⟨j, item, items, update_self .., hitem⟩⟩

theorem quiet (hj : th j = some (q, φ)) (hle : ReviewLe s s') (hroles : s'.rolesTaken = s.rolesTaken)
    (hφ : ∀ item items, φ ≠ .marking item items) (hψ : ψ.listed = []) : TakenInv s' (update th j (some (q, ψ))) := by
  refine h.step hj hle (fun item hitem => ?_) (fun item items hm => absurd hm (hφ item items)) fun id hid => .inl ?_
  · rw [hψ] at hitem
    exact absurd hitem not_mem_nil
  · rw [hroles] at hid
    exact hid

theorem sem (hj : th j = some (q, φ)) {op f} (hs : ReviewStep q φ op f) {env} (hok : DecidedInTime s env q op) :
    TakenInv (reviewSem env op s).2 (update th j (some (q, f (reviewSem env op s).1))) := by
  have hle := sem_reviewLe hok
  cases hs with
  | activate => exact h.quiet hj hle (rolesTaken_sem nofun) nofun rfl
  | assignments c cs => exact h.quiet hj hle (rolesTaken_sem nofun) nofun (listed_afterAssignments ..)
  | users c pairs cs => exact h.quiet hj hle (rolesTaken_sem nofun) nofun (listed_afterUsers ..)
  | draw c reviewerID pair pairs cs => exact h.quiet hj hle (rolesTaken_sem nofun) nofun (listed_afterToken ..)
  | insert c reviewerID pair pairs cs token =>
    refine h.quiet hj hle (rolesTaken_sem nofun) nofun ?_
    dsimp only
    split
    · exact listed_filling ..
    · rfl
  | expire =>
    have hroles : (reviewSem env .listExpiredPendingItems s).2.rolesTaken = s.rolesTaken := rolesTaken_sem nofun
    refine h.step hj hle (fun item hitem => hle.leftOpen ?_) (fun _ _ heq => by cases heq) fun id hid => .inl (hroles ▸ hid)
    -- an item is listed while it is pending and its campaign has ended
    unfold reviewSem at hitem
    split at hitem
    · obtain ⟨hmem, hexp⟩ := mem_filter.mp hitem
      exact leftOpen_of_expired hmem hexp
    · exact absurd hitem not_mem_nil
    · exact absurd hitem not_mem_nil
  | unassign item items =>
    have hopen : ∀ i ∈ item :: items, LeftOpen (reviewSem env (.unassignRole item) s).2 i.id :=
      fun i hi => hle.leftOpen (h.listed hj i hi)
    refine h.step hj hle ?_ (fun _ _ heq => by cases heq) fun id hid => ?_
    · dsimp only
      split
      · exact hopen
      · exact fun i hi => hopen i (mem_cons_of_mem _ hi)
    · -- the answer is an error only if nothing was done
      cases hfate : env.fate with
      | lost => exact absurd hfate hok
      | failed =>
        simp only [reviewSem, hfate] at hid
        exact .inl hid
      | done =>
        have hopen' := hopen item (mem_cons_self ..)
        simp only [reviewSem, hfate, reviewCarryOut, unassignRole] at hid hopen' ⊢
        split at hid
        · rcases mem_cons.mp hid with rfl | hid
          · exact .inr ⟨hopen', item, items, trivial, rfl, rfl⟩
          · exact .inl hid
        · exact .inl hid
  | mark item items =>
    have hopen : ∀ i ∈ item :: items, LeftOpen s i.id := h.listed hj
    have hroles : (reviewSem env (.autoRevokeItem item.id) s).2.rolesTaken = s.rolesTaken := rolesTaken_sem nofun
    refine h.step hj hle (fun i hi => hle.leftOpen (hopen i (mem_cons_of_mem _ hi))) (fun item' items' heq => ?_)
      fun id hid => .inl (hroles ▸ hid)
    · cases heq
      have hmarked := autoRevoked_mark (hopen item (mem_cons_self ..))
      unfold reviewSem
      split
      · exact hmarked
      · rename_i hfate
        exact absurd hfate hok
      · exact hmarked
  | complete | look token decision comment
  | decide token decision comment d hd => exact h.quiet hj hle (rolesTaken_sem nofun) nofun rfl

theorem other (e) : TakenInv (reviewOther e s) th := by
  have hle := other_reviewLe (s := s) e
  constructor
  · exact fun hj item hitem => hle.leftOpen (h.listed hj item hitem)
  · intro id hid
    rw [rolesTaken_other] at hid
    obtain ⟨hopen, hrev⟩ := h.taken id hid
    exact ⟨hle.leftOpen hopen, hrev.imp_left hle.autoRevoked⟩

theorem start (hj : th j = none) (q) : TakenInv s (update th j (some (q, .opening))) := by
  constructor
  · intro k q' φ' hk item hitem
    rcases Once.update_cases hk with ⟨rfl, hself⟩ | ⟨_, hk⟩
    · cases hself
      exact absurd hitem not_mem_nil
    · exact h.listed hk item hitem
  · intro id hid
    obtain ⟨hopen, hrev⟩ := h.taken id hid
    refine ⟨hopen, hrev.imp_right ?_⟩
    rintro ⟨k, item, items, hk, hitem⟩
    have hkj : k ≠ j := fun heq => by rw [heq, hj] at hk; cases hk
    exact ⟨k, item, items, by rw [update_of_ne hkj]; exact hk, hitem⟩

theorem finish {r} (hj : th j = some (q, φ)) (hr : ReviewDone q φ r) : TakenInv s (update th j none) := by
  constructor
  · intro k q' φ' hk item hitem
    exact h.listed (Once.update_none hk).2 item hitem
  · intro id hid
    obtain ⟨hopen, hrev⟩ := h.taken id hid
    refine ⟨hopen, hrev.imp_right ?_⟩
    rintro ⟨k, item, items, hk, hitem⟩
    have hkj : k ≠ j := by
      rintro rfl
      rw [hj] at hk
      cases hk
      cases (hr : ReviewPhase.marking item items = .ended)
    exact ⟨k, item, items, by rw [update_of_ne hkj]; exact hk, hitem⟩

end

end TakenInv

theorem takenInv_kept (evs) :
    Kept reviewSystem reviewProtocol (fun _ => .opening) ReviewDone DecidedInTime evs fun s th _ => TakenInv s th where
  start q h hi := h.start hi q
  step _ h hi hs hok := h.sem hi hs hok
  finish h hi hr := h.finish hi hr
  other e _ h := h.other e

theorem marking_next {t : ReviewPool} {th : ReviewThreads} (hth : Tracks reviewProtocol ReviewDone t.calls th)
    {j} {item items} (hj : th j = some (.round, .marking item items)) :
    t.next j = some (.round, .autoRevokeItem item.id) := by
  have hcall := hth j
  rw [hj] at hcall
  cases hc : t.calls j with
  | none =>
    rw [hc] at hcall
    cases hcall
  | some call =>
    obtain ⟨q, pr⟩ := call
    rw [hc] at hcall
    obtain ⟨φ, hφ, hf⟩ := hcall
    cases hφ
    cases pr with
    | ret a | fail e => cases (hf : ReviewPhase.marking item items = .ended)
    | ask op k =>
      obtain ⟨f, hstep, _⟩ := hf
      cases hstep
      simp only [Pool.next, hc]

/-- The item of a role that auto-revocation took away is `auto_revoked`, or pending with the worker
about to mark it. So an approved item has not lost its role. -/
theorem taken_role_ends_auto_revoked {s : ReviewStore} {ms : List ReviewMove} {t : ReviewPool} (hs : s.rolesTaken = [])
    (h : Trace reviewSystem.step (Meets DecidedInTime) (Pool.init s) ms t) :
    (∀ id ∈ t.store.rolesTaken, ∃ i ∈ t.store.items.list, i.id = id ∧
      (i.decision = .autoRevoked ∨ (i.decision = .pending ∧ ∃ j, t.next j = some (.round, .autoRevokeItem id)))) ∧
    ∀ i ∈ t.store.items.list, i.decision = .approved → i.id ∉ t.store.rolesTaken := by
  have h0 : TakenInv s fun _ => none := by
    refine ⟨nofun, fun id hid => ?_⟩
    rw [hs] at hid
    exact absurd hid not_mem_nil
  obtain ⟨th, hth, hinv⟩ := System.inv reviewMain_follows (takenInv_kept _) h h0
  have htaken : ∀ id ∈ t.store.rolesTaken, ∃ i ∈ t.store.items.list, i.id = id ∧
      (i.decision = .autoRevoked ∨ (i.decision = .pending ∧ ∃ j, t.next j = some (.round, .autoRevokeItem id))) := by
    intro id hid
    obtain ⟨⟨i, hi, rfl, hdec, _⟩, hrev⟩ := hinv.taken id hid
    refine ⟨i, hi, rfl, ?_⟩
    rcases hdec with hpending | hauto
    · rcases hrev with ⟨i', hi', heq, hauto⟩ | ⟨j, item, items, hj, hitem⟩
      · rw [Rows.eq_of_key hi' hi heq] at hauto
        exact .inl hauto
      · exact .inr ⟨hpending, j, hitem ▸ marking_next hth hj⟩
    · exact .inl hauto
  refine ⟨htaken, fun i hi happroved hid => ?_⟩
  obtain ⟨i', hi', heq, hdec⟩ := htaken i.id hid
  rw [Rows.eq_of_key hi' hi heq, happroved] at hdec
  rcases hdec with hdec | ⟨hdec, _⟩ <;> cases hdec

/-! ## A decision before and after the end -/

instance (s : ReviewStore) (i : AccessReviewItem) : Decidable (BeforeEnd s i) :=
  inferInstanceAs (Decidable (∀ c ∈ s.campaigns.list, c.id = i.campaignID → s.now < c.endsAt))

instance (s : ReviewStore) (env : ReviewEnv) (q : ReviewReq) : (op : ReviewOp) → Decidable (DecidedInTime s env q op)
  | .decideItem token _ _ =>
    inferInstanceAs (Decidable (∀ i ∈ s.items.list, i.token = token → i.decision = .pending → BeforeEnd s i))
  | .unassignRole _ => inferInstanceAs (Decidable (env.fate ≠ .lost))
  | .autoRevokeItem _ => inferInstanceAs (Decidable (env.fate ≠ .failed))
  | .activateDueCampaigns | .listAssignments _ | .listUsers _ | .randomToken | .createItem .. | .listExpiredPendingItems
  | .completeCampaigns | .getItemByToken _ => .isTrue trivial

def quarterReview : ReviewStore where
  now := 5
  users := (Rows.empty.set { id := 2, orgID := 1, email := "ada@acme.example" }).set { id := 9, orgID := 1, email := "bob@acme.example" }
  userRoles := (Rows.empty.set ⟨2, 3⟩).set ⟨2, 4⟩
  campaigns := Rows.empty.set ⟨1, 1, .active, 0, 10, true⟩
  items := (Rows.empty.set ⟨1, 1, 1, 2, 3, 9, .pending, "a", ""⟩).set ⟨2, 1, 1, 2, 4, 9, .pending, "b", ""⟩
  activatedWith := fun _ => []
  rolesTaken := []

def reviewSteps (i n : Nat) : List ReviewMove := List.replicate n (.advance i ⟨.done, 0, ""⟩)

def reviewRun (ms : List ReviewMove) : ReviewPool := run reviewSystem.step (Pool.init quarterReview) ms

def approvedInTime : List ReviewMove :=
  .start 0 (.decide "a" "approved" "") :: reviewSteps 0 3 ++ .other (.tick 5) :: .start 1 .round :: reviewSteps 1 6

theorem taken_role_ends_auto_revoked_in_time :
    quarterReview.rolesTaken = [] ∧ (reviewRun approvedInTime).store.rolesTaken = [2] ∧
      (reviewRun approvedInTime).store.items.list.map AccessReviewItem.decision = [.autoRevoked, .approved] ∧
      ∀ i ∈ (reviewRun approvedInTime).store.items.list, i.decision = .approved →
        i.id ∉ (reviewRun approvedInTime).store.rolesTaken := by
  have hrun : Trace reviewSystem.step (Meets DecidedInTime) (Pool.init quarterReview) approvedInTime
      (reviewRun approvedInTime) := Trace.of_checkRun (by decide +kernel)
  exact ⟨rfl, by decide +kernel, by decide +kernel, (taken_role_ends_auto_revoked rfl hrun).2⟩

def approvedLate : List ReviewMove :=
  .other (.tick 5) :: .start 0 .round :: .start 1 (.decide "a" "approved" "") :: reviewSteps 0 2 ++ reviewSteps 1 3 ++
    reviewSteps 0 6

theorem approved_item_loses_role :
    (reviewRun approvedLate).log.length = 2 ∧
      (reviewRun approvedLate).store.items.list.map (fun i => (i.id, i.decision)) = [(2, .autoRevoked), (1, .approved)] ∧
      (1 : UUID) ∈ (reviewRun approvedLate).store.rolesTaken ∧ (reviewRun approvedLate).store.hasRole 2 3 = false := by
  decide +kernel

end Clavex

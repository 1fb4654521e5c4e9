import Clavex.StatusResolver
import Mathlib.Data.Set.Card

/-!
# The accounting of the status resolver

A call is fetching from the section that opens its flight to the one that delivers it. The
flights of the resolver are those of the calls that are fetching, one call each, and all
counters are what they count.
-/

namespace Clavex

open List Function Prog

/-! ## The protocol of a call -/

def openedFlight : Admission ObjectKey String StatusObject → Option StatusFlight
  | .opened f => some f
  | _ => none

def Sized (r : Except StatusError (Loaded StatusObject)) : Prop := ∀ l, r = .ok l → l.size = l.item.size

inductive ResolverStep : Option StatusFlight → (op : ResolverOp) → (op.Resp → Option StatusFlight) → Prop
  | ctxErr : ResolverStep none .ctxErr fun _ => none
  | now : ResolverStep none .now fun _ => none
  | enter (key : ObjectKey) (scope : String) (at_ : Option Int) :
      ResolverStep none (.enter key scope at_) fun r => openedFlight r.2
  | await (f : StatusFlight) : ResolverStep none (.await f) fun _ => none
  | get (f : StatusFlight) (uri : String) : ResolverStep (some f) (.get f uri) fun _ => some f
  | fetchNow (f : StatusFlight) : ResolverStep (some f) (.fetchNow f) fun _ => some f
  | leave (f : StatusFlight) {r : Except StatusError (Loaded StatusObject)} (h : Sized r) :
      ResolverStep (some f) (.leave f r) fun _ => none

def resolverProtocol : Protocol StatusReq ResolverOp ResolverOp.Resp where
  Phase := Option StatusFlight
  Step := fun _ => ResolverStep

def Landed (_ : StatusReq) (φ : resolverProtocol.Phase) (_ : Except StatusError Decision) : Prop := φ = none

def Fetches (f : StatusFlight) : ResolverOp → Prop
  | .get g _ | .fetchNow g => g = f
  | _ => False

theorem Fetches.step {q f op} (h : Fetches f op) : resolverProtocol.Step q (some f) op fun _ => some f := by
  cases op with
  | get g uri =>
    obtain rfl : g = f := h
    exact .get g uri
  | fetchNow g =>
    obtain rfl : g = f := h
    exact .fetchNow g
  | _ => exact h.elim

section
variable {K : Type} (L : StatusLib K) (X : CRLLib)

theorem fetchResponse_uses (f uri) : (fetchResponse L f uri).Uses (Fetches f) := by
  unfold fetchResponse
  split
  · exact trivial
  · simp only [call_bind]
    refine ⟨rfl, fun r => ?_⟩
    cases r <;> exact trivial

theorem tryKeys_uses (f source uri body kid keys) : (tryKeys L f source uri body kid keys).Uses (Fetches f) := by
  induction keys with
  | nil => exact trivial
  | cons key keys ih =>
    unfold tryKeys
    split
    · exact ih
    split
    · exact ih
    simp only [call_bind]
    refine ⟨rfl, fun now => ?_⟩
    dsimp only
    split
    · exact trivial
    · exact ih

theorem revokedSerials_uses (f seen rs) : (revokedSerials f seen rs).Uses (Fetches f) := by
  induction rs generalizing seen with
  | nil => exact trivial
  | cons r rs ih =>
    unfold revokedSerials
    split
    · exact trivial
    · refine .require ⟨rfl, fun now => ?_⟩
      exact .require (.require (.require (ih _)))

theorem crlWindow_uses (f source crl) : (crlWindow f source crl).Uses (Fetches f) := by
  refine ⟨rfl, fun _ => .require ⟨rfl, fun _ => .require ⟨rfl, fun now => ?_⟩⟩⟩
  show (require (now < crl.thisUpdate + source.maxAge) _).Uses _
  unfold require
  split <;> exact trivial

variable {q : StatusReq}

def FetchEnded (f : StatusFlight) (φ : resolverProtocol.Phase) (r : Except StatusError (Loaded StatusObject)) : Prop :=
  φ = some f ∧ Sized r

theorem FetchEnded.failed (f e) : FetchEnded f (some f) (.error e) :=
  ⟨rfl, fun l h => by cases h⟩

theorem fetchDeadline_follows (f source list response) :
    (fetchDeadline f source list response).Follows resolverProtocol q (FetchEnded f) (some f) := by
  refine .ask (.fetchNow f) fun cacheAt => .ask (.fetchNow f) fun httpAt => ?_
  refine .ofExcept (fun deadline _ => ?_) (fun e _ => .failed f e)
  refine ⟨rfl, fun l h => ?_⟩
  cases h
  rfl

theorem fetch_follows (source uri f) : (fetch L source uri f).Follows resolverProtocol q (FetchEnded f) (some f) := by
  refine .bind_uses (fun _ => Fetches.step) (fetchResponse_uses L f uri) (fun response => ?_) (.failed f)
  refine .ofExcept (fun body _ => ?_) (fun e _ => .failed f e)
  split
  · rename_i head _
    split
    · exact .failed f _
    · rename_i keys _
      refine .bind_uses (fun _ => Fetches.step) (tryKeys_uses L f source uri body head.kid keys) ?_ (.failed f)
      exact fun list => fetchDeadline_follows f source list response
  · exact .failed f _

theorem fetchCRL_follows (source issuer f) :
    (fetchCRL L X source issuer f).Follows resolverProtocol q (FetchEnded f) (some f) := by
  refine .bind_uses (fun _ => Fetches.step) (fetchResponse_uses L f source.uri) (fun response => ?_) (.failed f)
  refine .ofExcept (fun body _ => ?_) (fun e _ => .failed f e)
  refine .ofExcept (fun parsed _ => ?_) (fun e _ => .failed f e)
  refine .bind_uses (fun _ => Fetches.step) (crlWindow_uses f source parsed.2) (fun _ => ?_) (.failed f)
  refine .ofExcept (fun point _ => ?_) (fun e _ => .failed f e)
  refine .require (fun _ => ?_) (fun _ => .failed f _)
  refine .ask (.fetchNow f) fun lastUse => .ask (.fetchNow f) fun cacheAt => ?_
  refine .bind_uses (fun _ => Fetches.step) (revokedSerials_uses f [] parsed.2.revoked) (fun revoked => ?_)
    (.failed f)
  refine .ask (.fetchNow f) fun httpAt => ?_
  refine .ofExcept (fun deadline _ => ?_) (fun e _ => .failed f e)
  refine .ask (.fetchNow f) fun now => ?_
  refine .require (fun _ => ?_) (fun _ => .failed f _)
  refine ⟨rfl, fun l h => ?_⟩
  cases h
  rfl

theorem settle_follows (judge obj) : (settle judge obj).Follows resolverProtocol q (Landed q) none := by
  refine .ask .now fun now => ?_
  refine .require (fun _ => ?_) (fun _ => rfl)
  exact .ofExcept (fun _ _ => rfl) (fun _ _ => rfl)

theorem lookupObject_follows (key scope at_) {load} (judge)
    (hload : ∀ f, (load f).Follows resolverProtocol q (FetchEnded f) (some f)) :
    (lookupObject key scope at_ load judge).Follows resolverProtocol q (Landed q) none := by
  unfold lookupObject
  simp only [call_bind]
  refine .ask (.enter key scope at_) fun r => ?_
  obtain ⟨now, adm⟩ := r
  cases adm with
  | hit c => exact .ofExcept (fun _ _ => rfl) (fun _ _ => rfl)
  | busy => exact rfl
  | wait f =>
    refine .ask (.await f) fun r => ?_
    split
    · exact rfl
    · exact rfl
    · exact settle_follows judge _
  | opened f =>
    refine .bind (hload f).attempt (fun ψ r hr => ?_) (fun ψ e he => ?_)
    · obtain ⟨y, hy, rfl, hsized⟩ := hr
      cases hy
      refine .ask (.leave f hsized) fun _ => ?_
      split
      · exact rfl
      · exact settle_follows judge _
    · obtain ⟨y, hy, -⟩ := he
      cases hy

theorem resolver_follows (q) : ((resolverSystem L X).main q).Follows resolverProtocol q (Landed q) none := by
  cases q with
  | check scope source ref =>
    refine .ask .ctxErr fun cancelled => ?_
    refine .require (fun _ => ?_) (fun _ => rfl)
    refine .require (fun _ => ?_) (fun _ => rfl)
    refine .require (fun _ => ?_) (fun _ => rfl)
    refine .require (fun _ => ?_) (fun _ => rfl)
    refine .require (fun _ => ?_) (fun _ => rfl)
    refine .ask .now fun now => ?_
    exact lookupObject_follows _ scope _ _ (fetch_follows L source ref.statusList.uri)
  | crl scope source issuer cert =>
    refine .require (fun _ => ?_) (fun _ => rfl)
    exact lookupObject_follows _ scope _ _ (fetchCRL_follows L X source issuer)

/-! ## The invariant -/

abbrev ResolverThreads := Threads StatusReq resolverProtocol.Phase

structure Balanced (s : StatusResolver) (th : ResolverThreads) : Prop where
  exact : s.loader.Exact resolverLimits
  sized : ∀ c ∈ s.loader.cache.list, c.size = c.item.size
  owned : ∀ {i q f}, th i = some (q, some f) → f ∈ s.loader.flights.list
  owner : ∀ f ∈ s.loader.flights.list, ∃ i q, th i = some (q, some f)
  sole : ∀ {i j q q' f}, th i = some (q, some f) → th j = some (q', some f) → i = j

variable {s s' : StatusResolver} {th : ResolverThreads} {i : Nat}

theorem Balanced.new (now) : Balanced (newStatusResolver now) fun _ => none where
  exact := .empty
  sized := fun c hc => by cases hc
  owned := fun h => by cases h
  owner := fun f hf => by cases hf
  sole := fun h => by cases h

theorem Balanced.congr (h : Balanced s th) (hs : s'.loader = s.loader) : Balanced s' th := by
  refine ⟨?_, ?_, ?_, ?_, h.sole⟩
  · rw [hs]
    exact h.exact
  · rw [hs]
    exact h.sized
  · rw [hs]
    exact h.owned
  · rw [hs]
    exact h.owner

theorem Balanced.idle (h : Balanced s th) (hi : ∀ q f, th i ≠ some (q, some f))
    {c : Option (StatusReq × resolverProtocol.Phase)} (hc : ∀ q f, c ≠ some (q, some f)) :
    Balanced s (update th i c) := by
  have hback : ∀ {j q f}, update th i c j = some (q, some f) → th j = some (q, some f) := by
    intro j q f hj
    by_cases hji : j = i
    · subst hji
      rw [update_self] at hj
      exact absurd hj (hc q f)
    · rw [update_of_ne hji] at hj
      exact hj
  refine ⟨h.exact, h.sized, fun hj => h.owned (hback hj), ?_, fun hj hk => h.sole (hback hj) (hback hk)⟩
  intro f hf
  obtain ⟨j, q, hj⟩ := h.owner f hf
  have hji : j ≠ i := fun e => hi q f (e ▸ hj)
  exact ⟨j, q, by rw [update_of_ne hji]; exact hj⟩

variable {q : StatusReq} {f : StatusFlight} {p : ResolverPool}

theorem Balanced.open (h : Balanced s th) (hi : ∀ q f, th i ≠ some (q, some f))
    (hexact : s'.loader.Exact resolverLimits) (hsized : ∀ c ∈ s'.loader.cache.list, c.size = c.item.size)
    (hnew : ∀ g ∈ s.loader.flights.list, g.key ≠ f.key)
    (hlist : s'.loader.flights.list = f :: s.loader.flights.list) : Balanced s' (update th i (some (q, some f))) := by
  have hcases : ∀ {j q' g}, update th i (some (q, some f)) j = some (q', some g) →
      (j = i ∧ g = f) ∨ (th j = some (q', some g) ∧ g ≠ f) := by
    intro j q' g hj
    rcases Once.update_cases hj with ⟨rfl, heq⟩ | ⟨-, hj⟩
    · cases heq
      exact .inl ⟨rfl, rfl⟩
    · exact .inr ⟨hj, fun e => hnew g (h.owned hj) (by rw [e])⟩
  refine ⟨hexact, hsized, ?_, ?_, ?_⟩
  · intro j q' g hj
    rw [hlist]
    rcases hcases hj with ⟨-, rfl⟩ | ⟨hj, -⟩
    · exact mem_cons_self ..
    · exact mem_cons_of_mem _ (h.owned hj)
  · intro g hg
    rw [hlist] at hg
    rcases mem_cons.mp hg with rfl | hg
    · exact ⟨i, q, update_self ..⟩
    · obtain ⟨j, q', hj⟩ := h.owner g hg
      have hji : j ≠ i := fun e => hi q' g (e ▸ hj)
      exact ⟨j, q', by rw [update_of_ne hji]; exact hj⟩
  · intro j k q' q'' g hj hk
    rcases hcases hj with ⟨hji, hgf⟩ | ⟨hj, hne⟩ <;> rcases hcases hk with ⟨hki, hgf'⟩ | ⟨hk, hne'⟩
    · rw [hji, hki]
    · exact absurd hgf hne'
    · exact absurd hgf' hne
    · exact h.sole hj hk

theorem Balanced.close (h : Balanced s th) (hi : th i = some (q, some f))
    (hexact : s'.loader.Exact resolverLimits) (hsized : ∀ c ∈ s'.loader.cache.list, c.size = c.item.size)
    (hlist : ∀ g, g ∈ s'.loader.flights.list ↔ g ∈ s.loader.flights.list ∧ g.key ≠ f.key) :
    Balanced s' (update th i (some (q, none))) := by
  have hback : ∀ {j q' g}, update th i (some (q, none)) j = some (q', some g) →
      j ≠ i ∧ th j = some (q', some g) := by
    intro j q' g hj
    rcases Once.update_cases hj with ⟨-, heq⟩ | hj
    · cases heq
    · exact hj
  refine ⟨hexact, hsized, ?_, ?_, fun hj hk => h.sole (hback hj).2 (hback hk).2⟩
  · intro j q' g hj
    obtain ⟨hji, hj⟩ := hback hj
    refine (hlist g).mpr ⟨h.owned hj, fun hkey => hji ?_⟩
    -- a flight with the same key is the same one, so it would be the call's own
    obtain rfl := Rows.eq_of_key (h.owned hj) (h.owned hi) hkey
    exact h.sole hj hi
  · intro g hg
    obtain ⟨hg, hkey⟩ := (hlist g).mp hg
    obtain ⟨j, q', hj⟩ := h.owner g hg
    refine ⟨j, q', ?_⟩
    have hji : j ≠ i := by
      intro e
      rw [e, hi] at hj
      cases hj
      exact hkey rfl
    rw [update_of_ne hji]
    exact hj

theorem Balanced.enter (h : Balanced s th) (hi : th i = some (q, none)) (env key scope at_) :
    Balanced (resolverSem env (.enter key scope at_) s).2
      (update th i (some (q, openedFlight (resolverSem env (.enter key scope at_) s).1.2))) := by
  have hidle : ∀ q f, th i ≠ some (q, some f) := by
    intro q' f he
    rw [hi] at he
    cases he
  have hexact := h.exact.enter key scope (at_.getD s.clock)
  have hsized : ∀ b ∈ (s.loader.enter resolverLimits key scope (at_.getD s.clock)).2.cache.list, b.size = b.item.size := by
    intro b hb
    obtain ⟨c, hc, heq⟩ := (Loader.enter_cache resolverLimits s.loader key scope (at_.getD s.clock)).2 b hb
    rw [heq]
    exact h.sized c hc
  rcases Loader.enter_flights resolverLimits s.loader key scope (at_.getD s.clock) with ⟨hsame, hnot⟩ | ⟨f, hf, hk, -, hnew, hlist⟩
  · have hopen : openedFlight (resolverSem env (.enter key scope at_) s).1.2 = none := by
      unfold openedFlight
      split
      · rename_i f hf
        exact absurd hf (hnot f)
      · rfl
    rw [hopen]
    have hcalm : Balanced (resolverSem env (.enter key scope at_) s).2 th := by
      refine ⟨hexact, hsized, ?_, ?_, h.sole⟩
      · show ∀ {i q f}, th i = some (q, some f) → f ∈ (s.loader.enter _ _ _ _).2.flights.list
        rw [hsame]
        exact h.owned
      · show ∀ f ∈ (s.loader.enter _ _ _ _).2.flights.list, _
        rw [hsame]
        exact h.owner
    exact hcalm.idle hidle fun q f he => by cases he
  · have hopen : openedFlight (resolverSem env (.enter key scope at_) s).1.2 = some f := by
      show openedFlight (s.loader.enter resolverLimits key scope (at_.getD s.clock)).1 = some f
      rw [hf]
      rfl
    rw [hopen]
    exact h.open hidle hexact hsized (hk ▸ hnew) hlist

theorem Balanced.leave (h : Balanced s th) (hi : th i = some (q, some f)) (env) {r} (hr : Sized r) :
    Balanced (resolverSem env (.leave f r) s).2 (update th i (some (q, none))) := by
  have hdone := Loader.leave_delivered resolverLimits (evictOrder env.order) s.loader f s.clock (r.map (stampUse s.clock))
  refine h.close hi (h.exact.leave (evictOrder env.order) (h.owned hi) s.clock _) ?_ hdone.flights
  intro b hb
  rcases hdone.cache b hb with hb | ⟨l, hl, -, rfl⟩
  · exact h.sized b hb
  · cases r with
    | error e => cases hl
    | ok l' =>
      cases hl
      have hsize := hr l' rfl
      unfold stampUse
      split
      · exact hsize
      · exact hsize

theorem balanced_kept (evs) : Kept (resolverSystem L X) resolverProtocol (fun _ => none) Landed
    (fun _ _ _ _ => True) evs fun s th _ => Balanced s th where
  start := by
    intro s th log i q h hi
    refine h.idle (fun q f he => ?_) (fun q f he => by cases he)
    rw [hi] at he
    cases he
  step := by
    intro s th log i q φ op f env h hi hs _
    have hsame : update th i (some (q, φ)) = th := by
      rw [← hi]
      exact update_eq_self ..
    cases hs with
    | ctxErr | now | await f | fetchNow f =>
      rw [hsame]
      exact h
    | get f uri =>
      rw [hsame]
      refine h.congr ?_
      cases hr : env.response <;> simp only [resolverSystem, resolverSem, hr]
    | enter key scope at_ => exact h.enter hi env key scope at_
    | leave f hr => exact h.leave hi env hr
  finish := by
    intro s th log i q φ r h hi hr
    obtain rfl : φ = none := hr
    refine h.idle (fun q f he => ?_) (fun q f he => by cases he)
    rw [hi] at he
    cases he
  other := fun n _ h => h.congr rfl

/-! ## Every run -/

theorem fetching_iff (ht : Tracks resolverProtocol Landed p.calls th) {i} :
    fetching p i = some f ↔ ∃ q, th i = some (q, some f) := by
  have hphase : ∀ (q : StatusReq) (φ : resolverProtocol.Phase), (∃ q', some (q, φ) = some (q', some f)) ↔ φ = some f := by
    intro q φ
    constructor
    · intro ⟨q', h⟩
      cases h
      rfl
    · intro h
      subst h
      exact ⟨q, rfl⟩
  have hi := ht i
  unfold fetching Pool.next
  cases hcall : p.calls i with
  | none =>
    rw [hcall] at hi
    rw [hi]
    simp
  | some c =>
    obtain ⟨q, pr⟩ := c
    rw [hcall] at hi
    obtain ⟨φ, hφ, hf⟩ := hi
    rw [hφ, hphase q φ]
    cases pr with
    | ret a | fail e =>
      obtain rfl : φ = none := hf
      simp
    | ask op k =>
      obtain ⟨g, hs, -⟩ := hf
      cases hs <;> exact Iff.rfl

theorem Balanced.count (ht : Tracks resolverProtocol Landed p.calls th) (h : Balanced p.store th)
    (P) [DecidablePred P] :
    {i | ∃ f, fetching p i = some f ∧ P f}.ncard = p.store.loader.flights.list.countP fun f => P f := by
  have hnodup : (p.store.loader.flights.list.filter fun f => P f).Nodup :=
    (List.Nodup.of_map _ p.store.loader.flights.nodup).filter _
  rw [countP_eq_length_filter, ← toFinset_card_of_nodup hnodup, ← Set.ncard_coe_finset]
  refine Set.ncard_congr (fun i hi => hi.choose) ?_ ?_ ?_
  · intro i hi
    obtain ⟨hf, hP⟩ := hi.choose_spec
    obtain ⟨q, hq⟩ := (fetching_iff ht).mp hf
    simp only [coe_toFinset, Set.mem_ofPred_eq, mem_filter, decide_eq_true_eq]
    exact ⟨h.owned hq, hP⟩
  · intro i j hi hj heq
    obtain ⟨q, hq⟩ := (fetching_iff ht).mp hi.choose_spec.1
    obtain ⟨q', hq'⟩ := (fetching_iff ht).mp hj.choose_spec.1
    rw [← heq] at hq'
    exact h.sole hq hq'
  · intro f hf
    simp only [coe_toFinset, Set.mem_ofPred_eq, mem_filter, decide_eq_true_eq] at hf
    obtain ⟨i, q, hq⟩ := h.owner f hf.1
    have hi : fetching p i = some f := (fetching_iff ht).mpr ⟨q, hq⟩
    refine ⟨i, ⟨f, hi, hf.2⟩, ?_⟩
    have hspec := (⟨f, hi, hf.2⟩ : ∃ f, fetching p i = some f ∧ P f).choose_spec.1
    exact Option.some.inj (hspec.symm.trans hi)

noncomputable def fetchCount (p : ResolverPool) (P : StatusFlight → Prop) : Nat :=
  {i | ∃ f, fetching p i = some f ∧ P f}.ncard

theorem resolver_accounting_exact (now : Int) (ms : List ResolverMove) :
    let p := run (resolverSystem L X).step (Pool.init (newStatusResolver now)) ms
    let r := p.store.loader
    r.cacheBytes = ((r.cache.list.map fun c => c.item.size).sum : Nat) ∧ r.cacheBytes ≤ 16 * 1024 * 1024 ∧
      r.cache.list.length ≤ 128 ∧
      (∀ scope, r.perScope scope = fetchCount p (fun f => f.scope = scope) ∧ r.perScope scope ≤ 4) ∧
      fetchCount p (fun _ => True) = r.flights.list.length ∧ r.flights.list.length ≤ 32 ∧
      ∀ i j f g, fetching p i = some f → fetching p j = some g → f.key = g.key → i = j := by
  intro p r
  obtain ⟨th, ht, h⟩ := System.inv (resolver_follows L X) (balanced_kept L X _)
    (Trace.run_always (fun p m => Meets.always p m) (Pool.init (newStatusResolver now)) ms) (Balanced.new now)
  have hsizes : r.cache.list.map (fun c => c.item.size) = r.cache.list.map (·.size) :=
    map_congr_left fun c hc => (h.sized c hc).symm
  refine ⟨?_, h.exact.bytes_le, h.exact.entries_le, fun scope => ⟨?_, h.exact.scope_le scope⟩, ?_, h.exact.flights_le, ?_⟩
  · rw [hsizes]
    exact h.exact.bytes
  · unfold fetchCount
    rw [h.count ht]
    exact h.exact.scope scope
  · unfold fetchCount
    rw [h.count ht]
    simp only [decide_true, countP_true]
    rfl
  · intro i j f g hf hg hkey
    obtain ⟨q, hi⟩ := (fetching_iff ht).mp hf
    obtain ⟨q', hj⟩ := (fetching_iff ht).mp hg
    obtain rfl := Rows.eq_of_key (h.owned hi) (h.owned hj) hkey
    exact h.sole hi hj

end

end Clavex

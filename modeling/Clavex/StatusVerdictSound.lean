import Clavex.Rely
import Clavex.StatusResolverSound
import Mathlib.Data.Set.Function

/-!
# The verdicts of the status resolver

A list that a call decides by, whether it is cached, fetched or waited for, comes from a
response to a fetch for the same scope, source and URI whose token was accepted. Its own
deadline holds for every verdict; the cache headers of the response and the configured cache
time bound the verdicts that are read from the cache.
-/

namespace Clavex

open List Prog

/-! ## Later states -/

instance : Preorder StatusResolver where
  le s t := s.clock ≤ t.clock ∧ s.received ⊆ t.received
  le_refl s := ⟨le_refl _, List.Subset.refl _⟩
  le_trans s t u hst htu := ⟨le_trans hst.1 htu.1, List.Subset.trans hst.2 htu.2⟩

theorem resolverSem_le (env op s) : s ≤ (resolverSem env op s).2 := by
  cases op with
  | get f uri =>
    cases hr : env.response with
    | none =>
      simp only [resolverSem, hr]
      exact le_refl s
    | some response =>
      simp only [resolverSem, hr]
      exact ⟨le_refl _, subset_cons_self ..⟩
  | _ => exact ⟨le_refl _, Subset.refl _⟩

/-! ## Where a list comes from -/

structure ListFetch (K : Type) where
  response : HTTPResponse
  body : Bytes
  key : K
  (validatedAt cacheAt httpAt : Int)

section
variable {K : Type} (L : StatusLib K) (X : CRLLib)

structure Backs (s : StatusResolver) (scope : String) (source : StatusSource) (uri : String) (l : ValidatedStatusList)
    (deadline : Int) (e : ListFetch K) : Prop where
  received : (scope, uri, e.response) ∈ s.received
  body : statusBody L e.response = .ok e.body
  key : ∃ keys, source.keys L = some keys ∧ ∃ k ∈ keys, k.raw = some e.key
  accepted : validateFor L source uri e.body e.key e.validatedAt = .ok l
  deadline_eq : httpCacheDeadline e.response.caching e.httpAt
    (earlier (e.cacheAt + cacheTime source.cacheSeconds) l.freshUntil) = .ok deadline
  validatedAt_le : e.validatedAt ≤ s.clock
  cacheAt_le : e.cacheAt ≤ s.clock
  httpAt_le : e.httpAt ≤ s.clock

variable {L}

variable {scope uri : String} {source : StatusSource} {deadline : Int} {key : ObjectKey} {obj : StatusObject} {f : StatusFlight}
  {Q : Decision → StatusResolver → Prop} {judge : StatusObject → Except StatusError Unit}

theorem Backs.later {s t l e} (h : Backs L s scope source uri l deadline e) (hle : s ≤ t) :
    Backs L t scope source uri l deadline e where
  received := hle.2 h.received
  body := h.body
  key := h.key
  accepted := h.accepted
  deadline_eq := h.deadline_eq
  validatedAt_le := le_trans h.validatedAt_le hle.1
  cacheAt_le := le_trans h.cacheAt_le hle.1
  httpAt_le := le_trans h.httpAt_le hle.1

variable (L) (asked : String → StatusSource → String → Prop)

def Fetched (s : StatusResolver) (key : ObjectKey) (obj : StatusObject) (deadline : Int) : Prop :=
  ∀ l, obj = .list l → ∃ scope source uri e, asked scope source uri ∧
    key = (.list, statusCacheKey L scope source uri) ∧ Backs L s scope source uri l deadline e

structure Sourced (s : StatusResolver) : Prop where
  cached : ∀ c ∈ s.loader.cache.list, ∀ l, c.item = .list l → ∃ scope source uri e, asked scope source uri ∧
    c.key = (.list, statusCacheKey L scope source uri) ∧ Backs L s scope source uri l c.deadline e ∧ e.httpAt < c.deadline
  outcomes : ∀ f obj, (f, .ok obj) ∈ s.loader.outcomes → ∃ deadline, Fetched L asked s f.key obj deadline

variable {L asked} {s t : StatusResolver}

theorem Fetched.later (h : Fetched L asked s key obj deadline)
    (hle : s ≤ t) : Fetched L asked t key obj deadline := by
  intro l hl
  obtain ⟨scope, source, uri, e, hasked, hkey, hb⟩ := h l hl
  exact ⟨scope, source, uri, e, hasked, hkey, hb.later hle⟩

theorem Sourced.new (now) : Sourced L asked (newStatusResolver now) where
  cached := fun c hc => by cases hc
  outcomes := fun f obj h => by cases h

theorem Sourced.later (h : Sourced L asked s) (hle : s ≤ t)
    (hcache : ∀ b ∈ t.loader.cache.list, ∃ c ∈ s.loader.cache.list, b = { c with lastUse := b.lastUse })
    (hout : t.loader.outcomes = s.loader.outcomes) : Sourced L asked t where
  cached := by
    intro b hb l hl
    obtain ⟨c, hc, heq⟩ := hcache b hb
    rw [heq] at hl ⊢
    obtain ⟨scope, source, uri, e, hasked, hkey, hback, hlt⟩ := h.cached c hc l hl
    exact ⟨scope, source, uri, e, hasked, hkey, hback.later hle, hlt⟩
  outcomes := by
    intro f obj hf
    rw [hout] at hf
    obtain ⟨deadline, hd⟩ := h.outcomes f obj hf
    exact ⟨deadline, hd.later hle⟩

theorem Sourced.same (h : Sourced L asked s) (hle : s ≤ t) (hs : t.loader = s.loader) : Sourced L asked t := by
  refine h.later hle ?_ (by rw [hs])
  rw [hs]
  exact fun b hb => ⟨b, hb, rfl⟩

theorem Sourced.enter (h : Sourced L asked s) (env key scope at_) :
    Sourced L asked (resolverSem env (.enter key scope at_) s).2 := by
  obtain ⟨hout, hcache⟩ := Loader.enter_cache resolverLimits s.loader key scope (at_.getD s.clock)
  exact h.later (resolverSem_le env (.enter key scope at_) s) hcache hout

theorem Sourced.leave (h : Sourced L asked s) (env) {r}
    (hr : ∀ l, r = .ok l → Fetched L asked s f.key l.item l.deadline) :
    Sourced L asked (resolverSem env (.leave f r) s).2 := by
  have hdone := Loader.leave_delivered resolverLimits (evictOrder env.order) s.loader f s.clock (r.map (stampUse s.clock))
  have hstamp : ∀ l, (stampUse s.clock l).item = l.item ∧ (stampUse s.clock l).deadline = l.deadline := by
    intro l
    unfold stampUse
    split
    · exact ⟨rfl, rfl⟩
    · exact ⟨rfl, rfl⟩
  refine ⟨?_, ?_⟩
  · intro b hb l hl
    rcases hdone.cache b hb with hb | ⟨l', hl', hnow, rfl⟩
    · obtain ⟨scope, source, uri, e, hasked, hkey, hback, hlt⟩ := h.cached b hb l hl
      exact ⟨scope, source, uri, e, hasked, hkey, hback.later (resolverSem_le env (.leave f r) s), hlt⟩
    · cases r with
      | error e => cases hl'
      | ok l₀ =>
        cases hl'
        rw [(hstamp l₀).1] at hl
        rw [(hstamp l₀).2] at hnow ⊢
        obtain ⟨scope, source, uri, e, hasked, hkey, hback⟩ := hr l₀ rfl l hl
        -- it is cached at a time before its deadline, and not before its headers were read
        refine ⟨scope, source, uri, e, hasked, hkey, hback.later (resolverSem_le env (.leave f (.ok l₀)) s), ?_⟩
        exact lt_of_le_of_lt hback.httpAt_le hnow
  · intro g obj hg
    rw [show (resolverSem env (.leave f r) s).2.loader.outcomes = _ from hdone.outcomes] at hg
    rcases mem_cons.mp hg with heq | hg
    · cases r with
      | error e => cases heq
      | ok l₀ =>
        cases heq
        refine ⟨l₀.deadline, ?_⟩
        show Fetched L asked _ f.key (stampUse s.clock l₀).item l₀.deadline
        rw [(hstamp l₀).1]
        exact (hr l₀ rfl).later (resolverSem_le env (.leave f (.ok l₀)) s)
    · obtain ⟨deadline, hd⟩ := h.outcomes g obj hg
      exact ⟨deadline, hd.later (resolverSem_le env (.leave f r) s)⟩

/-! ## What the calls carry along -/

abbrev SettlesIn {α : Type} (L : StatusLib K) (asked : String → StatusSource → String → Prop)
    (Q : α → StatusResolver → Prop) (p : ResolverProg α) (s : StatusResolver) : Prop :=
  p.Stable resolverSem (Sourced L asked) Q s

theorem Fetches.sourced (env op s) (hop : Fetches f op) (h : Sourced L asked s) : Sourced L asked (resolverSem env op s).2 := by
  refine h.same (resolverSem_le env op s) ?_
  cases op with
  | get g uri => cases hr : env.response <;> simp only [resolverSem, hr]
  | fetchNow g => rfl
  | _ => exact hop.elim

theorem fetchNow_settled {α : Type} {Q} {k : Int → ResolverProg α}
    (hk : ∀ t, s ≤ t → SettlesIn L asked Q (k t.clock) t) : SettlesIn L asked Q (Prog.ask (.fetchNow f) k) s :=
  fun env t hle ht => ⟨Fetches.sourced env (.fetchNow f) t rfl ht, hk t hle⟩

theorem fetchResponse_settled (f uri s) :
    SettlesIn L asked (fun response t => (f.scope, uri, response) ∈ t.received) (fetchResponse L f uri) s := by
  unfold fetchResponse
  split
  · exact trivial
  intro env t hle ht
  refine ⟨Fetches.sourced env (.get f uri) t rfl ht, ?_⟩
  cases hr : env.response with
  | none =>
    simp only [resolverSem, hr]
    exact trivial
  | some response =>
    simp only [resolverSem, hr]
    exact mem_cons_self ..

theorem tryKeys_settled {body kid entry} (keys) (hentry : entry ∈ s.received) :
    SettlesIn L asked (fun l t => entry ∈ t.received ∧ ∃ k ∈ keys, ∃ key now, k.raw = some key ∧
      validateFor L source uri body key now = .ok l ∧ now ≤ t.clock) (tryKeys L f source uri body kid keys) s := by
  induction keys generalizing s with
  | nil => exact trivial
  | cons k keys ih =>
    have hrest : ∀ t, entry ∈ t.received → SettlesIn L asked (fun l t => entry ∈ t.received ∧ ∃ k' ∈ k :: keys, ∃ key now,
        k'.raw = some key ∧ validateFor L source uri body key now = .ok l ∧ now ≤ t.clock)
        (tryKeys L f source uri body kid keys) t := by
      intro t ht
      refine .mono (fun l t hl => ?_) (ih ht)
      obtain ⟨hin, k', hk', hval⟩ := hl
      exact ⟨hin, k', mem_cons_of_mem _ hk', hval⟩
    unfold tryKeys
    split
    · exact hrest s hentry
    · split
      · exact hrest s hentry
      · rename_i key hkey
        refine fetchNow_settled fun t hle => ?_
        simp only [Prog.bind]
        split
        · rename_i list hlist
          exact ⟨hle.2 hentry, k, mem_cons_self .., key, t.clock, hkey, hlist, le_refl _⟩
        · exact hrest t (hle.2 hentry)

theorem fetch_settled (hasked : asked scope source uri) (hkey : f.key = (.list, statusCacheKey L scope source uri))
    (hscope : f.scope = scope) (s) :
    SettlesIn L asked (fun l t => Fetched L asked t f.key l.item l.deadline) (fetch L source uri f) s := by
  refine (fetchResponse_settled f uri s).bind fun response t hresponse => ?_
  refine .ofExcept fun body hbody => ?_
  split
  · split
    · exact trivial
    rename_i keys hkeys
    refine (tryKeys_settled keys hresponse).bind fun l t hl => ?_
    obtain ⟨hin, k, hk, key, now, hraw, hval, hnow⟩ := hl
    refine fetchNow_settled fun t₁ hle₁ => fetchNow_settled fun t₂ hle₂ => ?_
    refine .ofExcept fun deadline hdeadline => ?_
    intro l' hl'
    cases hl'
    refine ⟨scope, source, uri, ⟨response, body, key, now, t₁.clock, t₂.clock⟩, hasked, hkey, ?_⟩
    have hle := le_trans hle₁ hle₂
    exact {
      received := hle.2 (hscope ▸ hin)
      body := hbody
      key := ⟨keys, hkeys, k, hk, hraw⟩
      accepted := hval
      deadline_eq := hdeadline
      validatedAt_le := le_trans hnow hle.1
      cacheAt_le := hle₂.1
      httpAt_le := le_refl _ }
  · exact trivial

theorem fetchCRL_settled (source issuer f s) :
    SettlesIn L asked (fun l t => Fetched L asked t f.key l.item l.deadline) (fetchCRL L X source issuer f) s := by
  have huses : ∀ {α : Type} {p : ResolverProg α} {s : StatusResolver}, p.Uses (Fetches f) →
      SettlesIn L asked (fun _ _ => True) p s :=
    fun hp => .uses (fun _ _ _ _ => trivial) resolverSem_le (fun env op s => Fetches.sourced env op s) hp trivial
  refine (huses (fetchResponse_uses L f source.uri)).bind fun response t _ => ?_
  refine .ofExcept fun body _ => .ofExcept fun parsed _ => ?_
  refine (huses (crlWindow_uses f source parsed.2)).bind fun _ t _ => ?_
  refine .ofExcept fun point _ => .require fun _ => ?_
  refine fetchNow_settled fun t _ => fetchNow_settled fun t _ => ?_
  refine (huses (revokedSerials_uses f [] parsed.2.revoked)).bind fun revoked t _ => ?_
  refine fetchNow_settled fun t _ => .ofExcept fun deadline _ => ?_
  refine fetchNow_settled fun t _ => .require fun _ => ?_
  intro l hl
  cases hl

theorem settle_settled
    (hobj : Fetched L asked s key obj deadline)
    (hQ : ∀ t now, Fetched L asked t key obj deadline → now < obj.freshUntil → judge obj = .ok () → Q ⟨now, false⟩ t) :
    SettlesIn L asked Q (settle judge obj) s := by
  intro env t hle ht
  refine ⟨ht, ?_⟩
  refine .require fun hfresh => .ofExcept fun u hu => ?_
  exact hQ t t.clock (hobj.later hle) hfresh hu

theorem lookupObject_settled
    {load at_} (hload : ∀ f t, f.key = key → f.scope = scope →
      SettlesIn L asked (fun l t => Fetched L asked t f.key l.item l.deadline) (load f) t) (hcached : ∀ t c now, Sourced L asked t → c ∈ t.loader.cache.list → c.key = key → now < c.deadline →
      judge c.item = .ok () → ∀ u, t ≤ u → Q ⟨now, true⟩ u) (hsettled : ∀ t obj deadline now, Fetched L asked t key obj deadline → now < obj.freshUntil → judge obj = .ok () →
      Q ⟨now, false⟩ t) (s) : SettlesIn L asked Q (lookupObject key scope at_ load judge) s := by
  intro env t hle ht
  refine ⟨ht.enter env key scope at_, ?_⟩
  have hle' := resolverSem_le env (.enter key scope at_) t
  have hadm := Loader.enter_answers resolverLimits t.loader key scope (at_.getD t.clock)
  rw [show (resolverSem env (.enter key scope at_) t).1 = (at_.getD t.clock, (t.loader.enter resolverLimits key scope
    (at_.getD t.clock)).1) from rfl]
  cases hres : (t.loader.enter resolverLimits key scope (at_.getD t.clock)).1 with
  | hit c =>
    rw [hres] at hadm
    obtain ⟨hc, hk, hnow⟩ := hadm
    refine .ofExcept fun u hu => ?_
    exact hcached t c _ ht hc hk hnow hu _ hle'
  | busy => exact trivial
  | wait f =>
    rw [hres] at hadm
    obtain rfl : f.key = key := hadm
    intro env' u hle'' hu
    refine ⟨hu, ?_⟩
    simp only [Prog.bind]
    split
    · exact trivial
    · exact trivial
    · rename_i obj hobj
      have hout : u.loader.outcome f = some (.ok obj) := by
        simp only [resolverSem] at hobj
        split at hobj
        · cases hobj
        · exact hobj
      obtain ⟨deadline, hd⟩ := hu.outcomes f obj (Loader.outcome_mem hout)
      exact settle_settled hd fun t now => hsettled t obj deadline now
  | opened f =>
    rw [hres] at hadm
    obtain ⟨rfl, hscope⟩ := hadm
    refine (hload f _ rfl hscope).attempt.bind fun r u hr => ?_
    intro env' v hle'' hv
    refine ⟨hv.leave env' fun l hl => (hr l hl).later hle'', ?_⟩
    cases r with
    | error e => exact trivial
    | ok l =>
      have hl := ((hr l rfl).later hle'').later (resolverSem_le env' (.leave f (.ok l)) v)
      exact settle_settled hl fun t now => hsettled t l.item l.deadline now

/-! ## Every run -/

structure FoundValid (L : StatusLib K) (s : StatusResolver) (scope : String) (source : StatusSource) (ref : StatusClaim)
    (d : Decision) (l : ValidatedStatusList) (deadline : Int) (e : ListFetch K) : Prop where
  backs : Backs L s scope source ref.statusList.uri l deadline e
  entry : l.check ref.statusList.idx = .ok ()
  fresh : d.decidedAt < l.freshUntil
  reused : d.cached = true → d.decidedAt < deadline ∧ e.httpAt < deadline

def VerdictReturned (L : StatusLib K) : StatusReq → Decision → StatusResolver → Prop
  | .check scope source ref, d, s => ∃ l deadline e, FoundValid L s scope source ref d l deadline e
  | .crl .., _, _ => True

theorem VerdictReturned.later (q d s t) (hle : s ≤ t) (h : VerdictReturned L q d s) : VerdictReturned L q d t := by
  cases q with
  | crl scope source issuer cert => exact trivial
  | check scope source ref =>
    obtain ⟨l, deadline, e, hb, hentry, hfresh, hreused⟩ := h
    exact ⟨l, deadline, e, hb.later hle, hentry, hfresh, hreused⟩

def KeysApart (L : StatusLib K) (asked : String → StatusSource → String → Prop) : Prop :=
  ∀ {scope source uri scope' source' uri'}, asked scope source uri → asked scope' source' uri' →
    statusCacheKey L scope source uri = statusCacheKey L scope' source' uri' →
    scope = scope' ∧ source = source' ∧ uri = uri'

theorem check_settled (hapart : KeysApart L asked) {ref} (hasked : asked scope source ref.statusList.uri) (s) :
    SettlesIn L asked (VerdictReturned L (.check scope source ref)) (check L scope source ref) s := by
  intro env t hle ht
  refine ⟨ht, ?_⟩
  refine .require fun _ => .require fun _ => .require fun _ => ?_
  refine .require fun _ => .require fun _ => ?_
  intro env' u hle' hu
  refine ⟨hu, lookupObject_settled ?_ ?_ ?_ _⟩
  · intro f v hkey hscope
    exact fetch_settled hasked hkey hscope v
  · intro v c now hv hc hkey hnow hjudge w hvw
    cases hitem : c.item with
    | crl crl =>
      rw [hitem] at hjudge
      cases hjudge
    | list l =>
      rw [hitem] at hjudge
      obtain ⟨scope', source', uri', e, hasked', hkey', hback, hlt⟩ := hv.cached c hc l hitem
      rw [hkey] at hkey'
      obtain ⟨rfl, rfl, rfl⟩ := hapart hasked hasked' (Prod.mk.inj hkey').2
      have hfresh : now < l.freshUntil := by
        obtain ⟨hbefore, -⟩ := httpCacheDeadline_cacheable hback.deadline_eq hlt hnow
        exact lt_of_lt_of_le hbefore (earlier_le_right ..)
      exact ⟨l, c.deadline, e, hback.later hvw, hjudge, hfresh, fun _ => ⟨hnow, hlt⟩⟩
  · intro v obj deadline now hobj hnow hjudge
    cases obj with
    | crl crl => cases hjudge
    | list l =>
      obtain ⟨scope', source', uri', e, hasked', hkey', hback⟩ := hobj l rfl
      obtain ⟨rfl, rfl, rfl⟩ := hapart hasked hasked' (Prod.mk.inj hkey').2
      exact ⟨l, deadline, e, hback, hjudge, hnow, fun h => by cases h⟩

def askedIn (ms : List ResolverMove) (scope : String) (source : StatusSource) (uri : String) : Prop :=
  ∃ i idx, .start i (.check scope source (buildStatusClaim uri idx)) ∈ ms

def keyInputs (ms : List ResolverMove) : Set Json :=
  {j | ∃ scope source uri, askedIn ms scope source uri ∧ j = .arr [.str scope, source.json, .str uri]}

theorem keysApart_of_digest {ms} (h : Set.InjOn L.digest (keyInputs ms)) : KeysApart L (askedIn ms) := by
  intro scope source uri scope' source' uri' hasked hasked' hkey
  have heq := h ⟨_, _, _, hasked, rfl⟩ ⟨_, _, _, hasked', rfl⟩ hkey
  simp only [Json.arr.injEq, cons.injEq, Json.str.injEq, and_true] at heq
  exact ⟨heq.1, StatusSource.json_inj heq.2.1, heq.2.2⟩

variable (L) in
/-- A credential was found valid by a list token that was fetched for the same scope, source
and URI and accepted, at a time when the token was fresh. If the list was cached, it was also
a time until which it could be. -/
def VerdictBacked (p : ResolverPool) (scope : String) (source : StatusSource) (ref : StatusClaim) (d : Decision) : Prop :=
  ∃ l deadline e head token, Backs L p.store scope source ref.statusList.uri l deadline e ∧
    L.parseJWS e.body = some [head] ∧ L.parseJWT head.alg e.key e.body = some token ∧
    token.sub = ref.statusList.uri ∧
    0 ≤ ref.statusList.idx ∧ ref.statusList.idx < (l.data.length * (8 / l.bits) : Nat) ∧
    l.entry ref.statusList.idx.toNat = 0 ∧
    FreshAt token e.validatedAt source.maxAge d.decidedAt ∧
    (d.cached = true → d.decidedAt < e.cacheAt + cacheTime source.cacheSeconds ∧
      CacheableAt e.response.caching e.httpAt d.decidedAt)

theorem valid_verdict_backed (L : StatusLib K) (X : CRLLib) (now : Int) (ms : List ResolverMove)
    (hdigest : Set.InjOn L.digest (keyInputs ms)) (scope : String) (source : StatusSource) (ref : StatusClaim) (d : Decision)
    (h : (.check scope source ref, .ok d) ∈
      (run (resolverSystem L X).step (Pool.init (newStatusResolver now)) ms).log) :
    VerdictBacked L (run (resolverSystem L X).step (Pool.init (newStatusResolver now)) ms) scope source ref d := by
  have hmain : ∀ i q s, .start i q ∈ ms →
      ((resolverSystem L X).main q).Stable (resolverSystem L X).sem (Sourced L (askedIn ms)) (VerdictReturned L q) s := by
    intro i q s hq
    cases q with
    | check scope source ref => exact check_settled (keysApart_of_digest hdigest) ⟨i, ref.statusList.idx, hq⟩ s
    | crl scope source issuer cert =>
      refine .require fun _ => lookupObject_settled ?_ ?_ ?_ s
      · exact fun f t _ _ => fetchCRL_settled X source issuer f t
      · exact fun _ _ _ _ _ _ _ _ _ _ => trivial
      · exact fun _ _ _ _ _ _ _ => trivial
  have hrun : Trace (resolverSystem L X).step (fun _ _ => True) (Pool.init (newStatusResolver now)) ms
      (run (resolverSystem L X).step (Pool.init (newStatusResolver now)) ms) :=
    Trace.run_always (fun _ _ => trivial) _ ms
  have htick : ∀ (n : Nat) (s : StatusResolver), Sourced L (askedIn ms) s →
      Sourced L (askedIn ms) ((resolverSystem L X).other n s) ∧ s ≤ (resolverSystem L X).other n s := by
    intro n s hs
    have hle : s ≤ (resolverSystem L X).other n s :=
      ⟨Int.le_add_of_nonneg_right (Int.natCast_nonneg n), Subset.refl _⟩
    exact ⟨hs.same hle rfl, hle⟩
  obtain ⟨-, hlog⟩ := System.stable VerdictReturned.later resolverSem_le htick hmain hrun
    (Sourced.new now)
  obtain ⟨l, deadline, e, hb, hentry, hfresh, hreused⟩ := hlog _ d h
  obtain ⟨head, token, hhead, htoken, hsub, hfreshAt⟩ := validateStatusListToken_ok hb.accepted
  obtain ⟨hpos, hlen, hzero⟩ := ValidatedStatusList.check_ok hentry
  refine ⟨l, deadline, e, head, token, hb, hhead, htoken, hsub, hpos, hlen, hzero, hfreshAt _ hfresh, fun hc => ?_⟩
  obtain ⟨hnow, hlt⟩ := hreused hc
  obtain ⟨hbefore, hcacheable⟩ := httpCacheDeadline_cacheable hb.deadline_eq hlt hnow
  exact ⟨lt_of_lt_of_le hbefore (earlier_le_left ..), hcacheable⟩

end

/-! ## A server of one list -/

def demoListURI : String := "https://s.example/1"

def demoListToken : StatusToken where
  sub := demoListURI
  iat := some 0
  statusList := some (.obj [("bits", .num 1 0), ("lst", .str "eJxjAAAAAQAB")])

def demoStatus : StatusLib Unit where
  parseURL := fun s => if s = demoListURI then some ⟨"https", "s.example", "s.example", false, "", "", ""⟩ else none
  parseSet := fun _ => some [⟨"k", some false, "EC", some ()⟩]
  keyKind := fun _ => .ec true
  parseJWS := fun raw => if raw = [1] then some [⟨"statuslist+jwt", [], "ES256", "k"⟩] else none
  parseJWT := fun _ _ raw => if raw = [1] then some demoListToken else none
  decodeBase64 := fun s => if s = "eJxjAAAAAQAB" then some [120, 156, 99, 0, 0, 0, 1, 0, 1] else none
  inflate := fun b => if b = [120, 156, 99, 0, 0, 0, 1, 0, 1] then some ([0], 0) else none
  parseMediaType := fun s => some s
  digest := fun j =>
    match j with
    | .arr [.str scope, _, .str uri] => scope ++ " " ++ uri
    | _ => ""

def demoCRL : CRLLib := ⟨fun _ => "", fun _ => none, fun _ => none, fun _ _ => false, fun _ => none⟩

def demoStatusSource : StatusSource where
  format := "dc+sd-jwt"
  credentialIssuer := "https://issuer.example"
  credentialType := "id"
  statusIssuer := "https://s.example"
  listURIs := [demoListURI]
  jwks := .obj []

def demoLookup : StatusReq := .check "org" demoStatusSource (buildStatusClaim demoListURI 0)

def listResponse (cacheControl : String) : HTTPResponse where
  contentType := "application/statuslist+jwt"
  caching := ⟨"", cacheControl⟩
  body := [1]

def listAnswer (cacheControl : String) : ResolverEnv :=
  ⟨false, some (listResponse cacheControl), ⟨fun _ l => l, fun _ _ => .refl _⟩⟩

def fetchMoves (cacheControl : String) : List ResolverMove :=
  .start 0 demoLookup :: List.replicate 10 (.advance 0 (listAnswer cacheControl))

def reuseMoves : List ResolverMove :=
  fetchMoves "max-age=30" ++
    .other 5000000000 :: .start 1 demoLookup :: List.replicate 4 (.advance 1 (listAnswer "max-age=30"))

def listRun (ms : List ResolverMove) : ResolverPool :=
  run (resolverSystem demoStatus demoCRL).step (Pool.init (newStatusResolver 0)) ms

theorem reuseMoves_keys : Set.InjOn demoStatus.digest (keyInputs reuseMoves) := by
  have hone : ∀ scope source uri, askedIn reuseMoves scope source uri →
      scope = "org" ∧ source = demoStatusSource ∧ uri = demoListURI := by
    intro scope source uri hasked
    obtain ⟨i, idx, hmem⟩ := hasked
    simp only [reuseMoves, fetchMoves, demoLookup, buildStatusClaim, cons_append, mem_cons, mem_append,
      mem_replicate, PoolMove.start.injEq, StatusReq.check.injEq, StatusClaim.mk.injEq, StatusRef.mk.injEq,
      reduceCtorEq, and_false, false_or, or_false] at hmem
    rcases hmem with ⟨-, hscope, hsource, -, huri⟩ | ⟨-, hscope, hsource, -, huri⟩
    · exact ⟨hscope, hsource, huri⟩
    · exact ⟨hscope, hsource, huri⟩
  refine Set.Subsingleton.injOn (fun j hj j' hj' => ?_) _
  obtain ⟨scope, source, uri, hasked, rfl⟩ := hj
  obtain ⟨scope', source', uri', hasked', rfl⟩ := hj'
  obtain ⟨rfl, rfl, rfl⟩ := hone _ _ _ hasked
  obtain ⟨rfl, rfl, rfl⟩ := hone _ _ _ hasked'
  rfl

theorem reuseMoves_log :
    (listRun reuseMoves).log = [(demoLookup, .ok ⟨5000000000, true⟩), (demoLookup, .ok ⟨0, false⟩)] := by
  with_unfolding_all rfl

theorem reused_verdict_backed : (demoLookup, .ok ⟨5000000000, true⟩) ∈ (listRun reuseMoves).log ∧
    VerdictBacked demoStatus (listRun reuseMoves) "org" demoStatusSource (buildStatusClaim demoListURI 0)
      ⟨5000000000, true⟩ := by
  have hmem : (demoLookup, .ok ⟨5000000000, true⟩) ∈ (listRun reuseMoves).log := by
    rw [reuseMoves_log]
    exact mem_cons_self ..
  exact ⟨hmem, valid_verdict_backed demoStatus demoCRL 0 reuseMoves reuseMoves_keys _ _ _ _ hmem⟩

theorem noStore_log : (listRun (fetchMoves "no-store")).log = [(demoLookup, .ok ⟨0, false⟩)] := by
  with_unfolding_all rfl

theorem noStore_received :
    (listRun (fetchMoves "no-store")).store.received = [("org", demoListURI, listResponse "no-store")] := by
  with_unfolding_all rfl

theorem noStore_deadline {receivedAt deadline u}
    (h : httpCacheDeadline (listResponse "no-store").caching receivedAt deadline = .ok u) : u = receivedAt := by
  have hstore : ∀ age, applyDirectives age receivedAt ["no-store"] deadline = .ok receivedAt := fun age => by
    with_unfolding_all rfl
  have hdeadline : httpCacheDeadline (listResponse "no-store").caching receivedAt deadline =
      applyDirectives 0 receivedAt ["no-store"] deadline := by
    with_unfolding_all rfl
  rw [hdeadline, hstore] at h
  cases h
  rfl

/-- The call that fetches a list decides by it even if it may not be cached at all. -/
theorem uncacheable_verdict_used : (demoLookup, .ok ⟨0, false⟩) ∈ (listRun (fetchMoves "no-store")).log ∧
    ¬ ∃ l deadline e, Backs demoStatus (listRun (fetchMoves "no-store")).store "org" demoStatusSource demoListURI l
      deadline e ∧ 0 < deadline := by
  refine ⟨?_, ?_⟩
  · rw [noStore_log]
    exact mem_cons_self ..
  · intro ⟨l, deadline, e, hb, hpos⟩
    have hresponse := hb.received
    rw [noStore_received, mem_singleton] at hresponse
    have hcaching : e.response.caching = (listResponse "no-store").caching := by
      rw [(Prod.mk.inj (Prod.mk.inj hresponse).2).2]
    have hdeadline := hb.deadline_eq
    rw [hcaching] at hdeadline
    have hclock : (listRun (fetchMoves "no-store")).store.clock = 0 := by
      with_unfolding_all rfl
    have hread := hb.httpAt_le
    rw [hclock, ← noStore_deadline hdeadline] at hread
    omega

end Clavex

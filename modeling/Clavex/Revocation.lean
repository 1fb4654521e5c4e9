import Clavex.Token
import Clavex.Cell
import Clavex.Trace
import Mathlib.Logic.Function.Basic
import Mathlib.Data.List.Nodup

/-!
# Revocation and introspection

`Revoke` over the revocation list and the refresh token table, and then `Revoke`
and `Introspect` of one access token, one Redis command at a time, over the list
and the introspection cache.
-/

namespace Clavex

open Trace

/-! ## Revoke -/

structure RefreshToken where
  id : Nat
  tokenHash : String
  revokedAt : Option Int := none

structure RefreshTable where
  rows : List RefreshToken
  ids : (rows.map (·.id)).Nodup
  hashes : (rows.map (·.tokenHash)).Nodup

namespace RefreshTable

def getByHash (t : RefreshTable) (hash : String) : Option RefreshToken := t.rows.find? (·.tokenHash == hash)

def revokeRow (id : Nat) (now : Int) (r : RefreshToken) : RefreshToken :=
  if r.id = id then { r with revokedAt := some now } else r

def revokeByID (t : RefreshTable) (id : Nat) (now : Int) : RefreshTable where
  rows := t.rows.map (revokeRow id now)
  ids := by
    have : (fun r : RefreshToken => r.id) ∘ revokeRow id now = (·.id) := by
      funext r; simp only [Function.comp, revokeRow]; split <;> rfl
    rw [List.map_map, this]
    exact t.ids
  hashes := by
    have : (fun r : RefreshToken => r.tokenHash) ∘ revokeRow id now = (·.tokenHash) := by
      funext r; simp only [Function.comp, revokeRow]; split <;> rfl
    rw [List.map_map, this]
    exact t.hashes

end RefreshTable

structure TokenStores where
  revoked : String → Cell Unit
  refresh : RefreshTable
  cached : String → Bool

structure RevokeDeps where
  tokenConfig : TokenConfig
  hashString : String → String

structure StoreFaults where
  (setFails getFails updateFails : Bool := false)

/-- `time.Until(exp)`; a missing `exp` is the zero time, long past, so nothing remains. -/
def AccessToken.remaining (t : AccessToken) (now : Int) : Int :=
  match t.exp with
  | some e => e - now
  | none => 0

def revokeAccessToken (d : RevokeDeps) (now : Int) (f : StoreFaults) (st : TokenStores) (raw : String) :
    TokenStores × Bool :=
  match d.tokenConfig.verifyAccessToken now raw with
  | none => (st, false)
  | some tok =>
    if tok.remaining now ≤ 0 then (st, false)
    else if f.setFails then (st, true)
    else ({ st with revoked := Function.update st.revoked tok.jti (.set () (some (now + tok.remaining now))) }, false)

def revokeRefreshTokenByValue (d : RevokeDeps) (now : Int) (f : StoreFaults) (st : TokenStores) (raw : String) :
    TokenStores :=
  match if f.getFails then none else st.refresh.getByHash (d.hashString raw) with
  | none => st
  | some rt => if f.updateFails then st else { st with refresh := st.refresh.revokeByID rt.id now }

def revoke (d : RevokeDeps) (now : Int) (f : StoreFaults) (st : TokenStores) (raw hint : String) : TokenStores :=
  if hint = "refresh_token" then revokeRefreshTokenByValue d now f st raw
  else
    match revokeAccessToken d now f st raw with
    | (st, true) => revokeRefreshTokenByValue d now f st raw
    | (st, false) => { st with cached := Function.update st.cached raw false }

/-! ## Introspect and Revoke of one token -/

structure IntrospectionResponse where
  active : Bool
  (jti iss : String := "")
  sub : Option UUID := none
  aud : List String := []
  (exp nbf iat : Option Int := none)
  (tokenType scope clientID username : String := "")
  orgID : Option UUID := none

def inactive : IntrospectionResponse := { active := false }

def activeResponse (t : AccessToken) : IntrospectionResponse :=
  { active := true, jti := t.jti, iss := t.issuer, sub := t.sub, aud := t.aud, exp := t.exp, nbf := t.iat, iat := t.iat
    tokenType := "Bearer", scope := t.scope, clientID := t.aud.headD "", username := t.email, orgID := t.orgID }

def cacheTTL (r : IntrospectionResponse) (now : Int) : Int :=
  match r.active, r.exp with
  | true, some e => if 0 < e ∧ 0 < e - now then (if 30 < e - now then 30 else e - now) else 10
  | _, _ => 10

inductive TokenCall where
  | idle
  | introspecting (after : Bool)
  | verifying (after : Bool)
  | checking (after : Bool) (tok : AccessToken)
  | caching (after : Bool) (resp : IntrospectionResponse)
  | revoking (hint : String)
  | listing (ttl : Int)
  | deleting
  | answering

inductive TokenEvent where
  | revoked (call : Nat)
  | answered (call : Nat) (after : Bool) (resp : IntrospectionResponse)

def TokenEvent.isRevoked : TokenEvent → Bool
  | .revoked _ => true
  | _ => false

structure TokenDeps where
  tokenConfig : TokenConfig
  raw : String

structure TokenState where
  now : Int
  revoked : Cell Unit
  cache : Cell IntrospectionResponse
  calls : Nat → TokenCall
  log : List TokenEvent

inductive TokenMove where
  | tick (dt : Nat)
  | introspect (i : Nat)
  | revoke (i : Nat) (hint : String)
  | advance (i : Nat) (stepUp fails : Bool)

namespace TokenState

def setCall (s : TokenState) (i : Nat) (c : TokenCall) : TokenState :=
  { s with calls := Function.update s.calls i c }

def finish (s : TokenState) (i : Nat) (e : TokenEvent) : TokenState :=
  { (s.setCall i .idle) with log := e :: s.log }

def advance (d : TokenDeps) (s : TokenState) (i : Nat) (stepUp fails : Bool) : TokenState :=
  match s.calls i with
  | .idle => s
  | .introspecting after =>
    match if fails then none else s.cache.get s.now with
    | some resp => s.finish i (.answered i after resp)
    | none => s.setCall i (.verifying after)
  | .verifying after =>
    match d.tokenConfig.verifyAccessToken s.now d.raw with
    | none => s.setCall i (.caching after inactive)
    | some tok => s.setCall i (.checking after tok)
  | .checking after tok =>
    -- an error of `IsRevoked` reads as not revoked
    if !fails && (s.revoked.get s.now).isSome then s.setCall i (.caching after inactive)
    else if stepUp then s.finish i (.answered i after (activeResponse tok))
    else s.setCall i (.caching after (activeResponse tok))
  | .caching after resp =>
    { (s.finish i (.answered i after resp)) with
      cache := if fails then s.cache else .set resp (some (s.now + cacheTTL resp s.now)) }
  | .revoking hint =>
    if hint = "refresh_token" then s.setCall i .answering
    else
      match d.tokenConfig.verifyAccessToken s.now d.raw with
      | none => s.setCall i .deleting
      | some tok =>
        s.setCall i (if tok.remaining s.now ≤ 0 then .deleting else .listing (tok.remaining s.now))
  | .listing ttl =>
    -- an error sends `Revoke` to the refresh token table, and it answers 200
    if fails then s.setCall i .answering
    else { (s.setCall i .deleting) with revoked := .set () (some (s.now + ttl)) }
  | .deleting => { (s.setCall i .answering) with cache := if fails then s.cache else .empty }
  | .answering => s.finish i (.revoked i)

end TokenState

def tokenStep (d : TokenDeps) (s : TokenState) : TokenMove → TokenState
  | .tick dt => { s with now := s.now + dt }
  | .introspect i =>
    match s.calls i with
    | .idle => s.setCall i (.introspecting (s.log.any (·.isRevoked)))
    | _ => s
  | .revoke i hint =>
    match s.calls i with
    | .idle => s.setCall i (.revoking hint)
    | _ => s
  | .advance i stepUp fails => s.advance d i stepUp fails

/-! ## What a revocation achieves -/

open List Function

/-- Stored refresh tokens with this value are revoked, and an access token the string is
accepted as is on the list. -/
def Dead (d : RevokeDeps) (now : Int) (st : TokenStores) (raw : String) : Prop :=
  (∀ r ∈ st.refresh.rows, r.tokenHash = d.hashString raw → r.revokedAt.isSome = true) ∧
    ∀ tok, d.tokenConfig.verifyAccessToken now raw = some tok → ((st.revoked tok.jti).get now).isSome = true

theorem revokeRow_hash (id now r) : (RefreshTable.revokeRow id now r).tokenHash = r.tokenHash := by
  unfold RefreshTable.revokeRow; split <;> rfl

theorem revokeRefreshTokenByValue_revoked (d now st raw) :
    ∀ r ∈ (revokeRefreshTokenByValue d now {} st raw).refresh.rows, r.tokenHash = d.hashString raw →
      r.revokedAt.isSome = true := by
  intro r hr hhash
  unfold revokeRefreshTokenByValue at hr
  cases hg : st.refresh.getByHash (d.hashString raw) with
  | none =>
    rw [hg] at hr
    exact absurd (find?_eq_none.mp hg r hr) (by simp [hhash])
  | some rt =>
    rw [hg] at hr
    obtain ⟨r₀, hr₀, rfl⟩ := mem_map.mp hr
    rw [revokeRow_hash] at hhash
    have hrt : rt.tokenHash = d.hashString raw := by simpa using find?_some hg
    have : r₀ = rt := inj_on_of_nodup_map st.refresh.hashes hr₀ (mem_of_find?_eq_some hg)
      (hhash.trans hrt.symm)
    simp [RefreshTable.revokeRow, this]

theorem revokeRefreshTokenByValue_list (d now f st raw) : (revokeRefreshTokenByValue d now f st raw).revoked = st.revoked := by
  unfold revokeRefreshTokenByValue
  split
  · rfl
  · split <;> rfl

theorem revokeAccessToken_spec (d now st raw) :
    (revokeAccessToken d now {} st raw).2 = false ∧ (revokeAccessToken d now {} st raw).1.refresh = st.refresh ∧
      ∀ tok, d.tokenConfig.verifyAccessToken now raw = some tok →
        ((((revokeAccessToken d now {} st raw).1.revoked tok.jti).get now).isSome = true ↔
          tok.exp.isSome = true ∨ ((st.revoked tok.jti).get now).isSome = true) := by
  unfold revokeAccessToken
  cases hv : d.tokenConfig.verifyAccessToken now raw with
  | none => exact ⟨rfl, rfl, fun _ h => by cases h⟩
  | some tok =>
    simp only [Option.some.injEq, forall_eq']
    cases he : tok.exp with
    | none => simp [AccessToken.remaining, he]
    | some e =>
      have hlt := verifyAccessToken_exp hv he
      have hrem : tok.remaining now = e - now := by simp [AccessToken.remaining, he]
      have hpos : ¬ e - now ≤ 0 := by omega
      simp [hrem, hpos, Cell.get_set_some _ hlt]

/-- A token is dead after `Revoke` exactly when the hint fits it: `refresh_token` for a
refresh token that is not revoked yet, anything else for an access token that is not on
the list yet, which must also have an expiry. -/
theorem revoke_dead_iff (d : RevokeDeps) (now : Int) (st : TokenStores) (raw hint : String) :
    Dead d now (revoke d now {} st raw hint) raw ↔
      (hint = "refresh_token" ∨
        ∀ r ∈ st.refresh.rows, r.tokenHash = d.hashString raw → r.revokedAt.isSome = true) ∧
      ∀ tok, d.tokenConfig.verifyAccessToken now raw = some tok →
        (hint ≠ "refresh_token" ∧ tok.exp.isSome = true) ∨ ((st.revoked tok.jti).get now).isSome = true := by
  unfold Dead revoke
  by_cases hh : hint = "refresh_token"
  · simp only [hh, ite_true, true_or, true_and, ne_eq, not_true_eq_false, false_and, false_or,
      revokeRefreshTokenByValue_list]
    exact ⟨fun h => h.2, fun h => ⟨revokeRefreshTokenByValue_revoked d now st raw, h⟩⟩
  · obtain ⟨hflag, href, hlist⟩ := revokeAccessToken_spec d now st raw
    generalize revokeAccessToken d now {} st raw = out at hflag href hlist
    obtain ⟨st', b⟩ := out
    cases hflag
    simp only at href hlist
    simp only [hh, ite_false, false_or, ne_eq, not_false_eq_true, true_and, href]
    exact and_congr_right fun _ => forall_congr' fun tok => imp_congr_right (hlist tok)

def revokeDemo : RevokeDeps :=
  ⟨⟨"https://id.acme.eu/acme", fun raw =>
    if raw = "at" then
      some { jti := "j1", sub := some 7, orgID := some 1, issuer := "https://id.acme.eu/acme", exp := some 3600 }
    else none⟩, id⟩

def demoStores : TokenStores := ⟨fun _ => .empty, ⟨[⟨0, "rt", none⟩], by decide, by decide⟩, fun _ => false⟩

theorem revoke_misses :
    ¬ Dead revokeDemo 0 (revoke revokeDemo 0 {} demoStores "rt" "") "rt" ∧
      ¬ Dead revokeDemo 0 (revoke revokeDemo 0 {} demoStores "at" "refresh_token") "at" := by
  constructor
  · intro h
    have := h.1 ⟨0, "rt", none⟩ (mem_singleton_self _) rfl
    cases this
  · intro h
    have := h.2 _ rfl
    revert this
    decide

/-! ## Introspect and Revoke of one token -/

/-- A `Revoke` has returned, or has only its answer left. -/
def Past (s : TokenState) : Prop := s.log.any (·.isRevoked) = true ∨ ∃ j, s.calls j = .answering

/-- What the commands of a call need: `Revoke` is called with a hint other than
`refresh_token` on a token that has an expiry and has started, the commands on the list
and the deletion of the cache entry do not fail, the token does not expire between its
verification and the lookup of the list, and no active answer is cached once a `Revoke`
has deleted the entry. -/
def OrderedCall (d : TokenDeps) (s : TokenState) (fails : Bool) : TokenCall → Prop
  | .revoking hint => hint ≠ "refresh_token" ∧
      ∀ tok, d.tokenConfig.parse d.raw = some tok → tok.exp.isSome = true ∧ tok.startedAt s.now = true
  | .listing _ | .deleting => fails = false
  | .checking _ tok => fails = false ∧ ∀ e, tok.exp = some e → s.now < e
  | .caching _ resp => resp.active = true → ¬ Past s
  | _ => True

def Ordered (d : TokenDeps) (s : TokenState) : TokenMove → Prop
  | .advance i _ fails => OrderedCall d s fails (s.calls i)
  | _ => True

def Killed (d : TokenDeps) (s : TokenState) : Prop :=
  ∀ t, s.now ≤ t → d.tokenConfig.verifyAccessToken t d.raw = none ∨ (s.revoked.get t).isSome = true

def CallInv (d : TokenDeps) (s : TokenState) : TokenCall → Prop
  | .introspecting after | .verifying after => after = true → s.log.any (·.isRevoked) = true
  | .checking after tok => (after = true → s.log.any (·.isRevoked) = true) ∧
      d.tokenConfig.parse d.raw = some tok ∧ tok.issuer = d.tokenConfig.issuer ∧ tok.startedAt s.now = true
  | .caching after resp => after = true → resp.active = false
  | .listing ttl => ∃ tok e, d.tokenConfig.parse d.raw = some tok ∧ tok.exp = some e ∧ e ≤ s.now + ttl
  | .deleting => Killed d s
  | _ => True

structure TokenInv (d : TokenDeps) (s : TokenState) : Prop where
  calls : ∀ i, CallInv d s (s.calls i)
  dead : Past s → Killed d s ∧ ∀ r e, s.cache.entry = some (r, e) → r.active = false
  answers : ∀ i resp, .answered i true resp ∈ s.log → resp.active = false

section
variable {d : TokenDeps} {s s' : TokenState}

theorem Killed.mono (h : Killed d s) (hnow : s.now ≤ s'.now) (hrev : s'.revoked = s.revoked) : Killed d s' := by
  intro t ht
  rw [hrev]
  exact h t (hnow.trans ht)

variable {c : TokenCall} {i : Nat} {after : Bool} {tok : AccessToken}

theorem CallInv.mono (h : CallInv d s c) (hnow : s.now ≤ s'.now)
    (hkill : Killed d s → Killed d s') (hlog : s.log.any (·.isRevoked) = true → s'.log.any (·.isRevoked) = true) :
    CallInv d s' c := by
  cases c with
  | idle | revoking hint | answering => trivial
  | introspecting after | verifying after => exact fun ha => hlog (h ha)
  | checking after tok => exact ⟨fun ha => hlog (h.1 ha), h.2.1, h.2.2.1, startedAt_of_le hnow h.2.2.2⟩
  | caching after resp => exact h
  | listing ttl =>
    obtain ⟨tok, e, hp, he, hle⟩ := h
    exact ⟨tok, e, hp, he, by omega⟩
  | deleting => exact hkill h

theorem past_of_update {calls : Nat → TokenCall} (hc : c ≠ .answering) (h : ∃ j, update calls i c j = .answering) :
    ∃ j, calls j = .answering := by
  obtain ⟨j, hj⟩ := h
  rw [update_apply] at hj
  split at hj
  · exact absurd hj hc
  · exact ⟨j, hj⟩

theorem TokenInv.setCall (h : TokenInv d s) (hc : CallInv d s c) (hne : c ≠ .answering) : TokenInv d (s.setCall i c) := by
  have hsame : ∀ c', CallInv d s c' → CallInv d (s.setCall i c) c' := fun c' h' =>
    h'.mono (Int.le_refl _) (fun hk => hk.mono (Int.le_refl _) rfl) id
  exact ⟨(forall_update_iff _ fun _ => CallInv d _).mpr ⟨hsame c hc, fun j _ => hsame _ (h.calls j)⟩,
    fun hpast => h.dead (hpast.imp_right (past_of_update hne)), h.answers⟩

theorem TokenInv.finish (h : TokenInv d s) {ev c} (hpast : ev.isRevoked = true → Past s)
    (hcache : Past s → ∀ r e, c.entry = some (r, e) → r.active = false)
    (hans : ∀ j r, ev = .answered j true r → r.active = false) : TokenInv d { (s.finish i ev) with cache := c } := by
  have hmono : Killed d s → Killed d { (s.finish i ev) with cache := c } := fun hk => hk.mono (Int.le_refl _) rfl
  refine ⟨?_, fun hp => ?_, fun j r hmem => ?_⟩
  · refine (forall_update_iff _ fun _ => CallInv d _).mpr ⟨trivial, fun j _ => ?_⟩
    exact (h.calls j).mono (Int.le_refl _) hmono fun hr => by simp [TokenState.finish, hr]
  · have hp : Past s := by
      rcases hp with hlog | hcalls
      · rw [TokenState.finish, any_cons, Bool.or_eq_true] at hlog
        exact hlog.elim hpast .inl
      · exact .inr (past_of_update (by simp) hcalls)
    exact ⟨hmono (h.dead hp).1, hcache hp⟩
  · rcases mem_cons.mp hmem with heq | hmem
    · exact hans j r heq.symm
    · exact h.answers j r hmem

theorem TokenInv.answer (h : TokenInv d s) {resp} (hr : after = true → resp.active = false) :
    TokenInv d (s.finish i (.answered i after resp)) :=
  h.finish nofun (fun hp => (h.dead hp).2) fun _ _ he => by
    cases he; exact hr rfl

theorem killed_of_listed {e e'} (hp : d.tokenConfig.parse d.raw = some tok)
    (he : tok.exp = some e) (hle : e ≤ e') (hrev : s.revoked = .set () (some e')) : Killed d s := by
  intro t _
  by_cases ht : t < e
  · right; rw [hrev, Cell.get_set_some () (by omega)]; rfl
  · left
    cases hv : d.tokenConfig.verifyAccessToken t d.raw with
    | none => rfl
    | some tok' =>
      have hp' := (verifyAccessToken_some.mp hv).1
      rw [hp] at hp'
      cases hp'
      exact absurd (verifyAccessToken_exp hv he) ht

theorem TokenInv.list (h : TokenInv d s) {ttl} (hl : CallInv d s (.listing ttl)) :
    TokenInv d { (s.setCall i .deleting) with revoked := .set () (some (s.now + ttl)) } := by
  obtain ⟨tok, e, hp, he, hle⟩ := hl
  have hkill : Killed d { (s.setCall i .deleting) with revoked := .set () (some (s.now + ttl)) } :=
    killed_of_listed hp he hle rfl
  refine ⟨?_, fun hp => ⟨hkill, (h.dead (hp.imp_right (past_of_update (by simp)))).2⟩, h.answers⟩
  refine (forall_update_iff _ fun _ => CallInv d _).mpr ⟨hkill, fun j _ => ?_⟩
  exact (h.calls j).mono (Int.le_refl _) (fun _ => hkill) id

theorem TokenInv.delete (h : TokenInv d s) (hkill : Killed d s) :
    TokenInv d { (s.setCall i .answering) with cache := .empty } := by
  have hmono : Killed d s → Killed d { (s.setCall i .answering) with cache := .empty } := fun hk => hk.mono (Int.le_refl _) rfl
  refine ⟨?_, fun _ => ⟨hmono hkill, fun _ _ hr => by cases hr⟩, h.answers⟩
  refine (forall_update_iff _ fun _ => CallInv d _).mpr ⟨trivial, fun j _ => ?_⟩
  exact (h.calls j).mono (Int.le_refl _) hmono id

theorem TokenInv.checked (h : TokenInv d s)
    (hcall : CallInv d s (.checking after tok)) (hok : ∀ e, tok.exp = some e → s.now < e)
    (hlist : ¬ (s.revoked.get s.now).isSome = true) : after = false := by
  obtain ⟨hafter, hp, hiss, hstart⟩ := hcall
  by_contra hne
  rw [Bool.not_eq_false] at hne
  have hvalid : tok.validAt s.now = true := by
    unfold AccessToken.validAt
    rw [hstart, Bool.and_true]
    cases he : tok.exp with
    | none => rfl
    | some e => simpa using hok e he
  rcases (h.dead (.inl (hafter hne))).1 s.now (Int.le_refl _) with hnone | hlive
  · rw [verifyAccessToken_some.mpr ⟨hp, hvalid, hiss⟩] at hnone; cases hnone
  · exact hlist hlive

theorem TokenInv.advance (h : TokenInv d s) {stepUp fails}
    (hok : OrderedCall d s fails (s.calls i)) : TokenInv d (s.advance d i stepUp fails) := by
  have hcall := h.calls i
  unfold TokenState.advance
  generalize hc : s.calls i = c at hcall hok ⊢
  cases c with
  | idle => exact h
  | introspecting after =>
    dsimp only
    cases hget : if fails then none else s.cache.get s.now with
    | none => exact h.setCall hcall (by simp)
    | some resp =>
      refine h.answer fun ha => ?_
      simp only [Option.ite_none_left_eq_some] at hget
      obtain ⟨e, hentry⟩ := Cell.entry_of_get hget.2
      exact (h.dead (.inl (hcall ha))).2 resp e hentry
  | verifying after =>
    dsimp only
    cases hv : d.tokenConfig.verifyAccessToken s.now d.raw with
    | none => exact h.setCall (fun _ => rfl) (by simp)
    | some tok =>
      obtain ⟨hp, hvalid, hiss⟩ := verifyAccessToken_some.mp hv
      simp only [AccessToken.validAt, Bool.and_eq_true] at hvalid
      exact h.setCall ⟨hcall, hp, hiss, hvalid.2⟩ (by simp)
  | checking after tok =>
    obtain ⟨rfl, hlive⟩ := hok
    simp only [Bool.not_false, Bool.true_and]
    by_cases hlist : (s.revoked.get s.now).isSome = true
    · simp only [hlist, ite_true]; exact h.setCall (fun _ => rfl) (by simp)
    · have hafter := h.checked hcall hlive hlist
      subst hafter
      simp only [hlist, Bool.false_eq_true, ite_false]
      split
      · exact h.answer fun h => by cases h
      · exact h.setCall (fun h => by cases h) (by simp)
  | caching after resp =>
    refine h.finish (fun h => by cases h) (fun hp r e hr => ?_) fun _ _ he => by cases he; exact hcall rfl
    cases fails with
    | true => exact (h.dead hp).2 r e hr
    | false =>
      cases hr
      by_contra hact
      exact hok (by simpa using hact) hp
  | revoking hint =>
    obtain ⟨hhint, htok⟩ := hok
    simp only [hhint, ite_false]
    cases hv : d.tokenConfig.verifyAccessToken s.now d.raw with
    | none =>
      refine h.setCall (fun t ht => Or.inl ?_) (by simp)
      exact verifyAccessToken_never ht (fun tok hp => (htok tok hp).2) hv
    | some tok =>
      have hp := (verifyAccessToken_some.mp hv).1
      obtain ⟨e, he⟩ := Option.isSome_iff_exists.mp (htok tok hp).1
      have hlt := verifyAccessToken_exp hv he
      have hrem : tok.remaining s.now = e - s.now := by simp [AccessToken.remaining, he]
      have hpos : ¬ e - s.now ≤ 0 := by omega
      simp only [hrem, hpos, ite_false]
      exact h.setCall ⟨tok, e, hp, he, by omega⟩ (by simp)
  | listing ttl =>
    cases hok
    exact h.list hcall
  | deleting =>
    cases hok
    exact h.delete hcall
  | answering => exact h.finish (fun _ => .inr ⟨i, hc⟩) (fun hp => (h.dead hp).2) fun _ _ he => by cases he

theorem TokenInv.step (h : TokenInv d s) {a} (hok : Ordered d s a) : TokenInv d (tokenStep d s a) := by
  cases a with
  | tick dt =>
    have hnow : s.now ≤ s.now + (dt : Int) := by omega
    refine ⟨fun i => (h.calls i).mono hnow (fun hk => hk.mono hnow rfl) id, fun hrev => ?_, h.answers⟩
    exact ⟨(h.dead hrev).1.mono hnow rfl, (h.dead hrev).2⟩
  | introspect i => cases hc : s.calls i <;> simp only [tokenStep, hc] <;> first | exact h | exact h.setCall id (by simp)
  | revoke i hint => cases hc : s.calls i <;> simp only [tokenStep, hc] <;> first | exact h | exact h.setCall trivial (by simp)
  | advance i stepUp fails => exact h.advance hok

end

/-- In every run that keeps the order, an introspection that starts after a `Revoke` has
returned does not report the token active. -/
theorem inactive_after_revoke {d : TokenDeps} {s₀ s : TokenState} {as : List TokenMove} (hlog : s₀.log = [])
    (hcalls : ∀ i, s₀.calls i = .idle) (hrun : Trace (tokenStep d) (Ordered d) s₀ as s) :
    ∀ i resp, .answered i true resp ∈ s.log → resp.active = false := by
  have hinit : TokenInv d s₀ := by
    refine ⟨fun i => by rw [hcalls i]; trivial, fun h => ?_, fun i resp h => ?_⟩
    · rcases h with h | ⟨j, hj⟩
      · rw [hlog] at h; cases h
      · rw [hcalls j] at hj; cases hj
    · rw [hlog] at h; cases h
  exact (hrun.inv (TokenInv d) (fun s a hs hok => hs.step hok) hinit).answers

def tokenDemo : TokenDeps := ⟨revokeDemo.tokenConfig, "at"⟩

def tokenStart : TokenState := ⟨0, .empty, .empty, fun _ => .idle, []⟩

def commands (n i : Nat) : List TokenMove := List.replicate n (.advance i false false)

def revokeThenAsk : List TokenMove := .revoke 0 "" :: (commands 4 0 ++ .introspect 1 :: commands 4 1)

theorem inactive_after_revoke_alone : (run (tokenStep tokenDemo) tokenStart revokeThenAsk).log.length = 2 ∧
    ∀ i resp, .answered i true resp ∈ (run (tokenStep tokenDemo) tokenStart revokeThenAsk).log →
      resp.active = false := by
  have hrun : Trace (tokenStep tokenDemo) (Ordered tokenDemo) tokenStart revokeThenAsk
      (run (tokenStep tokenDemo) tokenStart revokeThenAsk) := by
    refine run_cons trivial (run_cons ⟨by decide, fun tok hp => ?_⟩ ?_)
    · cases hp; exact ⟨rfl, rfl⟩
    refine run_cons rfl (run_cons rfl (run_cons trivial (run_cons trivial (run_cons trivial ?_))))
    refine run_cons trivial (run_cons ⟨rfl, fun e he => ?_⟩ (run_cons (fun h => ?_) (run_nil _)))
    · cases he; decide
    · cases h
  exact ⟨by decide +kernel, inactive_after_revoke rfl (fun _ => rfl) hrun⟩

def TokenEvent.activeAfter : TokenEvent → Bool
  | .answered _ true resp => resp.active
  | _ => false

theorem exists_active_of_any {l : List TokenEvent} (h : l.any (·.activeAfter) = true) :
    ∃ i resp, .answered i true resp ∈ l ∧ resp.active = true := by
  obtain ⟨ev, hmem, hact⟩ := any_eq_true.mp h
  cases ev with
  | revoked i => cases hact
  | answered i after resp =>
    cases after with
    | false => cases hact
    | true => exact ⟨i, resp, hmem, hact⟩

def cacheRace : List TokenMove :=
  .introspect 0 :: (commands 3 0 ++ .revoke 1 "" :: (commands 3 1 ++ commands 1 0 ++ commands 1 1 ++ .introspect 2 :: commands 1 2))

def lapseRace : List TokenMove :=
  .revoke 0 "" :: (commands 4 0 ++ .introspect 1 :: .tick 3599 :: (commands 2 1 ++ .tick 1 :: commands 2 1))

theorem active_after_revoke :
    (∃ i resp, .answered i true resp ∈ (run (tokenStep tokenDemo) tokenStart cacheRace).log ∧ resp.active = true) ∧
    ∃ i resp, .answered i true resp ∈ (run (tokenStep tokenDemo) tokenStart lapseRace).log ∧ resp.active = true :=
  ⟨exists_active_of_any (by decide +kernel), exists_active_of_any (by decide +kernel)⟩

end Clavex

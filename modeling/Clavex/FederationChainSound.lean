import Clavex.Federation

/-!
# The walk down a trust chain

The statements of a chain are a graph from issuers to subjects, and a walk takes any link
that the order of a Go map puts first. `validateChain_order_free_iff` says when that order
does not matter, and `validateChain_sound` what a chain that is accepted has in it.
-/

namespace Clavex

open Relation List Option MapOrder

variable {y : Except String (List RPMetadataPolicy)} {ps qs : List RPMetadataPolicy} {x : String}
  {stmts : List ChainEntry}

variable {K : Type}

/-! ## The graph -/

def Passes (r : Resolver K) (e : ChainEntry) : Prop :=
  ∃ ec ks, fetchEntityConfig r e.claims.issuer = some ec ∧ parseJWKS r ec.jwks = some ks ∧ r.verify ks e.raw = true ∧
    (e.claims.expiresAt ≤ 0 ∨ r.now ≤ e.claims.expiresAt)

variable {r : Resolver K} {e : ChainEntry} {chain : List String}

theorem verifyEntry_ok : verifyEntry r e.claims.issuer e = .ok () ↔ Passes r e := by
  constructor
  · intro h
    unfold verifyEntry at h
    split at h
    · cases h
    rename_i ec hec
    split at h
    · cases h
    rename_i ks hks
    split at h
    · cases h
    · rename_i hv
      split at h
      · cases h
      · exact ⟨ec, ks, hec, hks, by simpa using hv, by omega⟩
  · rintro ⟨ec, ks, hec, hks, hv, hexp⟩
    unfold verifyEntry
    rw [hec]
    dsimp only
    rw [hks]
    dsimp only
    rw [hv, if_neg (by decide), if_neg (by omega)]

instance (r : Resolver K) (e : ChainEntry) : Decidable (Passes r e) :=
  decidable_of_iff ((verifyEntry r e.claims.issuer e).isOk = true) <| by
    rw [← verifyEntry_ok]
    cases verifyEntry r e.claims.issuer e <;> simp [Except.isOk, Except.toBool]

section
variable (r : Resolver K) (stmts : List ChainEntry) (rp : String)

def Link (x : String) (e : ChainEntry) : Prop := e ∈ stmts ∧ e.claims.issuer = x ∧ e.claims.subject ≠ x

def Anchored (a : String) : Prop := a ∈ r.trustAnchors ∧ ∃ e ∈ stmts, e.claims.issuer = a

inductive Collects : String → List RPMetadataPolicy → Prop
  | start {a} : Anchored r stmts a → a ≠ "" → Collects a []
  | step {x : String} {e : ChainEntry} {ps : List RPMetadataPolicy} : Collects x ps → x ≠ rp → Link stmts x e →
      Passes r e → Collects e.claims.subject (ps ++ e.claims.policy.toList)

def Descends (x y : String) : Prop := x ≠ rp ∧ ∃ e, Link stmts x e ∧ Passes r e ∧ e.claims.subject = y

/-- No way down from a trust anchor runs into a cycle. And if one leads to the relying
party, all of them do, with the same policies. -/
def Coherent : Prop :=
  (∀ x ps, Collects r stmts rp x ps → ¬ TransGen (Descends r stmts rp) x x) ∧
  ∀ ps, Collects r stmts rp rp ps → ¬ Anchored r stmts "" ∧
    (∀ x qs, Collects r stmts rp x qs → x ≠ rp → (∃ e, Link stmts x e) ∧ ∀ e, Link stmts x e → Passes r e) ∧
    ∀ qs, Collects r stmts rp rp qs → qs = ps

end

section
variable {r : Resolver K} {ord : MapOrder ChainEntry} {rp : String}

variable {e : ChainEntry} {fuel i : Nat}

theorem Collects.anchored (h : Collects r stmts rp x ps) : ∃ a, Anchored r stmts a := by
  induction h with
  | start ha => exact ⟨_, ha⟩
  | step _ _ _ _ ih => exact ih

/-! ## One walk -/

def isLink (x : String) (e : ChainEntry) : Bool := e.claims.issuer == x && e.claims.subject != x

theorem isLink_iff (he : e ∈ stmts) : isLink x e = true ↔ Link stmts x e := by
  simp [isLink, Link, he]

theorem walkChain_done (fuel i ps) : walkChain r stmts ord rp fuel i rp ps = some (.ok ps) := by
  unfold walkChain
  rw [if_pos rfl]

theorem walkChain_zero (hx : x ≠ rp) (i ps) : walkChain r stmts ord rp 0 i x ps = none := by
  unfold walkChain
  rw [if_neg hx]

theorem walkChain_stuck (hx : x ≠ rp) (fuel i ps) (h : (ord.range i stmts).find? (isLink x) = none) :
    ∃ msg, walkChain r stmts ord rp (fuel + 1) i x ps = some (.error msg) := by
  unfold walkChain
  rw [if_neg hx]
  unfold isLink at h
  rw [h]
  exact ⟨_, rfl⟩

theorem walkChain_failed (hx : x ≠ rp) (fuel i ps) (h : (ord.range i stmts).find? (isLink x) = some e)
    (he : ¬ Passes r e) : ∃ msg, walkChain r stmts ord rp (fuel + 1) i x ps = some (.error msg) := by
  obtain ⟨hmem, hlink⟩ := ord.find?_mem h
  obtain ⟨-, rfl, -⟩ := (isLink_iff hmem).mp hlink
  rw [walkChain, if_neg hx]
  unfold isLink at h
  rw [h]
  dsimp only
  cases hv : verifyEntry r e.claims.issuer e with
  | error msg => exact ⟨msg, rfl⟩
  | ok u => exact absurd (verifyEntry_ok.mp hv) he

theorem walkChain_step (hx : x ≠ rp) (fuel i ps) (h : (ord.range i stmts).find? (isLink x) = some e) (he : Passes r e) :
    walkChain r stmts ord rp (fuel + 1) i x ps =
      walkChain r stmts ord rp fuel (i + 1) e.claims.subject (ps ++ e.claims.policy.toList) := by
  obtain ⟨hmem, hlink⟩ := ord.find?_mem h
  obtain ⟨-, rfl, -⟩ := (isLink_iff hmem).mp hlink
  rw [walkChain, if_neg hx]
  unfold isLink at h
  rw [h]
  dsimp only
  rw [verifyEntry_ok.mpr he]

theorem walk_cases (stmts) (x) (i) (ord : MapOrder ChainEntry) :
    ((ord.range i stmts).find? (isLink x) = none ∧ ∀ e, ¬ Link stmts x e) ∨
    ∃ e, (ord.range i stmts).find? (isLink x) = some e ∧ Link stmts x e := by
  cases h : (ord.range i stmts).find? (isLink x) with
  | none =>
    refine .inl ⟨rfl, fun e he => ?_⟩
    have hno := ord.find?_none h e he.1
    rw [(isLink_iff he.1).mpr he] at hno
    cases hno
  | some e =>
    obtain ⟨hmem, hlink⟩ := ord.find?_mem h
    exact .inr ⟨e, rfl, (isLink_iff hmem).mp hlink⟩

theorem walkChain_cases (hx : x ≠ rp) (ord i ps) :
    (¬ ((∃ e, Link stmts x e) ∧ ∀ e, Link stmts x e → Passes r e) ∧
      ∀ fuel, ∃ msg, walkChain r stmts ord rp (fuel + 1) i x ps = some (.error msg)) ∨
    ∃ e, Link stmts x e ∧ Passes r e ∧ ∀ fuel, walkChain r stmts ord rp (fuel + 1) i x ps =
      walkChain r stmts ord rp fuel (i + 1) e.claims.subject (ps ++ e.claims.policy.toList) := by
  rcases walk_cases stmts x i ord with ⟨hfind, hno⟩ | ⟨e, hfind, hlink⟩
  · refine .inl ⟨?_, fun fuel => walkChain_stuck hx fuel i ps hfind⟩
    rintro ⟨⟨e, he⟩, -⟩
    exact hno e he
  · by_cases hpass : Passes r e
    · exact .inr ⟨e, hlink, hpass, fun fuel => walkChain_step hx fuel i ps hfind hpass⟩
    · refine .inl ⟨?_, fun fuel => walkChain_failed hx fuel i ps hfind hpass⟩
      rintro ⟨-, hall⟩
      exact hpass (hall e hlink)

theorem walkChain_mono {fuel'} (hle : fuel ≤ fuel')
    (h : walkChain r stmts ord rp fuel i x ps = some y) : walkChain r stmts ord rp fuel' i x ps = some y := by
  induction fuel generalizing fuel' i x ps with
  | zero =>
    by_cases hx : x = rp
    · subst hx
      rw [walkChain_done] at h ⊢
      exact h
    · rw [walkChain_zero hx] at h
      cases h
  | succ fuel ih =>
    by_cases hx : x = rp
    · subst hx
      rw [walkChain_done] at h ⊢
      exact h
    · cases fuel' with
      | zero => exact absurd hle (by omega)
      | succ fuel' =>
        unfold walkChain at h ⊢
        rw [if_neg hx] at h ⊢
        dsimp only at h ⊢
        split at h
        · exact h
        · split at h
          · exact h
          · exact ih (by omega) h

theorem walkChain_collects (hx : Collects r stmts rp x ps)
    (h : walkChain r stmts ord rp fuel i x ps = some (.ok qs)) : Collects r stmts rp rp qs := by
  induction fuel generalizing i x ps with
  | zero =>
    by_cases hrp : x = rp
    · subst hrp
      rw [walkChain_done] at h
      cases h
      exact hx
    · rw [walkChain_zero hrp] at h
      cases h
  | succ fuel ih =>
    by_cases hrp : x = rp
    · subst hrp
      rw [walkChain_done] at h
      cases h
      exact hx
    · rcases walkChain_cases hrp ord i ps with ⟨-, hrefused⟩ | ⟨e, hlink, hpass, hstep⟩
      · obtain ⟨msg, hmsg⟩ := hrefused fuel
        rw [hmsg] at h
        cases h
      · rw [hstep fuel] at h
        exact ih (.step hx hrp hlink hpass) h

theorem walkChain_ends (hacc : Acc (flip (Descends r stmts rp)) x) (ord i) (hx : Collects r stmts rp x ps) :
    ∃ fuel y, walkChain r stmts ord rp fuel i x ps = some y ∧
      ((∀ x qs, Collects r stmts rp x qs → x ≠ rp → (∃ e, Link stmts x e) ∧ ∀ e, Link stmts x e → Passes r e) →
        ∃ qs, y = .ok qs) := by
  induction hacc generalizing i ps with
  | intro x _ ih =>
    by_cases hrp : x = rp
    · subst hrp
      exact ⟨0, _, walkChain_done 0 i ps, fun _ => ⟨ps, rfl⟩⟩
    · rcases walkChain_cases hrp ord i ps with ⟨hno, hrefused⟩ | ⟨e, hlink, hpass, hstep⟩
      · obtain ⟨msg, hmsg⟩ := hrefused 0
        exact ⟨1, _, hmsg, fun hall => absurd (hall x ps hx hrp) hno⟩
      · obtain ⟨fuel, y, hy, hok⟩ := ih e.claims.subject ⟨hrp, e, hlink, hpass, rfl⟩ (i + 1) (.step hx hrp hlink hpass)
        refine ⟨fuel + 1, y, ?_, hok⟩
        rw [hstep fuel]
        exact hy

theorem finite_descends (r : Resolver K) (stmts) (rp x) :
    {y | ReflTransGen (Descends r stmts rp) x y}.Finite := by
  refine finite_reachable (finite_toSet (stmts.map (·.claims.subject))) ?_
  rintro y _ ⟨-, e, hlink, -, rfl⟩
  exact mem_map.mpr ⟨e, hlink.1, rfl⟩

/-! ## The start of a walk -/

def statements (r : Resolver K) (chain : List String) : Rows ChainEntry.key := (readChain r chain).getD .empty

theorem findAnchor_cases (r : Resolver K) (stmts) (ord : MapOrder ChainEntry) :
    (findAnchor r (ord.range 0 stmts) = "" ∧ ((∀ a, ¬ Anchored r stmts a) ∨ Anchored r stmts "")) ∨
    (findAnchor r (ord.range 0 stmts) ≠ "" ∧ Anchored r stmts (findAnchor r (ord.range 0 stmts))) := by
  unfold findAnchor
  cases h : (ord.range 0 stmts).find? fun e => decide (e.claims.issuer ∈ r.trustAnchors) with
  | none =>
    refine .inl ⟨rfl, .inl ?_⟩
    rintro a ⟨ha, e, he, rfl⟩
    have hno := ord.find?_none h e he
    rw [decide_eq_true ha] at hno
    cases hno
  | some e =>
    obtain ⟨hmem, hta⟩ := ord.find?_mem h
    have hanchored : Anchored r stmts e.claims.issuer := ⟨of_decide_eq_true hta, e, hmem, rfl⟩
    by_cases hempty : e.claims.issuer = ""
    · refine .inl ⟨hempty, .inr ?_⟩
      rw [← hempty]
      exact hanchored
    · exact .inr ⟨hempty, hanchored⟩

section
variable {chain : List String}

theorem validateChain_cases (r : Resolver K) (rp) (chain : List String) :
    ((statements r chain).list = [] ∧ ∀ ord fuel, ∃ msg, validateChain r ord fuel rp chain = some (.error msg)) ∨
    ∀ ord fuel, validateChain r ord fuel rp chain =
      if findAnchor r (ord.range 0 (statements r chain).list) = "" then
        some (.error "trust chain does not contain a statement from a configured trust anchor")
      else walkChain r (statements r chain).list ord rp fuel 1 (findAnchor r (ord.range 0 (statements r chain).list)) [] := by
  unfold validateChain statements
  by_cases hempty : chain = []
  · subst hempty
    exact .inl ⟨rfl, fun _ _ => ⟨_, if_pos rfl⟩⟩
  · cases readChain r chain with
    | none => exact .inl ⟨rfl, fun _ _ => ⟨_, if_neg hempty⟩⟩
    | some stmts => exact .inr fun _ _ => if_neg hempty

variable {fuel : Nat} {pref : Nat → String × String}

theorem validateChain_walks
    (h : validateChain r ord fuel rp chain = some (.ok ps)) : ∃ a, a ≠ "" ∧ Anchored r (statements r chain).list a ∧
      walkChain r (statements r chain).list ord rp fuel 1 a [] = some (.ok ps) := by
  rcases validateChain_cases r rp chain with ⟨-, hval⟩ | hval
  · obtain ⟨msg, hmsg⟩ := hval ord fuel
    rw [hmsg] at h
    cases h
  · rw [hval] at h
    rcases findAnchor_cases r (statements r chain).list ord with ⟨hempty, -⟩ | ⟨hne, hanchored⟩
    · rw [if_pos hempty] at h
      cases h
    · rw [if_neg hne] at h
      exact ⟨_, hne, hanchored, h⟩

theorem validateChain_mono {fuel'} (hle : fuel ≤ fuel')
    (h : validateChain r ord fuel rp chain = some y) : validateChain r ord fuel' rp chain = some y := by
  unfold validateChain at h ⊢
  split at h
  · rename_i hempty
    rw [if_pos hempty]
    exact h
  · rename_i hempty
    rw [if_neg hempty]
    split at h
    · exact h
    dsimp only at h ⊢
    split at h
    · rename_i hta
      rw [if_pos hta]
      exact h
    · rename_i hta
      rw [if_neg hta]
      exact walkChain_mono hle h

/-! ## Orders that follow a way down -/

variable (ks : List (String × String))

def Begins (pref : Nat → String × String) : Prop := ∀ j k, ks[j]? = some k → pref j = k

theorem Begins.of_append {ks k} (h : Begins (ks ++ [k]) pref) : Begins ks pref ∧ pref ks.length = k := by
  constructor
  · intro j k' hj
    refine h j k' ?_
    rw [List.getElem?_append_left (List.getElem?_eq_some_iff.mp hj).1]
    exact hj
  · exact h ks.length k (by simp)

def thenKeys (tail : Nat → String × String) (j : Nat) : String × String :=
  (ks[j]?).getD (tail (j - ks.length))

theorem thenKeys_begins (tail) : Begins ks (thenKeys ks tail) := by
  intro j k h
  rw [thenKeys, h]
  rfl

theorem thenKeys_tail (tail j) : thenKeys ks tail (ks.length + j) = tail j := by
  rw [thenKeys, getElem?_eq_none (by omega), getD_none, Nat.add_sub_cancel_left]

theorem collects_follow
    (h : Collects r (statements r chain).list rp x ps) :
    ∃ n ks, ks.length = n + 1 ∧ ∀ pref, Begins ks pref → ∀ fuel,
      validateChain r (.prefer ChainEntry.key pref) (fuel + n) rp chain =
        walkChain r (statements r chain).list (.prefer ChainEntry.key pref) rp fuel (n + 1) x ps := by
  induction h with
  | start ha hne =>
    obtain ⟨hta, e, he, rfl⟩ := ha
    refine ⟨0, [e.key], rfl, fun pref hpref fuel => ?_⟩
    rcases validateChain_cases r rp chain with ⟨hnil, -⟩ | hval
    · rw [hnil] at he
      cases he
    · have hfind := find?_prefer pref 0 (p := fun e => decide (e.claims.issuer ∈ r.trustAnchors))
        he (hpref 0 _ rfl) (decide_eq_true hta)
      rw [hval]
      unfold findAnchor
      rw [hfind]
      exact if_neg hne
  | step hx hrp hlink hpass ih =>
    rename_i x e ps
    obtain ⟨n, ks, hlen, hfollow⟩ := ih
    refine ⟨n + 1, ks ++ [e.key], by rw [length_append, hlen]; rfl, fun pref hpref fuel => ?_⟩
    obtain ⟨hbegins, hnext⟩ := hpref.of_append
    rw [hlen] at hnext
    have hfind := find?_prefer pref (n + 1) hlink.1 hnext ((isLink_iff hlink.1).mpr hlink)
    rw [show fuel + (n + 1) = fuel + 1 + n by omega, hfollow pref hbegins, walkChain_step hrp fuel (n + 1) ps hfind hpass]

theorem follow_then (hx : Collects r (statements r chain).list rp x ps) (k) : ∃ n pref, pref (n + 1) = k ∧ validateChain r (.prefer ChainEntry.key pref) (1 + n) rp chain =
      walkChain r (statements r chain).list (.prefer ChainEntry.key pref) rp 1 (n + 1) x ps := by
  obtain ⟨n, ks, hlen, hfollow⟩ := collects_follow hx
  refine ⟨n, thenKeys ks fun _ => k, ?_, hfollow _ (thenKeys_begins ks _) 1⟩
  rw [← hlen]
  exact thenKeys_tail ks _ 0

theorem walkChain_runs_on {f : Nat → String} {es : Nat → ChainEntry} {n : Nat} (hrp : ∀ j, f j ≠ rp)
    (hlink : ∀ j, Link (statements r chain).list (f j) (es j)) (hpass : ∀ j, Passes r (es j))
    (hnext : ∀ j, (es j).claims.subject = f (j + 1)) (hpref : ∀ j, pref (n + j) = (es j).key) (fuel j ps) :
    walkChain r (statements r chain).list (.prefer ChainEntry.key pref) rp fuel (n + j) (f j) ps = none := by
  induction fuel generalizing j ps with
  | zero => exact walkChain_zero (hrp j) _ _
  | succ fuel ih =>
    have hfind := find?_prefer pref (n + j) (hlink j).1 (hpref j)
      ((isLink_iff (hlink j).1).mpr (hlink j))
    rw [walkChain_step (hrp j) fuel _ ps hfind (hpass j), hnext j]
    exact ih (j + 1) _

/-! ## Independence of the order -/

def OrderFree (r : Resolver K) (rp : String) (chain : List String) : Prop :=
  ∃ v : Option (List RPMetadataPolicy), ∀ ord, ∃ fuel y, (∀ fuel' ≥ fuel, validateChain r ord fuel' rp chain = some y) ∧
    y.toOption = v

section
variable {v : Option (List RPMetadataPolicy)} (hv : ∀ ord, ∃ fuel y,
  (∀ fuel' ≥ fuel, validateChain r ord fuel' rp chain = some y) ∧ y.toOption = v)
include hv

theorem verdict_eq {fuel}
    (h : validateChain r ord fuel rp chain = some y) : y.toOption = v := by
  obtain ⟨fuel', y', hy', rfl⟩ := hv ord
  have hmax := validateChain_mono (Nat.le_max_left fuel fuel') h
  rw [hy' _ (Nat.le_max_right ..)] at hmax
  rw [some.inj hmax]

theorem no_cycle (hx : Collects r (statements r chain).list rp x ps) :
    ¬ TransGen (Descends r (statements r chain).list rp) x x := by
  intro hcycle
  have hacc : ¬ Acc (flip (Descends r (statements r chain).list rp)) x := fun h => acyclic_of_acc h x .refl hcycle
  obtain ⟨f, rfl, hf⟩ := not_acc_iff_exists_descending_chain.mp hacc
  have hstep : ∀ j, Descends r (statements r chain).list rp (f j) (f (j + 1)) := hf
  choose hrp es hlink hpass hnext using hstep
  obtain ⟨n, ks, hlen, hfollow⟩ := collects_follow hx
  let pref := thenKeys ks fun j => (es j).key
  have hpref : ∀ j, pref (n + 1 + j) = (es j).key := fun j => by rw [← hlen]; exact thenKeys_tail ks _ j
  obtain ⟨fuel, y, hy, -⟩ := hv (.prefer ChainEntry.key pref)
  have hends := hy (fuel + n) (by omega)
  rw [hfollow pref (thenKeys_begins ks _), walkChain_runs_on hrp hlink hpass hnext hpref fuel 0 ps] at hends
  cases hends

section
variable (h : Collects r (statements r chain).list rp rp ps)
include h

theorem verdict_collected : v = some ps := by
  obtain ⟨n, pref, -, hval⟩ := follow_then h ("", "")
  rw [walkChain_done] at hval
  exact (verdict_eq hv hval).symm

theorem passes_collected (hx : Collects r (statements r chain).list rp x qs) (hrp : x ≠ rp) :
    (∃ e, Link (statements r chain).list x e) ∧ ∀ e, Link (statements r chain).list x e → Passes r e := by
  have hsome := verdict_collected hv h
  constructor
  · by_contra hno
    obtain ⟨n, pref, -, hval⟩ := follow_then hx ("", "")
    rcases walk_cases (statements r chain).list x (n + 1) (.prefer ChainEntry.key pref) with
      ⟨hfind, -⟩ | ⟨e, -, hlink⟩
    · obtain ⟨msg, hmsg⟩ := walkChain_stuck hrp 0 (n + 1) qs hfind
      rw [hmsg] at hval
      rw [← verdict_eq hv hval] at hsome
      cases hsome
    · exact hno ⟨e, hlink⟩
  · intro e hlink
    by_contra hfail
    obtain ⟨n, pref, hnext, hval⟩ := follow_then hx e.key
    have hfind := find?_prefer pref (n + 1) hlink.1 hnext ((isLink_iff hlink.1).mpr hlink)
    obtain ⟨msg, hmsg⟩ := walkChain_failed hrp 0 (n + 1) qs hfind hfail
    rw [hmsg] at hval
    rw [← verdict_eq hv hval] at hsome
    cases hsome

theorem not_anchored_empty : ¬ Anchored r (statements r chain).list "" := by
  rintro ⟨hta, e, he, hempty⟩
  have hfind := find?_prefer (fun _ => e.key) 0
    (p := fun e => decide (e.claims.issuer ∈ r.trustAnchors)) he rfl (by rw [hempty]; exact decide_eq_true hta)
  have hanchor : findAnchor r ((prefer ChainEntry.key fun _ => e.key).range 0 (statements r chain).list) = "" := by
    unfold findAnchor
    rw [hfind]
    exact hempty
  rcases validateChain_cases r rp chain with ⟨hnil, -⟩ | hval
  · rw [hnil] at he
    cases he
  · have hrefused := hval (.prefer ChainEntry.key fun _ => e.key) 0
    rw [if_pos hanchor] at hrefused
    have hnone := verdict_eq hv hrefused
    rw [verdict_collected hv h] at hnone
    cases hnone

end

end

theorem coherent_of_orderFree (h : OrderFree r rp chain) : Coherent r (statements r chain).list rp := by
  obtain ⟨v, hv⟩ := h
  refine ⟨fun x ps hx => no_cycle hv hx, fun ps hps => ⟨not_anchored_empty hv hps, ?_, fun qs hqs => ?_⟩⟩
  · exact fun x qs hx hrp => passes_collected hv hps hx hrp
  · have heq := verdict_collected hv hqs
    rw [verdict_collected hv hps] at heq
    exact (some.inj heq).symm

section
variable (h : Coherent r (statements r chain).list rp)
include h

theorem acc_of_coherent (hx : Collects r (statements r chain).list rp x ps) :
    Acc (flip (Descends r (statements r chain).list rp)) x := by
  refine acc_of_acyclic (finite_descends ..) fun y hy => ?_
  have hcollects : ∃ qs, Collects r (statements r chain).list rp y qs := by
    induction hy with
    | refl => exact ⟨ps, hx⟩
    | tail _ hyz ih =>
      obtain ⟨qs, hqs⟩ := ih
      obtain ⟨hrp, e, hlink, hpass, rfl⟩ := hyz
      exact ⟨_, .step hqs hrp hlink hpass⟩
  obtain ⟨qs, hqs⟩ := hcollects
  exact h.1 y qs hqs

theorem validateChain_ends (ord) :
    ∃ fuel y, validateChain r ord fuel rp chain = some y ∧
      ((∃ msg, y = .error msg) ∧ (∀ ps, ¬ Collects r (statements r chain).list rp rp ps) ∨
        ∃ ps, y = .ok ps ∧ Collects r (statements r chain).list rp rp ps) := by
  rcases validateChain_cases r rp chain with ⟨hnil, hval⟩ | hval
  · obtain ⟨msg, hmsg⟩ := hval ord 0
    refine ⟨0, _, hmsg, .inl ⟨⟨msg, rfl⟩, fun ps hps => ?_⟩⟩
    obtain ⟨_, -, e, he, -⟩ := hps.anchored
    rw [hnil] at he
    cases he
  · rcases findAnchor_cases r (statements r chain).list ord with ⟨hempty, hno⟩ | ⟨hne, hanchored⟩
    · refine ⟨0, _, by rw [hval, if_pos hempty], .inl ⟨⟨_, rfl⟩, fun ps hps => ?_⟩⟩
      rcases hno with hno | hno
      · obtain ⟨a, ha⟩ := hps.anchored
        exact hno a ha
      · exact (h.2 ps hps).1 hno
    · have hfirst : Collects r (statements r chain).list rp _ [] := .start hanchored hne
      obtain ⟨fuel, y, hy, hok⟩ := walkChain_ends (acc_of_coherent h hfirst) ord 1 hfirst
      refine ⟨fuel, y, by rw [hval, if_neg hne, hy], ?_⟩
      cases y with
      | ok ps => exact .inr ⟨ps, rfl, walkChain_collects hfirst hy⟩
      | error msg =>
        refine .inl ⟨⟨msg, rfl⟩, fun ps hps => ?_⟩
        obtain ⟨qs, hqs⟩ := hok (h.2 ps hps).2.1
        cases hqs

theorem orderFree_of_coherent : OrderFree r rp chain := by
  by_cases hreach : ∃ ps, Collects r (statements r chain).list rp rp ps
  · obtain ⟨ps, hps⟩ := hreach
    refine ⟨some ps, fun ord => ?_⟩
    obtain ⟨fuel, y, hy, ⟨-, hno⟩ | ⟨qs, rfl, hqs⟩⟩ := validateChain_ends h ord
    · exact absurd hps (hno ps)
    · refine ⟨fuel, .ok qs, fun fuel' hle => validateChain_mono hle hy, ?_⟩
      rw [(h.2 ps hps).2.2 qs hqs]
      rfl
  · refine ⟨none, fun ord => ?_⟩
    obtain ⟨fuel, y, hy, ⟨⟨msg, rfl⟩, -⟩ | ⟨qs, -, hqs⟩⟩ := validateChain_ends h ord
    · exact ⟨fuel, .error msg, fun fuel' hle => validateChain_mono hle hy, rfl⟩
    · exact absurd ⟨qs, hqs⟩ hreach

end

end

end

theorem validateChain_order_free_iff (r : Resolver K) (rp : String) (chain : List String) :
    OrderFree r rp chain ↔ Coherent r (statements r chain).list rp :=
  ⟨coherent_of_orderFree, orderFree_of_coherent⟩

/-! ### Two chains -/

def readStatement (page : String) : Option EntityStatement :=
  match page with
  | "ta on a" => some { issuer := "https://ta", subject := "https://a" }
  | "ta on rp" => some { issuer := "https://ta", subject := "https://rp" }
  | "a on b" => some { issuer := "https://a", subject := "https://b" }
  | "b on a" => some { issuer := "https://b", subject := "https://a" }
  | "ta" => some { issuer := "https://ta", subject := "https://ta", jwks := "keys" }
  | "a" => some { issuer := "https://a", subject := "https://a", jwks := "keys" }
  | "b" => some { issuer := "https://b", subject := "https://b", jwks := "keys" }
  | _ => none

def openFederation : Resolver Unit :=
  newResolver
    [("https://ta/.well-known/openid-federation", "ta"), ("https://a/.well-known/openid-federation", "a"),
      ("https://b/.well-known/openid-federation", "b")]
    readStatement (fun _ => some ()) (fun _ _ => true) 0 ["https://ta"]

def asStored : MapOrder ChainEntry := ⟨fun _ l => l, fun _ l => .refl l⟩

def reversed : MapOrder ChainEntry := ⟨fun _ l => l.reverse, fun _ l => l.reverse_perm⟩

def roundTrip : List String := ["ta on a", "a on b", "b on a"]

theorem walkChain_round (fuel) : ∀ i ps,
    walkChain openFederation (statements openFederation roundTrip).list asStored "https://rp" fuel i "https://a" ps = none ∧
    walkChain openFederation (statements openFederation roundTrip).list asStored "https://rp" fuel i "https://b" ps =
      none := by
  induction fuel with
  | zero => exact fun i ps => ⟨walkChain_zero (by decide) i ps, walkChain_zero (by decide) i ps⟩
  | succ fuel ih =>
    intro i ps
    have hb : (asStored.range i (statements openFederation roundTrip).list).find? (isLink "https://a") =
        some ⟨{ issuer := "https://a", subject := "https://b" }, "a on b"⟩ := by
      show (statements openFederation roundTrip).list.find? _ = _
      decide +kernel
    have ha : (asStored.range i (statements openFederation roundTrip).list).find? (isLink "https://b") =
        some ⟨{ issuer := "https://b", subject := "https://a" }, "b on a"⟩ := by
      show (statements openFederation roundTrip).list.find? _ = _
      decide +kernel
    constructor
    · exact (ih _ _).2
    · exact (ih _ _).1

/-- A chain whose walk never ends, and one that is accepted in one order and refused in
another. -/
theorem validateChain_order_matters :
    (∀ fuel, validateChain openFederation asStored fuel "https://rp" roundTrip = none) ∧
    validateChain openFederation asStored 2 "https://rp" ["ta on a", "ta on rp"] = some (.ok []) ∧
    validateChain openFederation reversed 2 "https://rp" ["ta on a", "ta on rp"] =
      some (.error "trust chain: no entity statement found from https://a toward RP https://rp") := by
  refine ⟨fun fuel => ?_, by decide +kernel, by decide +kernel⟩
  rcases validateChain_cases openFederation "https://rp" roundTrip with ⟨hnil, -⟩ | hval
  · exact absurd hnil (by decide +kernel)
  have hta : findAnchor openFederation (asStored.range 0 (statements openFederation roundTrip).list) = "https://ta" := by
    decide +kernel
  rw [hval, hta, if_neg (by decide)]
  cases fuel with
  | zero => exact walkChain_zero (by decide) 1 []
  | succ fuel =>
    have ha : (asStored.range 1 (statements openFederation roundTrip).list).find? (isLink "https://ta") =
        some ⟨{ issuer := "https://ta", subject := "https://a" }, "ta on a"⟩ := by decide +kernel
    exact (walkChain_round fuel _ _).1

/-! ## What an accepted chain has in it -/

def Linked : String → List ChainEntry → String → Prop
  | a, [], b => a = b
  | a, e :: es, b => e.claims.issuer = a ∧ Linked e.claims.subject es b

theorem linked_concat {a b path} (h : Linked a path b) (he : e.claims.issuer = b) :
    Linked a (path ++ [e]) e.claims.subject := by
  induction path generalizing a with
  | nil => exact ⟨he.trans h.symm, rfl⟩
  | cons e' path ih => exact ⟨h.1, ih h.2⟩

theorem linked_top {es ta} (hlinked : Linked ta es.reverse x) (hne : es ≠ []) : ∃ e ∈ es, e.claims.issuer = ta := by
  cases hrev : es.reverse with
  | nil => exact absurd (reverse_eq_nil_iff.mp hrev) hne
  | cons e path =>
    rw [hrev] at hlinked
    refine ⟨e, mem_reverse.mp ?_, hlinked.1⟩
    rw [hrev]
    exact mem_cons_self ..

theorem Collects.path {rp}
    (h : Collects r stmts rp x ps) : ∃ ta, Anchored r stmts ta ∧ ∃ path, Linked ta path x ∧
      (∀ e ∈ path, e ∈ stmts ∧ Passes r e) ∧ ps = path.filterMap (·.claims.policy) := by
  induction h with
  | start ha => exact ⟨_, ha, [], rfl, forall_mem_nil _, rfl⟩
  | step _ _ hlink hpass ih =>
    rename_i x e ps _ _
    obtain ⟨ta, hta, path, hpath, hall, rfl⟩ := ih
    refine ⟨ta, hta, path ++ [e], linked_concat hpath hlink.2.1, ?_, ?_⟩
    · rw [forall_mem_append]
      exact ⟨hall, forall_mem_singleton.mpr ⟨hlink.1, hpass⟩⟩
    · cases hp : e.claims.policy <;> simp [hp]

theorem mem_readChain {t₀ t : Rows ChainEntry.key}
    (h : chain.foldlM (fun stmts compact => (r.parse compact).map fun claims => stmts.set ⟨claims, compact⟩) t₀ = some t)
    (he : e ∈ t.list) : e ∈ t₀.list ∨ (e.raw ∈ chain ∧ r.parse e.raw = some e.claims) := by
  induction chain generalizing t₀ with
  | nil =>
    cases h
    exact .inl he
  | cons compact chain ih =>
    obtain ⟨t₁, ht₁, h⟩ := bind_eq_some_iff.mp h
    obtain ⟨claims, hparse, rfl⟩ := map_eq_some_iff.mp ht₁
    rcases ih h with hmem | ⟨hmem, hp⟩
    · rcases Rows.mem_set.mp hmem with rfl | ⟨hmem, -⟩
      · exact .inr ⟨mem_cons_self .., hparse⟩
      · exact .inl hmem
    · exact .inr ⟨mem_cons_of_mem _ hmem, hp⟩

theorem mem_statements (he : e ∈ (statements r chain).list) : e.raw ∈ chain ∧ r.parse e.raw = some e.claims := by
  unfold statements at he
  cases h : readChain r chain with
  | none =>
    rw [h] at he
    cases he
  | some t =>
    rw [h] at he
    rcases mem_readChain h he with hmem | hmem
    · cases hmem
    · exact hmem

theorem validateChain_sound (r : Resolver K) (ord : MapOrder ChainEntry) (fuel : Nat) (rp : String) (chain : List String)
    (ps : List RPMetadataPolicy) (h : validateChain r ord fuel rp chain = some (.ok ps)) :
    ∃ ta ∈ r.trustAnchors, (∃ e ∈ (statements r chain).list, e.claims.issuer = ta) ∧ ∃ path, Linked ta path rp ∧
      (∀ e ∈ path, e.raw ∈ chain ∧ r.parse e.raw = some e.claims ∧ Passes r e) ∧
      ps = path.filterMap (·.claims.policy) := by
  obtain ⟨a, hne, hanchored, hwalk⟩ := validateChain_walks h
  obtain ⟨ta, ⟨hta, hissued⟩, path, hpath, hall, hps⟩ := (walkChain_collects (.start hanchored hne) hwalk).path
  refine ⟨ta, hta, hissued, path, hpath, fun e he => ?_, hps⟩
  obtain ⟨hmem, hpass⟩ := hall e he
  obtain ⟨hraw, hparse⟩ := mem_statements hmem
  exact ⟨hraw, hparse, hpass⟩

/-! ### Keys that the superior does not know of -/

def readRotated (page : String) : Option EntityStatement :=
  match page with
  | "ta on a" => some { issuer := "https://ta", subject := "https://a", jwks := "old", expiresAt := 900 }
  | "a on rp" => some { issuer := "https://a", subject := "https://rp", policy := some { scopeSubset := ["openid"] } }
  | "ta" => some { issuer := "https://ta", subject := "https://ta", jwks := "anchor" }
  | "a" => some { issuer := "https://a", subject := "https://a", jwks := "new" }
  | _ => none

def rotatedFederation : Resolver String :=
  newResolver [("https://ta/.well-known/openid-federation", "ta"), ("https://a/.well-known/openid-federation", "a")]
    readRotated some (fun key page => (page == "ta on a" && key == "anchor") || (page == "a on rp" && key == "new")) 800
    ["https://ta/"]

theorem validateChain_sound_rotated : ∃ ta ∈ rotatedFederation.trustAnchors,
    (∃ e ∈ (statements rotatedFederation ["a on rp", "ta on a"]).list, e.claims.issuer = ta) ∧
    ∃ path, Linked ta path "https://rp" ∧
      (∀ e ∈ path, e.raw ∈ ["a on rp", "ta on a"] ∧ rotatedFederation.parse e.raw = some e.claims ∧
        Passes rotatedFederation e) ∧
      [{ scopeSubset := ["openid"] }] = path.filterMap (·.claims.policy) :=
  validateChain_sound rotatedFederation asStored 2 "https://rp" _ _ (by decide +kernel)

/-- The chain is accepted, but the keys that the anchor vouches for do not verify the
statement of the entity below it, which has no date either. -/
theorem validateChain_keys_not_vouched_for :
    (validateChain rotatedFederation asStored 2 "https://rp" ["a on rp", "ta on a"]).any (·.isOk) = true ∧
    (readRotated "ta on a").map (·.jwks) = some "old" ∧ parseJWKS rotatedFederation "old" = some "old" ∧
    rotatedFederation.verify "old" "a on rp" = false ∧ (readRotated "a on rp").map (·.expiresAt) = some 0 := by
  decide +kernel

end Clavex

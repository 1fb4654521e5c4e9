import Clavex.FederationChainSound
import Clavex.FederationResolveSound

/-!
# Chains that are resolved and then validated

What the walk up the hints returns, given to the walk down. A statement of a superior that
leads nowhere stays in the chain, and names are compared with trailing slashes in some
places only. `resolveChain_accepted_iff` says for which federations the two walks agree.
-/

namespace Clavex

open Relation List

variable {K : Type} {r : Resolver K} {rp : String}

/-! ## A chain that is a path and nothing else -/

def IsPath (r : Resolver K) : String → List String → Prop
  | x, [] => x ∈ r.trustAnchors
  | x, raw :: chain => ∃ st, r.parse raw = some st ∧ st.subject = x ∧ IsPath r st.issuer chain

theorem readChain_all {es : List ChainEntry} (hparse : ∀ e ∈ es, r.parse e.raw = some e.claims)
    (hkeys : (es.map ChainEntry.key).Nodup) (t₀ : Rows ChainEntry.key)
    (hfresh : ∀ e ∈ es, ∀ e' ∈ t₀.list, e'.key ≠ e.key) :
    ∃ t, (es.map (·.raw)).foldlM
        (fun stmts compact => (r.parse compact).map fun claims => stmts.set ⟨claims, compact⟩) t₀ = some t ∧
      ∀ e, e ∈ t.list ↔ e ∈ t₀.list ∨ e ∈ es := by
  induction es generalizing t₀ with
  | nil => exact ⟨t₀, rfl, by simp⟩
  | cons e es ih =>
    obtain ⟨hnew, hkeys⟩ := nodup_cons.mp hkeys
    obtain ⟨hfirst, hparse⟩ := forall_mem_cons.mp hparse
    obtain ⟨hfresh₁, hfresh⟩ := forall_mem_cons.mp hfresh
    have hnext : ∀ e₂ ∈ es, ∀ e' ∈ (t₀.set e).list, e'.key ≠ e₂.key := by
      intro e₂ he₂ e' he'
      rcases Rows.mem_set.mp he' with rfl | ⟨he', -⟩
      · exact fun heq => hnew (heq ▸ mem_map_of_mem he₂)
      · exact hfresh e₂ he₂ e' he'
    obtain ⟨t, ht, hmem⟩ := ih hparse hkeys _ hnext
    refine ⟨t, ?_, fun e' => ?_⟩
    · rw [map_cons, foldlM_cons, hfirst]
      exact ht
    · rw [hmem, Rows.mem_set, mem_cons]
      constructor
      · rintro ((rfl | ⟨h, -⟩) | h)
        · exact .inr (.inl rfl)
        · exact .inl h
        · exact .inr (.inr h)
      · rintro (h | rfl | h)
        · exact .inl (.inr ⟨h, hfresh₁ e' h⟩)
        · exact .inl (.inl rfl)
        · exact .inr h

theorem mem_statements_iff {es : List ChainEntry} (hparse : ∀ e ∈ es, r.parse e.raw = some e.claims)
    (hkeys : (es.map ChainEntry.key).Nodup) {e : ChainEntry} : e ∈ (statements r (es.map (·.raw))).list ↔ e ∈ es := by
  obtain ⟨t, ht, hmem⟩ := readChain_all hparse hkeys .empty (fun _ _ e' he' => by cases he')
  have hread : readChain r (es.map (·.raw)) = some t := ht
  rw [statements, hread, Option.getD_some, hmem]
  exact or_iff_right (fun h => by cases h)

theorem walkChain_path {stmts path} {x} (hlinked : Linked x path rp)
    (hnodup : (path.map (·.claims.issuer)).Nodup) (hpass : ∀ e ∈ path, e ∈ stmts ∧ Passes r e)
    (honly : ∀ e ∈ path, ∀ e' ∈ stmts, e'.claims.issuer = e.claims.issuer → e' = e) (ord i ps) : ∃ fuel qs, walkChain r stmts ord rp fuel i x ps = some (.ok qs) := by
  induction path generalizing x i ps with
  | nil =>
    cases hlinked
    exact ⟨0, ps, walkChain_done 0 i ps⟩
  | cons e path ih =>
    obtain ⟨rfl, hlinked⟩ := hlinked
    by_cases hrp : e.claims.issuer = rp
    · rw [hrp]
      exact ⟨0, ps, walkChain_done 0 i ps⟩
    · obtain ⟨hnew, hnodup'⟩ := nodup_cons.mp hnodup
      obtain ⟨⟨hmem, hpass₁⟩, hpass'⟩ := forall_mem_cons.mp hpass
      obtain ⟨honly₁, honly'⟩ := forall_mem_cons.mp honly
      -- a statement of an entity about itself would have the next one's issuer
      have hother : e.claims.subject ≠ e.claims.issuer := by
        intro heq
        cases path with
        | nil => exact hrp (heq.symm.trans hlinked)
        | cons e₂ path =>
          refine hnew (mem_map.mpr ⟨e₂, mem_cons_self .., ?_⟩)
          exact hlinked.1.trans heq
      rcases walkChain_cases hrp ord i ps with ⟨hno, -⟩ | ⟨e', hlink, -, hstep⟩
      · refine absurd ⟨⟨e, hmem, rfl, hother⟩, fun e' hlink => ?_⟩ hno
        rw [honly₁ e' hlink.1 hlink.2.1]
        exact hpass₁
      · obtain rfl := honly₁ e' hlink.1 hlink.2.1
        obtain ⟨fuel, qs, h⟩ := ih hlinked hnodup' hpass' honly' (i + 1) (ps ++ e'.claims.policy.toList)
        refine ⟨fuel + 1, qs, ?_⟩
        rw [hstep fuel]
        exact h

theorem validateChain_path {es} {ta : String} (hlinked : Linked ta es.reverse rp) (hne : es ≠ [])
    (hparse : ∀ e ∈ es, r.parse e.raw = some e.claims ∧ Passes r e) (hnodup : (es.map (·.claims.issuer)).Nodup)
    (hta : ∀ e ∈ es, e.claims.issuer ∈ r.trustAnchors → e.claims.issuer = ta) (hanchor : ta ∈ r.trustAnchors)
    (hempty : ta ≠ "") (ord) :
    ∃ fuel ps, validateChain r ord fuel rp (es.map (·.raw)) = some (.ok ps) := by
  have hkeys : (es.map ChainEntry.key).Nodup := by
    refine Nodup.of_map Prod.fst ?_
    rw [List.map_map]
    exact hnodup
  have hstmts : ∀ e, e ∈ (statements r (es.map (·.raw))).list ↔ e ∈ es :=
    fun e => mem_statements_iff (fun e he => (hparse e he).1) hkeys
  obtain ⟨top, htop, htopta⟩ := linked_top hlinked hne
  have hanchored : ∀ a, Anchored r (statements r (es.map (·.raw))).list a → a = ta := by
    rintro a ⟨ha, e, he, rfl⟩
    exact hta e ((hstmts e).mp he) ha
  rcases validateChain_cases r rp (es.map (·.raw)) with ⟨hnil, -⟩ | hval
  · have := (hstmts top).mpr htop
    rw [hnil] at this
    cases this
  · have hfind : findAnchor r (ord.range 0 (statements r (es.map (·.raw))).list) = ta := by
      rcases findAnchor_cases r (statements r (es.map (·.raw))).list ord with ⟨-, hno | hno⟩ | ⟨-, h⟩
      · exact absurd ⟨hanchor, top, (hstmts top).mpr htop, htopta⟩ (hno ta)
      · exact absurd (hanchored _ hno).symm hempty
      · exact hanchored _ h
    obtain ⟨fuel, ps, h⟩ := walkChain_path hlinked (by rw [map_reverse]; exact nodup_reverse.mpr hnodup)
      (fun e he => ⟨(hstmts e).mpr (mem_reverse.mp he), (hparse e (mem_reverse.mp he)).2⟩)
      (fun e he e' he' heq => inj_on_of_nodup_map hnodup ((hstmts e').mp he') (mem_reverse.mp he) heq) ord 1 []
    refine ⟨fuel, ps, ?_⟩
    rw [hval, hfind, if_neg hempty]
    exact h

/-! ## What the walk up has found -/

inductive Climbs (r : Resolver K) : List (String × String) → List (String × String) → Prop
  | anchor {h raw os} : h ∈ r.trustAnchors → Climbs r ((h, raw) :: os) [(h, raw)]
  | up {h raw os found ec} : h ∉ r.trustAnchors →
      fetchEntityConfig r h = some ec → Climbs r (offersOf r (h, ec.authorityHints)) found →
      Climbs r ((h, raw) :: os) ((h, raw) :: found)
  | skip {h raw os found} : ¬ Serves r (h, raw) → Climbs r os found →
      Climbs r ((h, raw) :: os) ((h, raw) :: found)

theorem climb_climbs {up} (hdec : Decides r up)
    (hup : ∀ c sub, up c = some (some sub) → ∃ found, Climbs r (offersOf r c) found ∧ sub = found.map (·.2))
    {os chain res} (h : climb r up os chain = some (some res)) :
    ∃ found, Climbs r os found ∧ res = chain ++ found.map (·.2) := by
  induction os generalizing chain with
  | nil => cases h
  | cons o os ih =>
    obtain ⟨hint, raw⟩ := o
    rcases climb_cases hdec hint raw os chain with ⟨hta, heq⟩ | ⟨hno, -, heq⟩ | ⟨ec, hta, hec, ⟨sub, hsub, heq⟩ | ⟨-, heq⟩⟩
      <;> rw [heq] at h
    · cases h
      exact ⟨_, .anchor hta, rfl⟩
    · obtain ⟨found, hfound, rfl⟩ := ih h
      exact ⟨_, .skip hno hfound, by simp⟩
    · cases h
      obtain ⟨found, hfound, rfl⟩ := hup _ _ hsub
      exact ⟨_, .up hta hec hfound, by simp⟩
    · cases h

theorem resolved_climbs {fuel} {c} {chain} (h : resolved r fuel c = some (some chain)) :
    ∃ found, Climbs r (offersOf r c) found ∧ chain = found.map (·.2) := by
  induction fuel generalizing c chain with
  | zero => cases h
  | succ fuel ih =>
    rw [resolved_succ] at h
    exact climb_climbs (resolved_decides r fuel) (fun _ _ => ih) h

/-! ## Valid statements -/

def Valid (r : Resolver K) (iss sub raw : String) : Prop :=
  ∃ st, r.parse raw = some st ∧ trimSlash st.issuer = trimSlash iss ∧ trimSlash st.subject = trimSlash sub ∧
    Passes r ⟨st, raw⟩

instance (r : Resolver K) (iss sub raw : String) : Decidable (Valid r iss sub raw) :=
  decidable_of_iff ((r.parse raw).any fun st => trimSlash st.issuer = trimSlash iss ∧
      trimSlash st.subject = trimSlash sub ∧ Passes r ⟨st, raw⟩) <| by
    simp only [Option.any_eq_true, decide_eq_true_eq, Valid]

def Superior (r : Resolver K) (c c' : Call) : Prop :=
  ∃ o ∈ offersOf r c, ∃ ec, fetchEntityConfig r o.1 = some ec ∧ c' = (o.1, ec.authorityHints)

def ValidAbove (r : Resolver K) (c : Call) : Prop :=
  ∀ c', ReflTransGen (Superior r) c c' → ∀ o ∈ offersOf r c', Valid r o.1 c'.1 o.2

def Named (r : Resolver K) (o : String × String) : Prop :=
  ∃ st, r.parse o.2 = some st ∧ trimSlash st.issuer = o.1 ∧ Passes r ⟨st, o.2⟩

section
variable {c : Call} {os found : List (String × String)}

theorem ValidAbove.up (h : ValidAbove r c) {o} (ho : o ∈ offersOf r c) {ec} (hec : fetchEntityConfig r o.1 = some ec) :
    ValidAbove r (o.1, ec.authorityHints) :=
  fun c' hc' => h c' (.head ⟨o, ho, ec, hec, rfl⟩ hc')

theorem ValidAbove.named (h : ValidAbove r c) {o} (ho : o ∈ offersOf r c) : Named r o := by
  obtain ⟨st, hp, hi, -, hpass⟩ := h c .refl o ho
  exact ⟨st, hp, hi.trans (mem_offers ho).1, hpass⟩

section
variable (hc : Climbs r os found)
include hc

theorem Climbs.named (hos : os <:+ offersOf r c) (hv : ValidAbove r c) : ∀ o ∈ found, Named r o := by
  induction hc generalizing c with
  | anchor _ => exact forall_mem_singleton.mpr (hv.named (hos.subset (mem_cons_self ..)))
  | up _ hec _ ih =>
    have hmem := hos.subset (mem_cons_self ..)
    exact forall_mem_cons.mpr ⟨hv.named hmem, ih suffix_rfl (hv.up hmem hec)⟩
  | skip _ _ ih =>
    have hmem := hos.subset (mem_cons_self ..)
    exact forall_mem_cons.mpr ⟨hv.named hmem, ih ((suffix_cons _ _).trans hos) hv⟩

theorem Climbs.last : ∃ a, ∀ o ∈ found, o.1 ∈ r.trustAnchors → o.1 = a := by
  induction hc with
  | anchor _ => exact ⟨_, forall_mem_singleton.mpr fun _ => rfl⟩
  | up hta _ _ ih =>
    obtain ⟨a, ha⟩ := ih
    exact ⟨a, forall_mem_cons.mpr ⟨fun h => absurd h hta, ha⟩⟩
  | skip hno _ ih =>
    obtain ⟨a, ha⟩ := ih
    exact ⟨a, forall_mem_cons.mpr ⟨fun h => absurd (.inl h) hno, ha⟩⟩

theorem Climbs.serves : ∃ o ∈ os, Serves r o := by
  induction hc with
  | anchor hta => exact ⟨_, mem_cons_self .., .inl hta⟩
  | up _ hec _ ih => exact ⟨_, mem_cons_self .., .inr ⟨_, hec, leads_iff.mpr ih⟩⟩
  | skip _ _ ih =>
    obtain ⟨o, ho, hserves⟩ := ih
    exact ⟨o, mem_cons_of_mem _ ho, hserves⟩

theorem Climbs.head : ∃ o ∈ os, ∃ rest, found = o :: rest := by
  cases hc <;> exact ⟨_, mem_cons_self .., _, rfl⟩

theorem Climbs.asks (tried) (hos : offersOf r c = tried ++ os)
    (htried : ∀ o ∈ tried, ¬ Serves r o) :
    ∀ o ∈ found, Serves r o → o.1 ∉ r.trustAnchors →
      ∃ ec, fetchEntityConfig r o.1 = some ec ∧ TransGen (Asks r) c (o.1, ec.authorityHints) := by
  induction hc generalizing c tried with
  | anchor hta => exact forall_mem_singleton.mpr fun _ hno => absurd hta hno
  | up hta hec _ ih =>
    have hasks : Asks r c _ := ⟨tried, _, _, _, _, hos, htried, hta, hec, rfl⟩
    refine forall_mem_cons.mpr ⟨fun _ _ => ⟨_, hec, .single hasks⟩, fun o ho hserves hno => ?_⟩
    obtain ⟨ec', hec', htrans⟩ := ih [] (nil_append _).symm (forall_mem_nil _) o ho hserves hno
    exact ⟨ec', hec', .head hasks htrans⟩
  | @skip h raw os found hno _ ih =>
    refine forall_mem_cons.mpr ⟨fun h => absurd h hno, ih (tried ++ [(h, raw)]) ?_ ?_⟩
    · rw [hos, append_assoc]
      rfl
    · exact forall_mem_append.mpr ⟨htried, forall_mem_singleton.mpr hno⟩

theorem Climbs.nodup (tried) (hos : offersOf r c = tried ++ os)
    (htried : ∀ o ∈ tried, ¬ Serves r o) (hacc : Acc (flip (Asks r)) c) (hserves : ∀ o ∈ found, Serves r o) :
    (found.map (·.1)).Nodup := by
  induction hc generalizing c tried with
  | anchor _ => exact nodup_singleton _
  | up hta hec hc ih =>
    obtain ⟨hfirst, hserves⟩ := forall_mem_cons.mp hserves
    have hacc' := hacc.inv ⟨tried, _, _, _, _, hos, htried, hta, hec, rfl⟩
    refine nodup_cons.mpr ⟨fun hmem => ?_, ih [] (nil_append _).symm (forall_mem_nil _) hacc' hserves⟩
    obtain ⟨o, ho, heq⟩ := mem_map.mp hmem
    dsimp only at heq
    rw [← heq] at hta
    obtain ⟨ec', hec', htrans⟩ := hc.asks [] (nil_append _).symm (forall_mem_nil _) o ho (hserves o ho) hta
    rw [heq, hec] at hec'
    cases hec'
    rw [heq] at htrans
    exact acyclic_of_acc hacc' _ .refl htrans
  | skip hno _ _ => exact absurd (hserves _ (mem_cons_self ..)) hno

end

theorem offers_nodup (r : Resolver K) (e) (hints visited : List String) :
    ((offers r e hints visited).map (·.1)).Nodup := by
  induction hints generalizing visited with
  | nil => exact nodup_nil
  | cons hint hints ih =>
    unfold offers
    split
    · exact ih visited
    split
    · exact ih _
    · refine nodup_cons.mpr ⟨fun hmem => ?_, ih _⟩
      obtain ⟨o, ho, heq⟩ := mem_map.mp hmem
      exact (mem_offers ho).2.1 (heq ▸ mem_cons_self ..)

/-! ## Straight ways up -/

inductive Straight (r : Resolver K) : List (String × String) → String → Prop
  | anchor {h raw x os st} : h ∈ r.trustAnchors →
      r.parse raw = some st → st.subject = x → st.issuer = h → h ≠ "" → Straight r ((h, raw) :: os) x
  | up {h raw x os st ec} : h ∉ r.trustAnchors →
      r.parse raw = some st → st.subject = x → fetchEntityConfig r h = some ec →
      Straight r (offersOf r (h, ec.authorityHints)) st.issuer → Straight r ((h, raw) :: os) x

/-- An entity whose name ends with a slash may come first among its own superiors, under
the name without the slash. -/
def StraightFrom (r : Resolver K) (e : String) (os : List (String × String)) (x : String) : Prop :=
  Straight r os x ∨ ∃ own st rest, os = (trimSlash e, own) :: rest ∧ ¬ Serves r (trimSlash e, own) ∧
    r.parse own = some st ∧ st.subject = x ∧ Straight r rest st.issuer

theorem Straight.serves {x} (h : Straight r os x) : ∃ o ∈ os, Serves r o := by
  induction h with
  | anchor hta _ _ _ _ => exact ⟨_, mem_cons_self .., .inl hta⟩
  | up _ _ _ hec _ ih => exact ⟨_, mem_cons_self .., .inr ⟨_, hec, leads_iff.mpr ih⟩⟩

theorem Straight.path {x} (h : Straight r os x) (hc : Climbs r os found) :
    IsPath r x (found.map (·.2)) ∧ (∀ o ∈ found, Serves r o) ∧ ∀ o ∈ found, o.1 ∈ r.trustAnchors → o.1 ≠ "" := by
  induction h generalizing found with
  | anchor hta hp hsub hiss hne =>
    cases hc with
    | anchor _ =>
      subst hiss
      exact ⟨⟨_, hp, hsub, hta⟩, forall_mem_singleton.mpr (.inl hta), forall_mem_singleton.mpr fun _ => hne⟩
    | up hno _ _ => exact absurd hta hno
    | skip hno _ => exact absurd (.inl hta) hno
  | up hno hp hsub hec hup ih =>
    have hserves : ∀ raw, Serves r (_, raw) := fun raw => .inr ⟨_, hec, leads_iff.mpr hup.serves⟩
    cases hc with
    | anchor hta => exact absurd hta hno
    | up _ hec' hc =>
      rw [hec] at hec'
      cases hec'
      obtain ⟨hpath, hall, hne⟩ := ih hc
      exact ⟨⟨_, hp, hsub, hpath⟩, forall_mem_cons.mpr ⟨hserves _, hall⟩,
        forall_mem_cons.mpr ⟨fun hta => absurd hta hno, hne⟩⟩
    | skip hskip _ => exact absurd (hserves _) hskip

theorem Climbs.straight (hc : Climbs r os found) (hos : os <:+ offersOf r c) (hv : ValidAbove r c) {x : String}
    (hpath : IsPath r x (found.map (·.2))) (hne : ∀ o ∈ found, o.1 ∈ r.trustAnchors → o.1 ≠ "") :
    StraightFrom r c.1 os x := by
  induction hc generalizing c x with
  | @anchor h raw os hta =>
    obtain ⟨st, hp, rfl, hiss⟩ := hpath
    obtain ⟨st', hp', hname, -⟩ := hv c .refl _ (hos.subset (mem_cons_self ..))
    rw [hp] at hp'
    cases hp'
    rw [r.trimmed _ hiss, r.trimmed _ hta] at hname
    exact .inl (.anchor hta hp rfl hname (hne _ (mem_cons_self ..) hta))
  | @up h raw os found ec hta hec hc ih =>
    obtain ⟨st, hp, rfl, hpath⟩ := hpath
    have hmem := hos.subset (mem_cons_self ..)
    rcases ih suffix_rfl (hv.up hmem hec) hpath fun o ho => hne o (mem_cons_of_mem _ ho) with
      hstraight | ⟨own, st', rest, hself, -⟩
    · exact .inl (.up hta hp rfl hec hstraight)
    · -- superiors go without slashes, so this one would be its own
      have hmem' : (trimSlash h, own) ∈ offersOf r (h, ec.authorityHints) := by
        rw [hself]
        exact mem_cons_self ..
      refine absurd ?_ (mem_offers hmem').2.1
      rw [(mem_offers hmem).1]
      exact mem_cons_self ..
  | @skip h raw os found hno hc ih =>
    obtain ⟨st, hp, rfl, hpath⟩ := hpath
    have hmem := hos.subset (mem_cons_self ..)
    have hos' : os <:+ offersOf r c := (suffix_cons _ _).trans hos
    have hself : h = trimSlash c.1 := by
      obtain ⟨o, ho, rest, rfl⟩ := hc.head
      obtain ⟨st₂, hp₂, hsub, -⟩ := hpath
      obtain ⟨st', hp', hname, -⟩ := hv c .refl _ hmem
      obtain ⟨st₂', hp₂', -, hsub', -⟩ := hv c .refl _ (hos'.subset ho)
      rw [hp] at hp'
      cases hp'
      rw [hp₂] at hp₂'
      cases hp₂'
      rw [(mem_offers hmem).1] at hname
      rw [← hname, ← hsub, hsub']
    subst hself
    rcases ih hos' hv hpath fun o ho => hne o (mem_cons_of_mem _ ho) with hstraight | ⟨own, st', rest, rfl, -⟩
    · exact .inr ⟨raw, st, os, rfl, hno, hp, rfl, hstraight⟩
    · have hnodup := (hos.sublist.map (·.1)).nodup (offers_nodup r c.1 c.2 [c.1])
      exact absurd (mem_cons_self ..) (nodup_cons.mp hnodup).1

theorem StraightFrom.path {x} (h : StraightFrom r c.1 (offersOf r c) x) (hc : Climbs r (offersOf r c) found)
    (hacc : Acc (flip (Asks r)) c) : IsPath r x (found.map (·.2)) ∧ (found.map (·.1)).Nodup ∧
      ∀ o ∈ found, o.1 ∈ r.trustAnchors → o.1 ≠ "" := by
  rcases h with h | ⟨own, st, rest, hos, hno, hp, rfl, h⟩
  · obtain ⟨hpath, hserves, hne⟩ := h.path hc
    exact ⟨hpath, hc.nodup [] (nil_append _).symm (forall_mem_nil _) hacc hserves, hne⟩
  · rw [hos] at hc
    cases hc with
    | anchor hta => exact absurd (.inl hta) hno
    | up _ hec hc => exact absurd (.inr ⟨_, hec, leads_iff.mpr hc.serves⟩) hno
    | @skip _ _ _ found _ hc =>
      obtain ⟨hpath, hserves, hne⟩ := h.path hc
      have hnodup : (found.map (·.1)).Nodup := hc.nodup [(trimSlash c.1, own)] hos
        (forall_mem_singleton.mpr hno) hacc hserves
      refine ⟨⟨st, hp, rfl, hpath⟩, nodup_cons.mpr ⟨fun hmem => ?_, hnodup⟩,
        forall_mem_cons.mpr ⟨fun hta => absurd (.inl hta) hno, hne⟩⟩
      -- a superior that leads on cannot have failed before
      obtain ⟨o, ho, heq⟩ := mem_map.mp hmem
      have hs := hserves o ho
      unfold Serves at hs
      rw [heq] at hs
      exact hno hs

/-! ## Agreement -/

theorem IsPath.linked {x} (hnamed : ∀ o ∈ found, Named r o) (hpath : IsPath r x (found.map (·.2))) :
    ∃ ta ∈ r.trustAnchors, ∃ es : List ChainEntry, Linked ta es.reverse x ∧ es.map (·.raw) = found.map (·.2) ∧
      es.map (fun e => trimSlash e.claims.issuer) = found.map (·.1) ∧
      ∀ e ∈ es, r.parse e.raw = some e.claims ∧ Passes r e := by
  induction found generalizing x with
  | nil => exact ⟨x, hpath, [], rfl, rfl, rfl, forall_mem_nil _⟩
  | cons o found ih =>
    obtain ⟨st, hp, rfl, hpath⟩ := hpath
    obtain ⟨⟨st', hp', hname, hpass⟩, hnamed⟩ := forall_mem_cons.mp hnamed
    rw [hp] at hp'
    cases hp'
    obtain ⟨ta, hta, es, hlinked, hraw, hissuer, hall⟩ := ih hnamed hpath
    refine ⟨ta, hta, ⟨st, o.2⟩ :: es, ?_, ?_, ?_, forall_mem_cons.mpr ⟨⟨hp, hpass⟩, hall⟩⟩
    · rw [reverse_cons]
      exact linked_concat hlinked rfl
    · rw [map_cons, map_cons, hraw]
    · rw [map_cons, map_cons, hissuer, hname]

theorem Climbs.accepted (hc : Climbs r os found) (hnamed : ∀ o ∈ found, Named r o)
    (hpath : IsPath r rp (found.map (·.2))) (hnodup : (found.map (·.1)).Nodup)
    (hne : ∀ o ∈ found, o.1 ∈ r.trustAnchors → o.1 ≠ "") (ord) :
    ∃ fuel ps, validateChain r ord fuel rp (found.map (·.2)) = some (.ok ps) := by
  obtain ⟨ta, hta, es, hlinked, hraw, hissuer, hall⟩ := hpath.linked hnamed
  obtain ⟨a, hlast⟩ := hc.last
  -- an issuer that is an anchor is spelled as the hint is
  have hanchor : ∀ e ∈ es, e.claims.issuer ∈ r.trustAnchors → e.claims.issuer = a ∧ a ≠ "" := by
    intro e he hmem
    have hhint : e.claims.issuer ∈ found.map (·.1) := by
      rw [← hissuer]
      exact List.mem_map.mpr ⟨e, he, r.trimmed _ hmem⟩
    obtain ⟨o, ho, heq⟩ := List.mem_map.mp hhint
    rw [← heq] at hmem ⊢
    exact ⟨hlast o ho hmem, hlast o ho hmem ▸ hne o ho hmem⟩
  have hesne : es ≠ [] := by
    rintro rfl
    obtain ⟨o, -, rest, rfl⟩ := hc.head
    cases hraw
  obtain ⟨e, he, rfl⟩ := linked_top hlinked hesne
  obtain ⟨rfl, hempty⟩ := hanchor e he hta
  rw [← hraw]
  refine validateChain_path hlinked hesne hall ?_ (fun e' he' hmem => (hanchor e' he' hmem).1) hta hempty ord
  refine List.Nodup.of_map trimSlash ?_
  rw [List.map_map]
  exact hissuer ▸ hnodup

theorem Climbs.anchor_ne (hc : Climbs r os found) (hnamed : ∀ o ∈ found, Named r o) {ord} {fuel} {ps}
    (h : validateChain r ord fuel rp (found.map (·.2)) = some (.ok ps)) :
    ∀ o ∈ found, o.1 ∈ r.trustAnchors → o.1 ≠ "" := by
  obtain ⟨_, hne, ⟨hta, e, he, rfl⟩, -⟩ := validateChain_walks h
  obtain ⟨hmem, hparse⟩ := mem_statements he
  obtain ⟨o, ho, hraw⟩ := mem_map.mp hmem
  obtain ⟨st, hp, hname, -⟩ := hnamed o ho
  rw [hraw, hparse] at hp
  cases hp
  rw [r.trimmed _ hta] at hname
  obtain ⟨a, hlast⟩ := hc.last
  intro o' ho' hta'
  rw [hlast o' ho' hta', ← hlast o ho (hname ▸ hta), ← hname]
  exact hne

end

/-- In a federation of valid statements, what is resolved is a path that any walk accepts,
exactly when the way up is straight. -/
theorem resolveChain_accepted_iff (r : Resolver K) (rp : String) (hints : List String) (hv : ValidAbove r (rp, hints))
    (fuel n : Nat) (chain : List String) (h : resolveChain r fuel rp hints = some ⟨n, .ok chain⟩) :
    (IsPath r rp chain ∧ ∀ ord, ∃ fuel ps, validateChain r ord fuel rp chain = some (.ok ps)) ↔
      StraightFrom r rp (offersOf r (rp, hints)) rp := by
  have hres : resolved r fuel (rp, hints) = some (some chain) := by
    unfold resolved
    rw [h]
    rfl
  obtain ⟨found, hc, rfl⟩ := resolved_climbs hres
  have hnamed := hc.named suffix_rfl hv
  constructor
  · rintro ⟨hpath, hval⟩
    obtain ⟨fuel', ps, hok⟩ := hval asStored
    exact hc.straight suffix_rfl hv hpath (hc.anchor_ne hnamed hok)
  · intro hfrom
    obtain ⟨hpath, hnodup, hne⟩ := hfrom.path hc (acc_of_resolved hres)
    exact ⟨hpath, hc.accepted hnamed hpath hnodup hne⟩

/-! ### A superior that leads nowhere, and an anchor with a slash -/

/-- `https://a` is below the anchor `https://ta`, `https://b` below none, and the anchor
`https://root/` spells its name with the slash. -/
def readSpelled (page : String) : Option EntityStatement :=
  match page with
  | "a" => some { issuer := "https://a", subject := "https://a", jwks := "key a", authorityHints := ["https://ta/"] }
  | "b" => some { issuer := "https://b", subject := "https://b", jwks := "key b" }
  | "ta" => some { issuer := "https://ta", subject := "https://ta", jwks := "key ta" }
  | "root" => some { issuer := "https://root/", subject := "https://root/", jwks := "key root" }
  | "a on rp" => some { issuer := "https://a", subject := "https://rp", expiresAt := 900 }
  | "b on rp" => some { issuer := "https://b", subject := "https://rp", expiresAt := 900 }
  | "ta on a" => some { issuer := "https://ta", subject := "https://a", expiresAt := 900 }
  | "root on rp" => some { issuer := "https://root/", subject := "https://rp", expiresAt := 900 }
  | _ => none

def spelledFederation : Resolver String :=
  newResolver
    [("https://a/.well-known/openid-federation", "a"), ("https://b/.well-known/openid-federation", "b"),
      ("https://ta/.well-known/openid-federation", "ta"), ("https://root/.well-known/openid-federation", "root"),
      ("https://a/fetch?iss=https://a&sub=https://rp", "a on rp"), ("https://b/fetch?iss=https://b&sub=https://rp", "b on rp"),
      ("https://ta/fetch?iss=https://ta&sub=https://a", "ta on a"),
      ("https://root/fetch?iss=https://root&sub=https://rp", "root on rp")]
    readSpelled some
    (fun key page => (key, page) ∈
      [("key a", "a on rp"), ("key b", "b on rp"), ("key ta", "ta on a"), ("key root", "root on rp")])
    800 ["https://ta", "https://root/"]

theorem validAbove_of_closed {l : List Call} {c} (hc : c ∈ l)
    (h : ∀ c ∈ l, ∀ o ∈ offersOf r c, Valid r o.1 c.1 o.2 ∧
      ∀ ec ∈ fetchEntityConfig r o.1, (o.1, ec.authorityHints) ∈ l) : ValidAbove r c := by
  intro c' hc'
  have hmem : c' ∈ l := by
    induction hc' with
    | refl => exact hc
    | tail _ hsup ih =>
      obtain ⟨o, ho, ec, hec, rfl⟩ := hsup
      exact (h _ ih o ho).2 ec hec
  exact fun o ho => (h c' hmem o ho).1

theorem spelled_valid : ∀ hints ∈ [["https://a"], ["https://b", "https://a"], ["https://root/"]],
    ValidAbove spelledFederation ("https://rp", hints) := by
  intro hints hh
  refine validAbove_of_closed (l := [("https://rp", ["https://a"]), ("https://rp", ["https://b", "https://a"]),
    ("https://rp", ["https://root/"]), ("https://a", ["https://ta/"]), ("https://b", []), ("https://ta", []),
    ("https://root", [])]) ?_ (by decide +kernel)
  simp only [mem_cons, not_mem_nil, or_false] at hh
  rcases hh with rfl | rfl | rfl <;> simp

theorem resolveChain_accepted_straight : IsPath spelledFederation "https://rp" ["a on rp", "ta on a"] ∧
    ∀ ord, ∃ fuel ps, validateChain spelledFederation ord fuel "https://rp" ["a on rp", "ta on a"] = some (.ok ps) := by
  refine (resolveChain_accepted_iff spelledFederation "https://rp" ["https://a"] (spelled_valid _ (by decide)) 2 3 _
    rfl).mpr (.inl ?_)
  refine .up (by decide +kernel) rfl rfl rfl ?_
  exact .anchor (by decide +kernel) rfl rfl rfl (by decide)

/-- The statements are valid. With two hints the first one leaves its statement in the
chain, and the anchor with the slash is not known for one. -/
theorem resolveChain_not_accepted :
    (ValidAbove spelledFederation ("https://rp", ["https://b", "https://a"]) ∧
      resolveChain spelledFederation 2 "https://rp" ["https://b", "https://a"] =
        some ⟨5, .ok ["b on rp", "a on rp", "ta on a"]⟩ ∧
      ¬ IsPath spelledFederation "https://rp" ["b on rp", "a on rp", "ta on a"]) ∧
    (ValidAbove spelledFederation ("https://rp", ["https://root/"]) ∧
      resolveChain spelledFederation 1 "https://rp" ["https://root/"] = some ⟨1, .ok ["root on rp"]⟩ ∧
      ∀ ord fuel ps, validateChain spelledFederation ord fuel "https://rp" ["root on rp"] ≠ some (.ok ps)) := by
  refine ⟨⟨spelled_valid _ (by decide), rfl, ?_⟩, spelled_valid _ (by decide), rfl, ?_⟩
  · rintro ⟨st, hst, -, st', hst', hsub, -⟩
    cases hst
    cases hst'
    exact absurd hsub (by decide)
  · intro ord fuel ps hok
    obtain ⟨_, -, ⟨hta, e, he, rfl⟩, -⟩ := validateChain_walks hok
    obtain ⟨hraw, hparse⟩ := mem_statements he
    rw [mem_singleton.mp hraw] at hparse
    have hissuer : e.claims.issuer = "https://root/" := by
      rw [← Option.some.inj hparse]
    rw [hissuer] at hta
    exact absurd hta (by decide +kernel)

end Clavex

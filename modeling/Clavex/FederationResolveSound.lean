import Clavex.Federation

/-!
# When the walk up the authority hints ends

The loop over the hints of an entity, seen as a search among the superiors that offer a
statement about it. `resolveChain_terminates_iff` says when the search ends: it keeps no
record of the entities below, so a cycle of hints keeps it going.
-/

namespace Clavex

open Relation List Option

variable {K : Type}

abbrev Call := String × List String

section
variable (r : Resolver K)

/-! ## The loop as a search -/

def offers (rpEntityID : String) : List String → List String → List (String × String)
  | [], _ => []
  | hint :: hints, visited =>
    if trimSlash hint ∈ visited then offers rpEntityID hints visited
    else
      match fetchEntityStatement r (trimSlash hint) rpEntityID with
      | none => offers rpEntityID hints (trimSlash hint :: visited)
      | some raw => (trimSlash hint, raw) :: offers rpEntityID hints (trimSlash hint :: visited)

def offersOf (c : Call) : List (String × String) := offers r c.1 c.2 [c.1]

def climb (up : Call → Option (Option (List String))) :
    List (String × String) → List String → Option (Option (List String))
  | [], _ => some none
  | (hint, raw) :: os, chain =>
    if hint ∈ r.trustAnchors then some (some (chain ++ [raw]))
    else
      match fetchEntityConfig r hint with
      | none => climb up os (chain ++ [raw])
      | some ec =>
        match up (hint, ec.authorityHints) with
        | none => none
        | some none => climb up os (chain ++ [raw])
        | some (some sub) => some (some (chain ++ [raw] ++ sub))

def resolved (fuel : Nat) (c : Call) : Option (Option (List String)) :=
  (resolveChain r fuel c.1 c.2).map (·.chain.toOption)

theorem resolveLoop_climb (up rpEntityID) (authorityHints hints visited chain) (n) :
    (resolveLoop r up rpEntityID authorityHints hints visited chain n).map (·.chain.toOption) =
      climb r (fun c => (up c.1 c.2).map (·.chain.toOption)) (offers r rpEntityID hints visited) chain := by
  induction hints generalizing visited chain n with
  | nil => rfl
  | cons hint hints ih =>
    unfold resolveLoop offers
    by_cases hv : trimSlash hint ∈ visited
    · rw [if_pos hv, if_pos hv, ih]
    · rw [if_neg hv, if_neg hv]
      cases hs : fetchEntityStatement r (trimSlash hint) rpEntityID with
      | none => exact ih ..
      | some raw =>
        dsimp only
        unfold climb
        by_cases hta : trimSlash hint ∈ r.trustAnchors
        · rw [if_pos hta, if_pos hta]
          rfl
        · rw [if_neg hta, if_neg hta]
          cases fetchEntityConfig r (trimSlash hint) with
          | none => exact ih ..
          | some ec =>
            dsimp only
            cases up (trimSlash hint) ec.authorityHints with
            | none => rfl
            | some o =>
              obtain ⟨m, res⟩ := o
              cases res with
              | error e => exact ih ..
              | ok sub => rfl

theorem resolved_succ (fuel) (c) : resolved r (fuel + 1) c = climb r (resolved r fuel) (offersOf r c) [] :=
  resolveLoop_climb ..

end

section
variable {r : Resolver K}

variable {rpEntityID : String} {hints visited : List String} {c : Call} {o : Resolution} {fuel fuel' : Nat}
  {x : Option (List String)}

theorem mem_offers {h raw}
    (hm : (h, raw) ∈ offers r rpEntityID hints visited) :
    trimSlash h = h ∧ h ∉ visited ∧ fetchEntityStatement r h rpEntityID = some raw := by
  induction hints generalizing visited with
  | nil => cases hm
  | cons hint hints ih =>
    unfold offers at hm
    split at hm
    · exact ih hm
    rename_i hv
    split at hm
    · obtain ⟨ht, hn, hf⟩ := ih hm
      exact ⟨ht, fun hmem => hn (mem_cons_of_mem _ hmem), hf⟩
    · rename_i raw' hs
      rcases mem_cons.mp hm with heq | hm
      · cases heq
        exact ⟨trimSlash_trimSlash hint, hv, hs⟩
      · obtain ⟨ht, hn, hf⟩ := ih hm
        exact ⟨ht, fun hmem => hn (mem_cons_of_mem _ hmem), hf⟩

/-! ## What the search finds -/

inductive Leads (r : Resolver K) : Call → Prop
  | anchor {c : Call} {o : String × String} : o ∈ offersOf r c → o.1 ∈ r.trustAnchors → Leads r c
  | up {c o ec} : o ∈ offersOf r c →
      fetchEntityConfig r o.1 = some ec → Leads r (o.1, ec.authorityHints) → Leads r c

def Serves (r : Resolver K) (o : String × String) : Prop :=
  o.1 ∈ r.trustAnchors ∨ ∃ ec, fetchEntityConfig r o.1 = some ec ∧ Leads r (o.1, ec.authorityHints)

theorem leads_iff : Leads r c ↔ ∃ o ∈ offersOf r c, Serves r o := by
  constructor
  · rintro (⟨ho, hta⟩ | ⟨ho, hec, hl⟩)
    · exact ⟨_, ho, .inl hta⟩
    · exact ⟨_, ho, .inr ⟨_, hec, hl⟩⟩
  · rintro ⟨o, ho, hta | ⟨ec, hec, hl⟩⟩
    · exact .anchor ho hta
    · exact .up ho hec hl

def Decides (r : Resolver K) (up : Call → Option (Option (List String))) : Prop :=
  ∀ c x, up c = some x → (x.isSome = true ↔ Leads r c)

section
variable {up : Call → Option (Option (List String))} (hup : Decides r up)
include hup

theorem climb_cases (hint raw : String) (os) (chain) :
    (hint ∈ r.trustAnchors ∧ climb r up ((hint, raw) :: os) chain = some (some (chain ++ [raw]))) ∨
    (¬ Serves r (hint, raw) ∧ (∀ ec, fetchEntityConfig r hint = some ec → ∃ y, up (hint, ec.authorityHints) = some y) ∧
      climb r up ((hint, raw) :: os) chain = climb r up os (chain ++ [raw])) ∨
    ∃ ec, hint ∉ r.trustAnchors ∧ fetchEntityConfig r hint = some ec ∧
      ((∃ sub, up (hint, ec.authorityHints) = some (some sub) ∧
          climb r up ((hint, raw) :: os) chain = some (some (chain ++ [raw] ++ sub))) ∨
        (up (hint, ec.authorityHints) = none ∧ climb r up ((hint, raw) :: os) chain = none)) := by
  rw [climb]
  by_cases hta : hint ∈ r.trustAnchors
  · exact .inl ⟨hta, if_pos hta⟩
  · rw [if_neg hta]
    cases hec : fetchEntityConfig r hint with
    | none =>
      refine .inr (.inl ⟨?_, fun ec h => (by cases h), rfl⟩)
      rintro (h | ⟨ec, h, -⟩)
      · exact hta h
      · rw [hec] at h
        cases h
    | some ec =>
      dsimp only
      cases hcall : up (hint, ec.authorityHints) with
      | none => exact .inr (.inr ⟨ec, hta, rfl, .inr ⟨hcall, rfl⟩⟩)
      | some y =>
        cases y with
        | some sub => exact .inr (.inr ⟨ec, hta, rfl, .inl ⟨sub, hcall, rfl⟩⟩)
        | none =>
          refine .inr (.inl ⟨?_, fun ec' h => ?_, rfl⟩)
          · rintro (h | ⟨ec', h, hl⟩)
            · exact hta h
            · rw [hec] at h
              cases h
              exact absurd ((hup _ _ hcall).mpr hl) (by simp)
          · cases h
            exact ⟨none, hcall⟩

variable {os : List (String × String)} {chain : List String} {x : Option (List String)}

theorem climb_serves
    (h : climb r up os chain = some x) : x.isSome = true ↔ ∃ o ∈ os, Serves r o := by
  induction os generalizing chain with
  | nil =>
    cases h
    simp
  | cons o os ih =>
    obtain ⟨hint, raw⟩ := o
    rcases climb_cases hup hint raw os chain with ⟨hta, heq⟩ | ⟨hno, -, heq⟩ | ⟨ec, -, hec, ⟨sub, hsub, heq⟩ | ⟨-, heq⟩⟩
      <;> rw [heq] at h
    · cases h
      exact iff_of_true rfl ⟨_, mem_cons_self .., .inl hta⟩
    · rw [ih h, exists_mem_cons_iff]
      exact (or_iff_right hno).symm
    · cases h
      exact iff_of_true rfl ⟨_, mem_cons_self .., .inr ⟨ec, hec, (hup _ _ hsub).mp rfl⟩⟩
    · cases h

theorem climb_asked {tried rest} {h raw} {ec} (hc : climb r up (tried ++ (h, raw) :: rest) chain = some x)
    (htried : ∀ o ∈ tried, ¬ Serves r o) (hta : h ∉ r.trustAnchors) (hec : fetchEntityConfig r h = some ec) :
    ∃ y, up (h, ec.authorityHints) = some y := by
  induction tried generalizing chain with
  | nil =>
    rcases climb_cases hup h raw rest chain with ⟨hta', -⟩ | ⟨-, hasked, -⟩ | ⟨ec', -, hec', ⟨sub, hsub, -⟩ | ⟨-, heq⟩⟩
    · exact absurd hta' hta
    · exact hasked ec hec
    · rw [hec] at hec'
      cases hec'
      exact ⟨_, hsub⟩
    · rw [nil_append, heq] at hc
      cases hc
  | cons o tried ih =>
    obtain ⟨hint, raw'⟩ := o
    obtain ⟨hno, htried⟩ := forall_mem_cons.mp htried
    rw [cons_append] at hc
    rcases climb_cases hup hint raw' (tried ++ (h, raw) :: rest) chain with
      ⟨hta', -⟩ | ⟨-, -, heq⟩ | ⟨ec', -, hec', ⟨sub, hsub, -⟩ | ⟨-, heq⟩⟩
    · exact absurd (.inl hta') hno
    · rw [heq] at hc
      exact ih hc htried
    · exact absurd (.inr ⟨ec', hec', (hup _ _ hsub).mp rfl⟩) hno
    · rw [heq] at hc
      cases hc

theorem climb_ends (chain)
    (h : ∀ tried hint raw rest ec, os = tried ++ (hint, raw) :: rest → (∀ o ∈ tried, ¬ Serves r o) →
      hint ∉ r.trustAnchors → fetchEntityConfig r hint = some ec → ∃ y, up (hint, ec.authorityHints) = some y) :
    ∃ x, climb r up os chain = some x := by
  induction os generalizing chain with
  | nil => exact ⟨none, rfl⟩
  | cons o os ih =>
    obtain ⟨hint, raw⟩ := o
    rcases climb_cases hup hint raw os chain with ⟨-, heq⟩ | ⟨hno, -, heq⟩ | ⟨ec, hta, hec, ⟨sub, -, heq⟩ | ⟨hnone, -⟩⟩
    · exact ⟨_, heq⟩
    · rw [heq]
      refine ih _ fun tried hint' raw' rest ec hos htried => ?_
      refine h ((hint, raw) :: tried) hint' raw' rest ec (by rw [hos]; rfl) ?_
      exact forall_mem_cons.mpr ⟨hno, htried⟩
    · exact ⟨_, heq⟩
    · obtain ⟨y, hy⟩ := h [] hint raw os ec rfl (forall_mem_nil _) hta hec
      rw [hnone] at hy
      cases hy

end

theorem resolved_decides (r : Resolver K) (fuel) : Decides r (resolved r fuel) := by
  induction fuel with
  | zero => exact fun c x h => by cases h
  | succ fuel ih =>
    intro c x h
    rw [resolved_succ] at h
    rw [climb_serves ih h, leads_iff]

/-! ## More fuel -/

theorem resolveLoop_mono {up up'} (hup : ∀ e hs o, up e hs = some o → up' e hs = some o) {authorityHints chain}
    {n} (h : resolveLoop r up rpEntityID authorityHints hints visited chain n = some o) :
    resolveLoop r up' rpEntityID authorityHints hints visited chain n = some o := by
  induction hints generalizing visited chain n with
  | nil => exact h
  | cons hint hints ih =>
    unfold resolveLoop at h ⊢
    split at h
    · rename_i hv
      rw [if_pos hv]
      exact ih h
    · rename_i hv
      rw [if_neg hv]
      split at h
      · exact ih h
      split at h
      · rename_i hta
        rw [if_pos hta]
        exact h
      · rename_i hta
        rw [if_neg hta]
        split at h
        · exact ih h
        split at h
        · cases h
        · rename_i m e hup'
          rw [hup _ _ _ hup']
          exact ih h
        · rename_i m sub hup'
          rw [hup _ _ _ hup']
          exact h

theorem resolveChain_mono (hle : fuel ≤ fuel')
    (h : resolveChain r fuel rpEntityID hints = some o) : resolveChain r fuel' rpEntityID hints = some o := by
  induction fuel generalizing fuel' rpEntityID hints o with
  | zero => cases h
  | succ fuel ih =>
    cases fuel' with
    | zero => exact absurd hle (by omega)
    | succ fuel' => exact resolveLoop_mono (fun _ _ _ h' => ih (by omega) h') h

theorem resolved_mono (hle : fuel ≤ fuel')
    (h : resolved r fuel c = some x) : resolved r fuel' c = some x := by
  unfold resolved at h ⊢
  obtain ⟨o, ho, rfl⟩ := map_eq_some_iff.mp h
  rw [resolveChain_mono hle ho]
  rfl

/-! ## Termination -/

def Asks (r : Resolver K) (c c' : Call) : Prop :=
  ∃ tried h raw rest ec, offersOf r c = tried ++ (h, raw) :: rest ∧ (∀ o ∈ tried, ¬ Serves r o) ∧
    h ∉ r.trustAnchors ∧ fetchEntityConfig r h = some ec ∧ c' = (h, ec.authorityHints)

theorem acc_of_resolved (h : resolved r fuel c = some x) : Acc (flip (Asks r)) c := by
  induction fuel generalizing c x with
  | zero => cases h
  | succ fuel ih =>
    refine ⟨_, ?_⟩
    rintro c' ⟨tried, hint, raw, rest, ec, hoffers, htried, hta, hec, rfl⟩
    rw [resolved_succ, hoffers] at h
    obtain ⟨y, hy⟩ := climb_asked (resolved_decides r fuel) h htried hta hec
    exact ih hy

theorem exists_fuel {l : List Call} (h : ∀ c ∈ l, ∃ fuel x, resolved r fuel c = some x) :
    ∃ fuel, ∀ c ∈ l, ∃ x, resolved r fuel c = some x := by
  induction l with
  | nil => exact ⟨0, fun c hc => by cases hc⟩
  | cons c l ih =>
    obtain ⟨m, hm⟩ := ih fun c hc => h c (mem_cons_of_mem _ hc)
    obtain ⟨n, x, hn⟩ := h c (mem_cons_self ..)
    refine ⟨max m n, fun c' hc' => ?_⟩
    rcases mem_cons.mp hc' with rfl | hc'
    · exact ⟨x, resolved_mono (Nat.le_max_right ..) hn⟩
    · obtain ⟨y, hy⟩ := hm c' hc'
      exact ⟨y, resolved_mono (Nat.le_max_left ..) hy⟩

theorem resolved_of_acc (h : Acc (flip (Asks r)) c) : ∃ fuel x, resolved r fuel c = some x := by
  induction h with
  | intro c _ ih =>
    classical
    -- the calls that `c` makes are among those to the superiors with an offer
    let next : String × String → Option Call := fun o =>
      (fetchEntityConfig r o.1).bind fun ec => if Asks r c (o.1, ec.authorityHints) then some (o.1, ec.authorityHints) else none
    obtain ⟨fuel, hfuel⟩ := exists_fuel (l := (offersOf r c).filterMap next) <| by
      intro c' hc'
      obtain ⟨o, -, ho⟩ := mem_filterMap.mp hc'
      obtain ⟨ec, -, hasks⟩ := bind_eq_some_iff.mp ho
      rw [ite_none_right_eq_some] at hasks
      obtain ⟨hasks, heq⟩ := hasks
      cases heq
      exact ih _ hasks
    refine ⟨fuel + 1, ?_⟩
    rw [resolved_succ]
    refine climb_ends (resolved_decides r fuel) [] fun tried hint raw rest ec hoffers htried hta hec => ?_
    refine hfuel _ (mem_filterMap.mpr ⟨(hint, raw), ?_, ?_⟩)
    · rw [hoffers]
      exact mem_append_right _ (mem_cons_self ..)
    · have hasks : Asks r c (hint, ec.authorityHints) := ⟨tried, hint, raw, rest, ec, hoffers, htried, hta, hec, rfl⟩
      simp [next, hec, if_pos hasks]

theorem finite_asked (r : Resolver K) (c) : {x | ReflTransGen (Asks r) c x}.Finite := by
  let named : Set String := {h | trimSlash h = h ∧ configURL h ∈ (r.pages.map (·.1) : List String)}
  have hnamed : named.Finite := by
    refine Set.Finite.of_finite_image (f := configURL) ?_ ?_
    · refine (finite_toSet (r.pages.map (·.1))).subset ?_
      rintro _ ⟨h, ⟨-, hm⟩, rfl⟩
      exact hm
    · rintro a ⟨ha, -⟩ b ⟨hb, -⟩ hab
      unfold configURL at hab
      rw [ha, hb] at hab
      exact (String.append_left_inj _).mp hab
  refine finite_reachable (hnamed.image fun h => (h, ((fetchEntityConfig r h).map (·.authorityHints)).getD [])) ?_
  rintro c c' ⟨tried, h, raw, rest, ec, hoffers, -, -, hec, rfl⟩
  have hmem : (h, raw) ∈ offersOf r c := by
    rw [hoffers]
    exact mem_append_right _ (mem_cons_self ..)
  refine ⟨h, ⟨(mem_offers hmem).1, ?_⟩, by simp [hec]⟩
  obtain ⟨page, hpage, -⟩ := bind_eq_some_iff.mp hec
  obtain ⟨l₁, l₂, hsplit, -⟩ := lookup_eq_some_iff.mp hpage
  rw [hsplit]
  simp

end

/-- The search ends, having asked for a number of pages, exactly when it comes to no cycle. -/
theorem resolveChain_terminates_iff (r : Resolver K) (rpEntityID : String) (authorityHints : List String) :
    (∃ fuel o, ∀ fuel' ≥ fuel, resolveChain r fuel' rpEntityID authorityHints = some o) ↔
      Acyclic (Asks r) (rpEntityID, authorityHints) := by
  rw [← acc_iff_acyclic (finite_asked r _)]
  constructor
  · rintro ⟨fuel, o, h⟩
    have hres : resolved r fuel (rpEntityID, authorityHints) = some o.chain.toOption := by
      unfold resolved
      rw [h fuel (Nat.le_refl _)]
      rfl
    exact acc_of_resolved hres
  · intro h
    obtain ⟨fuel, x, hx⟩ := resolved_of_acc h
    obtain ⟨o, ho, -⟩ := map_eq_some_iff.mp hx
    exact ⟨fuel, o, fun fuel' hle => resolveChain_mono hle ho⟩

/-! ## Two intermediates above each other -/

def mutualSuperiors : Resolver Unit :=
  newResolver
    [("https://a/.well-known/openid-federation", "a"), ("https://b/.well-known/openid-federation", "b"),
      ("https://a/fetch?iss=https://a&sub=https://rp", "a on rp"), ("https://b/fetch?iss=https://b&sub=https://a", "b on a"),
      ("https://a/fetch?iss=https://a&sub=https://b", "a on b")]
    (fun page =>
      if page = "a" then some { issuer := "https://a", subject := "https://a", authorityHints := ["https://b"] }
      else if page = "b" then some { issuer := "https://b", subject := "https://b", authorityHints := ["https://a"] }
      else none)
    (fun _ => some ()) (fun _ _ => true) 0 ["https://ta"]

theorem resolved_once {e} (h raw) {hints ec} {fuel}
    (hoffers : offersOf mutualSuperiors (e, hints) = [(h, raw)]) (hta : h ∉ mutualSuperiors.trustAnchors)
    (hec : fetchEntityConfig mutualSuperiors h = some ec)
    (hup : resolved mutualSuperiors fuel (h, ec.authorityHints) = none) :
    resolved mutualSuperiors (fuel + 1) (e, hints) = none := by
  rw [resolved_succ, hoffers, climb, if_neg hta, hec]
  dsimp only
  rw [hup]

theorem resolveChain_runs_on : ¬ ∃ fuel o, resolveChain mutualSuperiors fuel "https://rp" ["https://a"] = some o := by
  rintro ⟨fuel, o, h⟩
  have hmutual : ∀ fuel, resolved mutualSuperiors fuel ("https://a", ["https://b"]) = none ∧
      resolved mutualSuperiors fuel ("https://b", ["https://a"]) = none := by
    intro fuel
    induction fuel with
    | zero => exact ⟨rfl, rfl⟩
    | succ fuel ih =>
      exact ⟨resolved_once "https://b" "b on a" (by decide +kernel) (by decide +kernel) rfl ih.2,
        resolved_once "https://a" "a on b" (by decide +kernel) (by decide +kernel) rfl ih.1⟩
  have hrp : resolved mutualSuperiors fuel ("https://rp", ["https://a"]) = none := by
    cases fuel with
    | zero => rfl
    | succ fuel =>
      exact resolved_once "https://a" "a on rp" (by decide +kernel) (by decide +kernel) rfl (hmutual fuel).1
  rw [map_eq_none_iff.mp hrp] at h
  cases h

end Clavex

/-!
# Strings as the source compares them

The parts of Go's `strings` package that decide something in the modelled code.
-/

namespace Clavex

open List

/-! ## Letter case -/

/-- `unicode.ToLower`, as far as it can meet an ASCII letter: the dotted capital
I and the Kelvin sign are the only other runes whose lower case is one. -/
def lowerRune (c : Char) : Char :=
  if c = '\u0130' then 'i' else if c = '\u212a' then 'k' else c.toLower

variable (s : String)

def toLower : String := String.ofList (s.toList.map lowerRune)

/-- `unicode.ToUpper`, as far as it can meet an ASCII letter: the dotless i and the long s
are the only other runes whose upper case is one. -/
def upperRune (c : Char) : Char :=
  if c = '\u0131' then 'I' else if c = '\u017f' then 'S' else c.toUpper

@[irreducible] def toUpper : String := String.ofList (s.toList.map upperRune)

def foldRune (c : Char) : Char :=
  if c = '\u017f' then 's' else if c = '\u212a' then 'k' else c.toLower

def foldName : List Char := s.toList.map foldRune

/-! ## Space and affixes -/

def isSpace (c : Char) : Bool :=
  c.val ∈ [0x09, 0x0a, 0x0b, 0x0c, 0x0d, 0x20, 0x85, 0xa0, 0x1680, 0x2028, 0x2029, 0x202f, 0x205f, 0x3000] ||
    (0x2000 ≤ c.val && c.val ≤ 0x200a)

def isBlank : Bool := s.toList.all isSpace

@[irreducible] def trimSpace : String :=
  String.ofList ((s.toList.dropWhile isSpace).reverse.dropWhile isSpace).reverse

def strContains (s t : String) : Bool :=
  (List.range (s.toList.length + 1)).any fun i => t.toList.isPrefixOf (s.toList.drop i)

def trimPfx (s p : String) : String :=
  if p.toList.isPrefixOf s.toList then String.ofList (s.toList.drop p.toList.length) else s

def fields : List String :=
  let words := s.toList.foldr (fun c ws =>
    if isSpace c then [] :: ws
    else
      match ws with
      | [] => [[c]]
      | w :: ws => (c :: w) :: ws) [[]]
  (words.filter (· ≠ [])).map String.ofList

def hasPrefix (s p : String) : Bool := p.toList.isPrefixOf s.toList

def splitRune (c : Char) (s : String) : List String := (s.toList.splitOn c).map String.ofList

/-! ## Words -/

def addRune (c : Char) (ws : List (List Char)) : List (List Char) :=
  if isSpace c then [] :: ws
  else
    match ws with
    | [] => [[c]]
    | w :: ws => (c :: w) :: ws

theorem fields_eq : fields s = ((s.toList.foldr addRune [[]]).filter (· ≠ [])).map String.ofList := rfl

theorem foldr_addRune_ne_nil (l : List Char) (w : List Char) (ws : List (List Char)) :
    l.foldr addRune (w :: ws) ≠ [] := by
  cases l with
  | nil => exact cons_ne_nil _ _
  | cons c l =>
    simp only [foldr_cons, addRune]
    split
    · exact cons_ne_nil _ _
    · split <;> exact cons_ne_nil _ _

theorem foldr_addRune (l : List Char) (ws : List (List Char)) :
    l.foldr addRune ([] :: ws) = l.foldr addRune [[]] ++ ws := by
  induction l with
  | nil => rfl
  | cons c l ih =>
    simp only [foldr_cons, ih]
    cases hl : l.foldr addRune [[]] with
    | nil => exact absurd hl (foldr_addRune_ne_nil l [] [])
    | cons w rest =>
      unfold addRune
      split <;> rfl

theorem fields_append_space (a b : String) : fields (a ++ " " ++ b) = fields a ++ fields b := by
  have hl : (a ++ " " ++ b).toList = a.toList ++ ' ' :: b.toList := by simp
  have hspace : addRune ' ' (b.toList.foldr addRune [[]]) = [] :: b.toList.foldr addRune [[]] := by
    unfold addRune
    rw [if_pos (by decide)]
  rw [fields_eq, hl, foldr_append, foldr_cons, hspace, foldr_addRune, filter_append, map_append]
  rfl

theorem fields_intercalate (l) : fields (" ".intercalate l) = l.flatMap fields := by
  induction l with
  | nil => rfl
  | cons a l ih =>
    cases l with
    | nil => simp
    | cons b l =>
      rw [String.intercalate_cons_cons, fields_append_space, ih]
      rfl

theorem mem_fields {s w : String} (h : w ∈ fields s) : w.toList ≠ [] ∧ ∀ c ∈ w.toList, isSpace c = false := by
  have hwords : ∀ (l : List Char), ∀ v ∈ l.foldr addRune [[]], ∀ c ∈ v, isSpace c = false := by
    intro l
    induction l with
    | nil =>
      intro v hv c hc
      simp only [foldr_nil, mem_singleton] at hv
      subst hv
      cases hc
    | cons a l ih =>
      intro v hv c hc
      simp only [foldr_cons, addRune] at hv
      by_cases ha : isSpace a = true
      · rw [if_pos ha] at hv
        rcases mem_cons.mp hv with rfl | hv
        · cases hc
        · exact ih v hv c hc
      · rw [if_neg ha] at hv
        cases hl : l.foldr addRune [[]] with
        | nil => exact absurd hl (foldr_addRune_ne_nil l [] [])
        | cons w rest =>
          rw [hl] at hv ih
          rcases mem_cons.mp hv with rfl | hv
          · rcases mem_cons.mp hc with rfl | hc
            · exact Bool.eq_false_iff.mpr ha
            · exact ih w (mem_cons_self ..) c hc
          · exact ih v (mem_cons_of_mem _ hv) c hc
  rw [fields_eq] at h
  obtain ⟨v, hv, rfl⟩ := mem_map.mp h
  rw [mem_filter] at hv
  rw [String.toList_ofList]
  exact ⟨of_decide_eq_true hv.2, hwords _ v hv.1⟩

theorem fields_of_mem {s w} (h : w ∈ fields s) : fields w = [w] := by
  obtain ⟨hne, hspace⟩ := mem_fields h
  have hrun : ∀ l : List Char, (∀ c ∈ l, isSpace c = false) → l.foldr addRune [[]] = [l] := by
    intro l
    induction l with
    | nil => exact fun _ => rfl
    | cons a l ih =>
      intro hl
      rw [foldr_cons, ih fun c hc => hl c (mem_cons_of_mem _ hc)]
      unfold addRune
      rw [if_neg (by rw [hl a (mem_cons_self ..)]; exact Bool.false_ne_true)]
  rw [fields_eq, hrun w.toList hspace]
  simp [hne]

theorem splitRune_intercalate {c : Char} {sep : String} (hsep : sep.toList = [c]) {l} (hl : l ≠ [])
    (h : ∀ s ∈ l, c ∉ s.toList) : splitRune c (sep.intercalate l) = l := by
  unfold splitRune
  rw [String.toList_intercalate, hsep, splitOn_intercalate c, map_map]
  · have hid : String.ofList ∘ String.toList = id := funext fun s => String.ofList_toList
    rw [hid, map_id]
  · intro l' hl'
    obtain ⟨s, hs, rfl⟩ := mem_map.mp hl'
    exact h s hs
  · exact fun he => hl (map_eq_nil_iff.mp he)

def quote : String := "\"" ++ s ++ "\""

end Clavex

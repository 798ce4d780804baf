import Mathlib.Data.List.Infix
import Mathlib.Algebra.BigOperators.Group.List.Basic
import Mathlib.Algebra.GroupWithZero.Nat

/-!
# Patterns of LIKE

A percent sign stands for any characters, an underscore for any one, and a backslash takes
its special meaning from the character behind it. Characters are compared after folding.
-/

namespace Strings

set_option autoImplicit false

inductive LikeToken where
  | any
  | one
  | char (c : Char)
  deriving DecidableEq, Repr

/-- A pattern may not end with the escape character. -/
def likeTokens? : List Char → Option (List LikeToken)
  | [] => some []
  | ['\\'] => none
  | '\\' :: c :: pattern => (likeTokens? pattern).map (.char c :: ·)
  | '%' :: pattern => (likeTokens? pattern).map (.any :: ·)
  | '_' :: pattern => (likeTokens? pattern).map (.one :: ·)
  | c :: pattern => (likeTokens? pattern).map (.char c :: ·)

def IsSpecial (c : Char) : Prop := c = '%' ∨ c = '_' ∨ c = '\\'

instance (c : Char) : Decidable (IsSpecial c) := inferInstanceAs (Decidable (_ ∨ _ ∨ _))

section Matching
variable (fold : Char → Char)

def likeMatches : List LikeToken → List Char → Bool
  | [], s => s.isEmpty
  | .any :: ts, s => s.tails.any (likeMatches ts)
  | .one :: ts, s =>
    match s with
    | [] => false
    | _ :: s => likeMatches ts s
  | .char d :: ts, s =>
    match s with
    | [] => false
    | c :: s => fold c == fold d && likeMatches ts s

/-- Case-insensitive LIKE on the whole string. -/
def ilike (s pattern : List Char) : Bool :=
  match likeTokens? pattern with
  | none => false
  | some ts => likeMatches fold ts s

/-- `s` contains `q`, ignoring case. -/
def Contains (s q : List Char) : Prop := q.map fold <:+: s.map fold

instance (s q : List Char) : Decidable (Contains fold s q) :=
  inferInstanceAs (Decidable (_ <:+: _))

variable {fold} {q s : List Char}

theorem contains_iff : Contains fold s q ↔ ∃ t, t <:+ s ∧ q.map fold <+: t.map fold := by
  unfold Contains
  rw [List.infix_iff_prefix_suffix]
  constructor
  · rintro ⟨t, hpart, hsuffix⟩
    obtain ⟨before, hsplit⟩ := hsuffix
    obtain ⟨_, t, rfl, _, rfl⟩ := List.map_eq_append_iff.mp hsplit.symm
    exact ⟨t, List.suffix_append _ _, hpart⟩
  · rintro ⟨t, hsuffix, hpart⟩
    exact ⟨t.map fold, hpart, hsuffix.map fold⟩

/-- A pattern that starts with a percent sign matches where its rest matches some end. -/
theorem ilike_any {pattern : List Char} {ts : List LikeToken} (h : likeTokens? pattern = some ts) :
    ilike fold s ('%' :: pattern) = true ↔ ∃ t, t <:+ s ∧ likeMatches fold ts t = true := by
  unfold ilike
  rw [likeTokens?, h]
  change s.tails.any (likeMatches fold ts) = true ↔ _
  simp only [List.any_eq_true, List.mem_tails]

end Matching

section Literal
variable {fold : Char → Char} {q s : List Char}

theorem likeTokens?_literal (h : ∀ c ∈ q, ¬ IsSpecial c) :
    likeTokens? (q ++ ['%']) = some (q.map .char ++ [.any]) := by
  induction q with
  | nil => rfl
  | cons c q ih =>
    have hc : ¬ IsSpecial c := h c List.mem_cons_self
    rw [List.cons_append, likeTokens?, ih fun d hd => h d (List.mem_cons_of_mem c hd)]
    · rfl
    · exact fun h => absurd (.inr (.inr h)) hc
    · exact fun _ _ h => absurd (.inr (.inr h)) hc
    · exact fun h => absurd (.inl h) hc
    · exact fun h => absurd (.inr (.inl h)) hc

theorem likeMatches_literal :
    likeMatches fold (q.map .char ++ [.any]) s = true ↔ q.map fold <+: s.map fold := by
  induction q generalizing s with
  | nil =>
    simp only [List.map_nil, List.nil_append, List.nil_prefix, iff_true]
    change s.tails.any (likeMatches fold []) = true
    exact List.any_eq_true.mpr ⟨[], (List.mem_tails _ _).mpr (List.nil_suffix), rfl⟩
  | cons d q ih =>
    cases s with
    | nil => simp [likeMatches]
    | cons c s =>
      change (fold c == fold d && likeMatches fold (q.map .char ++ [.any]) s) = true ↔ _
      rw [Bool.and_eq_true, ih, beq_iff_eq, List.map_cons, List.map_cons, List.cons_prefix_cons]
      exact and_congr_left fun _ => eq_comm

/-- Without special characters, the search pattern is substring search. -/
theorem ilike_literal (h : ∀ c ∈ q, ¬ IsSpecial c) :
    ilike fold s ('%' :: (q ++ ['%'])) = true ↔ Contains fold s q := by
  rw [ilike_any (likeTokens?_literal h), contains_iff]
  simp only [likeMatches_literal]

end Literal

section Special

/-- A backslash weighs two, so that it still loses if all it takes is the percent sign that
follows the search text. -/
def specialWeight (c : Char) : Nat := if c = '\\' then 2 else if c = '%' ∨ c = '_' then 1 else 0

def specials (s : List Char) : Nat := (s.map specialWeight).sum

theorem specials_cons (c : Char) (s : List Char) :
    specials (c :: s) = specialWeight c + specials s :=
  List.sum_cons

/-- A text that the search pattern of `q` matches, with fewer special characters. -/
def denoted : List Char → List Char
  | [] => []
  | ['\\'] => ['%']
  | '\\' :: c :: q => c :: denoted q
  | '%' :: q => denoted q
  | '_' :: q => 'x' :: denoted q
  | c :: q => c :: denoted q

/-- The last case of `denoted`. -/
theorem not_special {c : Char} {q : List Char} (hlone : c = '\\' → q = [] → False)
    (hescape : ∀ d rest, c = '\\' → q = d :: rest → False) (hany : c = '%' → False)
    (hone : c = '_' → False) : ¬ IsSpecial c := by
  rintro (h | h | h)
  · exact hany h
  · exact hone h
  · cases q with
    | nil => exact hlone h rfl
    | cons d rest => exact hescape d rest h rfl

theorem specials_denoted (q : List Char) : specials (denoted q) ≤ specials q ∧
    ((∃ c ∈ q, IsSpecial c) → specials (denoted q) < specials q) := by
  have hbackslash : specialWeight '\\' = 2 := rfl
  have hpercent : specialWeight '%' = 1 := rfl
  have hunderscore : specialWeight '_' = 1 := rfl
  have hletter : specialWeight 'x' = 0 := rfl
  induction q using denoted.induct with
  | case1 => exact ⟨Nat.le_refl _, nofun⟩
  | case2 => exact ⟨by decide, fun _ => by decide⟩
  | case3 c q ih =>
    rw [denoted, specials_cons, specials_cons, specials_cons]
    omega
  | case4 q ih =>
    rw [denoted, specials_cons]
    omega
  | case5 q ih =>
    rw [denoted, specials_cons, specials_cons]
    omega
  | case6 c q hlone hescape hany hone ih =>
    rw [denoted, specials_cons, specials_cons]
    · refine ⟨by omega, fun hspecial => ?_⟩
      obtain ⟨d, hd, hspecial⟩ := hspecial
      rcases List.mem_cons.mp hd with rfl | hd
      · exact absurd hspecial (not_special hlone hescape hany hone)
      · have hless := ih.2 ⟨d, hd, hspecial⟩
        omega
    all_goals assumption

theorem denoted_matches (fold : Char → Char) (q : List Char) :
    ∃ ts, likeTokens? (q ++ ['%']) = some ts ∧
    likeMatches fold ts (denoted q) = true := by
  induction q using denoted.induct with
  | case1 => exact ⟨[.any], rfl, rfl⟩
  | case2 => exact ⟨[.char '%'], rfl, by simp [denoted, likeMatches]⟩
  | case3 c q ih =>
    obtain ⟨ts, hts, hmatches⟩ := ih
    refine ⟨.char c :: ts, ?_, ?_⟩
    · rw [List.cons_append, List.cons_append, likeTokens?, hts]
      rfl
    · rw [denoted]
      simp [likeMatches, hmatches]
  | case4 q ih =>
    obtain ⟨ts, hts, hmatches⟩ := ih
    refine ⟨.any :: ts, ?_, ?_⟩
    · rw [List.cons_append, likeTokens?, hts]
      rfl
    · rw [denoted]
      exact List.any_eq_true.mpr ⟨_, (List.mem_tails _ _).mpr (List.suffix_refl _), hmatches⟩
  | case5 q ih =>
    obtain ⟨ts, hts, hmatches⟩ := ih
    refine ⟨.one :: ts, ?_, ?_⟩
    · rw [List.cons_append, likeTokens?, hts]
      rfl
    · rw [denoted]
      exact hmatches
  | case6 c q hlone hescape hany hone ih =>
    obtain ⟨ts, hts, hmatches⟩ := ih
    refine ⟨.char c :: ts, ?_, ?_⟩
    · have hplain := not_special hlone hescape hany hone
      rw [List.cons_append, likeTokens?, hts]
      · rfl
      · exact fun h => absurd (.inr (.inr h)) hplain
      · exact fun _ _ h => absurd (.inr (.inr h)) hplain
      · exact hany
      · exact hone
    · rw [denoted]
      · simp [likeMatches, hmatches]
      all_goals assumption

variable {fold : Char → Char}

/-- Folding that has no other form of the special characters. -/
def Caseless (fold : Char → Char) : Prop := ∀ c d, IsSpecial d → fold c = fold d → c = d

theorem specialWeight_of_fold (hfold : Caseless fold) {c d : Char} (h : fold c = fold d) :
    specialWeight c = specialWeight d := by
  by_cases hd : IsSpecial d
  · rw [hfold c d hd h]
  by_cases hc : IsSpecial c
  · rw [hfold d c hc h.symm]
  · have hplain : ∀ e, ¬ IsSpecial e → specialWeight e = 0 := fun e he => by
      unfold specialWeight
      rw [if_neg fun h => he (.inr (.inr h)), if_neg fun h => he (h.imp_right .inl)]
    rw [hplain c hc, hplain d hd]

theorem specials_of_map (hfold : Caseless fold) {s t : List Char} (h : s.map fold = t.map fold) :
    specials s = specials t := by
  induction s generalizing t with
  | nil =>
    rw [List.map_eq_nil_iff.mp h.symm]
  | cons c s ih =>
    cases t with
    | nil => cases h
    | cons d t =>
      obtain ⟨hhead, htail⟩ := List.cons.inj h
      rw [specials_cons, specials_cons, specialWeight_of_fold hfold hhead, ih htail]

theorem specials_of_contains (hfold : Caseless fold) {s q : List Char}
    (h : Contains fold s q) : specials q ≤ specials s := by
  obtain ⟨before, after, hsplit⟩ := h
  obtain ⟨s', t, rfl, hs', _⟩ := List.map_eq_append_iff.mp hsplit.symm
  obtain ⟨u, v, rfl, _, hv⟩ := List.map_eq_append_iff.mp hs'
  have hsame := specials_of_map hfold hv
  unfold specials at hsame ⊢
  rw [List.map_append, List.map_append, List.sum_append, List.sum_append]
  omega

/-- With a special character in it, the search pattern of `q` matches a text that does not
contain `q`. -/
theorem ilike_denoted (hfold : Caseless fold) {q : List Char} (h : ∃ c ∈ q, IsSpecial c)
    (before : List Char) (hbefore : specials before = 0) :
    ilike fold (before ++ denoted q) ('%' :: (q ++ ['%'])) = true ∧
      ¬ Contains fold (before ++ denoted q) q := by
  obtain ⟨ts, hts, hmatches⟩ := denoted_matches fold q
  refine ⟨(ilike_any hts).mpr ⟨_, List.suffix_append _ _, hmatches⟩, fun hcontains => ?_⟩
  have hless := (specials_denoted q).2 h
  have hle := specials_of_contains hfold hcontains
  unfold specials at hle hless hbefore
  rw [List.map_append, List.sum_append] at hle
  omega

end Special

end Strings

import BookingPlatform.Services.Summary
import Mathlib.Algebra.BigOperators.Group.List.Basic
import Mathlib.Algebra.Order.Field.Rat
import Mathlib.Data.List.Dedup
import Mathlib.Tactic.Linarith
import Mathlib.Tactic.FieldSimp

/-!
# Ratings and their aggregates

The rounded mean stays between the bounds of the ratings, and the distribution says how
often each rating occurs.
-/

namespace BookingPlatform

set_option autoImplicit false

section Rounding
variable {q : ℚ} {n : Int}

theorem le_roundHalfEven (h : (n : ℚ) ≤ q) : n ≤ roundHalfEven q := by
  have hfloor : n ≤ ⌊q⌋ := Int.le_floor.mpr h
  unfold roundHalfEven
  split
  · exact hfloor
  split
  · omega
  split
  · exact hfloor
  · omega

theorem roundHalfEven_le (h : q ≤ n) : roundHalfEven q ≤ n := by
  have hfloor : ⌊q⌋ ≤ n := by
    have hle : (⌊q⌋ : ℚ) ≤ n := (Int.floor_le q).trans h
    exact_mod_cast hle
  rcases hfloor.lt_or_eq with hlt | heq
  · unfold roundHalfEven
    split
    · exact hfloor
    split
    · omega
    split
    · exact hfloor
    · omega
  · -- The number is the integer itself.
    have hint : q = n := by
      refine le_antisymm h ?_
      rw [← heq]
      exact Int.floor_le q
    have hzero : q - ⌊q⌋ < 1 / 2 := by
      rw [heq, hint, sub_self]
      norm_num
    unfold roundHalfEven
    rw [if_pos hzero]
    exact hfloor

theorem floor_le_roundHalfEven (q : ℚ) : ⌊q⌋ ≤ roundHalfEven q := le_roundHalfEven (Int.floor_le q)

theorem roundHalfEven_le_floor_add_one (q : ℚ) : roundHalfEven q ≤ ⌊q⌋ + 1 := by
  apply roundHalfEven_le
  push_cast
  exact (Int.lt_floor_add_one q).le

theorem roundHalfEven_int (n : Int) : roundHalfEven n = n :=
  le_antisymm (roundHalfEven_le le_rfl) (le_roundHalfEven le_rfl)

theorem roundHalfEven_mono {q r : ℚ} (h : q ≤ r) : roundHalfEven q ≤ roundHalfEven r := by
  rcases (Int.floor_mono h).lt_or_eq with hlt | heq
  · -- The next integer up is still no more than the other's floor.
    calc roundHalfEven q ≤ ⌊q⌋ + 1 := roundHalfEven_le_floor_add_one q
      _ ≤ ⌊r⌋ := hlt
      _ ≤ roundHalfEven r := floor_le_roundHalfEven r
  · have hfraction : q - ⌊q⌋ ≤ r - ⌊r⌋ := by
      rw [heq]
      exact sub_le_sub_right h _
    by_cases hlow : q - ⌊q⌋ < 1 / 2
    · have hq : roundHalfEven q = ⌊q⌋ := if_pos hlow
      rw [hq, heq]
      exact floor_le_roundHalfEven r
    by_cases hhigh : 1 / 2 < r - ⌊r⌋
    · have hr : roundHalfEven r = ⌊r⌋ + 1 := by
        unfold roundHalfEven
        rw [if_neg (not_lt.mpr hhigh.le), if_pos hhigh]
      rw [hr, ← heq]
      exact roundHalfEven_le_floor_add_one q
    · -- Both are halves above the same integer.
      have hq : ¬ 1 / 2 < q - ⌊q⌋ := fun hlt => hhigh (hlt.trans_le hfraction)
      have hr : ¬ r - ⌊r⌋ < 1 / 2 := fun hlt => hlow (hfraction.trans_lt hlt)
      unfold roundHalfEven
      rw [if_neg hlow, if_neg hq, if_neg hr, if_neg hhigh, heq]

theorem round2_mono {q r : ℚ} (h : q ≤ r) : round2 q ≤ round2 r := by
  have hround : roundHalfEven (q * 100) ≤ roundHalfEven (r * 100) :=
    roundHalfEven_mono (mul_le_mul_of_nonneg_right h (by norm_num))
  have hcast : (roundHalfEven (q * 100) : ℚ) ≤ roundHalfEven (r * 100) := by exact_mod_cast hround
  unfold round2
  linarith

/-- Two decimals are printed as they are. -/
theorem roundHalfEven_round2 (q : ℚ) :
    roundHalfEven (round2 q * 100) = roundHalfEven (q * 100) := by
  unfold round2
  rw [div_mul_cancel₀ _ (by norm_num), roundHalfEven_int]

theorem le_round2 (h : (n : ℚ) ≤ q) : (n : ℚ) ≤ round2 q := by
  have hround : n * 100 ≤ roundHalfEven (q * 100) := by
    apply le_roundHalfEven
    push_cast
    linarith
  have hcast : ((n * 100 : Int) : ℚ) ≤ roundHalfEven (q * 100) := by exact_mod_cast hround
  push_cast at hcast
  unfold round2
  linarith

theorem round2_le (h : q ≤ n) : round2 q ≤ n := by
  have hround : roundHalfEven (q * 100) ≤ n * 100 := by
    apply roundHalfEven_le
    push_cast
    linarith
  have hcast : (roundHalfEven (q * 100) : ℚ) ≤ ((n * 100 : Int) : ℚ) := by exact_mod_cast hround
  push_cast at hcast
  unfold round2
  linarith

end Rounding

section Mean

theorem sum_bounds {values : List Int} {lo hi : Int} (h : ∀ v ∈ values, lo ≤ v ∧ v ≤ hi) :
    lo * values.length ≤ values.sum ∧ values.sum ≤ hi * values.length := by
  induction values with
  | nil => simp
  | cons v vs ih =>
    obtain ⟨hlo, hhi⟩ := h v List.mem_cons_self
    obtain ⟨ihlo, ihhi⟩ := ih fun w hw => h w (List.mem_cons_of_mem v hw)
    simp only [List.sum_cons, List.length_cons, Nat.cast_add, Nat.cast_one, mul_add, mul_one]
    omega

/-- The rounded mean lies between the bounds of the values; over none it is 0. -/
theorem roundedAverage_bounds {values : List Int} {hi : Int} (h : ∀ v ∈ values, 1 ≤ v ∧ v ≤ hi)
    (hhi : 0 ≤ hi) :
    0 ≤ roundedAverage (average values) ∧ roundedAverage (average values) ≤ hi := by
  unfold average
  split
  · have hcast : (0 : ℚ) ≤ hi := by exact_mod_cast hhi
    exact ⟨le_rfl, hcast⟩
  · rename_i hne
    have hlength : (0 : ℚ) < values.length := by
      exact_mod_cast List.length_pos_iff.mpr hne
    obtain ⟨hlo, hup⟩ := sum_bounds h
    generalize values.sum = total at hlo hup ⊢
    have hlo' : ((1 : Int) : ℚ) * values.length ≤ total := by exact_mod_cast hlo
    have hup' : (total : ℚ) ≤ hi * values.length := by exact_mod_cast hup
    constructor
    · have hone : ((1 : Int) : ℚ) ≤ total / values.length := by
        rw [le_div_iff₀ hlength]
        exact hlo'
      have hround : ((1 : Int) : ℚ) ≤ round2 (total / values.length) := le_round2 hone
      have hzero : (0 : ℚ) ≤ ((1 : Int) : ℚ) := by norm_num
      exact hzero.trans hround
    · apply round2_le
      rw [div_le_iff₀ hlength]
      exact hup'

/-- The exact mean. -/
def mean (values : List Int) : ℚ := values.sum / values.length

theorem le_mean_iff {values : List Int} (hne : values ≠ []) {x : ℚ} :
    x ≤ mean values ↔ x * values.length ≤ (values.sum : ℚ) := by
  have hlength : (0 : ℚ) < values.length := by exact_mod_cast List.length_pos_iff.mpr hne
  exact le_div_iff₀ hlength

theorem mean_perm {values values' : List Int} (h : values.Perm values') :
    mean values = mean values' := by
  unfold mean
  rw [h.sum_eq, h.length_eq]

/-- A value that is no less than the mean does not lower it. -/
theorem mean_le_mean_cons {values : List Int} (hne : values ≠ []) {x : Int}
    (h : mean values ≤ x) : mean values ≤ mean (x :: values) := by
  have hmean := (le_mean_iff hne).mp (le_refl (mean values))
  rw [le_mean_iff (List.cons_ne_nil x values), List.sum_cons, List.length_cons, Int.cast_add,
    Nat.cast_succ]
  linarith

/-- Without a value that is no more than the mean, the mean is no lower. -/
theorem mean_cons_le_mean {values : List Int} (hne : values ≠ []) {x : Int}
    (h : (x : ℚ) ≤ mean (x :: values)) : mean (x :: values) ≤ mean values := by
  have hmean := (le_mean_iff (List.cons_ne_nil x values)).mp (le_refl (mean (x :: values)))
  rw [List.sum_cons, List.length_cons, Int.cast_add, Nat.cast_succ] at hmean
  rw [le_mean_iff hne]
  linarith

/-- Values that are replaced by others no less than they are do not lower the mean. -/
theorem mean_le_mean_of_forall₂ {values values' : List Int}
    (h : List.Forall₂ (fun x y => x ≤ y) values values') : mean values ≤ mean values' := by
  have hsum : values.sum ≤ values'.sum := by
    induction h with
    | nil => exact le_rfl
    | cons hle _ ih =>
      simp only [List.sum_cons]
      omega
  have hcast : (values.sum : ℚ) ≤ values'.sum := by exact_mod_cast hsum
  unfold mean
  rw [h.length_eq]
  exact div_le_div_of_nonneg_right hcast (Nat.cast_nonneg _)

end Mean

section Distribution

/-- All the values of the dict. -/
def Distribution.total (d : Distribution) : Nat := (d.map Prod.snd).sum

/-- Each rating as often as the dict counts it. -/
def Distribution.weighted (d : Distribution) : Int := (d.map fun x => x.1 * (x.2 : Int)).sum

theorem Distribution.set_map {keys : List Int} {f : Int → Nat} {r : Int} (cnt : Nat)
    (hr : r ∈ keys) (hkeys : keys.Nodup) :
    Distribution.set (keys.map fun k => (k, f k)) r cnt =
      keys.map fun k => (k, if k = r then cnt else f k) := by
  induction keys with
  | nil => cases hr
  | cons k ks ih =>
    obtain ⟨hk, hks⟩ := List.nodup_cons.mp hkeys
    simp only [List.map_cons, Distribution.set]
    by_cases heq : k = r
    · subst heq
      simp only [if_true]
      congr 1
      refine List.map_congr_left fun j hj => ?_
      exact congrArg (Prod.mk j) (if_neg fun h : j = k => hk (h ▸ hj)).symm
    · simp only [if_neg heq]
      rw [ih ((List.mem_cons.mp hr).resolve_left (Ne.symm heq)) hks]

theorem Distribution.set_all {keys values : List Int} (count : Int → Nat) {f : Int → Nat}
    (hvalues : ∀ v ∈ values, v ∈ keys) (hkeys : keys.Nodup) :
    (values.map fun v => (v, count v)).foldl (fun d row => Distribution.set d row.1 row.2)
        (keys.map fun k => (k, f k)) =
      keys.map fun k => (k, if k ∈ values then count k else f k) := by
  induction values generalizing f with
  | nil => simp
  | cons v vs ih =>
    simp only [List.map_cons, List.foldl_cons]
    rw [Distribution.set_map (count v) (hvalues v List.mem_cons_self) hkeys,
      ih fun w hw => hvalues w (List.mem_cons_of_mem v hw)]
    refine List.map_congr_left fun k _ => ?_
    by_cases hkv : k = v
    · subst hkv
      simp
    · simp [hkv]

/-- The distribution of ratings between 1 and 5 counts each of them. -/
theorem distributionOf_eq {ratings : List Int} (h : ∀ r ∈ ratings, 1 ≤ r ∧ r ≤ 5) :
    distributionOf (groupCounts ratings) =
      [1, 2, 3, 4, 5].map fun k => (k, ratings.count k) := by
  have hmem : ∀ r ∈ ratings.dedup, r ∈ ([1, 2, 3, 4, 5] : List Int) := by
    intro r hr
    obtain ⟨hlo, hhi⟩ := h r (List.mem_dedup.mp hr)
    simp only [List.mem_cons, List.not_mem_nil, or_false]
    omega
  have hfold := Distribution.set_all (f := fun _ => 0) (fun v => ratings.count v) hmem (by decide)
  refine (show distributionOf (groupCounts ratings) = _ from hfold).trans ?_
  refine List.map_congr_left fun k _ => ?_
  by_cases hk : k ∈ ratings
  · rw [if_pos (List.mem_dedup.mpr hk)]
  · rw [if_neg fun hd => hk (List.mem_dedup.mp hd), List.count_eq_zero_of_not_mem hk]

theorem distributionOf_sums {ratings : List Int} (h : ∀ r ∈ ratings, 1 ≤ r ∧ r ≤ 5) :
    (distributionOf (groupCounts ratings)).total = ratings.length ∧
      (distributionOf (groupCounts ratings)).weighted = ratings.sum := by
  rw [distributionOf_eq h]
  unfold Distribution.total Distribution.weighted
  simp only [List.map_cons, List.map_nil, List.sum_cons, List.sum_nil]
  induction ratings with
  | nil => simp
  | cons r rs ih =>
    obtain ⟨htotal, hweighted⟩ := ih fun w hw => h w (List.mem_cons_of_mem r hw)
    obtain ⟨hlo, hhi⟩ := h r List.mem_cons_self
    have hcases : r = 1 ∨ r = 2 ∨ r = 3 ∨ r = 4 ∨ r = 5 := by omega
    simp only [List.count_cons, List.length_cons, List.sum_cons]
    rcases hcases with rfl | rfl | rfl | rfl | rfl <;> simp <;> omega

end Distribution

end BookingPlatform

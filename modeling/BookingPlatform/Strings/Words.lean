import BookingPlatform.Strings.Json
import Mathlib.Data.List.DropRight
import Mathlib.Algebra.BigOperators.Group.List.Basic
import Mathlib.Algebra.GroupWithZero.Nat

/-!
# Texts as strings, their parts and their ends
-/

namespace Strings

set_option autoImplicit false

section Points

theorem points_inj {s t : String} (h : points s = points t) : s = t := by
  apply String.toList_injective
  apply List.map_injective_iff.mpr _ h
  intro a b hab
  rw [← Char.ofNat_toNat a, ← Char.ofNat_toNat b, hab]

theorem scalar_toNat (c : Char) : Json.Scalar c.toNat := by
  have hvalid : Nat.isValidChar c.toNat := c.valid
  unfold Nat.isValidChar at hvalid
  unfold Json.Scalar Json.IsHigh Json.IsLow
  omega

theorem scalar_points (s : String) : ∀ c ∈ points s, Json.Scalar c := by
  intro c hc
  obtain ⟨d, _, rfl⟩ := List.mem_map.mp hc
  exact scalar_toNat d

instance (c : Nat) : Decidable (Json.Scalar c) := inferInstanceAs (Decidable (_ ∧ _))

/-- The string of these code points, if there are no surrogates among them. -/
def ofPoints? (s : Str) : Option String :=
  if ∀ c ∈ s, Json.Scalar c then some (String.ofList (s.map Char.ofNat)) else none

theorem ofPoints?_points (s : String) : ofPoints? (points s) = some s := by
  have hsame : (points s).map Char.ofNat = s.toList := by
    unfold points
    rw [List.map_map]
    exact (List.map_congr_left fun c _ => Char.ofNat_toNat c).trans (List.map_id _)
  unfold ofPoints?
  rw [if_pos (scalar_points s), hsame, String.ofList_toList]

theorem points_ofPoints? {s : Str} {t : String} (h : ofPoints? s = some t) : points t = s := by
  unfold ofPoints? at h
  split at h
  · rename_i hscalar
    cases h
    unfold points
    rw [String.toList_ofList, List.map_map]
    refine (List.map_congr_left fun c hc => ?_).trans (List.map_id _)
    obtain ⟨hrange, hhigh, hlow⟩ := hscalar c hc
    have hvalid : Nat.isValidChar c := by
      unfold Json.IsHigh at hhigh
      unfold Json.IsLow at hlow
      unfold Nat.isValidChar
      omega
    change (Char.ofNat c).toNat = c
    unfold Char.ofNat
    rw [dif_pos hvalid]
    rfl
  · cases h

end Points

section Ends

/-- `str.isspace` of one character. -/
def isWhite (c : Nat) : Bool :=
  (9 ≤ c && c ≤ 13) || (28 ≤ c && c ≤ 32) || c == 0x85 || c == 0xA0 || c == 0x1680 ||
    (0x2000 ≤ c && c ≤ 0x200A) || c == 0x2028 || c == 0x2029 || c == 0x202F || c == 0x205F ||
    c == 0x3000

def strip (s : Str) : Str := (s.dropWhile isWhite).rdropWhile isWhite

/-- `s.split(",")`. -/
def split (s : Str) : List Str := s.splitOn comma

theorem skip_of_not_white {c : Nat} (h : isWhite c = false) (s : Str) :
    Json.skip (c :: s) = c :: s := by
  apply List.dropWhile_cons_of_neg
  intro hspace
  simp only [Json.isSpace, isWhite, Bool.or_eq_true, Bool.or_eq_false_iff, Bool.and_eq_false_iff,
    beq_iff_eq, decide_eq_false_iff_not] at hspace h
  omega

theorem isWhite_of_strip {c : Nat} {s : Str} (h : strip (c :: s) = c :: s) :
    isWhite c = false := by
  by_contra hwhite
  have hc : isWhite c = true := by
    cases hwhite' : isWhite c with
    | false => exact absurd hwhite' hwhite
    | true => rfl
  have hlength := congrArg List.length h
  have hright := (List.rdropWhile_prefix isWhite ((c :: s).dropWhile isWhite)).length_le
  have hleft := (List.dropWhile_sublist (l := s) isWhite).length_le
  rw [List.dropWhile_cons_of_pos hc] at hright
  unfold strip at hlength
  rw [List.dropWhile_cons_of_pos hc, List.length_cons] at hlength
  omega

variable {p : Nat → Bool}

theorem countP_strip_le (s : Str) : (strip s).countP p ≤ s.countP p := by
  have hright := ((List.rdropWhile_prefix isWhite (s.dropWhile isWhite)).sublist).countP_le (p := p)
  have hleft := (List.dropWhile_sublist (l := s) isWhite).countP_le (p := p)
  exact Nat.le_trans hright hleft

theorem countP_intercalate_le (sep : Str) (ts : List Str) :
    (ts.map (List.countP p)).sum ≤ (sep.intercalate ts).countP p := by
  induction ts with
  | nil => exact Nat.zero_le _
  | cons t ts ih =>
    cases ts with
    | nil =>
      rw [List.intercalate_singleton, List.map_singleton, List.sum_singleton]
    | cons u ts =>
      rw [List.intercalate_cons_cons, List.countP_append, List.countP_append, List.map_cons,
        List.sum_cons]
      omega

/-- `[i.strip() for i in ts if i.strip()]` -/
def stripAll (ts : List Str) : List Str := (ts.map strip).filter (· ≠ [])

theorem countP_stripAll_le (ts : List Str) :
    ((stripAll ts).map (List.countP p)).sum ≤ (ts.map (List.countP p)).sum := by
  induction ts with
  | nil => exact Nat.le_refl _
  | cons t ts ih =>
    have ht := countP_strip_le (p := p) t
    unfold stripAll at ih ⊢
    rw [List.map_cons, List.filter_cons, List.map_cons, List.sum_cons]
    split
    · rw [List.map_cons, List.sum_cons]
      omega
    · omega

theorem countP_split_le (s : Str) : ((split s).map (List.countP p)).sum ≤ s.countP p := by
  have hle := countP_intercalate_le (p := p) [comma] (split s)
  rwa [split, List.intercalate_splitOn] at hle

end Ends

end Strings

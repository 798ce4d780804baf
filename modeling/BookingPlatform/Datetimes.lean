import BookingPlatform.Jobs
import BookingPlatform.Tokens
import BookingPlatform.Strings.JsonDumps

/-!
# Datetimes are read back from their texts

The calendar of `isoformat` is undone year by year, and its digits one by one, so no two
moments are printed alike.
-/

namespace BookingPlatform

set_option autoImplicit false

open Strings Strings.Json

section Calendar

/-- The number of days from 1970-01-01 to a date. -/
def daysOf (year month day : Nat) : Int :=
  let y : Int := year - if month ≤ 2 then 1 else 0
  let yoe := (y % 400).toNat
  let mp := if month ≤ 2 then month + 9 else month - 3
  let doy := (153 * mp + 2) / 5 + day - 1
  y / 400 * 146097 + (365 * yoe + yoe / 4 - yoe / 100 + doy : Nat) - 719468

/-- The year a day of four centuries lies in, and the day of that year. -/
theorem dayOfYear {doe yoe : Nat} (h : doe < 146097)
    (hy : yoe = (doe - doe / 1460 + doe / 36524 - doe / 146096) / 365) :
    yoe < 400 ∧ 365 * yoe + yoe / 4 - yoe / 100 ≤ doe ∧
      doe - (365 * yoe + yoe / 4 - yoe / 100) ≤ 365 := by
  -- The last day of the four centuries is by itself.
  have hcentury : doe / 36524 = 0 ∨ doe / 36524 = 1 ∨ doe / 36524 = 2 ∨ doe / 36524 = 3 ∨
      doe = 146096 := by omega
  rcases hcentury with hc | hc | hc | hc | rfl
  · have hyoe : yoe / 100 = 0 := by omega
    omega
  · have hyoe : yoe / 100 = 1 := by omega
    omega
  · have hyoe : yoe / 100 = 2 := by omega
    omega
  · have hyoe : yoe / 100 = 3 := by omega
    omega
  · obtain rfl : yoe = 399 := hy
    omega

/-- The month, counted from March, and the day of the month. -/
theorem monthOfDay {doy mp : Nat} (h : doy ≤ 365) (hmp : mp = (5 * doy + 2) / 153) :
    mp ≤ 11 ∧ (153 * mp + 2) / 5 ≤ doy ∧ doy - (153 * mp + 2) / 5 ≤ 30 := by
  omega

theorem daysOf_civil {days : Int} (hlow : -719162 ≤ days) (hhigh : days < 2932897) :
    ∃ year month day, civil days = (year, month, day) ∧ year < 10000 ∧ month < 100 ∧ day < 100 ∧
      daysOf year month day = days := by
  obtain ⟨era, hera⟩ : ∃ era, era = (days + 719468) / 146097 := ⟨_, rfl⟩
  obtain ⟨doe, hdoe⟩ : ∃ doe, doe = ((days + 719468) % 146097).toNat := ⟨_, rfl⟩
  obtain ⟨yoe, hyoe⟩ : ∃ yoe, yoe = (doe - doe / 1460 + doe / 36524 - doe / 146096) / 365 :=
    ⟨_, rfl⟩
  obtain ⟨doy, hdoy⟩ : ∃ doy, doy = doe - (365 * yoe + yoe / 4 - yoe / 100) := ⟨_, rfl⟩
  obtain ⟨mp, hmp⟩ : ∃ mp, mp = (5 * doy + 2) / 153 := ⟨_, rfl⟩
  obtain ⟨hyear, hstart, hday⟩ := dayOfYear (by omega) hyoe
  rw [← hdoy] at hday
  obtain ⟨hmonth, hmonthStart, hdayOfMonth⟩ := monthOfDay hday hmp
  have hcivil : civil days = ((era * 400 + yoe).toNat + (if (if mp < 10 then mp + 3 else mp - 9) ≤ 2
      then 1 else 0), if mp < 10 then mp + 3 else mp - 9, doy - (153 * mp + 2) / 5 + 1) := by
    rw [hmp, hdoy, hyoe, hdoe, hera]
    rfl
  have hdays : days + 719468 = era * 146097 + doe := by omega
  by_cases hspring : mp < 10
  · rw [if_pos hspring, if_neg (by omega)] at hcivil
    refine ⟨_, _, _, hcivil, by omega, by omega, by omega, ?_⟩
    have hy : (((era * 400 + yoe).toNat + 0 : Nat) : Int) - 0 = era * 400 + yoe := by omega
    unfold daysOf
    rw [if_neg (by omega), if_neg (by omega), hy]
    dsimp only
    rw [show (era * 400 + yoe) / 400 = era by omega,
      show ((era * 400 + yoe) % 400).toNat = yoe by omega, show mp + 3 - 3 = mp by omega]
    omega
  · rw [if_neg hspring, if_pos (by omega)] at hcivil
    refine ⟨_, _, _, hcivil, by omega, by omega, by omega, ?_⟩
    have hy : (((era * 400 + yoe).toNat + 1 : Nat) : Int) - 1 = era * 400 + yoe := by omega
    unfold daysOf
    rw [if_pos (by omega), if_pos (by omega), hy]
    dsimp only
    rw [show (era * 400 + yoe) / 400 = era by omega,
      show ((era * 400 + yoe) % 400).toNat = yoe by omega, show mp - 9 + 9 = mp by omega]
    omega

end Calendar

section Texts

/-- The number that so many digits at the front make. -/
def fixed? : Nat → Nat → Str → Option (Nat × Str)
  | 0, acc, text => some (acc, text)
  | width + 1, acc, c :: text => if isDigit c then fixed? width (acc * 10 + (c - 48)) text else none
  | _ + 1, _, [] => none

/-- What follows this character. -/
def after? (c : Nat) : Str → Option Str
  | d :: text => if d = c then some text else none
  | [] => none

/-- Microseconds, when a point announces some. -/
def micros? (text : Str) : Option (Nat × Str) :=
  match after? 46 text with
  | some text => fixed? 6 0 text
  | none => some (0, text)

/-- A date and a time of UTC, as `isoformat` writes them, or with a `Z` at the end. -/
def datetime? (text : Str) : Option Time := do
  let (year, text) ← fixed? 4 0 text
  let (month, text) ← fixed? 2 0 (← after? 45 text)
  let (day, text) ← fixed? 2 0 (← after? 45 text)
  let (hours, text) ← fixed? 2 0 (← after? 84 text)
  let (minutes, text) ← fixed? 2 0 (← after? 58 text)
  let (seconds, text) ← fixed? 2 0 (← after? 58 text)
  let (micros, text) ← micros? text
  if text = points "+00:00" ∨ text = points "Z" then
    some (daysOf year month day * 86400000000 +
      (((hours * 60 + minutes) * 60 + seconds) * 1000000 + micros : Nat))
  else none

theorem fixed?_succ (width acc : Nat) (text : Str) : fixed? (width + 1) acc text =
    (fixed? width acc text).bind fun x => fixed? 1 x.1 x.2 := by
  induction width generalizing acc text with
  | zero => rfl
  | succ width ih =>
    cases text with
    | nil => rfl
    | cons c text =>
      rw [fixed?, fixed?]
      split
      · exact ih _ _
      · rfl

theorem fixed?_digits (width n acc : Nat) (rest : Str) :
    fixed? width acc ((digits width n).map Char.toNat ++ rest) =
      some (acc * 10 ^ width + n % 10 ^ width, rest) := by
  induction width generalizing n acc rest with
  | zero => simp [digits, fixed?, Nat.mod_one]
  | succ width ih =>
    have hdigit : (Nat.digitChar (n % 10)).toNat = 48 + n % 10 :=
      Nat.toNat_digitChar_of_lt_ten (Nat.mod_lt n (by decide))
    have hisDigit : isDigit (48 + n % 10) = true := by
      unfold isDigit
      simp only [Bool.and_eq_true, decide_eq_true_eq]
      omega
    rw [digits, List.map_append, List.append_assoc, fixed?_succ, ih]
    simp only [List.map_cons, List.map_nil, List.cons_append, List.nil_append, Option.bind_some,
      hdigit, fixed?, hisDigit, if_true]
    have hmod : n % 10 ^ (width + 1) = n / 10 % 10 ^ width * 10 + n % 10 := by
      rw [Nat.pow_succ', Nat.mod_mul]
      omega
    rw [hmod, Nat.pow_succ, Nat.add_mul, ← Nat.mul_assoc]
    congr 2
    omega

/-- A text of `isoformat` up to its offset. -/
def isoBody (t : Time) : List Char :=
  let (year, month, day) := civil (t / 86400000000)
  let micros := (t % 86400000000).toNat
  let seconds := micros / 1000000
  digits 4 year ++ ['-'] ++ digits 2 month ++ ['-'] ++ digits 2 day ++ ['T'] ++
    digits 2 (seconds / 3600) ++ [':'] ++ digits 2 (seconds / 60 % 60) ++ [':'] ++
    digits 2 (seconds % 60) ++
    (if micros % 1000000 = 0 then [] else '.' :: digits 6 (micros % 1000000))

theorem isoformat_eq (t : Time) :
    points (isoformat t) = (isoBody t).map Char.toNat ++ points "+00:00" := by
  unfold points isoformat
  rw [String.toList_ofList, ← List.map_append]
  rfl

theorem micros?_printed {micros : Nat} (h : micros < 1000000) {rest : Str}
    (hrest : after? 46 rest = none) :
    micros? ((if micros = 0 then [] else '.' :: digits 6 micros).map Char.toNat ++ rest) =
      some (micros, rest) := by
  unfold micros?
  split_ifs with hzero
  · rw [List.map_nil, List.nil_append, hrest, hzero]
  · have hread := fixed?_digits 6 micros 0 rest
    rw [Nat.zero_mul, Nat.zero_add, Nat.mod_eq_of_lt (show micros < 10 ^ 6 from h)] at hread
    exact hread

theorem datetime?_body {t : Int} (h : Representable t) {offset : String}
    (hoffset : offset = "+00:00" ∨ offset = "Z") :
    datetime? ((isoBody t).map Char.toNat ++ points offset) = some t := by
  obtain ⟨hlow, hhigh⟩ := h
  obtain ⟨micros, hmicros⟩ : ∃ micros, micros = (t % 86400000000).toNat := ⟨_, rfl⟩
  obtain ⟨days, hdays⟩ : ∃ days : Int, days = t / 86400000000 := ⟨_, rfl⟩
  have hfirst : -719162 ≤ days := by omega
  have hlast : days < 2932897 := by omega
  obtain ⟨year, month, day, hcivil, hyear, hmonth, hday, hdate⟩ := daysOf_civil hfirst hlast
  have hrest : after? 46 (points offset) = none := by
    rcases hoffset with rfl | rfl <;> rfl
  have hend : points offset = points "+00:00" ∨ points offset = points "Z" := by
    rcases hoffset with rfl | rfl
    · exact .inl rfl
    · exact .inr rfl
  have hlt : micros < 86400000000 := by omega
  have hfraction := micros?_printed (Nat.mod_lt micros (by decide : 0 < 1000000)) hrest
  unfold isoBody
  rw [← hdays, ← hmicros, hcivil]
  simp only [List.map_append, List.append_assoc, List.map_cons, List.cons_append,
    List.nil_append]
  have hdash : ∀ text, after? 45 ('-'.toNat :: text) = some text := fun _ => rfl
  have hcolon : ∀ text, after? 58 (':'.toNat :: text) = some text := fun _ => rfl
  have hclock : ∀ text, after? 84 ('T'.toNat :: text) = some text := fun _ => rfl
  unfold datetime?
  simp only [Option.bind_eq_bind, Option.bind_some, fixed?_digits, hdash, hcolon, hclock,
    hfraction, if_pos hend, Nat.zero_mul, Nat.zero_add]
  rw [Nat.mod_eq_of_lt (show year < 10 ^ 4 from hyear),
    Nat.mod_eq_of_lt (show month < 10 ^ 2 from hmonth),
    Nat.mod_eq_of_lt (show day < 10 ^ 2 from hday), hdate]
  have hsum : days * 86400000000 + (((micros / 1000000 / 3600 % 10 ^ 2 * 60 +
      micros / 1000000 / 60 % 60 % 10 ^ 2) * 60 + micros / 1000000 % 60 % 10 ^ 2) * 1000000 +
      micros % 1000000 : Nat) = t := by
    omega
  exact congrArg some hsum

/-- No two datetimes are printed alike. -/
theorem isoformat_injective {t u : Time} (ht : Representable t) (hu : Representable u)
    (h : isoformat t = isoformat u) : t = u := by
  have hread : ∀ {t}, Representable t → datetime? (points (isoformat t)) = some t := by
    intro t ht
    rw [isoformat_eq]
    exact datetime?_body ht (.inl rfl)
  have htu := hread ht
  rw [h, hread hu] at htu
  exact (Option.some.inj htu).symm

end Texts

end BookingPlatform

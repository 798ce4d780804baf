import Mathlib.Tactic.Ring

/-!
# The whole part of a floating-point quotient

True division of two naturals is rounded to 53 bits, halves to even. The whole part of the
result may then be one more than that of the exact quotient.
-/

namespace Number

set_option autoImplicit false

section Quotient

/-- The natural nearest to `a / b`, of two the even one. -/
def nearest (a b : Nat) : Nat :=
  if 2 * (a % b) < b then a / b
  else if b < 2 * (a % b) then a / b + 1
  else a / b + a / b % 2

/-- How many of the 53 bits of `a / b` stand behind the point. A quotient below one half has
more of them, but no whole part. -/
def fractionBits (a b : Nat) : Nat := if a / b = 0 then 53 else 52 - (a / b).log2

/-- `int(a / b)`, where `a / b` is less than `2 ^ 53`. -/
def wholePart (a b : Nat) : Nat := nearest (a * 2 ^ fractionBits a b) b / 2 ^ fractionBits a b

/-- The quotient is so close below the next natural that it is rounded to it. -/
def RoundsUp (a b : Nat) : Prop := 2 * 2 ^ fractionBits a b * (b - a % b) ≤ b

instance (a b : Nat) : Decidable (RoundsUp a b) := inferInstanceAs (Decidable (_ ≤ _))

end Quotient

section Facts
variable {a b : Nat}

theorem nearest_bounds (a b : Nat) : a / b ≤ nearest a b ∧ nearest a b ≤ a / b + 1 := by
  have hhalf := Nat.mod_lt (a / b) (Nat.succ_pos 1)
  unfold nearest
  split
  · omega
  · split <;> omega

/-- An even number is reached from half a unit below it. -/
theorem le_nearest_iff (hb : 0 < b) {m : Nat} (hm : m % 2 = 0) :
    m ≤ nearest a b ↔ 2 * (m * b) ≤ 2 * a + b := by
  have hdiv := Nat.div_add_mod' a b
  have hlt := Nat.mod_lt a hb
  obtain ⟨hlow, hhigh⟩ := nearest_bounds a b
  rcases Nat.lt_trichotomy m (a / b + 1) with hlower | hnext | hupper
  · have hmul := Nat.mul_le_mul_right b (Nat.le_of_lt_succ hlower)
    exact ⟨fun _ => by omega, fun _ => by omega⟩
  · have hmul : m * b = a / b * b + b := by rw [hnext, Nat.succ_mul]
    unfold nearest
    constructor
    · intro h
      split at h
      · omega
      · omega
    · intro h
      split
      · omega
      · split <;> omega
  · have hmul : (a / b + 1 + 1) * b ≤ m * b := Nat.mul_le_mul_right b hupper
    have hexpand : (a / b + 1 + 1) * b = a / b * b + b + b := by ring
    exact ⟨fun _ => by omega, fun _ => by omega⟩

theorem le_wholePart_iff (hb : 0 < b) (hbits : 0 < fractionBits a b) (m : Nat) :
    m ≤ wholePart a b ↔
      2 * (m * b * 2 ^ fractionBits a b) ≤ 2 * (a * 2 ^ fractionBits a b) + b := by
  have hpow : 0 < 2 ^ fractionBits a b := Nat.pow_pos (Nat.succ_pos 1)
  have heven : m * 2 ^ fractionBits a b % 2 = 0 := by
    obtain ⟨k, hk⟩ := Nat.exists_eq_add_of_lt hbits
    rw [hk, Nat.pow_succ, ← Nat.mul_assoc]
    exact Nat.mul_mod_left _ 2
  unfold wholePart
  rw [Nat.le_div_iff_mul_le hpow, le_nearest_iff hb heven, Nat.mul_right_comm]

/-- The whole part is that of the exact quotient, or the next number. -/
theorem wholePart_eq (hb : 0 < b) (hbits : 0 < fractionBits a b) :
    wholePart a b = if RoundsUp a b then a / b + 1 else a / b := by
  have hdiv := Nat.div_add_mod' a b
  have hlt := Nat.mod_lt a hb
  have hiff := le_wholePart_iff (a := a) hb hbits
  have hpow : 0 < 2 ^ fractionBits a b := Nat.pow_pos (Nat.succ_pos 1)
  have hrounds : RoundsUp a b ↔ 2 * (2 ^ fractionBits a b * (b - a % b)) ≤ b := by
    rw [← Nat.mul_assoc]
    rfl
  generalize 2 ^ fractionBits a b = units at hiff hpow hrounds
  have hscaled : a * units = a / b * b * units + a % b * units := by
    rw [← Nat.add_mul, hdiv]
  have hrest : a % b * units + units * (b - a % b) = b * units := by
    rw [Nat.mul_comm units, ← Nat.add_mul, Nat.add_sub_cancel' hlt.le]
  have hone : b ≤ b * units := Nat.le_mul_of_pos_right b hpow
  have hnext : (a / b + 1) * b * units = a / b * b * units + b * units := by ring
  have htwo : (a / b + 2) * b * units = a / b * b * units + 2 * (b * units) := by ring
  have hlow : a / b ≤ wholePart a b := (hiff _).mpr (by omega)
  have hhigh : ¬ a / b + 2 ≤ wholePart a b := fun h => by
    have := (hiff _).mp h
    omega
  have hreach : a / b + 1 ≤ wholePart a b ↔ RoundsUp a b := by
    rw [hiff, hrounds]
    omega
  split
  · rename_i h
    have := hreach.mpr h
    omega
  · rename_i h
    have := mt hreach.mp h
    omega

/-- A small quotient has so many bits behind the point that its whole part is exact. -/
theorem not_roundsUp {bits : Nat} (hb : 0 < b) (hfine : b < 2 * 2 ^ bits)
    (hbits : bits ≤ fractionBits a b) : ¬ RoundsUp a b := by
  have hpow : 2 ^ bits ≤ 2 ^ fractionBits a b := Nat.pow_le_pow_right (Nat.succ_pos 1) hbits
  have hgap := Nat.sub_pos_of_lt (Nat.mod_lt a hb)
  have hmul := Nat.le_mul_of_pos_right (2 * 2 ^ fractionBits a b) hgap
  unfold RoundsUp
  omega

theorem not_roundsUp_of_dvd (hb : 0 < b) (hdvd : a % b = 0) : ¬ RoundsUp a b := by
  have hpow : 0 < 2 ^ fractionBits a b := Nat.pow_pos (Nat.succ_pos 1)
  have hmul : 2 * b ≤ 2 * 2 ^ fractionBits a b * b := by
    rw [Nat.mul_assoc]
    exact Nat.mul_le_mul_left 2 (Nat.le_mul_of_pos_left b hpow)
  unfold RoundsUp
  rw [hdvd, Nat.sub_zero]
  omega

theorem le_fractionBits (bits k : Nat) (hk : bits + k ≤ 52) (h : a / b < 2 ^ (k + 1)) :
    bits ≤ fractionBits a b := by
  unfold fractionBits
  split
  · omega
  · rename_i hne
    have := (Nat.log2_lt hne).mpr h
    omega

end Facts

end Number

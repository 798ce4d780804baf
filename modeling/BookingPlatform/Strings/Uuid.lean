import BookingPlatform.Strings.Words

/-!
# UUIDs as text

`str` of a UUID, and the constructor that takes a string: it drops what may surround the
digits and leaves the rest to `int`.
-/

namespace Strings

set_option autoImplicit false

open Json

section Write

/-- The last `width` hexadecimal digits of `n`. -/
def hexDigits : Nat → Nat → Str
  | 0, _ => []
  | width + 1, n => hexDigit (n / 16 ^ width % 16) :: hexDigits width n

@[match_pattern] abbrev hyphen : Nat := 45

def strUuid (u : BitVec 128) : Str :=
  let hex := hexDigits 32 u.toNat
  hex.take 8 ++ hyphen :: (hex.drop 8).take 4 ++ hyphen :: (hex.drop 12).take 4 ++
    hyphen :: (hex.drop 16).take 4 ++ hyphen :: hex.drop 20

end Write

section Read
variable (decimal : Nat → Option Nat)

/-- `s.replace(word, "")`, with so many characters of an occurrence still to pass over. -/
def remove (word : Str) : Nat → Str → Str
  | _, [] => []
  | k + 1, _ :: s => remove word k s
  | 0, c :: s =>
    if word.isPrefixOf (c :: s) then remove word (word.length - 1) s else c :: remove word 0 s

/-- How `int` reads a character; `decimal` is the value of a decimal digit of any script. -/
def asciiOf (c : Nat) : Nat :=
  if c < 128 then c
  else if isWhite c then 32
  else match decimal c with
    | some d => 48 + d
    | none => 63

def isBlank (c : Nat) : Bool := c == 32 || (9 ≤ c && c ≤ 13)

/-- Digits, with single underscores between them. -/
def digits16? (acc : Nat) : Str → Option Nat
  | [] => none
  | [c] => do
    let d ← hexDigit? c
    pure (acc * 16 + d)
  | c :: 95 :: rest => do
    let d ← hexDigit? c
    digits16? (acc * 16 + d) rest
  | c :: e :: rest => do
    let d ← hexDigit? c
    digits16? (acc * 16 + d) (e :: rest)

def dropSign : Str → Str
  | 43 :: s => s
  | s => s

def dropBase : Str → Str
  | 48 :: 120 :: 95 :: s => s
  | 48 :: 88 :: 95 :: s => s
  | 48 :: 120 :: s => s
  | 48 :: 88 :: s => s
  | s => s

/-- `int(s, 16)`, where there is no hyphen in `s`. -/
def int16? (s : Str) : Option Nat :=
  digits16? 0 (dropBase (dropSign
    (((s.map (asciiOf decimal)).dropWhile isBlank).rdropWhile isBlank)))

def isBrace (c : Nat) : Bool := c == brace || c == endBrace

/-- `uuid.UUID(s)`. -/
def uuid? (s : Str) : Option (BitVec 128) :=
  let hex := remove (points "uuid:") 0 (remove (points "urn:") 0 s)
  let hex := ((hex.dropWhile isBrace).rdropWhile isBrace).filter (· ≠ hyphen)
  if hex.length = 32 then (int16? decimal hex).map (BitVec.ofNat 128) else none

end Read

section RoundTrip
variable {decimal : Nat → Option Nat}

def IsHex (c : Nat) : Prop := (48 ≤ c ∧ c ≤ 57) ∨ (97 ≤ c ∧ c ≤ 102)

instance (c : Nat) : Decidable (IsHex c) := inferInstanceAs (Decidable (_ ∨ _))

theorem isHex_hexDigit {n : Nat} (h : n < 16) : IsHex (hexDigit n) := by
  unfold hexDigit IsHex
  split <;> omega

theorem isHex_hexDigits (width n : Nat) : ∀ c ∈ hexDigits width n, IsHex c := by
  induction width with
  | zero => exact nofun
  | succ width ih =>
    intro c hc
    rcases List.mem_cons.mp hc with rfl | hc
    · exact isHex_hexDigit (Nat.mod_lt _ (by decide))
    · exact ih c hc

theorem length_hexDigits (width n : Nat) : (hexDigits width n).length = width := by
  induction width with
  | zero => rfl
  | succ width ih => rw [hexDigits, List.length_cons, ih]

theorem digits16?_one {c d acc : Nat} (hd : hexDigit? c = some d) :
    digits16? acc [c] = some (acc * 16 + d) := by
  rw [digits16?, hd]
  rfl

theorem digits16?_cons {c d acc e : Nat} {rest : Str} (hd : hexDigit? c = some d) (he : IsHex e) :
    digits16? acc (c :: e :: rest) = digits16? (acc * 16 + d) (e :: rest) := by
  rw [digits16?, hd]
  · rfl
  · rintro rfl
    unfold IsHex at he
    omega

theorem digits16?_hexDigits (width n acc : Nat) : digits16? acc (hexDigits (width + 1) n) =
    some (acc * 16 ^ (width + 1) + n % 16 ^ (width + 1)) := by
  induction width generalizing acc with
  | zero =>
    have hd := hexDigit?_hexDigit (Nat.mod_lt (n / 16 ^ 0) (show 0 < 16 by decide))
    rw [hexDigits, hexDigits, digits16?_one hd]
    simp
  | succ width ih =>
    have hd := hexDigit?_hexDigit (Nat.mod_lt (n / 16 ^ (width + 1)) (show 0 < 16 by decide))
    have hnext : IsHex (hexDigit (n / 16 ^ width % 16)) :=
      isHex_hexDigit (Nat.mod_lt _ (by decide))
    rw [hexDigits, hexDigits, digits16?_cons hd hnext, ← hexDigits, ih,
      Nat.mod_pow_succ (x := n) (k := width + 1), Nat.pow_succ 16 (width + 1)]
    congr 1
    rw [Nat.add_mul, Nat.mul_comm (n / 16 ^ (width + 1) % 16), Nat.mul_assoc acc, Nat.mul_comm 16]
    omega

theorem trim_eq_self {p : Nat → Bool} {s : Str} (h : ∀ c ∈ s, p c = false) :
    (s.dropWhile p).rdropWhile p = s := by
  have hleft : s.dropWhile p = s := by
    cases s with
    | nil => rfl
    | cons c s =>
      apply List.dropWhile_cons_of_neg
      rw [h c List.mem_cons_self]
      exact Bool.false_ne_true
  rw [hleft, List.rdropWhile_eq_self_iff]
  intro hne
  rw [h _ (List.getLast_mem hne)]
  exact Bool.false_ne_true

section Plain
variable {s : Str} (h : ∀ c ∈ s, IsHex c)
include h

theorem map_asciiOf : s.map (asciiOf decimal) = s := by
  refine (List.map_congr_left fun c hc => ?_).trans (List.map_id s)
  have hhex := h c hc
  unfold IsHex at hhex
  unfold asciiOf
  rw [if_pos (by omega)]
  rfl

theorem dropSign_isHex : dropSign s = s := by
  unfold dropSign
  split
  · have hhex := h 43 List.mem_cons_self
    unfold IsHex at hhex
    omega
  · rfl

theorem dropBase_isHex : dropBase s = s := by
  have hno : ∀ c, c = 120 ∨ c = 88 → c ∉ s := by
    intro c hc hmem
    have hhex := h c hmem
    unfold IsHex at hhex
    omega
  unfold dropBase
  split
  · exact absurd (by simp) (hno 120 (.inl rfl))
  · exact absurd (by simp) (hno 88 (.inr rfl))
  · exact absurd (by simp) (hno 120 (.inl rfl))
  · exact absurd (by simp) (hno 88 (.inr rfl))
  · rfl

theorem int16?_isHex : int16? decimal s = digits16? 0 s := by
  have hblank : ∀ c ∈ s, isBlank c = false := by
    intro c hc
    have hhex := h c hc
    unfold IsHex at hhex
    unfold isBlank
    simp
    omega
  unfold int16?
  rw [map_asciiOf h, trim_eq_self hblank, dropSign_isHex h, dropBase_isHex h]

theorem filter_isHex : s.filter (· ≠ hyphen) = s := by
  apply List.filter_eq_self.mpr
  intro c hc
  apply decide_eq_true
  rintro rfl
  exact absurd (h _ hc) (by decide)

end Plain

theorem remove_of_not_mem {c : Nat} {word s : Str} (h : c ∉ s) : remove (c :: word) 0 s = s := by
  induction s with
  | nil => rfl
  | cons d s ih =>
    have hne : c ≠ d := by
      rintro rfl
      exact h List.mem_cons_self
    have hno : (c :: word).isPrefixOf (d :: s) = false := by
      rw [List.isPrefixOf_cons_cons, beq_eq_false_iff_ne.mpr hne]
      rfl
    rw [remove, hno, ih fun hc => h (List.mem_cons_of_mem d hc)]
    rfl

/-- The digits again, without the hyphens. -/
theorem filter_strUuid (u : BitVec 128) :
    (strUuid u).filter (· ≠ hyphen) = hexDigits 32 u.toNat := by
  have hhex := isHex_hexDigits 32 u.toNat
  have hpart : ∀ part : Str, (∀ c ∈ part, c ∈ hexDigits 32 u.toNat) → ∀ rest,
      (part ++ hyphen :: rest).filter (· ≠ hyphen) = part ++ rest.filter (· ≠ hyphen) := by
    intro part hsub rest
    rw [List.filter_append, filter_isHex fun c hc => hhex c (hsub c hc)]
    rfl
  have hdrop : ∀ (k : Nat) (part : Str), (∀ c ∈ part, c ∈ (hexDigits 32 u.toNat).drop k) →
      ∀ c ∈ part, c ∈ hexDigits 32 u.toNat := fun k part h c hc => List.mem_of_mem_drop (h c hc)
  unfold strUuid
  simp only [List.append_assoc, List.cons_append]
  rw [hpart _ fun c hc => List.mem_of_mem_take hc,
    hpart _ (hdrop 8 _ fun c => List.mem_of_mem_take),
    hpart _ (hdrop 12 _ fun c => List.mem_of_mem_take),
    hpart _ (hdrop 16 _ fun c => List.mem_of_mem_take),
    filter_isHex fun c hc => hhex c (List.mem_of_mem_drop hc)]
  have hjoin : ∀ k, ((hexDigits 32 u.toNat).drop k).take 4 ++ (hexDigits 32 u.toNat).drop (k + 4) =
      (hexDigits 32 u.toNat).drop k := fun k => by
    rw [← List.drop_drop, List.take_append_drop]
  rw [hjoin 16, hjoin 12, hjoin 8, List.take_append_drop]

theorem mem_strUuid {u : BitVec 128} {c : Nat} (h : c ∈ strUuid u) : IsHex c ∨ c = hyphen := by
  by_cases hc : c = hyphen
  · exact .inr hc
  · have hmem : c ∈ (strUuid u).filter (· ≠ hyphen) := List.mem_filter.mpr ⟨h, decide_eq_true hc⟩
    rw [filter_strUuid] at hmem
    exact .inl (isHex_hexDigits 32 u.toNat c hmem)

theorem uuid?_strUuid (decimal : Nat → Option Nat) (u : BitVec 128) :
    uuid? decimal (strUuid u) = some u := by
  have hu : 117 ∉ strUuid u := by
    intro h
    rcases mem_strUuid h with hhex | hhyphen
    · exact absurd hhex (by decide)
    · exact absurd hhyphen (by decide)
  have hbrace : ∀ c ∈ strUuid u, isBrace c = false := by
    intro c hc
    rcases mem_strUuid hc with hhex | rfl
    · unfold IsHex at hhex
      unfold isBrace
      simp only [Bool.or_eq_false_iff, beq_eq_false_iff_ne]
      constructor
      · rintro rfl
        exact absurd hhex (by decide)
      · rintro rfl
        exact absurd hhex (by decide)
    · rfl
  unfold uuid?
  rw [show points "urn:" = 117 :: points "rn:" from rfl,
    show points "uuid:" = 117 :: points "uid:" from rfl, remove_of_not_mem hu,
    remove_of_not_mem hu]
  dsimp only
  rw [trim_eq_self hbrace, filter_strUuid, if_pos (length_hexDigits 32 _),
    int16?_isHex (isHex_hexDigits 32 _), digits16?_hexDigits]
  have hsmall : u.toNat % 16 ^ 32 = u.toNat := Nat.mod_eq_of_lt u.isLt
  rw [Nat.zero_mul, Nat.zero_add, hsmall]
  exact congrArg some (BitVec.ofNat_toNat ..)

end RoundTrip

end Strings

import BookingPlatform.Strings.JsonWeight

/-!
# Whole JSON values

`dumps` writes any value, and `loads` reads it back: what is nested in it, and numbers as
they are written.
-/

namespace Strings

set_option autoImplicit false

namespace Json

section Dumps

mutual

/-- `json.dumps`; a number is written as it is kept. -/
def dumps : Json → Str
  | .null => points "null"
  | .bool true => points "true"
  | .bool false => points "false"
  | .number lexeme => lexeme
  | .string s => dumpsString s
  | .array xs => bracket :: dumpsElements xs ++ [endBracket]
  | .object ms => brace :: dumpsMembers ms ++ [endBrace]

def dumpsElements : List Json → Str
  | [] => []
  | [x] => dumps x
  | x :: y :: xs => dumps x ++ comma :: 32 :: dumpsElements (y :: xs)

def dumpsPair : Str × Json → Str
  | (key, x) => dumpsString key ++ colon :: 32 :: dumps x

def dumpsMembers : List (Str × Json) → Str
  | [] => []
  | [m] => dumpsPair m
  | m :: m' :: ms => dumpsPair m ++ comma :: 32 :: dumpsMembers (m' :: ms)

end

end Dumps

section Numbers
variable {l rest : Str}

/-- Digits without a leading zero, and a fraction after them or not. -/
structure Lexeme (l : Str) : Prop where
  parts : ∃ int frac, l = int ++ frac ∧
    (int = [48] ∨ ∃ d ds, int = d :: ds ∧ d ≠ 48 ∧ ∀ c ∈ int, isDigit c = true) ∧
    (frac = [] ∧ int.length ≤ maxStrDigits ∨
      ∃ d ds, frac = 46 :: d :: ds ∧ ∀ c ∈ d :: ds, isDigit c = true)

/-- What cannot go on with a number. -/
def Stops (rest : Str) : Prop :=
  ∀ c ∈ rest.head?, isDigit c = false ∧ c ≠ 46 ∧ c ≠ 69 ∧ c ≠ 101

theorem digits?_append {d : Nat} {ds : Str} (h : ∀ c ∈ d :: ds, isDigit c = true)
    (hrest : ∀ c ∈ rest.head?, isDigit c = false) :
    digits? (d :: ds ++ rest) = some (d :: ds, rest) := by
  have htake : rest.takeWhile isDigit = [] := by
    cases rest with
    | nil => rfl
    | cons c rest => rw [List.takeWhile_cons_of_neg (by simp [hrest c rfl])]
  have hdrop : rest.dropWhile isDigit = rest := by
    cases rest with
    | nil => rfl
    | cons c rest => rw [List.dropWhile_cons_of_neg (by simp [hrest c rfl])]
  unfold digits?
  rw [List.takeWhile_append_of_pos h, List.dropWhile_append_of_pos h, htake, hdrop,
    List.append_nil]

theorem fraction_append {frac : Str} (hrest : Stops rest)
    (h : frac = [] ∨ ∃ d ds, frac = 46 :: d :: ds ∧ ∀ c ∈ d :: ds, isDigit c = true) :
    fraction (frac ++ rest) = (frac, rest) := by
  rcases h with rfl | ⟨d, ds, rfl, hdigits⟩
  · cases rest with
    | nil => rfl
    | cons c rest =>
      rw [List.nil_append, fraction]
      intro text heq
      exact (hrest c rfl).2.1 (List.cons.inj heq).1
  · have hds := digits?_append hdigits fun c hc => (hrest c hc).1
    simp only [List.cons_append] at hds ⊢
    rw [fraction, hds]

theorem exponent_stops (hrest : Stops rest) : exponent rest = ([], rest) := by
  cases rest with
  | nil => rfl
  | cons c rest =>
    obtain ⟨_, _, hupper, hlower⟩ := hrest c rfl
    rw [exponent, if_neg (by simp [hupper, hlower])]

theorem number?_append (h : Lexeme l) (hrest : Stops rest) :
    number? (l ++ rest) = some (.number l, rest) := by
  obtain ⟨int, frac, rfl, hint, hfrac⟩ := h.parts
  have hafter : ∀ c ∈ (frac ++ rest).head?, isDigit c = false := by
    rcases hfrac with ⟨rfl, _⟩ | ⟨d, ds, rfl, _⟩
    · exact fun c hc => (hrest c hc).1
    · intro c hc
      obtain rfl := Option.some.inj hc
      rfl
  have hread : int? (int ++ (frac ++ rest)) = some (int, frac ++ rest) ∧
      (int ++ (frac ++ rest)).head? ≠ some 45 := by
    rcases hint with rfl | ⟨d, ds, rfl, hzero, hdigits⟩
    · exact ⟨rfl, nofun⟩
    · have hds := digits?_append hdigits hafter
      refine ⟨?_, ?_⟩
      · rw [← hds, List.cons_append, int?]
        intro text heq
        exact hzero (List.cons.inj heq).1
      · intro hminus
        obtain rfl := Option.some.inj hminus
        exact absurd (hdigits 45 List.mem_cons_self) (by decide)
  have hfraction : fraction (frac ++ rest) = (frac, rest) :=
    fraction_append hrest (hfrac.imp And.left id)
  unfold number?
  rw [List.append_assoc, if_neg hread.2]
  simp only [List.length_nil, List.drop_zero, hread.1, hfraction, exponent_stops hrest,
    Option.bind_eq_bind, Option.bind_some]
  rw [if_neg]
  · simp
  · rintro ⟨rfl, _, hlong⟩
    rcases hfrac with ⟨_, hshort⟩ | ⟨d, ds, hcons, _⟩
    · omega
    · cases hcons

theorem Lexeme.head (h : Lexeme l) : ∃ c text, l = c :: text ∧ isDigit c = true := by
  obtain ⟨int, frac, rfl, hint, _⟩ := h.parts
  rcases hint with rfl | ⟨d, ds, rfl, _, hdigits⟩
  · exact ⟨48, frac, rfl, rfl⟩
  · exact ⟨d, ds ++ frac, rfl, hdigits d List.mem_cons_self⟩

theorem value?_number (h : Lexeme l) (hrest : Stops rest) (fuel depth : Nat) :
    value? (fuel + 1) depth (l ++ rest) = some (.number l, rest) := by
  have hnumber := number?_append h hrest
  obtain ⟨c, text, rfl, hc⟩ := h.head
  unfold isDigit at hc
  simp only [Bool.and_eq_true, decide_eq_true_eq] at hc
  have hname : name? (c :: text ++ rest) = none := by
    have h110 : c ≠ 110 := by omega
    have h116 : c ≠ 116 := by omega
    have h102 : c ≠ 102 := by omega
    have h78 : c ≠ 78 := by omega
    have h73 : c ≠ 73 := by omega
    have h45 : c ≠ 45 := by omega
    unfold name? names points
    simp [h110.symm, h116.symm, h102.symm, h78.symm, h73.symm, h45.symm]
  rw [List.cons_append] at hname hnumber ⊢
  rw [value?, hname, hnumber]
  · rfl
  all_goals
    intros
    simp only [List.cons.injEq] at *
    omega

theorem isDigit_toNat {c : Char} (h : c.isDigit = true) : isDigit c.toNat = true := by
  unfold Char.isDigit at h
  unfold isDigit
  simp only [Bool.and_eq_true, decide_eq_true_eq, ge_iff_le, UInt32.le_iff_toNat_le] at h ⊢
  exact h

theorem digits_natural (n : Nat) : ∀ c ∈ points (toString n), isDigit c = true := by
  intro c hc
  obtain ⟨d, hd, rfl⟩ := List.mem_map.mp hc
  rw [Nat.toString_eq_repr, Nat.toList_repr] at hd
  exact isDigit_toNat (Nat.isDigit_of_mem_toDigits (by decide) (by decide) hd)

/-- Only zero is written with a zero at the front. -/
theorem toDigits_head (n : Nat) (h : 0 < n) :
    ∃ c cs, Nat.toDigits 10 n = c :: cs ∧ c.toNat ≠ 48 := by
  induction n using Nat.strongRecOn with
  | ind n ih =>
    rw [Nat.toDigits_eq_if (by decide)]
    by_cases hsmall : n < 10
    · rw [if_pos hsmall]
      refine ⟨Nat.digitChar n, [], rfl, ?_⟩
      rw [Nat.toNat_digitChar_of_lt_ten hsmall]
      omega
    · obtain ⟨c, cs, hcs, hc⟩ := ih (n / 10) (by omega) (by omega)
      rw [if_neg hsmall, hcs]
      exact ⟨c, cs ++ [Nat.digitChar (n % 10)], rfl, hc⟩

theorem natural_cases (n : Nat) : points (toString n) = [48] ∨
    ∃ d ds, points (toString n) = d :: ds ∧ d ≠ 48 ∧
      ∀ c ∈ points (toString n), isDigit c = true := by
  rcases Nat.eq_zero_or_pos n with rfl | hpos
  · exact .inl rfl
  · obtain ⟨c, cs, hcs, hc⟩ := toDigits_head n hpos
    refine .inr ⟨c.toNat, cs.map Char.toNat, ?_, hc, digits_natural n⟩
    unfold points
    rw [Nat.toString_eq_repr, Nat.toList_repr, hcs, List.map_cons]

/-- An integer that is not too long to be read back. -/
def Short (n : Nat) : Prop := n < 10 ^ maxStrDigits

theorem length_natural {n : Nat} (h : Short n) :
    (points (toString n)).length ≤ maxStrDigits := by
  unfold points
  rw [List.length_map, Nat.toString_eq_repr, Nat.toList_repr]
  exact (Nat.length_toDigits_le_iff (by decide) (by decide)).mpr h

theorem lexeme_natural {n : Nat} (h : Short n) : Lexeme (points (toString n)) :=
  ⟨_, [], (List.append_nil _).symm, natural_cases n, .inl ⟨rfl, length_natural h⟩⟩

theorem lexeme_decimal (n : Nat) {d : Nat} {ds : Str} (h : ∀ c ∈ d :: ds, isDigit c = true) :
    Lexeme (points (toString n) ++ 46 :: d :: ds) :=
  ⟨_, _, rfl, natural_cases n, .inr ⟨d, ds, rfl, h⟩⟩

end Numbers

section RoundTrip

/-- What can be written and read back, with at most `depth` arrays and objects inside each
other. -/
inductive Writable : Nat → Json → Prop
  | null {depth : Nat} : Writable depth .null
  | bool {depth : Nat} {b : Bool} : Writable depth (.bool b)
  | number {depth : Nat} {l : Str} (h : Lexeme l) : Writable depth (.number l)
  | string {depth : Nat} {s : Str} (h : ∀ c ∈ s, Scalar c) : Writable depth (.string s)
  | array {depth : Nat} {xs : List Json} (h : ∀ x ∈ xs, Writable depth x) :
    Writable (depth + 1) (.array xs)
  | object {depth : Nat} {ms : List (Str × Json)} (hkeys : ∀ m ∈ ms, ∀ c ∈ m.1, Scalar c)
    (h : ∀ m ∈ ms, Writable depth m.2) : Writable (depth + 1) (.object ms)

theorem Writable.mono {depth depth' : Nat} {x : Json} (h : Writable depth x)
    (hle : depth ≤ depth') : Writable depth' x := by
  induction h generalizing depth' with
  | null => exact .null
  | bool => exact .bool
  | number hl => exact .number hl
  | string hs => exact .string hs
  | array _ ih =>
    obtain ⟨n, rfl⟩ : ∃ n, depth' = n + 1 := ⟨depth' - 1, by omega⟩
    exact .array fun x hx => ih x hx (by omega)
  | object hkeys _ ih =>
    obtain ⟨n, rfl⟩ : ∃ n, depth' = n + 1 := ⟨depth' - 1, by omega⟩
    exact .object hkeys fun m hm => ih m hm (by omega)

/-- `x` is read at the front of any text that begins with it. -/
def ReadsBack (depth : Nat) (x : Json) : Prop :=
  ∀ fuel rest, Stops rest → 2 * (dumps x).length < fuel →
    value? fuel depth (dumps x ++ rest) = some (x, rest)

variable {depth : Nat} {x : Json} {rest : Str}

theorem stops_cons {c : Nat} (h : c = comma ∨ c = endBracket ∨ c = endBrace) :
    Stops (c :: rest) := by
  intro d hd
  obtain rfl := Option.some.inj hd
  rcases h with rfl | rfl | rfl <;> decide

/-- The first character of a value is no space, and ends neither an array nor an object. -/
theorem dumps_head (h : Writable depth x) : ∃ c text, dumps x = c :: text ∧
    isSpace c = false ∧ c ≠ endBracket ∧ c ≠ endBrace := by
  cases h with
  | null => exact ⟨110, points "ull", rfl, by decide⟩
  | @bool _ b =>
    cases b with
    | true => exact ⟨116, points "rue", rfl, by decide⟩
    | false => exact ⟨102, points "alse", rfl, by decide⟩
  | number hl =>
    obtain ⟨c, text, rfl, hc⟩ := hl.head
    refine ⟨c, text, by rw [dumps], ?_⟩
    unfold isDigit at hc
    unfold isSpace
    simp only [Bool.and_eq_true, decide_eq_true_eq] at hc
    simp only [endBracket, endBrace, Bool.or_eq_false_iff, beq_eq_false_iff_ne, ne_eq]
    omega
  | string => exact ⟨quote, _, by rw [dumps, dumpsString]; rfl, by decide⟩
  | array => exact ⟨bracket, _, by rw [dumps]; rfl, by decide⟩
  | object => exact ⟨brace, _, by rw [dumps]; rfl, by decide⟩

theorem skip_of_head {c : Nat} {text : Str} (h : isSpace c = false) :
    skip (c :: text) = c :: text := List.dropWhile_cons_of_neg (by simp [h])

theorem skip_dumps (h : Writable depth x) : skip (dumps x ++ rest) = dumps x ++ rest := by
  obtain ⟨c, text, htext, hspace, _⟩ := dumps_head h
  rw [htext]
  exact skip_of_head hspace

theorem skip_elements {y : Json} (h : Writable depth y) (ys : List Json) :
    ∃ c text, dumpsElements (y :: ys) = c :: text ∧ isSpace c = false ∧ c ≠ endBracket := by
  obtain ⟨c, text, htext, hspace, hend, _⟩ := dumps_head h
  cases ys with
  | nil => exact ⟨c, text, by rw [dumpsElements, htext], hspace, hend⟩
  | cons z zs =>
    refine ⟨c, text ++ comma :: 32 :: dumpsElements (z :: zs), ?_, hspace, hend⟩
    rw [dumpsElements, htext]
    rfl

theorem elements?_readsBack {xs : List Json} (hne : xs ≠ []) (hw : ∀ x ∈ xs, Writable depth x)
    (h : ∀ x ∈ xs, ReadsBack depth x) {fuel : Nat}
    (hfuel : 2 * (dumpsElements xs).length + 1 < fuel) (rest : Str) :
    elements? fuel depth (dumpsElements xs ++ endBracket :: rest) = some (xs, rest) := by
  induction xs generalizing fuel with
  | nil => exact absurd rfl hne
  | cons x xs ih =>
    obtain ⟨fuel, rfl⟩ : ∃ n, fuel = n + 1 := ⟨fuel - 1, by omega⟩
    have hx := h x List.mem_cons_self
    cases xs with
    | nil =>
      rw [dumpsElements] at hfuel ⊢
      exact elements?_last (hx fuel _ (stops_cons (.inr (.inl rfl))) (by omega))
    | cons y ys =>
      rw [dumpsElements] at hfuel ⊢
      simp only [List.length_append, List.length_cons] at hfuel
      obtain ⟨c, text, htext, hspace, _⟩ :=
        skip_elements (hw y (List.mem_cons_of_mem x List.mem_cons_self)) ys
      have hskip : skip (32 :: (dumpsElements (y :: ys) ++ endBracket :: rest)) =
          dumpsElements (y :: ys) ++ endBracket :: rest := by
        rw [htext]
        exact skip_of_head hspace
      rw [List.append_assoc, List.cons_append, List.cons_append]
      refine elements?_cons (hx fuel _ (stops_cons (.inl rfl)) (by omega)) ?_
      rw [hskip]
      exact ih (List.cons_ne_nil y ys) (fun z hz => hw z (List.mem_cons_of_mem x hz))
        (fun z hz => h z (List.mem_cons_of_mem x hz)) (by omega)

theorem dumpsPair_append (m : Str × Json) (text : Str) : dumpsPair m ++ text =
    quote :: (m.1.flatMap escape ++ quote :: colon :: 32 :: (dumps m.2 ++ text)) := by
  obtain ⟨key, x⟩ := m
  rw [dumpsPair, dumpsString]
  simp only [List.cons_append, List.append_assoc, List.nil_append]

theorem length_dumps_lt (m : Str × Json) : (dumps m.2).length + 4 ≤ (dumpsPair m).length := by
  have hlength := congrArg List.length (dumpsPair_append m [])
  simp only [List.append_nil, List.length_cons, List.length_append] at hlength
  omega

theorem skip_members (m : Str × Json) (ms : List (Str × Json)) :
    ∃ text, dumpsMembers (m :: ms) = quote :: text := by
  cases ms with
  | nil =>
    rw [dumpsMembers, ← List.append_nil (dumpsPair m), dumpsPair_append]
    exact ⟨_, rfl⟩
  | cons m' ms =>
    rw [dumpsMembers, dumpsPair_append]
    exact ⟨_, rfl⟩

theorem members?_readsBack {ms : List (Str × Json)} (hne : ms ≠ [])
    (hkeys : ∀ m ∈ ms, ∀ c ∈ m.1, Scalar c) (hw : ∀ m ∈ ms, Writable depth m.2)
    (h : ∀ m ∈ ms, ReadsBack depth m.2) {fuel : Nat}
    (hfuel : 2 * (dumpsMembers ms).length + 1 < fuel) (rest : Str) :
    members? fuel depth (dumpsMembers ms ++ endBrace :: rest) = some (ms, rest) := by
  induction ms generalizing fuel with
  | nil => exact absurd rfl hne
  | cons m ms ih =>
    obtain ⟨fuel, rfl⟩ : ∃ n, fuel = n + 1 := ⟨fuel - 1, by omega⟩
    have hm := h m List.mem_cons_self
    have hkey := string?_dumps (hkeys m List.mem_cons_self)
    have hvalue : ∀ text, skip (32 :: (dumps m.2 ++ text)) = dumps m.2 ++ text := fun text =>
      skip_dumps (hw m List.mem_cons_self)
    have hlength := length_dumps_lt m
    cases ms with
    | nil =>
      rw [dumpsMembers] at hfuel ⊢
      rw [dumpsPair_append]
      refine members?_last (hkey _) ?_
      rw [hvalue]
      exact hm fuel _ (stops_cons (.inr (.inr rfl))) (by omega)
    | cons m' ms =>
      rw [dumpsMembers] at hfuel ⊢
      simp only [List.length_append, List.length_cons] at hfuel
      obtain ⟨text, htext⟩ := skip_members m' ms
      have hskip : skip (32 :: (dumpsMembers (m' :: ms) ++ endBrace :: rest)) =
          dumpsMembers (m' :: ms) ++ endBrace :: rest := by
        rw [htext]
        rfl
      rw [List.append_assoc, dumpsPair_append, List.cons_append, List.cons_append]
      have hfirst : value? fuel depth (skip (32 :: (dumps m.2 ++ comma :: 32 ::
          (dumpsMembers (m' :: ms) ++ endBrace :: rest)))) =
          some (m.2, comma :: 32 :: (dumpsMembers (m' :: ms) ++ endBrace :: rest)) := by
        rw [hvalue]
        exact hm fuel _ (stops_cons (.inl rfl)) (by omega)
      refine members?_cons (hkey _) hfirst ?_
      rw [hskip]
      exact ih (List.cons_ne_nil m' ms) (fun z hz => hkeys z (List.mem_cons_of_mem m hz))
        (fun z hz => hw z (List.mem_cons_of_mem m hz))
        (fun z hz => h z (List.mem_cons_of_mem m hz)) (by omega)

/-- A value that can be written is read back from what is written. -/
theorem readsBack_of_writable (h : Writable depth x) : ReadsBack depth x := by
  induction h with
  | null =>
    intro fuel rest _ hfuel
    obtain ⟨fuel, rfl⟩ : ∃ n, fuel = n + 1 := ⟨fuel - 1, by omega⟩
    rfl
  | @bool depth b =>
    intro fuel rest _ hfuel
    obtain ⟨fuel, rfl⟩ : ∃ n, fuel = n + 1 := ⟨fuel - 1, by omega⟩
    cases b <;> rfl
  | number hl =>
    intro fuel rest hrest hfuel
    obtain ⟨fuel, rfl⟩ : ∃ n, fuel = n + 1 := ⟨fuel - 1, by omega⟩
    rw [dumps]
    exact value?_number hl hrest fuel _
  | string hs =>
    intro fuel rest _ hfuel
    obtain ⟨fuel, rfl⟩ : ∃ n, fuel = n + 1 := ⟨fuel - 1, by omega⟩
    rw [dumps]
    exact value?_string hs fuel _ rest
  | @array depth xs hw ih =>
    intro fuel rest _ hfuel
    obtain ⟨fuel, rfl⟩ : ∃ n, fuel = n + 1 := ⟨fuel - 1, by omega⟩
    rw [dumps] at hfuel ⊢
    simp only [List.length_append, List.length_cons, List.length_nil] at hfuel
    simp only [List.cons_append, List.append_assoc, List.nil_append]
    cases xs with
    | nil => rfl
    | cons y ys =>
      obtain ⟨c, text, htext, hspace, hend⟩ := skip_elements (hw y List.mem_cons_self) ys
      have hskip : skip (dumpsElements (y :: ys) ++ endBracket :: rest) =
          dumpsElements (y :: ys) ++ endBracket :: rest := by
        rw [htext]
        exact skip_of_head hspace
      apply value?_array
      · rw [hskip, htext]
        exact fun heq => hend (Option.some.inj heq)
      · rw [hskip]
        exact elements?_readsBack (List.cons_ne_nil y ys) hw ih (by omega) rest
  | @object depth ms hkeys hw ih =>
    intro fuel rest _ hfuel
    obtain ⟨fuel, rfl⟩ : ∃ n, fuel = n + 1 := ⟨fuel - 1, by omega⟩
    rw [dumps] at hfuel ⊢
    simp only [List.length_append, List.length_cons, List.length_nil] at hfuel
    simp only [List.cons_append, List.append_assoc, List.nil_append]
    cases ms with
    | nil => rfl
    | cons m ms =>
      obtain ⟨text, htext⟩ := skip_members m ms
      have hskip : skip (dumpsMembers (m :: ms) ++ endBrace :: rest) =
          dumpsMembers (m :: ms) ++ endBrace :: rest := by
        rw [htext]
        rfl
      apply value?_object
      · rw [hskip, htext]
        exact nofun
      · rw [hskip]
        exact members?_readsBack (List.cons_ne_nil m ms) hkeys hw ih (by omega) rest

theorem loads_dumps (h : Writable depth x) : loads depth (dumps x) = some x := by
  have hskip : skip (dumps x) = dumps x := by
    have hempty : skip (dumps x ++ []) = dumps x ++ [] := skip_dumps h
    rwa [List.append_nil] at hempty
  have hread := readsBack_of_writable h (2 * (dumps x).length + 2) [] (fun _ hc => nomatch hc)
    (by omega)
  rw [List.append_nil] at hread
  exact loads_of_value? hskip hread

end RoundTrip

end Json

end Strings

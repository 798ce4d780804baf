import BookingPlatform.Strings.Json
import Mathlib.Algebra.GroupWithZero.Nat

/-!
# What is read weighs no more than its text

A value is told by its first character. The strings in it have no more characters of any
kind than the text they are read from, if quotes and backslashes are of that kind; so
what is read leaves a shorter rest, and the fuel of `loads` does not run out.
-/

namespace Strings

set_option autoImplicit false

namespace Json

section Inversion
variable {fuel depth : Nat} {text rest : Str} {x : Json}

theorem name?_cases (h : name? text = some (x, rest)) :
    x = .null ∨ (∃ b, x = .bool b) ∨ ∃ l, x = .number l := by
  obtain ⟨⟨name, y⟩, hfind, h⟩ := Option.map_eq_some_iff.mp h
  cases h
  have hmem := List.mem_of_find?_eq_some hfind
  simp only [names, List.mem_cons, List.not_mem_nil, or_false, Prod.mk.injEq] at hmem
  rcases hmem with ⟨_, rfl⟩ | ⟨_, rfl⟩ | ⟨_, rfl⟩ | ⟨_, rfl⟩ | ⟨_, rfl⟩ | ⟨_, rfl⟩
  · exact .inl rfl
  · exact .inr (.inl ⟨true, rfl⟩)
  · exact .inr (.inl ⟨false, rfl⟩)
  · exact .inr (.inr ⟨_, rfl⟩)
  · exact .inr (.inr ⟨_, rfl⟩)
  · exact .inr (.inr ⟨_, rfl⟩)

theorem number?_cases (h : number? text = some (x, rest)) : ∃ l, x = .number l := by
  obtain ⟨⟨int, left⟩, _, h⟩ := Option.bind_eq_some_iff.mp h
  dsimp only at h
  split at h
  · cases h
  · cases h
    exact ⟨_, rfl⟩

theorem scalar_cases (h : ((name? text).orElse fun _ => number? text) = some (x, rest)) :
    x = .null ∨ (∃ b, x = .bool b) ∨ ∃ l, x = .number l := by
  rcases hname : name? text with _ | y
  · rw [hname] at h
    exact .inr (.inr (number?_cases h))
  · rw [hname] at h
    cases h
    exact name?_cases hname

/-- How a value is read, by what it starts with. -/
inductive ValueRead (fuel : Nat) (text rest : Str) : Json → Prop where
  | string {text' s : Str} (htext : text = quote :: text')
      (hs : string? text' = some (s, rest)) : ValueRead fuel text rest (.string s)
  | emptyArray {text' : Str} (htext : text = bracket :: text')
      (hend : skip text' = endBracket :: rest) : ValueRead fuel text rest (.array [])
  | array {f d : Nat} {text' : Str} {xs : List Json} (hfuel : fuel = f + 1)
      (htext : text = bracket :: text')
      (hxs : elements? f d (skip text') = some (xs, rest)) : ValueRead fuel text rest (.array xs)
  | emptyObject {text' : Str} (htext : text = brace :: text')
      (hend : skip text' = endBrace :: rest) : ValueRead fuel text rest (.object [])
  | object {f d : Nat} {text' : Str} {ms : List (Str × Json)} (hfuel : fuel = f + 1)
      (htext : text = brace :: text')
      (hms : members? f d (skip text') = some (ms, rest)) : ValueRead fuel text rest (.object ms)
  | scalar {x : Json} (h : ((name? text).orElse fun _ => number? text) = some (x, rest)) :
      ValueRead fuel text rest x

theorem value?_read (h : value? fuel depth text = some (x, rest)) :
    ValueRead fuel text rest x := by
  unfold value? at h
  split at h
  · cases h
  · obtain ⟨⟨s, left⟩, hs, h⟩ := Option.bind_eq_some_iff.mp h
    cases h
    exact .string rfl hs
  · cases h
  · cases h
  · split at h
    · cases h
      exact .emptyArray rfl ‹_›
    · obtain ⟨⟨xs, left⟩, hxs, h⟩ := Option.bind_eq_some_iff.mp h
      cases h
      exact .array rfl rfl hxs
  · split at h
    · cases h
      exact .emptyObject rfl ‹_›
    · obtain ⟨⟨ms, left⟩, hms, h⟩ := Option.bind_eq_some_iff.mp h
      cases h
      exact .object rfl rfl hms
  · exact .scalar h

theorem elements?_cases {xs : List Json} (h : elements? fuel depth text = some (xs, rest)) :
    ∃ f x left, fuel = f + 1 ∧ value? f depth text = some (x, left) ∧
      ((xs = [x] ∧ skip left = endBracket :: rest) ∨
        ∃ ys left', xs = x :: ys ∧ skip left = comma :: left' ∧
          elements? f depth (skip left') = some (ys, rest)) := by
  cases fuel with
  | zero => cases h
  | succ f =>
    rw [elements?] at h
    obtain ⟨⟨x, left⟩, hx, h⟩ := Option.bind_eq_some_iff.mp h
    refine ⟨f, x, left, rfl, hx, ?_⟩
    dsimp only at h
    split at h
    · cases h
      exact .inl ⟨rfl, ‹_›⟩
    · obtain ⟨⟨ys, left'⟩, hys, h⟩ := Option.bind_eq_some_iff.mp h
      cases h
      exact .inr ⟨ys, _, rfl, ‹_›, hys⟩
    · cases h

theorem members?_cases {ms : List (Str × Json)} (h : members? fuel depth text = some (ms, rest)) :
    ∃ f text' key left left' x after, fuel = f + 1 ∧ text = quote :: text' ∧
      string? text' = some (key, left) ∧ skip left = colon :: left' ∧
      value? f depth (skip left') = some (x, after) ∧
      ((ms = [(key, x)] ∧ skip after = endBrace :: rest) ∨
        ∃ more after', ms = (key, x) :: more ∧ skip after = comma :: after' ∧
          members? f depth (skip after') = some (more, rest)) := by
  rw [members?.eq_def] at h
  split at h
  · cases h
  · rename_i f text'
    obtain ⟨⟨key, left⟩, hkey, h⟩ := Option.bind_eq_some_iff.mp h
    dsimp only at h
    split at h
    · rename_i left' hcolon
      obtain ⟨⟨x, after⟩, hx, h⟩ := Option.bind_eq_some_iff.mp h
      refine ⟨f, text', key, left, left', x, after, rfl, rfl, hkey, hcolon, hx, ?_⟩
      dsimp only at h
      split at h
      · cases h
        exact .inl ⟨rfl, ‹_›⟩
      · obtain ⟨⟨more, after'⟩, hmore, h⟩ := Option.bind_eq_some_iff.mp h
        cases h
        exact .inr ⟨more, _, rfl, ‹_›, hmore⟩
      · cases h
    · cases h
  · cases h

theorem loads_cases (h : loads depth text = some x) :
    ∃ fuel rest, value? fuel depth (skip text) = some (x, rest) := by
  obtain ⟨⟨y, left⟩, hvalue, h⟩ := Option.bind_eq_some_iff.mp h
  dsimp only at h
  split at h
  · cases h
    exact ⟨_, left, hvalue⟩
  · cases h

/-- An array is written with a bracket. -/
theorem bracket_of_loads {xs : List Json} (h : loads depth text = some (.array xs)) :
    ∃ text', skip text = bracket :: text' := by
  obtain ⟨fuel, rest, hvalue⟩ := loads_cases h
  cases value?_read hvalue with
  | emptyArray htext _ => exact ⟨_, htext⟩
  | array _ htext _ => exact ⟨_, htext⟩
  | scalar h => rcases scalar_cases h with hx | ⟨_, hx⟩ | ⟨_, hx⟩ <;> cases hx

end Inversion

section Weight
variable (p : Nat → Bool)

/-- What a piece of a string takes at least, where every escape counts. -/
def Piece.heavy : Piece → Bool
  | .char c => p c
  | .unit _ => true

theorem countP_cons_le (c : Nat) (s : Str) : (c :: s).countP p ≤ s.countP p + 1 := by
  rw [List.countP_cons]
  split <;> omega

theorem countP_unit (u : Nat) (ps : List Piece) :
    (.unit u :: ps).countP (Piece.heavy p) = ps.countP (Piece.heavy p) + 1 :=
  List.countP_cons_of_pos rfl

theorem countP_char (c : Nat) (ps : List Piece) :
    (.char c :: ps).countP (Piece.heavy p) =
      ps.countP (Piece.heavy p) + if p c = true then 1 else 0 := List.countP_cons

theorem countP_join_le (ps : List Piece) : (join ps).countP p ≤ ps.countP (Piece.heavy p) := by
  induction ps using join.induct with
  | case1 => exact Nat.le_refl _
  | case2 c ps ih =>
    rw [join, List.countP_cons, countP_char]
    exact Nat.add_le_add_right ih _
  | case3 u =>
    rw [join, countP_unit]
    exact countP_cons_le p u []
  | case4 u c ps ih =>
    have hu := countP_cons_le p u (c :: join ps)
    rw [List.countP_cons (a := c)] at hu
    rw [join, countP_unit, countP_char]
    omega
  | case5 u v ps h ih =>
    have hc := countP_cons_le p (joined u v) (join ps)
    rw [join, if_pos h, countP_unit, countP_unit]
    omega
  | case6 u v ps h ih =>
    have hu := countP_cons_le p u (join (.unit v :: ps))
    rw [join, if_neg h, countP_unit]
    omega

variable {p} {text rest : Str}

theorem countP_le_cons (c : Nat) (s : Str) : s.countP p ≤ (c :: s).countP p := by
  rw [List.countP_cons]
  exact Nat.le_add_right _ _

variable (hquote : p quote = true) (hbackslash : p backslash = true)
include hquote hbackslash

/-- A string weighs no more than the text it is read from, less the closing quote. -/
theorem countP_pieces_le {ps : List Piece} (h : pieces text = some (ps, rest)) :
    ps.countP (Piece.heavy p) + 1 + rest.countP p ≤ text.countP p := by
  induction text using pieces.induct generalizing ps with
  | case1 => cases h
  | case2 text =>
    rw [pieces] at h
    cases h
    rw [List.countP_cons_of_pos hquote]
    simp
    omega
  | case3 a b c d text ih =>
    rw [pieces] at h
    obtain ⟨u, _, h⟩ := Option.bind_eq_some_iff.mp h
    obtain ⟨⟨qs, left⟩, hqs, h⟩ := Option.bind_eq_some_iff.mp h
    cases h
    have hd := countP_le_cons (p := p) d text
    have hc := countP_le_cons (p := p) c (d :: text)
    have hb := countP_le_cons (p := p) b (c :: d :: text)
    have ha := countP_le_cons (p := p) a (b :: c :: d :: text)
    have hu := countP_le_cons (p := p) 117 (a :: b :: c :: d :: text)
    have hqs := ih hqs
    rw [List.countP_cons_of_pos hbackslash, countP_unit]
    omega
  | case4 e text hne ih =>
    rw [pieces] at h
    · obtain ⟨c, _, h⟩ := Option.bind_eq_some_iff.mp h
      obtain ⟨⟨qs, left⟩, hqs, h⟩ := Option.bind_eq_some_iff.mp h
      cases h
      have he := countP_le_cons (p := p) e text
      have hqs := ih hqs
      rw [List.countP_cons_of_pos hbackslash, countP_char]
      split <;> omega
    · exact hne
  | case5 c text hc hu hb hlow =>
    rw [pieces, if_pos hlow] at h
    · cases h
    · exact hc
    · exact hu
    · exact hb
  | case6 c text hc hu hb hlow ih =>
    rw [pieces, if_neg hlow] at h
    · obtain ⟨⟨qs, left⟩, hqs, h⟩ := Option.bind_eq_some_iff.mp h
      cases h
      have hqs := ih hqs
      rw [countP_char, List.countP_cons]
      omega
    · exact hc
    · exact hu
    · exact hb

theorem countP_string?_le {s : Str} (h : string? text = some (s, rest)) :
    s.countP p + 1 + rest.countP p ≤ text.countP p := by
  obtain ⟨⟨ps, left⟩, hps, h⟩ := Option.bind_eq_some_iff.mp h
  cases h
  have hjoin := countP_join_le p ps
  have hpieces := countP_pieces_le hquote hbackslash hps
  omega

theorem countP_value?_string_le {fuel depth : Nat} {s : Str}
    (h : value? fuel depth text = some (.string s, rest)) :
    s.countP p + 2 + rest.countP p ≤ text.countP p := by
  cases value?_read h with
  | string htext hs =>
    have hle := countP_string?_le hquote hbackslash hs
    rw [htext, List.countP_cons_of_pos hquote]
    omega
  | scalar h => rcases scalar_cases h with hx | ⟨_, hx⟩ | ⟨_, hx⟩ <;> cases hx

omit hquote hbackslash in
theorem countP_skip_le (text : Str) : (skip text).countP p ≤ text.countP p :=
  (List.dropWhile_sublist _).countP_le

/-- Strings that are read from one text weigh no more than it, taken together. -/
theorem countP_elements?_le {fuel depth : Nat} {ss : List Str}
    (h : elements? fuel depth text = some (ss.map .string, rest)) :
    (ss.map (List.countP p)).sum + rest.countP p ≤ text.countP p := by
  induction ss generalizing fuel text with
  | nil =>
    obtain ⟨_, _, _, _, _, ⟨hxs, _⟩ | ⟨_, _, hxs, _⟩⟩ := elements?_cases h
    · cases hxs
    · cases hxs
  | cons s ss ih =>
    obtain ⟨f, x, left, _, hvalue, ⟨hxs, hskip⟩ | ⟨ys, left', hxs, hskip, helements⟩⟩ :=
      elements?_cases h
    · obtain ⟨rfl, hss⟩ := List.cons.inj hxs
      obtain rfl := List.map_eq_nil_iff.mp hss
      have hs := countP_value?_string_le hquote hbackslash hvalue
      have hleft := countP_skip_le (p := p) left
      have hrest := countP_le_cons (p := p) endBracket rest
      rw [hskip] at hleft
      rw [List.map_singleton, List.sum_singleton]
      omega
    · obtain ⟨rfl, rfl⟩ := List.cons.inj hxs
      have hs := countP_value?_string_le hquote hbackslash hvalue
      have hleft := countP_skip_le (p := p) left
      have hleft' := countP_le_cons (p := p) comma left'
      have hskip' := countP_skip_le (p := p) left'
      have hss := ih helements
      rw [hskip] at hleft
      rw [List.map_cons, List.sum_cons]
      omega

theorem countP_loads_string {depth : Nat} {s : Str} (h : loads depth text = some (.string s)) :
    s.countP p + 2 ≤ text.countP p := by
  obtain ⟨fuel, rest, hvalue⟩ := loads_cases h
  have hs := countP_value?_string_le hquote hbackslash hvalue
  have hskip := countP_skip_le (p := p) text
  omega

theorem countP_loads_array {depth : Nat} {ss : List Str}
    (h : loads depth text = some (.array (ss.map .string))) :
    (ss.map (List.countP p)).sum ≤ text.countP p := by
  obtain ⟨fuel, rest, hvalue⟩ := loads_cases h
  have hskip := countP_skip_le (p := p) text
  generalize hx : Json.array (ss.map .string) = x at hvalue
  cases value?_read hvalue with
  | emptyArray =>
    obtain rfl := List.map_eq_nil_iff.mp (Json.array.inj hx)
    exact Nat.zero_le _
  | @array f d text' xs _ htext hxs =>
    obtain rfl := Json.array.inj hx
    have hss := countP_elements?_le hquote hbackslash hxs
    have hskip' := countP_skip_le (p := p) text'
    have htext' := countP_le_cons (p := p) bracket text'
    rw [htext] at hskip
    omega
  | scalar h =>
    rw [← hx] at h
    rcases scalar_cases h with hx | ⟨_, hx⟩ | ⟨_, hx⟩ <;> cases hx
  | _ => cases hx

end Weight

section Length
variable {text rest : Str} {x : Json}

theorem length_string? {s : Str} (h : string? text = some (s, rest)) :
    rest.length < text.length := by
  have hle := countP_string?_le (p := fun _ => true) rfl rfl h
  simp only [List.countP_true] at hle
  omega

theorem length_skip_le (text : Str) : (skip text).length ≤ text.length :=
  (List.dropWhile_sublist _).length_le

theorem length_digits? {ds : Str} (h : digits? text = some (ds, rest)) :
    rest.length < text.length := by
  have hlength := congrArg List.length (List.takeWhile_append_dropWhile (p := isDigit) (l := text))
  rw [List.length_append] at hlength
  unfold digits? at h
  split at h
  · cases h
  · rename_i d ds' htake
    cases h
    rw [htake, List.length_cons] at hlength
    omega

theorem length_int? {ds : Str} (h : int? text = some (ds, rest)) : rest.length < text.length := by
  unfold int? at h
  split at h
  · cases h
    exact Nat.lt_succ_self _
  · exact length_digits? h

theorem length_fraction_le (text : Str) : (fraction text).2.length ≤ text.length := by
  unfold fraction
  split
  · split
    · have hdigits := length_digits? ‹_›
      dsimp only
      rw [List.length_cons]
      omega
    · exact Nat.le_refl _
  · exact Nat.le_refl _

theorem length_sign_le (text : Str) : (sign text).2.length ≤ text.length := by
  unfold sign
  split
  · exact Nat.le_succ _
  · exact Nat.le_succ _
  · exact Nat.le_refl _

theorem length_exponent_le (text : Str) : (exponent text).2.length ≤ text.length := by
  unfold exponent
  split
  · rename_i c text
    split
    · split
      · have hdigits := length_digits? ‹_›
        have hsign := length_sign_le text
        dsimp only
        rw [List.length_cons]
        omega
      · exact Nat.le_refl _
    · exact Nat.le_refl _
  · exact Nat.le_refl _

theorem length_number? (h : number? text = some (x, rest)) : rest.length < text.length := by
  obtain ⟨⟨int, left⟩, hint, h⟩ := Option.bind_eq_some_iff.mp h
  dsimp only at h
  split at h
  · cases h
  · have hleft := length_int? hint
    have hfraction := length_fraction_le left
    have hexponent := length_exponent_le (fraction left).2
    rw [List.length_drop] at hleft
    obtain rfl : (exponent (fraction left).2).2 = rest := (Prod.mk.inj (Option.some.inj h)).2
    omega

theorem length_name? (h : name? text = some (x, rest)) : rest.length < text.length := by
  obtain ⟨⟨name, y⟩, hfind, h⟩ := Option.map_eq_some_iff.mp h
  cases h
  have hmem := List.mem_of_find?_eq_some hfind
  have hfound : name.isPrefixOf text = true :=
    List.find?_some (p := fun n : Str × Json => n.1.isPrefixOf text) hfind
  have hpart := (List.isPrefixOf_iff_prefix.mp hfound).length_le
  have hpos : 0 < name.length := by
    have hall : ∀ n ∈ names, 0 < n.1.length := by
      unfold names
      simp [points]
    exact hall _ hmem
  change (text.drop name.length).length < text.length
  rw [List.length_drop]
  omega

theorem length_scalar (h : ((name? text).orElse fun _ => number? text) = some (x, rest)) :
    rest.length < text.length := by
  rcases hname : name? text with _ | y
  · rw [hname] at h
    exact length_number? h
  · rw [hname] at h
    cases h
    exact length_name? hname

theorem length_skip_cons {c : Nat} (h : skip text = c :: rest) : rest.length < text.length := by
  have hskip := length_skip_le text
  rw [h, List.length_cons] at hskip
  exact hskip

theorem length_skip_cons_le {c : Nat} (h : text = c :: rest) :
    (skip rest).length < text.length := by
  rw [h, List.length_cons]
  exact Nat.lt_succ_of_le (length_skip_le rest)

/-- Every value leaves a shorter rest, and so does what stands between the brackets. -/
theorem length_values (fuel : Nat) :
    (∀ depth text x rest, value? fuel depth text = some (x, rest) →
      rest.length < text.length) ∧
    (∀ depth text xs rest, elements? fuel depth text = some (xs, rest) →
      rest.length < text.length) ∧
    ∀ depth text ms rest, members? fuel depth text = some (ms, rest) →
      rest.length < text.length := by
  induction fuel with
  | zero => exact ⟨nofun, nofun, nofun⟩
  | succ fuel ih =>
    obtain ⟨hvalue, helements, hmembers⟩ := ih
    refine ⟨fun depth text x rest h => ?_, fun depth text xs rest h => ?_,
      fun depth text ms rest h => ?_⟩
    · cases value?_read h with
      | string htext hs =>
        have hleft := length_string? hs
        rw [htext, List.length_cons]
        omega
      | emptyArray htext hend =>
        have hleft := length_skip_cons hend
        rw [htext, List.length_cons]
        omega
      | array hfuel htext hxs =>
        obtain rfl := Nat.succ.inj hfuel
        have hleft := helements _ _ _ _ hxs
        have hskip := length_skip_cons_le htext
        omega
      | emptyObject htext hend =>
        have hleft := length_skip_cons hend
        rw [htext, List.length_cons]
        omega
      | object hfuel htext hms =>
        obtain rfl := Nat.succ.inj hfuel
        have hleft := hmembers _ _ _ _ hms
        have hskip := length_skip_cons_le htext
        omega
      | scalar h => exact length_scalar h
    · obtain ⟨f, x, left, hfuel, hx, hends⟩ := elements?_cases h
      obtain rfl := Nat.succ.inj hfuel
      have hleft := hvalue _ _ _ _ hx
      rcases hends with ⟨_, hend⟩ | ⟨ys, left', _, hcomma, hys⟩
      · have hrest := length_skip_cons hend
        omega
      · have hcut := length_skip_cons hcomma
        have hskip := length_skip_le left'
        have hrest := helements _ _ _ _ hys
        omega
    · obtain ⟨f, text', key, left, left', x, after, hfuel, rfl, hkey, hcolon, hx, hends⟩ :=
        members?_cases h
      obtain rfl := Nat.succ.inj hfuel
      have hleft := length_string? hkey
      have hcut := length_skip_cons hcolon
      have hskip := length_skip_le left'
      have hafter := hvalue _ _ _ _ hx
      rw [List.length_cons]
      rcases hends with ⟨_, hend⟩ | ⟨more, after', _, hcomma, hmore⟩
      · have hrest := length_skip_cons hend
        omega
      · have hcut' := length_skip_cons hcomma
        have hskip' := length_skip_le after'
        have hrest := hmembers _ _ _ _ hmore
        omega

/-- With fuel that covers the text, the fuel does not matter. -/
theorem values_congr (fuel : Nat) :
    (∀ fuel' depth text, 2 * text.length < fuel → 2 * text.length < fuel' →
      value? fuel depth text = value? fuel' depth text) ∧
    (∀ fuel' depth text, 2 * text.length + 1 < fuel → 2 * text.length + 1 < fuel' →
      elements? fuel depth text = elements? fuel' depth text) ∧
    ∀ fuel' depth text, 2 * text.length + 1 < fuel → 2 * text.length + 1 < fuel' →
      members? fuel depth text = members? fuel' depth text := by
  induction fuel with
  | zero => exact ⟨nofun, nofun, nofun⟩
  | succ fuel ih =>
    obtain ⟨hvalue, helements, hmembers⟩ := ih
    refine ⟨fun fuel' depth text h h' => ?_, fun fuel' depth text h h' => ?_,
      fun fuel' depth text h h' => ?_⟩
    · obtain ⟨fuel', rfl⟩ : ∃ n, fuel' = n + 1 := ⟨fuel' - 1, by omega⟩
      rw [value?.eq_def, value?.eq_def (fuel' + 1)]
      split
      · cases ‹fuel + 1 = 0›
      · rfl
      · rfl
      · rfl
      · rename_i n depth' text' heq
        obtain rfl := Nat.succ.inj heq
        have hskip := length_skip_le text'
        rw [List.length_cons] at h h'
        have hsame := helements fuel' depth' (skip text') (by omega) (by omega)
        dsimp only
        split
        · rfl
        · rw [hsame]
      · rename_i n depth' text' heq
        obtain rfl := Nat.succ.inj heq
        have hskip := length_skip_le text'
        rw [List.length_cons] at h h'
        have hsame := hmembers fuel' depth' (skip text') (by omega) (by omega)
        dsimp only
        split
        · rfl
        · rw [hsame]
      · rfl
    · obtain ⟨fuel', rfl⟩ : ∃ n, fuel' = n + 1 := ⟨fuel' - 1, by omega⟩
      rw [elements?, elements?, hvalue fuel' depth text (by omega) (by omega)]
      apply Option.bind_congr
      rintro ⟨x, left⟩ hx
      have hleft := (length_values fuel').1 _ _ _ _ hx
      dsimp only
      split
      · rfl
      · rename_i left' hcomma
        have hcut := length_skip_cons hcomma
        have hskip := length_skip_le left'
        rw [helements fuel' depth (skip left') (by omega) (by omega)]
      · rfl
    · obtain ⟨fuel', rfl⟩ : ∃ n, fuel' = n + 1 := ⟨fuel' - 1, by omega⟩
      rw [members?.eq_def, members?.eq_def (fuel' + 1)]
      split
      · cases ‹fuel + 1 = 0›
      · rename_i depth' _ _ _ n text' heq
        obtain rfl := Nat.succ.inj heq
        rw [List.length_cons] at h h'
        apply Option.bind_congr
        rintro ⟨key, left⟩ hkey
        have hleft := length_string? hkey
        dsimp only
        split
        · rename_i left' hcolon
          have hcut := length_skip_cons hcolon
          have hskip := length_skip_le left'
          rw [hvalue fuel' depth' (skip left') (by omega) (by omega)]
          apply Option.bind_congr
          rintro ⟨x, after⟩ hx
          have hafter := (length_values fuel').1 _ _ _ _ hx
          dsimp only
          split
          · rfl
          · rename_i after' hcomma
            have hcut' := length_skip_cons hcomma
            have hskip' := length_skip_le after'
            rw [hmembers fuel' depth' (skip after') (by omega) (by omega)]
          · rfl
        · rfl
      · rfl

/-- `loads` has fuel enough. -/
theorem value?_loads {fuel depth : Nat} (h : 2 * text.length < fuel) :
    value? (2 * text.length + 2) depth (skip text) = value? fuel depth (skip text) := by
  have hskip := length_skip_le text
  exact (values_congr _).1 fuel depth (skip text) (by omega) (by omega)

end Length

end Json

end Strings

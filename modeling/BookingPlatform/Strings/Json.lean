import Mathlib.Data.List.Basic
import Mathlib.Data.List.Count

/-!
# JSON texts

`loads` reads a text and `dumps` writes one, as Python does. A string is its code points,
and those of surrogates may stand alone in it.
-/

namespace Strings

set_option autoImplicit false

abbrev Str := List Nat

def points (s : String) : Str := s.toList.map Char.toNat

@[match_pattern] abbrev quote : Nat := 34
@[match_pattern] abbrev comma : Nat := 44
@[match_pattern] abbrev colon : Nat := 58
@[match_pattern] abbrev bracket : Nat := 91
@[match_pattern] abbrev backslash : Nat := 92
@[match_pattern] abbrev endBracket : Nat := 93
@[match_pattern] abbrev brace : Nat := 123
@[match_pattern] abbrev endBrace : Nat := 125

/-- A number is kept as it is written. -/
inductive Json where
  | null
  | bool (b : Bool)
  | number (lexeme : Str)
  | string (s : Str)
  | array (elements : List Json)
  | object (members : List (Str × Json))

namespace Json

section Strings

def hexDigit? (c : Nat) : Option Nat :=
  if 48 ≤ c ∧ c ≤ 57 then some (c - 48)
  else if 97 ≤ c ∧ c ≤ 102 then some (c - 87)
  else if 65 ≤ c ∧ c ≤ 70 then some (c - 55)
  else none

def hex4? (a b c d : Nat) : Option Nat := do
  pure ((((← hexDigit? a) * 16 + (← hexDigit? b)) * 16 + (← hexDigit? c)) * 16 + (← hexDigit? d))

/-- The escapes of one character. -/
def unescape? (c : Nat) : Option Nat :=
  if c = quote ∨ c = backslash ∨ c = 47 then some c
  else if c = 98 then some 8
  else if c = 102 then some 12
  else if c = 110 then some 10
  else if c = 114 then some 13
  else if c = 116 then some 9
  else none

/-- What stands in a string: a character, or the code unit of an escape. -/
inductive Piece where
  | char (c : Nat)
  | unit (u : Nat)
  deriving DecidableEq, Repr

/-- From behind the opening quote to behind the closing one. -/
def pieces : Str → Option (List Piece × Str)
  | [] => none
  | quote :: rest => some ([], rest)
  | backslash :: 117 :: a :: b :: c :: d :: rest => do
    let u ← hex4? a b c d
    let (ps, rest) ← pieces rest
    pure (.unit u :: ps, rest)
  | backslash :: e :: rest => do
    let c ← unescape? e
    let (ps, rest) ← pieces rest
    pure (.char c :: ps, rest)
  | c :: rest =>
    if c < 32 ∨ c = backslash then none
    else do
      let (ps, rest) ← pieces rest
      pure (.char c :: ps, rest)

def IsHigh (u : Nat) : Prop := 0xD800 ≤ u ∧ u < 0xDC00

def IsLow (u : Nat) : Prop := 0xDC00 ≤ u ∧ u < 0xE000

instance (u : Nat) : Decidable (IsHigh u) := inferInstanceAs (Decidable (_ ∧ _))

instance (u : Nat) : Decidable (IsLow u) := inferInstanceAs (Decidable (_ ∧ _))

def joined (hi lo : Nat) : Nat := 0x10000 + (hi - 0xD800) * 0x400 + (lo - 0xDC00)

/-- An escaped high surrogate right before an escaped low one is one character with it. -/
def join : List Piece → Str
  | [] => []
  | .char c :: ps => c :: join ps
  | [.unit u] => [u]
  | .unit u :: .char c :: ps => u :: c :: join ps
  | .unit u :: .unit v :: ps =>
    if IsHigh u ∧ IsLow v then joined u v :: join ps else u :: join (.unit v :: ps)

def string? (text : Str) : Option (Str × Str) := do
  let (ps, rest) ← pieces text
  pure (join ps, rest)

end Strings

section Numbers

def isDigit (c : Nat) : Bool := 48 ≤ c && c ≤ 57

/-- The digits at the front, if there are any. -/
def digits? (text : Str) : Option (Str × Str) :=
  match text.takeWhile isDigit with
  | [] => none
  | d :: ds => some (d :: ds, text.dropWhile isDigit)

/-- `0`, or digits that do not start with it. -/
def int? : Str → Option (Str × Str)
  | 48 :: rest => some ([48], rest)
  | text => digits? text

def fraction : Str → Str × Str
  | 46 :: text => match digits? text with
    | some (ds, rest) => (46 :: ds, rest)
    | none => ([], 46 :: text)
  | text => ([], text)

def sign : Str → Str × Str
  | 43 :: text => ([43], text)
  | 45 :: text => ([45], text)
  | text => ([], text)

def exponent : Str → Str × Str
  | c :: text =>
    if c = 69 ∨ c = 101 then
      match digits? (sign text).2 with
      | some (ds, rest) => (c :: (sign text).1 ++ ds, rest)
      | none => ([], c :: text)
    else ([], c :: text)
  | [] => ([], [])

/-- An integer longer than this raises ValueError. -/
def maxStrDigits : Nat := 4300

def number? (text : Str) : Option (Json × Str) := do
  let minus := if text.head? = some 45 then [45] else []
  let (int, rest) ← int? (text.drop minus.length)
  let (frac, rest) := fraction rest
  let (exp, rest) := exponent rest
  if frac = [] ∧ exp = [] ∧ maxStrDigits < int.length then none
  else pure (.number (minus ++ int ++ frac ++ exp), rest)

end Numbers

section Values

def isSpace (c : Nat) : Bool := c == 32 || c == 9 || c == 10 || c == 13

def skip (text : Str) : Str := text.dropWhile isSpace

/-- The names that are values. -/
def names : List (Str × Json) := [
  (points "null", .null), (points "true", .bool true), (points "false", .bool false),
  (points "NaN", .number (points "NaN")), (points "Infinity", .number (points "Infinity")),
  (points "-Infinity", .number (points "-Infinity"))]

def name? (text : Str) : Option (Json × Str) :=
  (names.find? fun n => n.1.isPrefixOf text).map fun n => (n.2, text.drop n.1.length)

mutual

/-- The value at the front, with at most `depth` arrays and objects inside each other: past
the recursion limit of the interpreter it raises RecursionError. -/
def value? : Nat → Nat → Str → Option (Json × Str)
  | 0, _, _ => none
  | _ + 1, _, quote :: text => do
    let (s, rest) ← string? text
    pure (.string s, rest)
  | _ + 1, 0, bracket :: _ => none
  | _ + 1, 0, brace :: _ => none
  | fuel + 1, depth + 1, bracket :: text =>
    match skip text with
    | endBracket :: rest => some (.array [], rest)
    | text => do
      let (xs, rest) ← elements? fuel depth text
      pure (.array xs, rest)
  | fuel + 1, depth + 1, brace :: text =>
    match skip text with
    | endBrace :: rest => some (.object [], rest)
    | text => do
      let (ms, rest) ← members? fuel depth text
      pure (.object ms, rest)
  | _ + 1, _, text => (name? text).orElse fun _ => number? text

def elements? : Nat → Nat → Str → Option (List Json × Str)
  | 0, _, _ => none
  | fuel + 1, depth, text => do
    let (x, rest) ← value? fuel depth text
    match skip rest with
    | endBracket :: rest => pure ([x], rest)
    | comma :: rest => do
      let (xs, rest) ← elements? fuel depth (skip rest)
      pure (x :: xs, rest)
    | _ => none

def members? : Nat → Nat → Str → Option (List (Str × Json) × Str)
  | 0, _, _ => none
  | fuel + 1, depth, quote :: text => do
    let (key, rest) ← string? text
    match skip rest with
    | colon :: rest => do
      let (x, rest) ← value? fuel depth (skip rest)
      match skip rest with
      | endBrace :: rest => pure ([(key, x)], rest)
      | comma :: rest => do
        let (ms, rest) ← members? fuel depth (skip rest)
        pure ((key, x) :: ms, rest)
      | _ => none
    | _ => none
  | _ + 1, _, _ => none

end

/-- `json.loads`. -/
def loads (depth : Nat) (text : Str) : Option Json := do
  let (x, rest) ← value? (2 * text.length + 2) depth (skip text)
  if skip rest = [] then pure x else none

/-- `data[key]`, which raises for all but objects; the last of equal keys counts. -/
def item? (key : Str) : Json → Option Json
  | .object ms => (ms.reverse.find? fun m => m.1 = key).map Prod.snd
  | _ => none

end Values

section Dumps

def hexDigit (n : Nat) : Nat := if n < 10 then 48 + n else 87 + n

def unitEscape (u : Nat) : Str :=
  [backslash, 117, hexDigit (u / 4096), hexDigit (u / 256 % 16), hexDigit (u / 16 % 16),
    hexDigit (u % 16)]

def highUnit (c : Nat) : Nat := 0xD800 + (c - 0x10000) / 0x400

def lowUnit (c : Nat) : Nat := 0xDC00 + (c - 0x10000) % 0x400

/-- All that is not ASCII is escaped. -/
def escape (c : Nat) : Str :=
  if c = quote ∨ c = backslash then [backslash, c]
  else if c = 8 then [backslash, 98]
  else if c = 9 then [backslash, 116]
  else if c = 10 then [backslash, 110]
  else if c = 12 then [backslash, 102]
  else if c = 13 then [backslash, 114]
  else if 32 ≤ c ∧ c < 127 then [c]
  else if c < 0x10000 then unitEscape c
  else unitEscape (highUnit c) ++ unitEscape (lowUnit c)

def dumpsString (s : Str) : Str := quote :: s.flatMap escape ++ [quote]

/-- `json.dumps` of a list of strings. -/
def dumpsArray (xs : List Str) : Str :=
  bracket :: [comma, 32].intercalate (xs.map dumpsString) ++ [endBracket]

def dumpsMember (m : Str × Str) : Str := dumpsString m.1 ++ [colon, 32] ++ dumpsString m.2

/-- `json.dumps` of a dictionary of strings. -/
def dumpsObject (ms : List (Str × Str)) : Str :=
  brace :: [comma, 32].intercalate (ms.map dumpsMember) ++ [endBrace]

end Dumps

section RoundTrip
variable {c u : Nat} {rest : Str} {ps : List Piece}

theorem hexDigit?_hexDigit {n : Nat} (h : n < 16) : hexDigit? (hexDigit n) = some n := by
  unfold hexDigit hexDigit?
  split
  · rw [if_pos (by omega)]
    exact congrArg some (by omega)
  · rw [if_neg (by omega), if_pos (by omega)]
    exact congrArg some (by omega)

/-- What is read before the rest. -/
def before (p : Piece) (x : List Piece × Str) : List Piece × Str := (p :: x.1, x.2)

theorem pieces_unit (h : u < 0x10000) :
    pieces (unitEscape u ++ rest) = (pieces rest).map (before (.unit u)) := by
  have hhex : hex4? (hexDigit (u / 4096)) (hexDigit (u / 256 % 16)) (hexDigit (u / 16 % 16))
      (hexDigit (u % 16)) = some u := by
    unfold hex4?
    rw [hexDigit?_hexDigit (by omega), hexDigit?_hexDigit (by omega),
      hexDigit?_hexDigit (by omega), hexDigit?_hexDigit (by omega)]
    exact congrArg some (by omega)
  simp only [unitEscape, List.cons_append, List.nil_append]
  rw [pieces, hhex]
  cases pieces rest <;> rfl

theorem pieces_short {e : Nat} (hne : e ≠ 117) (h : unescape? e = some c) :
    pieces (backslash :: e :: rest) = (pieces rest).map (before (.char c)) := by
  rw [pieces, h]
  · cases pieces rest <;> rfl
  · intro a b c d text heq
    exact absurd heq hne

theorem pieces_char (hlo : 32 ≤ c) (hq : c ≠ quote) (hb : c ≠ backslash) :
    pieces (c :: rest) = (pieces rest).map (before (.char c)) := by
  rw [pieces, if_neg (by omega)]
  · cases pieces rest <;> rfl
  · exact hq
  · intro a b c d text heq
    exact absurd heq hb
  · intro e text heq
    exact absurd heq hb

/-- The four ways to write a character. -/
theorem escape_cases (c : Nat) :
    (∃ e, e ≠ 117 ∧ unescape? e = some c ∧ escape c = [backslash, e]) ∨
    (32 ≤ c ∧ c ≠ quote ∧ c ≠ backslash ∧ escape c = [c]) ∨
    (c < 0x10000 ∧ escape c = unitEscape c) ∨
    (0x10000 ≤ c ∧ escape c = unitEscape (highUnit c) ++ unitEscape (lowUnit c)) := by
  unfold escape
  split_ifs with h1 h2 h3 h4 h5 h6 h7 h8
  · refine .inl ⟨c, ?_, ?_, rfl⟩
    · rcases h1 with rfl | rfl <;> decide
    · rcases h1 with rfl | rfl <;> rfl
  · exact .inl ⟨98, by decide, by rw [h2]; rfl, rfl⟩
  · exact .inl ⟨116, by decide, by rw [h3]; rfl, rfl⟩
  · exact .inl ⟨110, by decide, by rw [h4]; rfl, rfl⟩
  · exact .inl ⟨102, by decide, by rw [h5]; rfl, rfl⟩
  · exact .inl ⟨114, by decide, by rw [h6]; rfl, rfl⟩
  · exact .inr (.inl ⟨h7.1, fun h => h1 (.inl h), fun h => h1 (.inr h), rfl⟩)
  · exact .inr (.inr (.inl ⟨h8, rfl⟩))
  · exact .inr (.inr (.inr ⟨by omega, rfl⟩))

/-- A character that is no surrogate. -/
def Scalar (c : Nat) : Prop := c < 0x110000 ∧ ¬ IsHigh c ∧ ¬ IsLow c

theorem join_unit (h : ¬ IsHigh u) : join (.unit u :: ps) = u :: join ps := by
  cases ps with
  | nil => rfl
  | cons p ps =>
    cases p with
    | char c => rfl
    | unit v => exact if_neg fun hpair => h hpair.1

theorem join_pair (hlo : 0x10000 ≤ c) (hhi : c < 0x110000) :
    join (.unit (highUnit c) :: .unit (lowUnit c) :: ps) = c :: join ps := by
  have hhigh : IsHigh (highUnit c) := by
    unfold IsHigh highUnit
    omega
  have hlow : IsLow (lowUnit c) := by
    unfold IsLow lowUnit
    omega
  have hjoined : joined (highUnit c) (lowUnit c) = c := by
    unfold joined highUnit lowUnit
    omega
  change (if _ then _ else _) = _
  rw [if_pos ⟨hhigh, hlow⟩, hjoined]

/-- One character is read back from the way it is written. -/
theorem pieces_escape (h : Scalar c) (text : Str) :
    ∃ qs, pieces (escape c ++ text) = (pieces text).map (fun x => (qs ++ x.1, x.2)) ∧
      ∀ ps, join (qs ++ ps) = c :: join ps := by
  obtain ⟨hrange, hhigh, hlow⟩ := h
  rcases escape_cases c with ⟨e, hne, he, hescape⟩ | ⟨hlo, hq, hb, hescape⟩ | ⟨hbmp, hescape⟩ |
    ⟨hastral, hescape⟩
  · rw [hescape]
    exact ⟨[.char c], pieces_short hne he, fun _ => rfl⟩
  · rw [hescape]
    exact ⟨[.char c], pieces_char hlo hq hb, fun _ => rfl⟩
  · rw [hescape]
    exact ⟨[.unit c], pieces_unit hbmp, fun _ => join_unit hhigh⟩
  · refine ⟨[.unit (highUnit c), .unit (lowUnit c)], ?_, fun _ => join_pair hastral hrange⟩
    rw [hescape, List.append_assoc, pieces_unit (by unfold highUnit; omega),
      pieces_unit (by unfold lowUnit; omega), Option.map_map]
    rfl

theorem string?_dumps {s : Str} (h : ∀ c ∈ s, Scalar c) (rest : Str) :
    string? (s.flatMap escape ++ quote :: rest) = some (s, rest) := by
  have hpieces : ∃ ps, pieces (s.flatMap escape ++ quote :: rest) = some (ps, rest) ∧
      join ps = s := by
    induction s with
    | nil => exact ⟨[], by rw [List.flatMap_nil, List.nil_append, pieces], rfl⟩
    | cons c s ih =>
      obtain ⟨ps, hps, hjoin⟩ := ih fun d hd => h d (List.mem_cons_of_mem c hd)
      obtain ⟨qs, hqs, hc⟩ := pieces_escape (h c List.mem_cons_self)
        (s.flatMap escape ++ quote :: rest)
      refine ⟨qs ++ ps, ?_, by rw [hc, hjoin]⟩
      rw [List.flatMap_cons, List.append_assoc, hqs, hps]
      rfl
  obtain ⟨ps, hps, rfl⟩ := hpieces
  unfold string?
  rw [hps]
  rfl

theorem value?_string {s : Str} (h : ∀ c ∈ s, Scalar c) (fuel depth : Nat) (rest : Str) :
    value? (fuel + 1) depth (dumpsString s ++ rest) = some (.string s, rest) := by
  have hstring := string?_dumps h rest
  simp only [dumpsString, List.cons_append, List.append_assoc, List.nil_append]
  rw [value?, hstring]
  rfl

section Rules
variable {fuel depth : Nat} {text text' : Str} {x : Json} {xs : List Json} {key : Str}
  {ms : List (Str × Json)}

theorem elements?_last (h : value? fuel depth text = some (x, endBracket :: rest)) :
    elements? (fuel + 1) depth text = some ([x], rest) := by
  rw [elements?, h]
  rfl

theorem elements?_cons (h : value? fuel depth text = some (x, comma :: text'))
    (hxs : elements? fuel depth (skip text') = some (xs, rest)) :
    elements? (fuel + 1) depth text = some (x :: xs, rest) := by
  rw [elements?, h]
  change Option.bind (elements? fuel depth (skip text')) _ = _
  rw [hxs]
  rfl

theorem members?_last (hkey : string? text = some (key, colon :: text'))
    (h : value? fuel depth (skip text') = some (x, endBrace :: rest)) :
    members? (fuel + 1) depth (quote :: text) = some ([(key, x)], rest) := by
  rw [members?, hkey]
  change Option.bind (value? fuel depth (skip text')) _ = _
  rw [h]
  rfl

theorem members?_cons {text'' : Str} (hkey : string? text = some (key, colon :: text'))
    (h : value? fuel depth (skip text') = some (x, comma :: text''))
    (hms : members? fuel depth (skip text'') = some (ms, rest)) :
    members? (fuel + 1) depth (quote :: text) = some ((key, x) :: ms, rest) := by
  rw [members?, hkey]
  change Option.bind (value? fuel depth (skip text')) _ = _
  rw [h]
  change Option.bind (members? fuel depth (skip text'')) _ = _
  rw [hms]
  rfl

theorem value?_array (hhead : (skip text).head? ≠ some endBracket)
    (h : elements? fuel depth (skip text) = some (xs, rest)) :
    value? (fuel + 1) (depth + 1) (bracket :: text) = some (.array xs, rest) := by
  rw [value?]
  split
  · rename_i hskip
    rw [hskip] at hhead
    exact absurd rfl hhead
  · rw [h]
    rfl

theorem value?_object (hhead : (skip text).head? ≠ some endBrace)
    (h : members? fuel depth (skip text) = some (ms, rest)) :
    value? (fuel + 1) (depth + 1) (brace :: text) = some (.object ms, rest) := by
  rw [value?]
  split
  · rename_i hskip
    rw [hskip] at hhead
    exact absurd rfl hhead
  · rw [h]
    rfl

theorem loads_of_value? (hskip : skip text = text)
    (h : value? (2 * text.length + 2) depth text = some (x, [])) : loads depth text = some x := by
  unfold loads
  rw [hskip, h]
  rfl

end Rules

theorem elements?_dumps {s : Str} {xs : List Str} (h : ∀ x ∈ s :: xs, ∀ c ∈ x, Scalar c)
    {fuel : Nat} (hfuel : xs.length + 1 < fuel) (depth : Nat) (rest : Str) :
    elements? fuel depth
        ([comma, 32].intercalate ((s :: xs).map dumpsString) ++ endBracket :: rest) =
      some ((s :: xs).map .string, rest) := by
  induction xs generalizing s fuel with
  | nil =>
    obtain ⟨fuel, rfl⟩ : ∃ n, fuel = n + 2 := ⟨fuel - 2, by omega⟩
    rw [List.map_singleton, List.intercalate_singleton]
    exact elements?_last (value?_string (h s List.mem_cons_self) fuel depth _)
  | cons x xs ih =>
    rw [List.length_cons] at hfuel
    obtain ⟨fuel, rfl⟩ : ∃ n, fuel = n + 2 := ⟨fuel - 2, by omega⟩
    have hxs := ih (fun y hy => h y (List.mem_cons_of_mem s hy))
      (show xs.length + 1 < fuel + 1 by omega)
    rw [List.map_cons, List.map_cons, List.intercalate_cons_cons, List.append_assoc,
      List.append_assoc]
    apply elements?_cons (value?_string (h s List.mem_cons_self) fuel depth _)
    rw [← hxs, List.map_cons]
    cases xs <;> rfl

theorem dumpsMember_append (m : Str × Str) (text : Str) : dumpsMember m ++ text =
    quote :: (m.1.flatMap escape ++ quote :: colon :: 32 :: (dumpsString m.2 ++ text)) := by
  simp only [dumpsMember, dumpsString, List.cons_append, List.append_assoc, List.nil_append]

theorem members?_dumps {m : Str × Str} {ms : List (Str × Str)}
    (h : ∀ x ∈ m :: ms, (∀ c ∈ x.1, Scalar c) ∧ ∀ c ∈ x.2, Scalar c)
    {fuel : Nat} (hfuel : ms.length + 1 < fuel) (depth : Nat) (rest : Str) :
    members? fuel depth
        ([comma, 32].intercalate ((m :: ms).map dumpsMember) ++ endBrace :: rest) =
      some ((m :: ms).map fun x => (x.1, .string x.2), rest) := by
  induction ms generalizing m fuel with
  | nil =>
    obtain ⟨hkey, hvalue⟩ := h m List.mem_cons_self
    obtain ⟨fuel, rfl⟩ : ∃ n, fuel = n + 2 := ⟨fuel - 2, by omega⟩
    rw [List.map_singleton, List.intercalate_singleton, dumpsMember_append]
    exact members?_last (string?_dumps hkey _) (value?_string hvalue fuel depth _)
  | cons x ms ih =>
    obtain ⟨hkey, hvalue⟩ := h m List.mem_cons_self
    rw [List.length_cons] at hfuel
    obtain ⟨fuel, rfl⟩ : ∃ n, fuel = n + 2 := ⟨fuel - 2, by omega⟩
    have hms := ih (fun y hy => h y (List.mem_cons_of_mem m hy))
      (show ms.length + 1 < fuel + 1 by omega)
    rw [List.map_cons, List.map_cons, List.intercalate_cons_cons, List.append_assoc,
      List.append_assoc, dumpsMember_append]
    apply members?_cons (string?_dumps hkey _) (value?_string hvalue fuel depth _)
    rw [← hms, List.map_cons]
    cases ms <;> rfl

theorem length_le_intercalate (sep : Str) (ts : List Str) (h : ∀ t ∈ ts, t ≠ []) :
    ts.length ≤ (sep.intercalate ts).length := by
  induction ts with
  | nil => exact Nat.zero_le _
  | cons t ts ih =>
    have ht := List.length_pos_iff.mpr (h t List.mem_cons_self)
    have hts := ih fun u hu => h u (List.mem_cons_of_mem t hu)
    cases ts with
    | nil =>
      rw [List.intercalate_singleton]
      exact ht
    | cons u ts =>
      rw [List.intercalate_cons_cons, List.length_append, List.length_append, List.length_cons]
      omega

theorem loads_dumpsArray {xs : List Str} (h : ∀ x ∈ xs, ∀ c ∈ x, Scalar c) (depth : Nat) :
    loads (depth + 1) (dumpsArray xs) = some (.array (xs.map .string)) := by
  cases xs with
  | nil => rfl
  | cons s xs =>
    have hlength := length_le_intercalate [comma, 32] ((s :: xs).map dumpsString)
      fun t ht => by
        obtain ⟨x, _, rfl⟩ := List.mem_map.mp ht
        exact List.cons_ne_nil _ _
    rw [List.length_map, List.length_cons] at hlength
    have hfuel : xs.length + 1 < 2 * (dumpsArray (s :: xs)).length + 1 := by
      simp only [dumpsArray, List.length_append, List.length_cons]
      omega
    have helements := elements?_dumps h hfuel depth []
    apply loads_of_value? rfl
    apply value?_array
    · cases xs <;> exact nofun
    · rw [← helements]
      cases xs <;> rfl

theorem loads_dumpsObject {ms : List (Str × Str)}
    (h : ∀ x ∈ ms, (∀ c ∈ x.1, Scalar c) ∧ ∀ c ∈ x.2, Scalar c) (depth : Nat) :
    loads (depth + 1) (dumpsObject ms) =
      some (.object (ms.map fun x => (x.1, .string x.2))) := by
  cases ms with
  | nil => rfl
  | cons m ms =>
    have hlength := length_le_intercalate [comma, 32] ((m :: ms).map dumpsMember)
      fun t ht => by
        obtain ⟨x, _, rfl⟩ := List.mem_map.mp ht
        exact List.cons_ne_nil _ _
    rw [List.length_map, List.length_cons] at hlength
    have hfuel : ms.length + 1 < 2 * (dumpsObject (m :: ms)).length + 1 := by
      simp only [dumpsObject, List.length_append, List.length_cons]
      omega
    have hmembers := members?_dumps h hfuel depth []
    apply loads_of_value? rfl
    apply value?_object
    · cases ms <;> exact nofun
    · rw [← hmembers]
      cases ms <;> rfl

/-- The last member of an object is found, and one before it if the keys differ. -/
theorem item?_last (key : Str) (x : Json) (ms : List (Str × Json)) :
    item? key (.object (ms ++ [(key, x)])) = some x := by
  unfold item?
  dsimp only
  rw [List.reverse_append]
  exact congrArg (Option.map Prod.snd) (List.find?_cons_of_pos (decide_eq_true rfl))

theorem item?_of_ne {key key' : Str} (h : key' ≠ key) (y : Json) (ms : List (Str × Json)) :
    item? key (.object (ms ++ [(key', y)])) = item? key (.object ms) := by
  unfold item?
  dsimp only
  rw [List.reverse_append]
  refine congrArg (Option.map Prod.snd) (List.find?_cons_of_neg fun heq => ?_)
  exact h (of_decide_eq_true heq)

end RoundTrip

end Json

end Strings

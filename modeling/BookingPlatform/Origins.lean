import BookingPlatform.Strings.JsonWeight
import BookingPlatform.Strings.Words

/-!
# The origins of the settings

The settings source decodes an environment variable of a list type as JSON before the
validator sees it: the list notation of the validator is for texts that never reach it.
-/

namespace BookingPlatform

set_option autoImplicit false

open Strings Strings.Json

section Settings

/-- A `SettingsError` of the source, or a `ValidationError` of the model. -/
inductive SettingsFailure where
  | settingsError
  | validationError
  deriving DecidableEq, Repr

def defaultCorsOrigins : List String := [
  "http://localhost", "http://localhost:3000", "http://localhost:5173", "http://localhost:8000",
  "http://127.0.0.1:3000", "http://127.0.0.1:5173", "http://127.0.0.1:8000"]

/-- The validator of mode before, where `json.loads` may raise. -/
def assembleCorsOrigins (depth : Nat) (v : Json) : Option Json :=
  match v with
  | .string v =>
    let stripped := strip v
    if stripped.head? = some bracket then loads depth stripped
    else some (.array ((stripAll (split stripped)).map .string))
  | v => some v

def strOf : Json → Option String
  | .string s => ofPoints? s
  | _ => none

/-- What the type `list[str]` accepts. -/
def listOfStr : Json → Option (List String)
  | .array xs => xs.mapM strOf
  | _ => none

/-- `Settings().CORS_ORIGINS` by the environment variable. The source drops a null. -/
def corsOrigins (depth : Nat) (env : Option Str) : Except SettingsFailure (List String) :=
  match env with
  | none => .ok defaultCorsOrigins
  | some text =>
    match loads depth text with
    | none => .error .settingsError
    | some .null => .ok defaultCorsOrigins
    | some v =>
      match (assembleCorsOrigins depth v).bind listOfStr with
      | none => .error .validationError
      | some origins => .ok origins

end Settings

section Spellings

/-- Not empty, without commas or surrounding whitespace, and no bracket in front. -/
structure IsOrigin (o : String) : Prop where
  nonempty : points o ≠ []
  commaFree : comma ∉ points o
  bracketFree : (points o).head? ≠ some bracket
  stripped : strip (points o) = points o

/-- The origins joined by commas, with spaces around them. -/
inductive CommaSeparated : List String → Str → Prop where
  | one (o : String) : CommaSeparated [o] (points o)
  | more (o : String) (m n : Nat) {origins : List String} {text : Str}
      (h : CommaSeparated origins text) : CommaSeparated (o :: origins)
        (points o ++ (List.replicate m 32 ++ comma :: (List.replicate n 32 ++ text)))

inductive Spelling where
  | commaSeparated
  | jsonArray
  deriving DecidableEq, Repr

def Spelling.Writes (depth : Nat) : Spelling → List String → Str → Prop
  | .commaSeparated, origins, text => CommaSeparated origins text
  | .jsonArray, origins, text =>
    loads depth text = some (.array (origins.map fun o => .string (points o)))

theorem jsonArray_writes (depth : Nat) (origins : List String) :
    Spelling.jsonArray.Writes (depth + 1) origins (dumpsArray (origins.map points)) := by
  have hscalar : ∀ x ∈ origins.map points, ∀ c ∈ x, Scalar c := by
    intro x hx
    obtain ⟨o, _, rfl⟩ := List.mem_map.mp hx
    exact scalar_points o
  have hloads := loads_dumpsArray hscalar depth
  rwa [List.map_map] at hloads

end Spellings

section Validation
variable {depth : Nat} {origins : List String}

theorem mapM_strOf (origins : List String) :
    (origins.map fun o => Json.string (points o)).mapM strOf = some origins := by
  induction origins with
  | nil => rfl
  | cons o origins ih =>
    rw [List.map_cons, List.mapM_cons, ih]
    simp only [strOf, ofPoints?_points]
    rfl

theorem of_mapM_strOf {xs : List Json} (h : xs.mapM strOf = some origins) :
    xs = origins.map fun o => Json.string (points o) := by
  induction xs generalizing origins with
  | nil =>
    cases h
    rfl
  | cons x xs ih =>
    rw [List.mapM_cons] at h
    obtain ⟨o, ho, h⟩ := Option.bind_eq_some_iff.mp h
    obtain ⟨os, hos, h⟩ := Option.bind_eq_some_iff.mp h
    cases h
    cases x with
    | string s => rw [List.map_cons, points_ofPoints? ho, ← ih hos]
    | _ => cases ho

theorem listOfStr_eq_some {v : Json} :
    listOfStr v = some origins ↔ v = .array (origins.map fun o => .string (points o)) := by
  constructor
  · intro h
    cases v with
    | array xs => rw [of_mapM_strOf h]
    | _ => cases h
  · rintro rfl
    exact mapM_strOf origins

/-- Decoded, the list passes the validators. -/
theorem corsOrigins_of_array {text : Str}
    (h : loads depth text = some (.array (origins.map fun o => .string (points o)))) :
    corsOrigins depth (some text) = .ok origins := by
  unfold corsOrigins
  simp only [h, assembleCorsOrigins, Option.bind_some, listOfStr, mapM_strOf]

end Validation

section Weight
variable {depth : Nat} {origins : List String} {text : Str}

/-- Neither a comma nor whitespace. -/
def solid (c : Nat) : Bool := c != comma && !isWhite c

def weight (origins : List String) : Nat :=
  ((origins.map points).map (List.countP solid)).sum

theorem weight_commaSeparated (h : CommaSeparated origins text) :
    text.countP solid = weight origins := by
  induction h with
  | one o => exact (Nat.add_zero _).symm
  | more o m n h ih =>
    have hspaces : ∀ k, (List.replicate k 32).countP solid = 0 := fun k => by
      rw [List.countP_replicate]
      rfl
    have hcomma : ∀ s : Str, (comma :: s).countP solid = s.countP solid := fun s =>
      List.countP_cons_of_neg (by decide)
    rw [List.countP_append, List.countP_append, hspaces, hcomma, List.countP_append, hspaces, ih]
    unfold weight
    simp

/-- The text starts as its first origin does. -/
theorem head_commaSeparated (horigins : ∀ o ∈ origins, IsOrigin o)
    (h : CommaSeparated origins text) :
    ∃ c text', text = c :: text' ∧ isWhite c = false ∧ c ≠ bracket := by
  have hhead : ∀ o, IsOrigin o → ∃ c s, points o = c :: s ∧ isWhite c = false ∧ c ≠ bracket := by
    intro o ho
    cases hpoints : points o with
    | nil => exact absurd hpoints ho.nonempty
    | cons c s =>
      have hstripped := ho.stripped
      have hbracket := ho.bracketFree
      rw [hpoints] at hstripped hbracket
      refine ⟨c, s, rfl, isWhite_of_strip hstripped, ?_⟩
      rintro rfl
      exact hbracket rfl
  cases h with
  | one o =>
    exact hhead o (horigins o List.mem_cons_self)
  | more o m n h =>
    obtain ⟨c, s, hpoints, hc⟩ := hhead o (horigins o List.mem_cons_self)
    rw [hpoints, List.cons_append]
    exact ⟨c, _, rfl, hc⟩

/-- What the validator makes of a string is lighter than a text it was decoded from. -/
theorem weight_assemble {s : Str}
    (h : (assembleCorsOrigins depth (.string s)).bind listOfStr = some origins) :
    weight origins ≤ s.countP solid := by
  obtain ⟨v, hv, hlist⟩ := Option.bind_eq_some_iff.mp h
  obtain rfl := listOfStr_eq_some.mp hlist
  have hstrip := countP_strip_le (p := solid) s
  unfold assembleCorsOrigins at hv
  dsimp only at hv
  split at hv
  · rw [← Function.comp_def, ← List.map_map] at hv
    have harray := countP_loads_array (p := solid) (by decide) (by decide) hv
    exact harray.trans hstrip
  · have hsplit := countP_split_le (p := solid) (strip s)
    have hxs := Json.array.inj (Option.some.inj hv)
    rw [← Function.comp_def, ← List.map_map] at hxs
    have hsame := List.map_injective_iff.mpr (fun a b => Json.string.inj) hxs
    have hstripAll := countP_stripAll_le (p := solid) (split (strip s))
    rw [hsame] at hstripAll
    exact hstripAll.trans (hsplit.trans hstrip)

/-- Of the texts of one origin or more, none is decoded to the list. -/
theorem not_corsOrigins_commaSeparated (horigins : ∀ o ∈ origins, IsOrigin o)
    (h : CommaSeparated origins text) : corsOrigins depth (some text) ≠ .ok origins := by
  intro hok
  unfold corsOrigins at hok
  cases hloads : loads depth text with
  | none =>
    simp only [hloads] at hok
    cases hok
  | some v =>
    cases v with
    | null =>
      simp only [hloads] at hok
      obtain rfl := Except.ok.inj hok
      cases h
      cases hloads
    | array xs =>
      obtain ⟨c, text', rfl, hwhite, hbracket⟩ := head_commaSeparated horigins h
      obtain ⟨rest, hskip⟩ := bracket_of_loads hloads
      rw [skip_of_not_white hwhite] at hskip
      exact hbracket (List.cons.inj hskip).1
    | string s =>
      simp only [hloads] at hok
      have hstring := countP_loads_string (p := solid) (by decide) (by decide) hloads
      rw [weight_commaSeparated h] at hstring
      cases hassemble : (assembleCorsOrigins depth (.string s)).bind listOfStr with
      | none =>
        rw [hassemble] at hok
        cases hok
      | some origins' =>
        rw [hassemble] at hok
        obtain rfl := Except.ok.inj hok
        have hweight := weight_assemble hassemble
        omega
    | bool b =>
      simp only [hloads] at hok
      cases hok
    | number l =>
      simp only [hloads] at hok
      cases hok
    | object ms =>
      simp only [hloads] at hok
      cases hok

end Weight

/-- The environment variable sets the origins that it spells if it is a JSON array, and never
if they are separated by commas. -/
theorem cors_origins_iff (depth : Nat) (origins : List String)
    (horigins : ∀ o ∈ origins, IsOrigin o) (spelling : Spelling) (text : Str)
    (hwrites : spelling.Writes depth origins text) :
    corsOrigins depth (some text) = .ok origins ↔ spelling = .jsonArray := by
  cases spelling with
  | jsonArray => exact iff_of_true (corsOrigins_of_array hwrites) rfl
  | commaSeparated =>
    exact iff_of_false (not_corsOrigins_commaSeparated horigins hwrites) nofun

def devOrigins : List String := ["http://localhost:3000", "http://localhost:5173"]

theorem devOrigins_origins : ∀ o ∈ devOrigins, IsOrigin o := by
  intro o ho
  simp only [devOrigins, List.mem_cons, List.not_mem_nil, or_false] at ho
  rcases ho with rfl | rfl
  · exact ⟨by decide, by decide, by decide, by decide⟩
  · exact ⟨by decide, by decide, by decide, by decide⟩

theorem cors_origins_iff_dev :
    corsOrigins 1 (some (dumpsArray (devOrigins.map points))) = .ok devOrigins ↔
      Spelling.jsonArray = .jsonArray :=
  cors_origins_iff 1 devOrigins devOrigins_origins .jsonArray _ (jsonArray_writes 0 devOrigins)

/-- The notation of `docker-compose.yml`. -/
theorem comma_origins_rejected :
    CommaSeparated devOrigins (points "http://localhost:3000,http://localhost:5173") ∧
    corsOrigins 1 (some (points "http://localhost:3000,http://localhost:5173")) =
      .error .settingsError :=
  ⟨.more "http://localhost:3000" 0 0 (.one "http://localhost:5173"), rfl⟩

end BookingPlatform

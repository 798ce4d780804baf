import BookingPlatform.Strings.JsonDumps
import Mathlib.Data.List.Nodup

/-!
# Dictionaries with string keys

What `json.loads` makes of an object: every key once, in the order in which the keys were
first set.
-/

namespace Strings

set_option autoImplicit false

open Json

/-- `d[key] = x` on a list of items. -/
def setItem (key : Str) (x : Json) : List (Str × Json) → List (Str × Json)
  | [] => [(key, x)]
  | m :: ms => if m.1 = key then (key, x) :: ms else m :: setItem key x ms

theorem keys_setItem (key : Str) (x : Json) (ms : List (Str × Json)) :
    (setItem key x ms).map Prod.fst =
      if key ∈ ms.map Prod.fst then ms.map Prod.fst else ms.map Prod.fst ++ [key] := by
  induction ms with
  | nil => rfl
  | cons m ms ih =>
    unfold setItem
    by_cases hm : m.1 = key
    · rw [if_pos hm, if_pos (by simp [hm])]
      simp [hm]
    · have hkey : key ∈ (m :: ms).map Prod.fst ↔ key ∈ ms.map Prod.fst := by
        rw [List.map_cons, List.mem_cons]
        exact or_iff_right fun h => hm h.symm
      rw [if_neg hm, List.map_cons, ih]
      by_cases hmem : key ∈ ms.map Prod.fst
      · rw [if_pos hmem, if_pos (hkey.mpr hmem), List.map_cons]
      · rw [if_neg hmem, if_neg (mt hkey.mp hmem), List.map_cons, List.cons_append]

/-- A dictionary as it is iterated. -/
structure Dict where
  items : List (Str × Json)
  distinct : (items.map Prod.fst).Nodup

namespace Dict

def empty : Dict := ⟨[], List.nodup_nil⟩

theorem distinct_setItem (d : Dict) (key : Str) (x : Json) :
    ((setItem key x d.items).map Prod.fst).Nodup := by
  rw [keys_setItem]
  split
  · exact d.distinct
  · rename_i hkey
    refine List.Nodup.append d.distinct (List.nodup_singleton key) fun k hk hk' => ?_
    obtain rfl := List.mem_singleton.mp hk'
    exact hkey hk

def set (d : Dict) (key : Str) (x : Json) : Dict :=
  ⟨setItem key x d.items, d.distinct_setItem key x⟩

/-- `d.get(key)`. -/
def get? (d : Dict) (key : Str) : Option Json := (d.items.find? fun m => m.1 = key).map Prod.snd

/-- Of equal keys in a text the last value counts, in the place of the first. -/
def ofItems (ms : List (Str × Json)) : Dict := ms.foldl (fun d m => d.set m.1 m.2) empty

/-- `json.dumps(d)`. -/
def dumps (d : Dict) : Str := Json.dumps (.object d.items)

end Dict

/-- A value that is a dictionary. -/
def Json.dict? : Json → Option Dict
  | .object ms => some (.ofItems ms)
  | .null => none
  | .bool _ => none
  | .number _ => none
  | .string _ => none
  | .array _ => none

namespace Dict
variable {d : Dict} {key key' : Str} {x : Json}

theorem find?_setItem (key key' : Str) (x : Json) (ms : List (Str × Json)) :
    (setItem key x ms).find? (fun m => m.1 = key') =
      if key = key' then some (key, x) else ms.find? fun m => m.1 = key' := by
  induction ms with
  | nil => by_cases hkey : key = key' <;> simp [setItem, hkey]
  | cons m ms ih =>
    unfold setItem
    by_cases hm : m.1 = key
    · rw [if_pos hm]
      by_cases hkey : key = key'
      · rw [if_pos hkey, List.find?_cons_of_pos (by simp [hkey])]
      · rw [if_neg hkey, List.find?_cons_of_neg (by simp [hkey]),
          List.find?_cons_of_neg (by simp [hm, hkey])]
    · rw [if_neg hm]
      by_cases hm' : m.1 = key'
      · have hkey : key ≠ key' := fun h => hm (hm'.trans h.symm)
        rw [if_neg hkey, List.find?_cons_of_pos (by simp [hm']),
          List.find?_cons_of_pos (by simp [hm'])]
      · rw [List.find?_cons_of_neg (by simp [hm']), ih, List.find?_cons_of_neg (by simp [hm'])]

@[simp] theorem get?_empty (key : Str) : empty.get? key = none := rfl

@[simp] theorem get?_set (d : Dict) (key key' : Str) (x : Json) :
    (d.set key x).get? key' = if key = key' then some x else d.get? key' := by
  unfold get? set
  rw [find?_setItem]
  split <;> rfl

theorem mem_setItem {ms : List (Str × Json)} {m : Str × Json} (h : m ∈ setItem key x ms) :
    m ∈ ms ∨ m = (key, x) := by
  induction ms with
  | nil => exact .inr (List.mem_singleton.mp h)
  | cons m' ms ih =>
    unfold setItem at h
    split at h
    · rcases List.mem_cons.mp h with rfl | h
      · exact .inr rfl
      · exact .inl (List.mem_cons_of_mem m' h)
    · rcases List.mem_cons.mp h with rfl | h
      · exact .inl List.mem_cons_self
      · exact (ih h).imp_left (List.mem_cons_of_mem m')

/-- A key that is not there is set at the end. -/
theorem setItem_of_not_mem {ms : List (Str × Json)} (h : key ∉ ms.map Prod.fst) :
    setItem key x ms = ms ++ [(key, x)] := by
  induction ms with
  | nil => rfl
  | cons m ms ih =>
    rw [List.map_cons, List.mem_cons, not_or] at h
    rw [setItem, if_neg (Ne.symm h.1), ih h.2, List.cons_append]

theorem items_foldl (ms : List (Str × Json)) (d : Dict)
    (h : ((d.items ++ ms).map Prod.fst).Nodup) :
    (ms.foldl (fun d m => d.set m.1 m.2) d).items = d.items ++ ms := by
  induction ms generalizing d with
  | nil => rw [List.foldl_nil, List.append_nil]
  | cons m ms ih =>
    have hnew : m.1 ∉ d.items.map Prod.fst := by
      rw [List.map_append, List.map_cons] at h
      exact fun hm => List.disjoint_of_nodup_append h hm List.mem_cons_self
    have hset : (d.set m.1 m.2).items = d.items ++ [m] := setItem_of_not_mem hnew
    rw [List.foldl_cons, ih, hset, List.append_assoc, List.singleton_append]
    rw [hset, List.append_assoc, List.singleton_append]
    exact h

/-- A dictionary of items with different keys has just these. -/
theorem items_ofItems {ms : List (Str × Json)} (h : (ms.map Prod.fst).Nodup) :
    (ofItems ms).items = ms := items_foldl ms empty h

/-- A dictionary is made of its own items. -/
theorem ofItems_items (d : Dict) : ofItems d.items = d := by
  have hitems := items_ofItems d.distinct
  cases d
  unfold ofItems at hitems ⊢
  generalize List.foldl _ _ _ = d' at hitems ⊢
  cases d'
  cases hitems
  rfl

/-- What can be written is read back as the same dictionary. -/
theorem loads_dumps {depth : Nat} (h : Writable depth (.object d.items)) :
    (loads depth d.dumps).bind dict? = some d := by
  unfold dumps
  rw [Json.loads_dumps h]
  exact congrArg some d.ofItems_items

/-- The items of a dictionary that can be written. -/
def Writable (depth : Nat) (d : Dict) : Prop :=
  ∀ m ∈ d.items, (∀ c ∈ m.1, Scalar c) ∧ Json.Writable depth m.2

theorem Writable.set {depth : Nat} (h : d.Writable depth) (hkey : ∀ c ∈ key, Scalar c)
    (hx : Json.Writable depth x) : (d.set key x).Writable depth := by
  intro m hm
  rcases mem_setItem hm with hm | rfl
  · exact h m hm
  · exact ⟨hkey, hx⟩

theorem Writable.object {depth : Nat} (h : d.Writable depth) :
    Json.Writable (depth + 1) (.object d.items) :=
  .object (fun m hm => (h m hm).1) fun m hm => (h m hm).2

end Dict

end Strings

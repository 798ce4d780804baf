import Mathlib.Data.List.Nodup
import Mathlib.Data.List.Sort

/-!
# Pages of a sorted table

A client that asks for page after page until one is empty. Nothing here says what the
rows are.
-/

namespace Pages

set_option autoImplicit false

variable {α κ : Type}

/-- What the client has in hand, from `skip` on, when the first empty page ends it;
`fetch skip page` says that asking with this offset returns this page. -/
inductive Collected (fetch : Nat → List α → Prop) (limit : Nat) : Nat → List α → Prop
  | stop {skip : Nat} (h : fetch skip []) : Collected fetch limit skip []
  | more {skip : Nat} {page rest : List α} (h : fetch skip page) (hne : page ≠ [])
      (hrest : Collected fetch limit (skip + limit) rest) :
      Collected fetch limit skip (page ++ rest)

section Slices
variable {fetch : Nat → List α → Prop} {limit : Nat} {rows : List α}

theorem collected_drop (hlimit : 1 ≤ limit)
    (hfetch : ∀ skip page, fetch skip page ↔ page = (rows.drop skip).take limit) (skip : Nat) :
    Collected fetch limit skip (rows.drop skip) := by
  -- One page fewer is left each time, until the offset is past the end.
  induction hn : rows.length - skip using Nat.strong_induction_on generalizing skip with
  | _ n ih =>
    subst hn
    by_cases hend : rows.length ≤ skip
    · rw [List.drop_eq_nil_of_le hend]
      refine .stop ((hfetch skip []).mpr ?_)
      rw [List.drop_eq_nil_of_le hend, List.take_nil]
    · have hrest := ih (rows.length - (skip + limit)) (by omega) (skip + limit) rfl
      have hpage : (rows.drop skip).take limit ≠ [] := by
        intro hnil
        have hlength := congrArg List.length hnil
        rw [List.length_take, List.length_drop, List.length_nil] at hlength
        omega
      have hmore := Collected.more ((hfetch skip _).mpr rfl) hpage hrest
      rwa [← List.drop_drop, List.take_append_drop] at hmore

/-- Slices of a table, collected page by page, are the whole of it. -/
theorem collected_iff (hlimit : 1 ≤ limit)
    (hfetch : ∀ skip page, fetch skip page ↔ page = (rows.drop skip).take limit)
    (skip : Nat) (xs : List α) : Collected fetch limit skip xs ↔ xs = rows.drop skip := by
  constructor
  · intro h
    induction h with
    | @stop skip h =>
      have hpage := (hfetch skip []).mp h
      have hlength := congrArg List.length hpage
      rw [List.length_take, List.length_drop, List.length_nil] at hlength
      rw [List.drop_eq_nil_of_le (by omega)]
    | more h hne _ ih =>
      rw [(hfetch _ _).mp h, ih, ← List.drop_drop, List.take_append_drop]
  · rintro rfl
    exact collected_drop hlimit hfetch skip

end Slices

/-! A client that goes through the pages while the table grows. -/

section Growing
variable [DecidableEq κ] {l l' : List κ} {x : κ}

/-- What comes in puts nobody forward. -/
theorem idxOf_le_of_sublist (h : l.Sublist l') (hnodup : l'.Nodup) (hx : x ∈ l) :
    l.idxOf x ≤ l'.idxOf x := by
  induction h with
  | slnil => exact Nat.le_refl _
  | @cons l l' a hsub ih =>
    obtain ⟨ha, hnodup⟩ := List.nodup_cons.mp hnodup
    have hne : a ≠ x := by
      rintro rfl
      exact ha (hsub.subset hx)
    rw [List.idxOf_cons_ne l' hne]
    exact Nat.le_succ_of_le (ih hnodup hx)
  | @cons_cons l l' a hsub ih =>
    obtain ⟨ha, hnodup⟩ := List.nodup_cons.mp hnodup
    by_cases hax : a = x
    · subst hax
      rw [List.idxOf_cons_self]
      exact Nat.zero_le _
    · rw [List.idxOf_cons_ne l hax, List.idxOf_cons_ne l' hax]
      rcases List.mem_cons.mp hx with rfl | hx
      · exact absurd rfl hax
      · exact Nat.succ_le_succ (ih hnodup hx)

theorem mem_slice {skip limit : Nat} (hx : x ∈ l) (hskip : skip ≤ l.idxOf x)
    (hlimit : l.idxOf x < skip + limit) : x ∈ (l.drop skip).take limit := by
  have hlength := List.idxOf_lt_length_of_mem hx
  refine List.mem_iff_getElem.mpr ⟨l.idxOf x - skip, ?_, ?_⟩
  · rw [List.length_take, List.length_drop]
    omega
  · rw [List.getElem_take, List.getElem_drop]
    simp [Nat.add_sub_cancel' hskip]

/-- Who asks for one page after the other, up to an empty one, is shown everything that was
there at the first, as long as the table only grows. -/
theorem seen_while_growing (tables : Nat → List κ) {limit count : Nat} (hlimit : 1 ≤ limit)
    (hnodup : ∀ k, (tables k).Nodup) (hgrows : ∀ k, (tables k).Sublist (tables (k + 1)))
    (hend : ((tables count).drop (count * limit)).take limit = []) (hx : x ∈ tables 0) :
    ∃ k < count, x ∈ ((tables k).drop (k * limit)).take limit := by
  have hmem : ∀ k, x ∈ tables k := by
    intro k
    induction k with
    | zero => exact hx
    | succ k ih => exact (hgrows k).subset ih
  by_contra hunseen
  -- Not being on the pages so far, the row is behind them all.
  have hbehind : ∀ k ≤ count, k * limit ≤ (tables k).idxOf x := by
    intro k
    induction k with
    | zero => exact fun _ => by rw [Nat.zero_mul]; exact Nat.zero_le _
    | succ k ih =>
      intro hk
      have hshown : ¬ (tables k).idxOf x < k * limit + limit := fun hlt =>
        hunseen ⟨k, hk, mem_slice (hmem k) (ih (Nat.le_of_succ_le hk)) hlt⟩
      have hmoves := idxOf_le_of_sublist (hgrows k) (hnodup (k + 1)) (hmem k)
      rw [Nat.succ_mul]
      omega
  have hlength := congrArg List.length hend
  rw [List.length_take, List.length_drop, List.length_nil] at hlength
  have hlast := List.idxOf_lt_length_of_mem (hmem count)
  have := hbehind count (Nat.le_refl _)
  omega

/-- The same of rows that are sorted by their keys, and may change but for these. -/
theorem rows_seen_while_growing (tables : Nat → List α) (key : α → κ) (lt : κ → κ → Prop)
    [Std.Irrefl lt] [Std.Antisymm lt] {limit count : Nat} (hlimit : 1 ≤ limit)
    (hsorted : ∀ k, (tables k).Pairwise fun a b => lt (key a) (key b))
    (hgrows : ∀ k, ∀ a ∈ tables k, ∃ b ∈ tables (k + 1), key b = key a)
    (hend : ((tables count).drop (count * limit)).take limit = []) {a : α}
    (ha : a ∈ tables 0) :
    ∃ k < count, ∃ b ∈ ((tables k).drop (k * limit)).take limit, key b = key a := by
  have hkeys : ∀ k, ((tables k).map key).Pairwise lt := fun k =>
    List.pairwise_map.mpr (hsorted k)
  have hsub : ∀ k, ((tables k).map key).Sublist ((tables (k + 1)).map key) := by
    intro k
    refine List.sublist_of_subperm_of_pairwise (List.subperm_of_subset (hkeys k).nodup ?_)
      (hkeys k) (hkeys (k + 1))
    intro x hx
    obtain ⟨a, ha, rfl⟩ := List.mem_map.mp hx
    obtain ⟨b, hb, hkey⟩ := hgrows k a ha
    exact List.mem_map.mpr ⟨b, hb, hkey⟩
  obtain ⟨k, hk, hx⟩ := seen_while_growing (fun k => (tables k).map key)
    hlimit (fun k => (hkeys k).nodup) hsub (by rw [← List.map_drop, ← List.map_take, hend]; rfl)
    (List.mem_map_of_mem ha)
  rw [← List.map_drop, ← List.map_take] at hx
  obtain ⟨b, hb, hkey⟩ := List.mem_map.mp hx
  exact ⟨k, hk, b, hb, hkey⟩

end Growing

/-- Rows with distinct keys, sorted by an order that only ties equal keys, are strictly
sorted. -/
theorem strictly_sorted {le lt : α → α → Prop} [DecidableRel le] [Std.Total le]
    [IsTrans α le] {k : α → κ} (hlt : ∀ a b, le a b → k a ≠ k b → lt a b) {rows : List α}
    (hkey : (rows.map k).Nodup) (f : α → Bool) :
    ((rows.filter f).insertionSort le).Pairwise lt := by
  have hperm := (rows.filter f).perm_insertionSort le
  have hfiltered : ((rows.filter f).map k).Nodup := hkey.sublist (List.filter_sublist.map k)
  have hdistinct : ((rows.filter f).insertionSort le).Pairwise fun a b => k a ≠ k b :=
    List.pairwise_map.mp ((hperm.map k).nodup_iff.mpr hfiltered)
  have hsorted := List.pairwise_insertionSort le (rows.filter f)
  exact hsorted.imp₂ (fun a b => hlt a b) hdistinct

end Pages

import Mathlib.Data.List.Forall2
import Mathlib.Data.Option.Basic

/-!
# Rows behind a veil

Of some rows an observer knows everything, of the others an outline. Two tables agree for the
observer when they hold the same known rows, and rows of the same outline in the other places.
Which rows are hidden is fixed by their keys.
-/

namespace Rows

set_option autoImplicit false

variable {α κ β γ : Type}

theorem optionRel_imp {R S : α → β → Prop} {o : Option α} {o' : Option β}
    (h : Option.Rel R o o') (hRS : ∀ a b, R a b → S a b) : Option.Rel S o o' := by
  cases h with
  | none => exact .none
  | some hab => exact .some (hRS _ _ hab)

/-- What an observer knows of the rows of a table. The outline of a row shows its key. -/
structure Veil (α κ β : Type) where
  key : α → κ
  known : α → Prop
  outline : α → β
  keyed : ∀ {a b}, outline a = outline b → key a = key b

namespace Veil
variable (v : Veil α κ β)

/-- A row as the observer sees it. -/
def seen [DecidablePred v.known] (a : α) : α ⊕ β := if v.known a then .inl a else .inr (v.outline a)

/-- The same row under a key that is not hidden, or two of one outline that are. -/
def Same (hidden : κ → Prop) (a b : α) : Prop :=
  (¬ hidden (v.key a) ∧ a = b) ∨
    (hidden (v.key a) ∧ ¬ v.known a ∧ ¬ v.known b ∧ v.outline a = v.outline b)

/-- Row by row. -/
def Agree (hidden : κ → Prop) (xs ys : List α) : Prop := List.Forall₂ (v.Same hidden) xs ys

variable {v} {hidden : κ → Prop} {a b : α} {xs ys : List α}

theorem Same.outline (h : v.Same hidden a b) : v.outline a = v.outline b := by
  rcases h with ⟨_, rfl⟩ | ⟨_, _, _, h⟩
  · rfl
  · exact h

theorem Same.key (h : v.Same hidden a b) : v.key a = v.key b := v.keyed h.outline

theorem Same.symm (h : v.Same hidden a b) : v.Same hidden b a := by
  have hkey := h.key
  rcases h with ⟨hopen, rfl⟩ | ⟨hhidden, ha, hb, h⟩
  · exact .inl ⟨hopen, rfl⟩
  · exact .inr ⟨hkey ▸ hhidden, hb, ha, h.symm⟩

theorem Same.eq (h : v.Same hidden a b) (hopen : ¬ hidden (v.key a)) : a = b := by
  rcases h with ⟨_, h⟩ | ⟨hhidden, _⟩
  · exact h
  · exact absurd hhidden hopen

theorem Same.known_iff (h : v.Same hidden a b) : v.known a ↔ v.known b := by
  rcases h with ⟨_, rfl⟩ | ⟨_, ha, hb, _⟩
  · exact Iff.rfl
  · exact iff_of_false ha hb

theorem Same.eq_of_known (h : v.Same hidden a b) (ha : v.known a) : a = b := by
  rcases h with ⟨_, h⟩ | ⟨_, hunknown, _⟩
  · exact h
  · exact absurd ha hunknown

theorem Agree.symm (h : v.Agree hidden xs ys) : v.Agree hidden ys xs := by
  unfold Agree at h ⊢
  induction h with
  | nil => exact .nil
  | cons hab _ ih => exact .cons hab.symm ih

section Looking
variable (h : v.Agree hidden xs ys)
include h

/-- Every row has its counterpart. -/
theorem Agree.forth (ha : a ∈ xs) : ∃ b ∈ ys, v.Same hidden a b := by
  unfold Agree at h
  induction h with
  | nil => cases ha
  | cons hab _ ih =>
    rcases List.mem_cons.mp ha with rfl | ha
    · exact ⟨_, List.mem_cons_self, hab⟩
    · obtain ⟨b, hb, hsame⟩ := ih ha
      exact ⟨b, List.mem_cons_of_mem _ hb, hsame⟩

theorem Agree.exists_iff {P : α → Prop} (hP : ∀ a b, v.outline a = v.outline b → P a → P b) :
    (∃ a ∈ xs, P a) ↔ ∃ b ∈ ys, P b := by
  constructor
  · intro ⟨a, ha, hPa⟩
    obtain ⟨b, hb, hsame⟩ := h.forth ha
    exact ⟨b, hb, hP a b hsame.outline hPa⟩
  · intro ⟨b, hb, hPb⟩
    obtain ⟨a, ha, hsame⟩ := h.symm.forth hb
    exact ⟨a, ha, hP b a hsame.outline hPb⟩

/-- A key is taken on both sides or on neither. -/
theorem Agree.exists_key (k : κ) : (∃ a ∈ xs, v.key a = k) ↔ ∃ b ∈ ys, v.key b = k :=
  h.exists_iff fun _ _ hab ha => (v.keyed hab).symm.trans ha

theorem Agree.mem (ha : a ∈ xs) (hopen : ¬ hidden (v.key a)) : a ∈ ys := by
  obtain ⟨b, hb, hsame⟩ := h.forth ha
  exact hsame.eq hopen ▸ hb

/-- What shows in the outlines is the same list. -/
theorem Agree.map_eq {g : α → γ} (hg : ∀ a b, v.outline a = v.outline b → g a = g b) :
    xs.map g = ys.map g := by
  unfold Agree at h
  induction h with
  | nil => rfl
  | cons hab _ ih => rw [List.map_cons, List.map_cons, ih, hg _ _ hab.outline]

/-- A selection of known rows is the same list. -/
theorem Agree.filter_eq {p : α → Bool} (hp : ∀ a, p a = true → v.known a) :
    xs.filter p = ys.filter p := by
  unfold Agree at h
  induction h with
  | nil => rfl
  | @cons a b _ _ hab _ ih =>
    by_cases ha : p a = true
    · obtain rfl := hab.eq_of_known (hp a ha)
      rw [List.filter_cons_of_pos ha, List.filter_cons_of_pos ha, ih]
    · have hb : ¬ p b = true := fun hb => ha (by
        obtain rfl := hab.symm.eq_of_known (hp b hb)
        exact hb)
      rw [List.filter_cons_of_neg ha, List.filter_cons_of_neg hb, ih]

/-- A search that goes by outlines finds the same place. -/
theorem Agree.find? {p : α → Bool} (hp : ∀ a b, v.outline a = v.outline b → p a = p b) :
    Option.Rel (v.Same hidden) (xs.find? p) (ys.find? p) := by
  unfold Agree at h
  induction h with
  | nil => exact .none
  | @cons a b _ _ hab _ ih =>
    have hpab := hp a b hab.outline
    by_cases ha : p a = true
    · rw [List.find?_cons_of_pos ha, List.find?_cons_of_pos (hpab ▸ ha)]
      exact .some hab
    · rw [List.find?_cons_of_neg ha, List.find?_cons_of_neg (hpab ▸ ha)]
      exact ih

/-- Under a key that is not hidden both sides hold the same row, if any. -/
theorem Agree.find?_open [DecidableEq κ] {k : κ} (hopen : ¬ hidden k) :
    xs.find? (fun a => v.key a = k) = ys.find? (fun a => v.key a = k) := by
  have hrel := h.find? (p := fun a => v.key a = k) fun a b hab => by rw [v.keyed hab]
  generalize ys.find? (fun a => decide (v.key a = k)) = y at hrel ⊢
  cases hx : xs.find? (fun a => v.key a = k) with
  | none =>
    rw [hx] at hrel
    cases hrel
    rfl
  | some a =>
    have hk : v.key a = k := by simpa using List.find?_some hx
    rw [hx] at hrel
    cases hrel with
    | some hab => rw [hab.eq (hk ▸ hopen)]

/-- Under a hidden key both sides hold a row that is not known, if any. -/
theorem Agree.find?_hidden [DecidableEq κ] {k : κ} (hhidden : hidden k) :
    Option.Rel (fun a b => ¬ v.known a ∧ ¬ v.known b) (xs.find? fun a => v.key a = k)
      (ys.find? fun a => v.key a = k) := by
  have hrel := h.find? (p := fun a => v.key a = k) fun a b hab => by rw [v.keyed hab]
  generalize ys.find? (fun a => decide (v.key a = k)) = y at hrel ⊢
  cases hx : xs.find? (fun a => v.key a = k) with
  | none =>
    rw [hx] at hrel
    cases hrel
    exact .none
  | some a =>
    have hk : v.key a = k := by simpa using List.find?_some hx
    rw [hx] at hrel
    cases hrel with
    | some hab =>
      rcases hab with ⟨hopen, _⟩ | ⟨_, ha, hb, _⟩
      · exact absurd (hk ▸ hhidden) hopen
      · exact .some ⟨ha, hb⟩

end Looking

section Changing
variable (h : v.Agree hidden xs ys)
include h

theorem Agree.append (hopen : ¬ hidden (v.key a)) : v.Agree hidden (xs ++ [a]) (ys ++ [a]) := by
  unfold Agree at h ⊢
  induction h with
  | nil => exact .cons (.inl ⟨hopen, rfl⟩) .nil
  | cons hab _ ih => exact .cons hab ih

/-- A change that leaves keys and hidden rows alone. -/
theorem Agree.map {f : α → α} (hkey : ∀ a, v.key (f a) = v.key a)
    (hf : ∀ a, hidden (v.key a) → ¬ v.known a → f a = a) :
    v.Agree hidden (xs.map f) (ys.map f) := by
  unfold Agree at h ⊢
  induction h with
  | nil => exact .nil
  | cons hab _ ih =>
    refine .cons ?_ ih
    have hab' := hab
    rcases hab with ⟨hopen, rfl⟩ | ⟨hhidden, ha, hb, _⟩
    · exact .inl ⟨by rwa [hkey], rfl⟩
    · rw [hf _ hhidden ha, hf _ (hab'.key ▸ hhidden) hb]
      exact hab'

/-- A removal by keys. -/
theorem Agree.filter {p : α → Bool} (hp : ∀ a b, v.outline a = v.outline b → p a = p b) :
    v.Agree hidden (xs.filter p) (ys.filter p) := by
  unfold Agree at h ⊢
  induction h with
  | nil => exact .nil
  | @cons a b _ _ hab _ ih =>
    have hpab := hp a b hab.outline
    by_cases ha : p a = true
    · rw [List.filter_cons_of_pos ha, List.filter_cons_of_pos (hpab ▸ ha)]
      exact .cons hab ih
    · rw [List.filter_cons_of_neg ha, List.filter_cons_of_neg (hpab ▸ ha)]
      exact ih

end Changing

section Seeing
variable [DecidablePred v.known]

theorem same_of_seen (h : v.seen a = v.seen b) (hhidden : hidden (v.key a) ↔ ¬ v.known a) :
    v.Same hidden a b := by
  unfold seen at h
  by_cases ha : v.known a
  · rw [if_pos ha] at h
    refine .inl ⟨fun hh => hhidden.mp hh ha, ?_⟩
    split at h
    · exact Sum.inl.inj h
    · cases h
  · rw [if_neg ha] at h
    split at h
    · cases h
    · exact .inr ⟨hhidden.mpr ha, ha, ‹_›, Sum.inr.inj h⟩

theorem Same.seen (h : v.Same hidden a b) : v.seen a = v.seen b := by
  unfold Veil.seen
  rcases h with ⟨_, rfl⟩ | ⟨_, ha, hb, h⟩
  · rfl
  · rw [if_neg ha, if_neg hb, h]

theorem Agree.seen (h : v.Agree hidden xs ys) : xs.map v.seen = ys.map v.seen := by
  unfold Agree at h
  induction h with
  | nil => rfl
  | cons hab _ ih => rw [List.map_cons, List.map_cons, ih, hab.seen]

/-- Tables that look the same agree, with the rows hidden that are not known. -/
theorem agree_of_seen (h : xs.map v.seen = ys.map v.seen)
    (hhidden : ∀ a ∈ xs, hidden (v.key a) ↔ ¬ v.known a) : v.Agree hidden xs ys := by
  unfold Agree
  induction xs generalizing ys with
  | nil =>
    obtain rfl := List.map_eq_nil_iff.mp h.symm
    exact .nil
  | cons a xs ih =>
    cases ys with
    | nil => cases h
    | cons b ys =>
      obtain ⟨hab, hrest⟩ := List.cons.inj h
      exact .cons (same_of_seen hab (hhidden a List.mem_cons_self))
        (ih hrest fun x hx => hhidden x (List.mem_cons_of_mem a hx))

end Seeing

end Veil

end Rows

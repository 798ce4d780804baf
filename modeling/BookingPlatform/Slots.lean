import Mathlib.Data.List.Pairwise
import Mathlib.Logic.Function.Basic
import Mathlib.Order.Interval.Set.Basic

/-!
# Half-open slots

Non-empty half-open stretches of a linear order, and tables of slots in which no two
holders share an instant. Nothing here says who holds them.
-/

namespace Slots

set_option autoImplicit false

variable {T κ α : Type} [LinearOrder T]

/-- The instants from `first` on and before `last`. -/
structure Slot (T : Type) [LinearOrder T] where
  first : T
  last : T
  proper : first < last

namespace Slot

def instants (a : Slot T) : Set T := Set.Ico a.first a.last

def Overlaps (a b : Slot T) : Prop := a.first < b.last ∧ b.first < a.last

theorem Overlaps.symm {a b : Slot T} (h : a.Overlaps b) : b.Overlaps a := ⟨h.2, h.1⟩

theorem overlaps_iff_shared {a b : Slot T} :
    a.Overlaps b ↔ ∃ t, t ∈ a.instants ∧ t ∈ b.instants := by
  constructor
  · intro h
    refine ⟨max a.first b.first, ⟨le_max_left _ _, ?_⟩, le_max_right _ _, ?_⟩
    · exact max_lt a.proper h.2
    · exact max_lt h.1 b.proper
  · rintro ⟨t, ⟨ha, ha'⟩, hb, hb'⟩
    exact ⟨ha.trans_lt hb', hb.trans_lt ha'⟩

/-- Of two slots that share no instant, the one that starts first ends first. -/
theorem last_le_first {a b : Slot T} (hstart : a.first ≤ b.first) (h : ¬ a.Overlaps b) :
    a.last ≤ b.first := by
  by_contra hlt
  exact h ⟨hstart.trans_lt b.proper, not_le.mp hlt⟩

/-- In the order of their starts, rows with disjoint slots follow one another. -/
theorem isChain_of_sorted {first last : α → T} {rows : List α}
    (hproper : ∀ x ∈ rows, first x < last x)
    (hsorted : rows.Pairwise fun x y => first x ≤ first y)
    (hapart : rows.Pairwise fun x y => ¬ (first x < last y ∧ first y < last x)) :
    rows.IsChain fun x y => last x ≤ first y := by
  refine List.Pairwise.isChain ?_
  refine (hsorted.and hapart).imp_of_mem fun {x y} hx hy h => ?_
  exact last_le_first (a := ⟨first x, last x, hproper x hx⟩)
    (b := ⟨first y, last y, hproper y hy⟩) h.1 h.2

end Slot

/-- No two holders share an instant. -/
def Apart (held : κ → Option (Slot T)) : Prop :=
  ∀ i j a b, held i = some a → held j = some b → i ≠ j → ¬ a.Overlaps b

/-- `k` may hold `a`: whatever the others hold is disjoint from it. -/
def Free (held : κ → Option (Slot T)) (k : κ) (a : Slot T) : Prop :=
  ∀ j b, held j = some b → j ≠ k → ¬ a.Overlaps b

variable {held : κ → Option (Slot T)}

theorem Apart.free (h : Apart held) {k : κ} {a : Slot T} (hk : held k = some a) :
    Free held k a :=
  fun j b hj hne => h k j a b hk hj hne.symm

variable [DecidableEq κ]

/-- The one rule of a calendar: a holder may be given any slot that is free for it,
or none at all. -/
theorem Apart.update (h : Apart held) {k : κ} {o : Option (Slot T)}
    (hfree : ∀ a, o = some a → Free held k a) : Apart (Function.update held k o) := by
  intro i j a b hi hj hij
  by_cases hik : i = k
  · subst i
    rw [Function.update_self] at hi
    rw [Function.update_of_ne hij.symm] at hj
    exact hfree a hi j b hj hij.symm
  · rw [Function.update_of_ne hik] at hi
    by_cases hjk : j = k
    · subst j
      rw [Function.update_self] at hj
      exact fun hab => hfree b hj i a hi hik hab.symm
    · rw [Function.update_of_ne hjk] at hj
      exact h i j a b hi hj hij

end Slots

import BookingPlatform.Listing
import Mathlib.Data.String.Basic

/-!
# Searching for a provider

The search text becomes a pattern, and its special characters with it. A text that has none
is looked for as it is; with any other text there are providers who are found without
having it in their name or email.
-/

namespace BookingPlatform

set_option autoImplicit false

open Transact Transact.Program Pages Strings

section Order
variable {collation : LinearOrder String}

instance : Std.Total (User.listedBefore collation) where
  total a b := by
    unfold User.listedBefore
    rcases @lt_trichotomy _ collation a.name b.name with h | h | h
    · exact .inl (.inl h)
    · rcases BitVec.le_total a.id b.id with hid | hid
      · exact .inl (.inr ⟨h, hid⟩)
      · exact .inr (.inr ⟨h.symm, hid⟩)
    · exact .inr (.inl h)

instance : IsTrans User (User.listedBefore collation) where
  trans a b c := by
    unfold User.listedBefore
    rintro (hab | ⟨hab, hid⟩) (hbc | ⟨hbc, hid'⟩)
    · exact .inl (@lt_trans _ collation.toPreorder _ _ _ hab hbc)
    · exact .inl (hbc ▸ hab)
    · exact .inl (hab ▸ hbc)
    · exact .inr ⟨hab.trans hbc, BitVec.le_trans hid hid'⟩

/-- Strictly increasing in `(name, id)`. -/
def User.Before (collation : LinearOrder String) (a b : User) : Prop :=
  collation.lt a.name b.name ∨ (a.name = b.name ∧ a.id < b.id)

theorem User.before_of_listed {a b : User} (h : a.listedBefore collation b) (hne : a.id ≠ b.id) :
    a.Before collation b := h.imp_right fun ⟨hname, hid⟩ => ⟨hname, BitVec.lt_of_le_ne hid hne⟩

end Order

section Search
variable (amb : Ambient) (locale : Locale)

/-- All pages of `list_providers`, one after the other. -/
def ListsProviders (s : Store) (search : Option String) (limit : Nat) (all : List User) : Prop :=
  Collected (fun skip page => outcome s (listProviders amb locale search skip limit) = .ok page)
    limit 0 all

/-- The name or the email contains the text, ignoring case. -/
def User.Contains (u : User) (q : String) : Prop :=
  Strings.Contains locale.fold u.name.toList q.toList ∨
    Strings.Contains locale.fold u.email.toList q.toList

/-- On every store the pages are the providers that contain the trimmed search text, each
once and in order. -/
def SearchesLiterally (search : String) : Prop :=
  ∀ (s : Store) (limit : Nat), 1 ≤ limit → ∃ all,
    (∀ xs, ListsProviders amb locale s (some search) limit xs ↔ xs = all) ∧
    (∀ u, u ∈ all ↔ u ∈ s.users ∧ u.role = .provider ∧
      u.Contains locale (amb.strip search)) ∧
    all.Pairwise (User.Before locale.collation)

variable {amb locale} {s : Store} {limit : Nat} {search : String}

theorem listsProviders_iff (hlimit : 1 ≤ limit) (search : Option String) (all : List User) :
    ListsProviders amb locale s search limit all ↔
      all = (s.users.filter fun u =>
        u.role = .provider && u.searchedBy amb locale search).insertionSort
          (User.listedBefore locale.collation) := by
  refine collected_iff hlimit (fun skip page => ⟨fun h => ?_, fun h => ?_⟩) 0 all
  · exact (Except.ok.inj h).symm
  · exact congrArg Except.ok h.symm

section Literal
variable (hsearch : amb.strip search ≠ "")
include hsearch

theorem searchedBy_iff (u : User) : u.searchedBy amb locale (some search) = true ↔
    ilike locale.fold u.name.toList ('%' :: ((amb.strip search).toList ++ ['%'])) = true ∨
      ilike locale.fold u.email.toList ('%' :: ((amb.strip search).toList ++ ['%'])) = true := by
  unfold User.searchedBy
  simp only [if_neg hsearch, Bool.or_eq_true]

theorem searchesLiterally_of_plain (hplain : ∀ c ∈ (amb.strip search).toList, ¬ IsSpecial c) :
    SearchesLiterally amb locale search := by
  intro s limit hlimit
  refine ⟨_, listsProviders_iff hlimit (some search), fun u => ?_, ?_⟩
  · rw [List.mem_insertionSort, List.mem_filter, Bool.and_eq_true, decide_eq_true_iff,
      searchedBy_iff hsearch, ilike_literal hplain, ilike_literal hplain]
    exact Iff.rfl
  · exact strictly_sorted (k := User.id) (fun _ _ => User.before_of_listed) s.sound.usersKey _

/-- A provider whose name is matched by the search pattern, and whose email has no special
character. -/
def wrongProvider (q : String) : User where
  id := 1
  name := String.ofList ('x' :: denoted q.toList)
  email := "x@example.com"
  role := .provider
  passwordHash := ""

omit hsearch in
theorem constraints_single (u : User) : Constraints ⟨[u], [], [], []⟩ := by
  constructor <;> simp

theorem not_searchesLiterally (hspecial : ∃ c ∈ (amb.strip search).toList, IsSpecial c) :
    ¬ SearchesLiterally amb locale search := by
  intro h
  obtain ⟨hmatches, hname⟩ := ilike_denoted locale.caseless hspecial ['x'] rfl
  have hemail :
      ¬ Strings.Contains locale.fold "x@example.com".toList (amb.strip search).toList := by
    intro hcontains
    have hle := specials_of_contains locale.caseless hcontains
    have hless := (specials_denoted (amb.strip search).toList).2 hspecial
    have hzero : specials "x@example.com".toList = 0 := by decide
    omega
  obtain ⟨all, hall, hmem, _⟩ :=
    h ⟨_, constraints_single (wrongProvider (amb.strip search))⟩ 1 (Nat.le_refl 1)
  have hlisted := (listsProviders_iff (Nat.le_refl 1) (some search) all).mp ((hall all).mpr rfl)
  have hfound : wrongProvider (amb.strip search) ∈ all := by
    rw [hlisted, List.mem_insertionSort, List.mem_filter, Bool.and_eq_true,
      searchedBy_iff hsearch]
    refine ⟨List.mem_singleton.mpr rfl, rfl, .inl ?_⟩
    unfold wrongProvider
    rw [String.toList_ofList]
    exact hmatches
  rcases ((hmem _).mp hfound).2.2 with hcontains | hcontains
  · unfold wrongProvider at hcontains
    rw [String.toList_ofList] at hcontains
    exact hname hcontains
  · exact hemail hcontains

end Literal

end Search

section Sample

theorem caseless_toLower : Caseless Char.toLower := by
  intro c d hd h
  have hfixed : d.toLower = d := by
    rcases hd with rfl | rfl | rfl <;> decide
  rw [hfixed] at h
  unfold Char.toLower at h
  split at h
  · -- A letter is moved by 32, past all of the special characters.
    rename_i hupper
    have hlo : 65 ≤ c.val.toNat := UInt32.le_iff_toNat_le.mp hupper.1
    have hhi : c.val.toNat ≤ 90 := UInt32.le_iff_toNat_le.mp hupper.2
    have hval : (c.val + 32).toNat = d.val.toNat := congrArg (fun e => e.val.toNat) h
    rw [UInt32.toNat_add] at hval
    have hthirtyTwo : (32 : UInt32).toNat = 32 := rfl
    have hspecial : d.val.toNat < 97 := by
      rcases hd with rfl | rfl | rfl <;> decide
    omega
  · exact h

def ascii : Locale where
  collation := inferInstance
  fold := Char.toLower
  caseless := caseless_toLower

end Sample

end BookingPlatform

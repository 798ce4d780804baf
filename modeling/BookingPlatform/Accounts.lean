import BookingPlatform.Acceptance

/-!
# Accounts and their addresses

The look-up compares lower-cased addresses, the unique constraint compares them as they
are stored. On normalised addresses the two are the same comparison.
-/

namespace BookingPlatform

set_option autoImplicit false

open Transact Transact.Program

section Text

/-- `str.strip`, `str.lower` and the database's `lower()`. -/
structure Text where
  strip : String → String
  lower : String → String
  sqlLower : String → String

def Ambient.text (amb : Ambient) : Text := ⟨amb.strip, amb.lower, amb.sqlLower⟩

namespace Text
variable (text : Text)

def normalize (v : String) : String := text.lower (text.strip v)

/-- Normalising twice is normalising once, and the database lower-cases no further than
Python does. -/
structure Lawful : Prop where
  idempotent : ∀ v, text.normalize (text.normalize v) = text.normalize v
  lowered : ∀ v, text.sqlLower (text.lower v) = text.lower v

def Normalised (users : List User) : Prop := ∀ u ∈ users, text.normalize u.email = u.email

instance (users : List User) : Decidable (text.Normalised users) :=
  inferInstanceAs (Decidable (∀ u ∈ users, _))

variable {text}

theorem Lawful.sqlLower_normal (h : text.Lawful) {v : String} (hv : text.normalize v = v) :
    text.sqlLower v = v := by
  rw [← hv]
  exact h.lowered _

end Text

theorem validate_register {amb : Ambient} {fields : UserRegisterFields} {userIn : UserRegister}
    (h : UserRegister.validate amb fields = .ok userIn) :
    userIn.email = amb.text.normalize fields.email ∧ userIn.password = fields.password := by
  unfold UserRegister.validate UserRegister.normalizeEmail at h
  by_cases hformat : hasEmailFormat (amb.lower (amb.strip fields.email))
  · simp only [hformat] at h
    cases h
    exact ⟨rfl, rfl⟩
  · simp only [hformat] at h
    cases h

end Text

section Lookup

/-- A filter by a unique key keeps what the look-up finds. -/
theorem filter_key {α κ : Type} [DecidableEq κ] {key : α → κ} {rows : List α}
    (h : (rows.map key).Nodup) (k : κ) :
    rows.filter (fun r => key r = k) = (rows.find? fun r => key r = k).toList := by
  induction rows with
  | nil => rfl
  | cons r rows ih =>
    obtain ⟨hfirst, hrest⟩ := List.nodup_cons.mp h
    by_cases hr : key r = k
    · have hnone : rows.filter (fun r => key r = k) = [] := by
        refine List.filter_eq_nil_iff.mpr fun x hx hk => hfirst ?_
        rw [hr, ← of_decide_eq_true hk]
        exact List.mem_map_of_mem hx
      rw [List.filter_cons_of_pos (by simp [hr]), List.find?_cons_of_pos (by simp [hr]), hnone]
      rfl
    · rw [List.filter_cons_of_neg (by simp [hr]), List.find?_cons_of_neg (by simp [hr])]
      exact ih hrest

variable {amb : Ambient} {s : Store}

def Tables.userOf (t : Tables) (email : String) : Option User :=
  t.users.find? fun u => u.email = email

theorem Store.userOf_eq_some {email : String} {u : User} :
    s.userOf email = some u ↔ u ∈ s.users ∧ u.email = email := find?_key s.sound.usersEmail

/-- On normalised addresses the look-up of an address is the one by the stored column. -/
theorem usersByEmail_eq (hlaws : amb.text.Lawful) (hs : amb.text.Normalised s.users)
    (email : String) :
    s.answer (.usersByEmail amb.sqlLower email) = (s.userOf email).toList := by
  change s.users.filter (fun u => amb.sqlLower u.email = email) = _
  refine (List.filter_congr fun u hu => ?_).trans (filter_key s.sound.usersEmail email)
  have hlower : amb.sqlLower u.email = u.email := hlaws.sqlLower_normal (hs u hu)
  rw [hlower]

theorem exec_getUserByEmail {σ : Session platform} {email : String} {found : Option User}
    (h : σ.working.answer (.usersByEmail amb.sqlLower (amb.text.normalize email)) =
      found.toList) :
    (getUserByEmail amb email).exec σ = (.ok found, σ) := by
  have hrows : (select (D := platform) (.usersByEmail amb.sqlLower
      (amb.text.normalize email))).exec σ = (.ok found.toList, σ) := by
    rw [exec_select]
    exact congrArg (fun rows => (Except.ok rows, σ)) h
  refine (exec_bind_ok hrows).trans ?_
  cases found <;> rfl

end Lookup

section Insert
variable {s : Store}

theorem constraints_insertUser {u : User} (hnew : ∀ v ∈ s.users, v.id ≠ u.id)
    (hfree : ∀ v ∈ s.users, v.email ≠ u.email) : Constraints (s.after (.insertUser u)) := by
  have hrows : (s.after (.insertUser u)).users = s.users ++ [u] := rfl
  have hstays : ∀ {id : UUID}, (∃ v ∈ s.users, v.id = id) →
      ∃ v ∈ (s.after (.insertUser u)).users, v.id = id := by
    rintro id ⟨v, hv, hid⟩
    exact ⟨v, List.mem_append_left _ hv, hid⟩
  exact { s.sound with
    usersKey := by
      rw [hrows, List.map_append]
      refine s.sound.usersKey.append (List.nodup_singleton _) fun id h₁ h₂ => ?_
      obtain ⟨v, hv, rfl⟩ := List.mem_map.mp h₁
      exact hnew v hv (List.mem_singleton.mp h₂)
    usersEmail := by
      rw [hrows, List.map_append]
      refine s.sound.usersEmail.append (List.nodup_singleton _) fun email h₁ h₂ => ?_
      obtain ⟨v, hv, rfl⟩ := List.mem_map.mp h₁
      exact hfree v hv (List.mem_singleton.mp h₂)
    bookingsCustomer := fun b hb => hstays (s.sound.bookingsCustomer b hb)
    bookingsProvider := fun b hb => hstays (s.sound.bookingsProvider b hb)
    reviewsCustomer := fun r hr => hstays (s.sound.reviewsCustomer r hr)
    reviewsProvider := fun r hr => hstays (s.sound.reviewsProvider r hr)
    notificationsUser := fun n hn => hstays (s.sound.notificationsUser n hn) }

/-- A user with a new identifier is refused only when the address is taken as it is
stored. -/
theorem insertUser_refused {u : User} {e : Error} (hnew : ∀ v ∈ s.users, v.id ≠ u.id)
    (h : platform.applyAll [.insertUser u] s = .error e) :
    e = .integrityError ∧ ∃ v ∈ s.users, v.email = u.email := by
  obtain ⟨rfl, hbroken⟩ := broken_of_refused (w := .insertUser u) rfl h
  refine ⟨rfl, ?_⟩
  by_contra hnone
  exact hbroken (constraints_insertUser hnew fun v hv hemail => hnone ⟨v, hv, hemail⟩)

end Insert

section Sample

def lowerCase (v : String) : String := String.ofList (v.toList.map Char.toLower)

/-- Text without surrounding blanks. -/
def plainText : Text := ⟨id, lowerCase, lowerCase⟩

theorem toLower_twice (c : Char) : c.toLower.toLower = c.toLower := by
  delta Char.toLower
  split
  · rename_i hupper
    rw [dif_neg]
    intro hagain
    simp only [UInt32.le_iff_toNat_le, UInt32.toNat_add, ge_iff_le] at hupper hagain
    have h65 : ('A' : Char).val.toNat = 65 := rfl
    have h90 : ('Z' : Char).val.toNat = 90 := rfl
    have h32 : ('a'.val - 'A'.val).toNat = 32 := rfl
    omega
  · rfl

theorem plainText_lawful : plainText.Lawful := by
  have htwice : ∀ v, lowerCase (lowerCase v) = lowerCase v := by
    intro v
    unfold lowerCase
    rw [String.toList_ofList, List.map_map]
    exact congrArg String.ofList (List.map_congr_left fun c _ => toLower_twice c)
  exact ⟨htwice, htwice⟩

theorem evesName : 1 ≤ "Eve".length ∧ "Eve".length ≤ 255 := by decide

def plainAmbient (uuid4 : UUID) : Ambient :=
  { sampleAmbient 0 uuid4 with lower := lowerCase, sqlLower := lowerCase }

end Sample

end BookingPlatform

import BookingPlatform.Integrity
import BookingPlatform.Searching

/-!
# Lists that are read while they grow

A client goes through the pages of a list while others go on. Notifications are never
deleted and keep their place, and so do users, so such a client may be shown a row twice
but misses none that was there when it began.
-/

namespace BookingPlatform

set_option autoImplicit false

open Transact Pages

section Orders

instance : Std.Total Notification.listedBefore where
  total a b := by
    unfold Notification.listedBefore
    rcases lt_trichotomy a.createdAt b.createdAt with h | h | h
    · exact .inr (.inl h)
    · rcases BitVec.le_total a.id b.id with hid | hid
      · exact .inr (.inr ⟨h.symm, hid⟩)
      · exact .inl (.inr ⟨h, hid⟩)
    · exact .inl (.inl h)

instance : IsTrans Notification Notification.listedBefore where
  trans a b c := by
    unfold Notification.listedBefore
    rintro (hab | ⟨hab, hid⟩) (hbc | ⟨hbc, hid'⟩)
    · exact .inl (hbc.trans hab)
    · exact .inl (hbc ▸ hab)
    · exact .inl (hab ▸ hbc)
    · exact .inr ⟨hab.trans hbc, BitVec.le_trans hid' hid⟩

/-- What places a notification in its list. -/
def Notification.place (n : Notification) : Time × UUID := (n.createdAt, n.id)

/-- Strictly decreasing in `(created_at, id)`. -/
def Newer (p q : Time × UUID) : Prop := q.1 < p.1 ∨ (p.1 = q.1 ∧ q.2 < p.2)

instance : Std.Irrefl Newer where
  irrefl p := by
    rintro (h | ⟨_, h⟩)
    · exact lt_irrefl _ h
    · exact BitVec.lt_irrefl _ h

instance : Std.Antisymm Newer where
  antisymm p q := by
    rintro (hpq | ⟨heq, hpq⟩) (hqp | ⟨heq', hqp⟩)
    · exact absurd hpq (lt_asymm hqp)
    · exact absurd hpq (by rw [heq']; exact lt_irrefl _)
    · exact absurd hqp (by rw [heq]; exact lt_irrefl _)
    · exact absurd hpq (BitVec.lt_asymm hqp)

theorem Notification.newer_of_listed {m n : Notification} (h : m.listedBefore n)
    (hne : m.id ≠ n.id) : Newer m.place n.place :=
  h.imp_right fun ⟨hcreated, hid⟩ => ⟨hcreated, BitVec.lt_of_le_ne hid hne.symm⟩

/-- What places a user in the list of providers. -/
def User.place (u : User) : String × UUID := (u.name, u.id)

/-- Strictly increasing in `(name, id)`. -/
def Alphabetical (collation : LinearOrder String) (p q : String × UUID) : Prop :=
  collation.lt p.1 q.1 ∨ (p.1 = q.1 ∧ p.2 < q.2)

instance (collation : LinearOrder String) : Std.Irrefl (Alphabetical collation) where
  irrefl p := by
    rintro (h | ⟨_, h⟩)
    · exact @lt_irrefl _ collation.toPreorder _ h
    · exact BitVec.lt_irrefl _ h

instance (collation : LinearOrder String) : Std.Antisymm (Alphabetical collation) where
  antisymm p q := by
    rintro (hpq | ⟨heq, hpq⟩) (hqp | ⟨heq', hqp⟩)
    · exact absurd hpq (@lt_asymm _ collation.toPreorder _ _ hqp)
    · exact absurd hpq (by rw [heq']; exact @lt_irrefl _ collation.toPreorder _)
    · exact absurd hqp (by rw [heq]; exact @lt_irrefl _ collation.toPreorder _)
    · exact absurd hpq (BitVec.lt_asymm hqp)

end Orders

section Feeds
variable {ι : Type} [DecidableEq ι] {s₀ : Store} {events : ι → Event} {moments : Nat → List ι}

/-- What is committed when page `k` is asked for, of a client whose `k`-th page is answered
after the first `moments k` steps of the others. -/
def storeAt (events : ι → Event) (s₀ : Store) (moments : Nat → List ι) (k : Nat) : Store :=
  ((concurrently events s₀).run (moments k)).store

theorem continues_next (hmoments : ∀ k, moments k <+: moments (k + 1)) (k : Nat) :
    Continues (Withdrawable events) (storeAt events s₀ moments k)
      (storeAt events s₀ moments (k + 1)) := by
  obtain ⟨rest, hrest⟩ := hmoments k
  unfold storeAt
  rw [← hrest, System.run_append]
  exact continues_from (integrity_holds s₀ events (moments k)) rest

theorem continues_first (hmoments : ∀ k, moments k <+: moments (k + 1)) (k : Nat) :
    Continues (Withdrawable events) (storeAt events s₀ moments 0)
      (storeAt events s₀ moments k) := by
  induction k with
  | zero => exact .refl _
  | succ k ih => exact ih.trans (continues_next hmoments k)

/-- Who goes through all the notifications, page by page up to an empty one, is shown each that
was there when the first page was answered, whatever happens in between. -/
theorem notification_pages_miss_nothing (s₀ : Store) (events : ι → Event)
    (moments : Nat → List ι) (hmoments : ∀ k, moments k <+: moments (k + 1)) (userId : UUID)
    (limit count : Nat) (hlimit : 1 ≤ limit) (pages : Nat → List Notification)
    (hpages : ∀ k, outcome (storeAt events s₀ moments k)
      (listNotifications userId (k * limit) limit false) = .ok (pages k))
    (hend : pages count = []) (n : Notification)
    (hn : n ∈ (storeAt events s₀ moments 0).notifications) (huser : n.userId = userId) :
    ∃ k < count, ∃ n' ∈ pages k, n.Later n' := by
  let tables : Nat → List Notification := fun k =>
    ((storeAt events s₀ moments k).notifications.filter fun n =>
      n.userId = userId && (!false || !n.isRead)).insertionSort Notification.listedBefore
  have hpage : ∀ k, ((tables k).drop (k * limit)).take limit = pages k := fun k =>
    Except.ok.inj (hpages k)
  have hmem : ∀ k m, m ∈ tables k ↔
      m ∈ (storeAt events s₀ moments k).notifications ∧ m.userId = userId := by
    intro k m
    rw [List.mem_insertionSort, List.mem_filter]
    simp
  obtain ⟨k, hk, m, hm, hplace⟩ := rows_seen_while_growing tables Notification.place Newer
    hlimit
    (fun k => strictly_sorted (k := Notification.id) (fun _ _ => Notification.newer_of_listed)
      (storeAt events s₀ moments k).sound.notificationsKey _)
    (fun k a ha => by
      obtain ⟨ha, hauser⟩ := (hmem k a).mp ha
      obtain ⟨b, hb, hlater⟩ := (continues_next hmoments k).notifications a ha
      refine ⟨b, (hmem (k + 1) b).mpr ⟨hb, ?_⟩, ?_⟩
      · rw [hlater.1]
        exact hauser
      · rw [hlater.1]
        rfl)
    ((hpage count).trans hend) ((hmem 0 n).mpr ⟨hn, huser⟩)
  rw [hpage] at hm
  refine ⟨k, hk, m, hm, ?_⟩
  -- The row on the page is what has become of `n` by then.
  have hmtable : m ∈ tables k := by
    rw [← hpage] at hm
    exact List.mem_of_mem_drop (List.mem_of_mem_take hm)
  obtain ⟨n', hn', hlater⟩ := (continues_first hmoments k).notifications n hn
  have hid : m.id = n'.id := by
    rw [hlater.1]
    exact congrArg Prod.snd hplace
  obtain rfl := List.inj_on_of_nodup_map (storeAt events s₀ moments k).sound.notificationsKey
    ((hmem k m).mp hmtable).1 hn' hid
  exact hlater

/-- The same of the providers that a search finds: a user keeps name, email and role. -/
theorem provider_pages_miss_nothing (s₀ : Store) (events : ι → Event)
    (moments : Nat → List ι) (hmoments : ∀ k, moments k <+: moments (k + 1)) (amb : Ambient)
    (locale : Locale) (search : Option String) (limit count : Nat) (hlimit : 1 ≤ limit)
    (pages : Nat → List User)
    (hpages : ∀ k, outcome (storeAt events s₀ moments k)
      (listProviders amb locale search (k * limit) limit) = .ok (pages k))
    (hend : pages count = []) (u : User) (hu : u ∈ (storeAt events s₀ moments 0).users)
    (hprovider : u.role = .provider) (hsearch : u.searchedBy amb locale search = true) :
    ∃ k < count, u ∈ pages k := by
  let tables : Nat → List User := fun k =>
    ((storeAt events s₀ moments k).users.filter fun u =>
      u.role = .provider && u.searchedBy amb locale search).insertionSort
        (User.listedBefore locale.collation)
  have hpage : ∀ k, ((tables k).drop (k * limit)).take limit = pages k := fun k =>
    Except.ok.inj (hpages k)
  have hmem : ∀ k v, v ∈ tables k ↔ v ∈ (storeAt events s₀ moments k).users ∧
      v.role = .provider ∧ v.searchedBy amb locale search = true := by
    intro k v
    rw [List.mem_insertionSort, List.mem_filter, Bool.and_eq_true, decide_eq_true_iff]
  obtain ⟨k, hk, v, hv, hplace⟩ := rows_seen_while_growing tables User.place
    (Alphabetical locale.collation) hlimit
    (fun k => strictly_sorted (k := User.id) (fun _ _ => User.before_of_listed)
      (storeAt events s₀ moments k).sound.usersKey _)
    (fun k a ha => by
      obtain ⟨ha, hfound⟩ := (hmem k a).mp ha
      exact ⟨a, (hmem (k + 1) a).mpr ⟨(continues_next hmoments k).users a ha, hfound⟩, rfl⟩)
    ((hpage count).trans hend) ((hmem 0 u).mpr ⟨hu, hprovider, hsearch⟩)
  rw [hpage] at hv
  have hvtable : v ∈ tables k := by
    rw [← hpage] at hv
    exact List.mem_of_mem_drop (List.mem_of_mem_take hv)
  obtain rfl := (storeAt events s₀ moments k).user_unique ((hmem k v).mp hvtable).1
    ((continues_first hmoments k).users u hu) (congrArg Prod.snd hplace)
  exact ⟨k, hk, hv⟩

end Feeds

section Example

/-- Alice books, and while Paula reads her list Bob books as well. -/
def bobBooks (_ : Unit) : Event := booksAt bob 11 (12 * hour)

def aliceBooked : Store := run newPlatform [booksAt alice 10 (10 * hour)]

def afterFirst (k : Nat) : List Unit := if k = 0 then [] else List.replicate 9 ()

theorem afterFirst_grows (k : Nat) : afterFirst k <+: afterFirst (k + 1) := by
  cases k with
  | zero => exact List.nil_prefix
  | succ k => exact List.prefix_rfl

def paulasPage (k : Nat) : List Notification :=
  (storeAt bobBooks aliceBooked afterFirst k).answer
    (.notificationsPage (fun n => n.userId = paula.id && (!false || !n.isRead)) (k * 1) 1)

theorem notification_pages_miss_nothing_paula :
    ∃ k < 2, ∃ n ∈ paulasPage k, n.bookingId = some 10 := by
  let note : Notification :=
    ⟨10030, 3, some 10, .bookingCreated, "New Booking Request",
      "A new booking request for Massage has been submitted.", false, 0, none⟩
  obtain ⟨k, hk, n, hn, hlater⟩ := notification_pages_miss_nothing aliceBooked bobBooks
    afterFirst afterFirst_grows paula.id 1 2 (by decide) paulasPage (fun _ => rfl) (by decide)
    note List.mem_cons_self rfl
  refine ⟨k, hk, n, hn, ?_⟩
  rw [hlater.1]

def providersPage (k : Nat) : List User :=
  (storeAt bobBooks aliceBooked afterFirst k).answer
    (.usersPage (fun u => u.role = .provider && u.searchedBy (sampleAmbient 0 0) ascii none)
      ascii.collation (k * 1) 1)

theorem provider_pages_miss_nothing_quinn : ∃ k < 2, quinn ∈ providersPage k := by
  refine provider_pages_miss_nothing aliceBooked bobBooks afterFirst afterFirst_grows
    (sampleAmbient 0 0) ascii none 1 2 (by decide) providersPage (fun _ => rfl) ?_ quinn ?_ rfl rfl
  · decide
  · decide

end Example

end BookingPlatform

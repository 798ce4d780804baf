import BookingPlatform.Calendar
import BookingPlatform.Concurrency

/-!
# Two edits of one booking

Each request writes only the columns it has changed, over a row that may have changed
since. Edits of different fields are both kept, and of the interval they leave together,
which neither has checked, every part was checked by one of them.
-/

namespace BookingPlatform

set_option autoImplicit false

open Transact

/-- The payloads set different fields. -/
structure BookingUpdate.Disjoint (u v : BookingUpdate) : Prop where
  serviceName : u.serviceName = none ∨ v.serviceName = none
  startTime : u.startTime = none ∨ v.startTime = none
  endTime : u.endTime = none ∨ v.endTime = none
  status : u.status = none ∨ v.status = none

/-- The row has the value of every field the payload sets. -/
structure BookingUpdate.KeptIn (u : BookingUpdate) (b : Booking) : Prop where
  serviceName : ∀ x ∈ u.serviceName, b.serviceName = x
  startTime : ∀ x ∈ u.startTime, b.startTime = x
  endTime : ∀ x ∈ u.endTime, b.endTime = x
  status : ∀ x ∈ u.status, b.status = x

section Fields
variable {α : Type} [DecidableEq α]

/-- A column that nobody else writes gets its value, whatever was loaded, and one that is
not set is not written. -/
theorem changed_getD_now {first now loaded : α} {set : Option α}
    (hloaded : loaded = first ∨ loaded = now) (hnow : set = none ∨ now = first) :
    (changed loaded (set.getD loaded)).getD now = set.getD now := by
  cases set with
  | none => simp only [Option.getD_none, changed, if_pos]
  | some x =>
    have hfirst : now = first := hnow.resolve_left (by simp)
    have hsame : loaded = now := by
      rcases hloaded with h | h
      · rw [h, hfirst]
      · exact h
    rw [hsame, changed_getD]

omit [DecidableEq α] in
theorem getD_between {first now loaded : α} {set : Option α}
    (hloaded : loaded = first ∨ loaded = now) (hnow : set = none ∨ now = first) :
    loaded = first ∨ loaded = set.getD now := by
  rcases hloaded with h | h
  · exact .inl h
  · rcases hnow with hset | hfirst
    · rw [hset, Option.getD_none]
      exact .inr h
    · exact .inl (h.trans hfirst)

omit [DecidableEq α] in
theorem getD_comm {u v : Option α} (h : u = none ∨ v = none) (x : α) :
    u.getD (v.getD x) = v.getD (u.getD x) := by
  rcases h with rfl | rfl <;> rfl

omit [DecidableEq α] in
theorem getD_of_mem {set : Option α} {x y : α} (h : x ∈ set) : set.getD y = x := by
  rw [Option.mem_def.mp h, Option.getD_some]

end Fields

section Rows

/-- Every field of the loaded row is as it was at first, or as it is now. -/
structure Booking.Between (first now loaded : Booking) : Prop where
  id : loaded.id = first.id
  provider : loaded.providerId = first.providerId
  serviceName : loaded.serviceName = first.serviceName ∨ loaded.serviceName = now.serviceName
  startTime : loaded.startTime = first.startTime ∨ loaded.startTime = now.startTime
  endTime : loaded.endTime = first.endTime ∨ loaded.endTime = now.endTime
  status : loaded.status = first.status ∨ loaded.status = now.status

/-- The fields the payload sets are as they were at first. -/
structure BookingUpdate.Untouched (u : BookingUpdate) (first now : Booking) : Prop where
  serviceName : u.serviceName = none ∨ now.serviceName = first.serviceName
  startTime : u.startTime = none ∨ now.startTime = first.startTime
  endTime : u.endTime = none ∨ now.endTime = first.endTime
  status : u.status = none ∨ now.status = first.status

variable {u v : BookingUpdate} {first now loaded : Booking}

theorem Booking.Between.patch (h : first.Between now loaded) (hu : u.Untouched first now) :
    now.patch (loaded.changes (u.applied loaded)) = u.applied now := by
  unfold Booking.patch Booking.changes BookingUpdate.applied
  rw [changed_getD_now h.serviceName hu.serviceName, changed_getD_now h.startTime hu.startTime,
    changed_getD_now h.endTime hu.endTime, changed_getD_now h.status hu.status]

theorem Booking.Between.applied (h : first.Between now loaded) (hu : u.Untouched first now) :
    first.Between (u.applied now) loaded :=
  { h with
    serviceName := getD_between h.serviceName hu.serviceName
    startTime := getD_between h.startTime hu.startTime
    endTime := getD_between h.endTime hu.endTime
    status := getD_between h.status hu.status }

theorem BookingUpdate.untouched_first (u : BookingUpdate) (first : Booking) :
    u.Untouched first first := ⟨.inr rfl, .inr rfl, .inr rfl, .inr rfl⟩

theorem BookingUpdate.Disjoint.untouched (h : u.Disjoint v) (first : Booking) :
    u.Untouched first (v.applied first) := by
  have hfield : ∀ {α : Type} {a b : Option α} {x : α}, a = none ∨ b = none →
      a = none ∨ b.getD x = x := fun h => h.imp_right fun hb => by rw [hb, Option.getD_none]
  exact ⟨hfield h.serviceName, hfield h.startTime, hfield h.endTime, hfield h.status⟩

theorem BookingUpdate.Disjoint.symm (h : u.Disjoint v) : v.Disjoint u :=
  ⟨h.serviceName.symm, h.startTime.symm, h.endTime.symm, h.status.symm⟩

/-- The order of edits of different fields does not matter. -/
theorem BookingUpdate.Disjoint.applied_comm (h : u.Disjoint v) (b : Booking) :
    u.applied (v.applied b) = v.applied (u.applied b) := by
  simp only [BookingUpdate.applied, getD_comm h.serviceName, getD_comm h.startTime,
    getD_comm h.endTime, getD_comm h.status]

theorem BookingUpdate.keptIn_applied (u : BookingUpdate) (b : Booking) : u.KeptIn (u.applied b) :=
  ⟨fun _ h => getD_of_mem h, fun _ h => getD_of_mem h, fun _ h => getD_of_mem h,
    fun _ h => getD_of_mem h⟩

end Rows

section Intervals

/-- No other active booking of the provider meets the interval. -/
def Store.FreeOfOthers (s : Store) (b : Booking) (st en : Time) : Prop :=
  ∀ x ∈ s.bookings, x.id ≠ b.id → x.providerId = b.providerId → x.status ≠ .cancelled →
    ¬ (x.startTime < en ∧ st < x.endTime)

variable {s : Store} {first : Booking} {u v : BookingUpdate}

/-- One free interval ends after the start of a later one: what they span is free. -/
theorem Store.FreeOfOthers.union {st first' last en : Time} (h : s.FreeOfOthers first st last)
    (h' : s.FreeOfOthers first first' en) (hmeet : first' < last) :
    s.FreeOfOthers first st en := by
  rintro x hx hid hp hactive ⟨hen, hst⟩
  have hleft : ¬ x.startTime < last := fun hlast => h x hx hid hp hactive ⟨hlast, hst⟩
  have hright : ¬ first' < x.endTime := fun hfirst => h' x hx hid hp hactive ⟨hen, hfirst⟩
  -- The other booking would begin after the one and end before the other.
  refine lt_asymm (s.sound.checkBookingEndAfterStart x hx) ?_
  calc x.endTime ≤ first' := not_lt.mp hright
    _ < last := hmeet
    _ ≤ x.startTime := not_lt.mp hleft

theorem Store.NoOverlap.freeOfOthers (hs : s.NoOverlap) (hfirst : first ∈ s.bookings)
    (hactive : first.status ≠ .cancelled) :
    s.FreeOfOthers first first.startTime first.endTime := by
  rintro x hx hid hp hxactive ⟨hen, hst⟩
  refine hs x hx first hfirst (fun heq => hid (heq ▸ rfl)) hp hxactive hactive ⟨hen, hst⟩

/-- An edit `u` next to `v` left the schedule as it was, or found an interval free whose
bounds are those it saw: with or without the edit of the other. -/
def Checked (s : Store) (first : Booking) (u v : BookingUpdate) : Prop :=
  ((u.applied first).startTime = first.startTime ∧ (u.applied first).endTime = first.endTime) ∨
    ∃ st en, s.FreeOfOthers first st en ∧
      (st = (u.applied first).startTime ∨ st = (v.applied (u.applied first)).startTime) ∧
      (en = (u.applied first).endTime ∨ en = (v.applied (u.applied first)).endTime)

section Bounds
variable {F : Time → Time → Prop} {p q : Time}

/-- One edit moves the start to `a` and the other the end to `d`. -/
theorem crossed_free
    (hunion : ∀ {st last first en}, F st last → F first en → first < last → F st en)
    (hproper : p < q) (hfree : F p q) {a d : Time}
    (hstart : a = p ∨ ∃ en, F a en ∧ (en = q ∨ en = d))
    (hend : d = q ∨ ∃ st, F st d ∧ (st = p ∨ st = a)) : F a d := by
  rcases hstart with rfl | ⟨en, hleft, rfl | rfl⟩
  · rcases hend with rfl | ⟨st, hright, rfl | rfl⟩
    · exact hfree
    all_goals exact hright
  · rcases hend with rfl | ⟨st, hright, rfl | rfl⟩
    · exact hleft
    · exact hunion hleft hright hproper
    · exact hright
  · exact hleft

/-- Each bound of the interval is that of one edit, where the other keeps the old one. -/
theorem spliced_free
    (hunion : ∀ {st last first en}, F st last → F first en → first < last → F st en)
    (hproper : p < q) (hfree : F p q) {a b c d x y : Time}
    (hstart : (x = a ∧ c = p) ∨ (x = c ∧ a = p)) (hend : (y = b ∧ d = q) ∨ (y = d ∧ b = q))
    (hu : (a = p ∧ b = q) ∨ ∃ st en, F st en ∧ (st = a ∨ st = x) ∧ (en = b ∨ en = y))
    (hv : (c = p ∧ d = q) ∨ ∃ st en, F st en ∧ (st = c ∨ st = x) ∧ (en = d ∨ en = y)) :
    F x y := by
  rcases hstart with ⟨rfl, rfl⟩ | ⟨rfl, rfl⟩ <;> rcases hend with ⟨rfl, rfl⟩ | ⟨rfl, rfl⟩
  · -- Both bounds are from the first edit, which checked them or left them.
    rcases hu with ⟨rfl, rfl⟩ | ⟨st, en, h, rfl | rfl, rfl | rfl⟩
    · exact hfree
    all_goals exact h
  · refine crossed_free hunion hproper hfree ?_ ?_
    · refine hu.imp (fun h => h.1) ?_
      rintro ⟨st, en, h, rfl | rfl, hen⟩ <;> exact ⟨en, h, hen⟩
    · refine hv.imp (fun h => h.2) ?_
      rintro ⟨st, en, h, hst, rfl | rfl⟩ <;> exact ⟨st, h, hst⟩
  · refine crossed_free hunion hproper hfree ?_ ?_
    · refine hv.imp (fun h => h.1) ?_
      rintro ⟨st, en, h, rfl | rfl, hen⟩ <;> exact ⟨en, h, hen⟩
    · refine hu.imp (fun h => h.2) ?_
      rintro ⟨st, en, h, hst, rfl | rfl⟩ <;> exact ⟨st, h, hst⟩
  · rcases hv with ⟨rfl, rfl⟩ | ⟨st, en, h, rfl | rfl, rfl | rfl⟩
    · exact hfree
    all_goals exact h

end Bounds

theorem getD_either {α : Type} {a b : Option α} (h : a = none ∨ b = none) (x : α) :
    (b.getD (a.getD x) = a.getD x ∧ b.getD x = x) ∨
      (b.getD (a.getD x) = b.getD x ∧ a.getD x = x) := by
  rcases h with rfl | rfl
  · exact .inr ⟨rfl, rfl⟩
  · exact .inl ⟨rfl, rfl⟩

/-- The interval that two edits leave together is free, although neither has checked it. -/
theorem both_free (hdisj : u.Disjoint v) (hfirst : first ∈ s.bookings)
    (hfree : s.FreeOfOthers first first.startTime first.endTime) (hu : Checked s first u v)
    (hv : Checked s first v u) :
    s.FreeOfOthers first (v.applied (u.applied first)).startTime
      (v.applied (u.applied first)).endTime := by
  unfold Checked at hu hv
  rw [hdisj.applied_comm first] at hv
  exact spliced_free (F := s.FreeOfOthers first) (fun h h' hmeet => h.union h' hmeet)
    (s.sound.checkBookingEndAfterStart first hfirst) hfree
    (getD_either hdisj.startTime first.startTime) (getD_either hdisj.endTime first.endTime) hu hv

end Intervals

section Progress
variable {s₀ : Store} {first : Booking} {u : Bool → BookingUpdate}

/-- The row with the edit, once it is committed. -/
def BookingUpdate.appliedAfter (u : BookingUpdate) (committed : List (List Write)) (b : Booking) :
    Booking :=
  if committed.isEmpty then b else u.applied b

/-- What the two have made of the row. -/
def bothSoFar (first : Booking) (u : Bool → BookingUpdate) (C : Bool → List (List Write)) :
    Booking :=
  (u false).appliedAfter (C false) ((u true).appliedAfter (C true) first)

theorem bothSoFar_eq (hdisj : (u true).Disjoint (u false)) (C : Bool → List (List Write))
    (i : Bool) : bothSoFar first u C =
      (u i).appliedAfter (C i) ((u !i).appliedAfter (C !i) first) := by
  cases i with
  | false => rfl
  | true =>
    unfold bothSoFar BookingUpdate.appliedAfter
    simp only [Bool.not_true]
    split <;> split
    · rfl
    · rfl
    · rfl
    · exact hdisj.symm.applied_comm first

theorem disjoint_other (hdisj : (u true).Disjoint (u false)) (i : Bool) :
    (u i).Disjoint (u !i) := by
  cases i with
  | false => exact hdisj.symm
  | true => exact hdisj

/-- Only the row of the booking has changed, by the edits that are committed, and each of
these was checked. -/
structure EditsSoFar (s₀ : Store) (first : Booking) (u : Bool → BookingUpdate) (s : Store)
    (C : Bool → List (List Write)) : Prop where
  row : s.booking? first.id = some (bothSoFar first u C)
  others : ∀ x, x.id ≠ first.id → (x ∈ s.bookings ↔ x ∈ s₀.bookings)
  opened : ∀ i, C i ≠ [] → ¬ first.status.Terminal
  checked : ∀ i, C i ≠ [] → Checked s₀ first (u i) (u !i)

/-- What a client has seen of the row, and which intervals it has found free. -/
structure Seen (s₀ : Store) (first : Booking) (e : Entry platform) (s : Store) : Prop where
  row : ∀ notes b, e = ⟨inserts notes, .booking first.id, some b⟩ →
    ∃ now, s.booking? first.id = some now ∧ first.Between now b
  free : ∀ notes st en,
    e = ⟨inserts notes, .conflict first.providerId st en (some first.id), none⟩ →
      s₀.FreeOfOthers first st en

theorem bothSoFar_id (C : Bool → List (List Write)) : (bothSoFar first u C).id = first.id := by
  unfold bothSoFar BookingUpdate.appliedAfter
  split <;> split <;> rfl

theorem bothSoFar_provider (C : Bool → List (List Write)) :
    (bothSoFar first u C).providerId = first.providerId := by
  unfold bothSoFar BookingUpdate.appliedAfter
  split <;> split <;> rfl

theorem seen_of_current {s : Store} {C : Bool → List (List Write)}
    (h : EditsSoFar s₀ first u s C) {e : Entry platform} (he : e.Current s) :
    Seen s₀ first e s := by
  constructor
  · rintro notes b rfl
    have hrow : some b = s.booking? first.id :=
      answer_of_current (q := .booking first.id) trivial he
    refine ⟨b, hrow.symm, ?_, ?_, .inr rfl, .inr rfl, .inr rfl, .inr rfl⟩
    · rw [Option.some.inj (hrow.trans h.row)]
      exact bothSoFar_id C
    · rw [Option.some.inj (hrow.trans h.row)]
      exact bothSoFar_provider C
  · rintro notes st en rfl x hx hid hp hactive ⟨hen, hst⟩
    have hnone : none = s.answer (.conflict first.providerId st en (some first.id)) :=
      answer_of_current (q := .conflict first.providerId st en (some first.id)) trivial he
    refine conflict_eq_none.mp hnone.symm x ((h.others x hid).mpr hx) ⟨hp, hactive, hen, hst, ?_⟩
    exact fun hsame => hid (Option.some.inj hsame)

/-- What the other has made of the row does not touch the fields of an edit that is not
committed yet. -/
theorem untouched_soFar (hdisj : (u true).Disjoint (u false)) {C : Bool → List (List Write)}
    {i : Bool} (hi : C i = []) : (u i).Untouched first (bothSoFar first u C) := by
  rw [bothSoFar_eq hdisj C i]
  unfold BookingUpdate.appliedAfter
  rw [hi, List.isEmpty_nil, if_pos rfl]
  split
  · exact (u i).untouched_first first
  · exact (disjoint_other hdisj i).untouched first

theorem bothSoFar_commit (hdisj : (u true).Disjoint (u false)) {C : Bool → List (List Write)}
    {i : Bool} (hi : C i = []) (W : List Write) :
    bothSoFar first u (Function.update C i (C i ++ [W])) = (u i).applied (bothSoFar first u C) := by
  rw [bothSoFar_eq hdisj _ i, bothSoFar_eq hdisj C i]
  unfold BookingUpdate.appliedAfter
  have hother : Function.update C i (C i ++ [W]) (!i) = C (!i) :=
    Function.update_of_ne (Bool.not_ne_self i) ..
  rw [Function.update_self, hother, hi, List.nil_append, List.isEmpty_nil, if_pos rfl]
  rfl

/-- What an edit sets a field to is what the field was at first, when it leaves the loaded
value as it is. -/
theorem getD_unchanged {α : Type} {first now loaded : α} {set : Option α}
    (hloaded : loaded = first ∨ loaded = now) (hnow : set = none ∨ now = first)
    (h : set.getD loaded = loaded) : set.getD first = first := by
  have hsame : set = none ∨ loaded = first := by
    rcases hnow with hset | hfirst
    · exact .inl hset
    · exact .inr (hloaded.elim id fun h => h.trans hfirst)
  rcases hsame with rfl | rfl
  · rfl
  · exact h

/-- The bound an edit checks is the one it leaves, with or without the edit of the other. -/
theorem getD_seen {α : Type} {first now loaded : α} {set other : Option α}
    (hloaded : loaded = first ∨ loaded = now) (hnow : now = first ∨ now = other.getD first) :
    set.getD loaded = set.getD first ∨ set.getD loaded = other.getD (set.getD first) := by
  cases set with
  | some x => exact .inl rfl
  | none =>
    rcases hloaded with rfl | rfl
    · exact .inl rfl
    · exact hnow

theorem soFar_cases (hdisj : (u true).Disjoint (u false)) {C : Bool → List (List Write)}
    {i : Bool} (hi : C i = []) :
    (C (!i) = [] ∧ bothSoFar first u C = first) ∨
      (C (!i) ≠ [] ∧ bothSoFar first u C = (u !i).applied first) := by
  rw [bothSoFar_eq hdisj C i]
  unfold BookingUpdate.appliedAfter
  rw [hi, List.isEmpty_nil, if_pos rfl]
  cases C !i with
  | nil => exact .inl ⟨rfl, rfl⟩
  | cons V Vs => exact .inr ⟨by simp, rfl⟩

section Commit
variable {i : Bool} {c : Client platform} {W : List Write} {s t : Store}
  {C : Bool → List (List Write)} {amb : Ambient} {actor : User} {b : Booking}
  {notes : List Notification}

/-- The interval the edit has checked, if it has changed the schedule at all. -/
theorem Edited.checked (hdisj : (u true).Disjoint (u false)) (hi : C i = [])
    (hfacts : ∀ e ∈ c.log, Seen s₀ first e s)
    (h : Edited amb first.id actor b ((u i).applied b) notes (Told c) W)
    (hbetween : first.Between (bothSoFar first u C) b) : Checked s₀ first (u i) (u !i) := by
  have huntouched : (u i).Untouched first (bothSoFar first u C) := untouched_soFar hdisj hi
  have hnow : ∀ {α : Type} (f : Booking → α), f (bothSoFar first u C) = f first ∨
      f (bothSoFar first u C) = f ((u !i).applied first) := by
    intro α f
    rcases soFar_cases hdisj hi with ⟨_, h⟩ | ⟨_, h⟩
    · exact .inl (congrArg f h)
    · exact .inr (congrArg f h)
  rcases h.schedule with ⟨hst, hen⟩ | ⟨_, notes', hmem, _⟩
  · exact .inl ⟨getD_unchanged hbetween.startTime huntouched.startTime hst,
      getD_unchanged hbetween.endTime huntouched.endTime hen⟩
  · refine .inr ⟨_, _, (hfacts _ hmem).free notes' _ _ ?_,
      getD_seen hbetween.startTime (hnow Booking.startTime),
      getD_seen hbetween.endTime (hnow Booking.endTime)⟩
    rw [hbetween.id, hbetween.provider]
    rfl

theorem editsSoFar_commit (hdisj : (u true).Disjoint (u false)) (h : EditsSoFar s₀ first u s C)
    (hi : C i = []) (hfacts : ∀ e ∈ c.log, Seen s₀ first e s)
    (hedit : Edited amb first.id actor b ((u i).applied b) notes (Told c) W)
    (ht : t.toTables = s.afterAll W) :
    EditsSoFar s₀ first u t (Function.update C i (C i ++ [W])) ∧
      ∀ e, Seen s₀ first e s → Seen s₀ first e t := by
  obtain ⟨now, hnow, hbetween⟩ : ∃ now, s.booking? first.id = some now ∧ first.Between now b := by
    obtain ⟨notes', hmem, _⟩ := hedit.told
    exact (hfacts _ hmem).row notes' b rfl
  obtain rfl : bothSoFar first u C = now := Option.some.inj (h.row.symm.trans hnow)
  have huntouched : (u i).Untouched first (bothSoFar first u C) := untouched_soFar hdisj hi
  have hrows := (hedit.rows ht).1
  have hrow : t.booking? first.id = some ((u i).applied (bothSoFar first u C)) := by
    obtain ⟨hmem, hid⟩ := s.booking?_eq_some.mp hnow
    refine t.booking?_eq_some.mpr ⟨?_, hid⟩
    rw [hrows]
    refine List.mem_map.mpr ⟨_, hmem, ?_⟩
    rw [if_pos hid, hbetween.patch huntouched]
  refine ⟨⟨?_, fun x hx => ?_, fun j hj => ?_, fun j hj => ?_⟩, fun e he => ⟨?_, he.free⟩⟩
  · rw [hrow, bothSoFar_commit hdisj hi]
  · rw [← h.others x hx, hrows]
    constructor
    · intro hmem
      obtain ⟨y, hy, hxy⟩ := List.mem_map.mp hmem
      split at hxy
      · rename_i hid
        exact absurd (hxy ▸ hid : x.id = first.id) hx
      · exact hxy ▸ hy
    · exact fun hmem => List.mem_map.mpr ⟨x, hmem, if_neg hx⟩
  · -- The first to commit has seen the status the row had at first.
    have hcases : (C (!i) = [] ∧ bothSoFar first u C = first) ∨ (C (!i) ≠ [] ∧ _) :=
      soFar_cases hdisj hi
    rcases hcases with ⟨_, hsame⟩ | ⟨hother, _⟩
    · have hstatus : b.status = first.status := by
        rcases hbetween.status with hb | hb
        · exact hb
        · rw [hb, hsame]
      rw [← hstatus]
      exact hedit.nonterminal
    · exact h.opened _ hother
  · by_cases hji : j = i
    · subst j
      exact hedit.checked hdisj hi hfacts hbetween
    · rw [Function.update_of_ne hji] at hj
      exact h.checked j hj
  · intro notes' b' hb'
    obtain ⟨now', hnow', hbetween'⟩ := he.row notes' b' hb'
    obtain rfl := Option.some.inj (hnow.symm.trans hnow')
    exact ⟨_, hrow, hbetween'.applied huntouched⟩

end Commit

end Progress

section Interleaved

/-- The two PATCH requests. -/
def edits (amb : Bool → Ambient) (caller : Bool → UUID) (bookingId : UUID)
    (u : Bool → BookingUpdate) (i : Bool) : Event :=
  .request (amb i) (caller i) (.updateBooking bookingId (u i))

variable {amb : Bool → Ambient} {caller : Bool → UUID} {first : Booking} {s₀ : Store}
  {u : Bool → BookingUpdate}

theorem edits_rules (hdisj : (u true).Disjoint (u false)) :
    System.Invariant (commitsOf (edits amb caller first.id u)) (fun _ _ _ _ => True)
      (EditsSoFar s₀ first u) (Seen s₀ first) where
  told := fun h he => seen_of_current h he
  commit := by
    rintro i c W s t C h hC hfacts ⟨hnone, actor, _, _, b, notes, hedit⟩ _ happ
    exact editsSoFar_commit hdisj h (hC.trans hnone) hfacts hedit (tables_of_applyAll happ)

theorem edits_start (hfirst : first ∈ s₀.bookings) :
    EditsSoFar s₀ first u s₀ fun _ => [] where
  row := s₀.booking?_eq_some.mpr ⟨hfirst, rfl⟩
  others := fun _ _ => Iff.rfl
  opened := fun _ h => absurd rfl h
  checked := fun _ h => absurd rfl h

/-- Nobody's way into the calendar is blocked by a row whose interval is free of others. -/
theorem EditsSoFar.noOverlap {s : Store} {C : Bool → List (List Write)}
    (h : EditsSoFar s₀ first u s C) (h₀ : s₀.NoOverlap)
    (hfree : s₀.FreeOfOthers first (bothSoFar first u C).startTime (bothSoFar first u C).endTime) :
    s.NoOverlap := by
  have hrow : ∀ x ∈ s.bookings, x.id = first.id → x = bothSoFar first u C := fun x hx hid =>
    Option.some.inj ((s.booking?_eq_some.mpr ⟨hx, hid⟩).symm.trans h.row)
  -- A row that is not the edited one is an old one, and is off the interval.
  have hapart : ∀ x ∈ s.bookings, x.id ≠ first.id →
      x.providerId = (bothSoFar first u C).providerId → x.status ≠ .cancelled →
        ¬ (x.startTime < (bothSoFar first u C).endTime ∧
          (bothSoFar first u C).startTime < x.endTime) := by
    intro x hx hid hp
    exact hfree x ((h.others x hid).mp hx) hid (hp.trans (bothSoFar_provider C))
  intro a ha b hb hab hp hactive hbactive hmeet
  by_cases haid : a.id = first.id
  · have hbid : b.id ≠ first.id := fun hbid => hab (s.booking_unique ha hb (haid.trans hbid.symm))
    obtain rfl := hrow a ha haid
    exact hapart b hb hbid hp.symm hbactive ⟨hmeet.2, hmeet.1⟩
  · by_cases hbid : b.id = first.id
    · obtain rfl := hrow b hb hbid
      exact hapart a ha haid hp hactive hmeet
    · exact h₀ a ((h.others a haid).mp ha) b ((h.others b hbid).mp hb) hab hp hactive hbactive hmeet

end Interleaved

/-- Two edits of different fields of one booking that are both answered with success are both
in the row, in every interleaving, and the calendar is free of overlaps with them. -/
theorem disjoint_edits_kept {s₀ : Store} (h₀ : s₀.NoOverlap) {first : Booking}
    (hfirst : first ∈ s₀.bookings) (amb : Bool → Ambient) (caller : Bool → UUID)
    (u : Bool → BookingUpdate) (hdisj : (u true).Disjoint (u false)) (schedule : List Bool)
    (hok : ∀ i, ∃ r, ((concurrently (edits amb caller first.id u) s₀).run schedule).outcome i =
      some (.ok r)) :
    ∃ final, ((concurrently (edits amb caller first.id u) s₀).run schedule).store.booking?
        first.id = some final ∧
      (∀ i, (u i).KeptIn final) ∧ final.startTime < final.endTime ∧
      ((concurrently (edits amb caller first.id u) s₀).run schedule).store.NoOverlap := by
  have hstart : System.Holds (commitsOf (edits amb caller first.id u)) (endsOf _)
      (EditsSoFar s₀ first u) (Seen s₀ first) (concurrently (edits amb caller first.id u) s₀) :=
    concurrently_holds (edits_start hfirst)
  have hholds := hstart.run (edits_rules hdisj) (System.Admits.always _ schedule)
  generalize (concurrently (edits amb caller first.id u) s₀).run schedule = S at hok hholds
  have hcommitted : ∀ i, (fun i => (S.procs i).client.committed) i ≠ [] := by
    intro i
    obtain ⟨r, hr⟩ := hok i
    exact hholds.ended hr trivial
  have hinv := hholds.inv
  generalize (fun i => (S.procs i).client.committed) = C at hinv hcommitted
  have hfinal : bothSoFar first u C = (u false).applied ((u true).applied first) := by
    unfold bothSoFar BookingUpdate.appliedAfter
    simp [hcommitted]
  have hfree : s₀.FreeOfOthers first (bothSoFar first u C).startTime
      (bothSoFar first u C).endTime := by
    rw [hfinal]
    refine both_free hdisj hfirst ?_ (hinv.checked true (hcommitted true))
      (hinv.checked false (hcommitted false))
    exact h₀.freeOfOthers hfirst fun h => hinv.opened true (hcommitted true) (.inl h)
  refine ⟨bothSoFar first u C, hinv.row, fun i => ?_, ?_, hinv.noOverlap h₀ hfree⟩
  · rw [hfinal]
    cases i with
    | false => exact (u false).keptIn_applied _
    | true =>
      rw [hdisj.symm.applied_comm]
      exact (u true).keptIn_applied _
  · exact S.store.sound.checkBookingEndAfterStart _ (S.store.booking?_eq_some.mp hinv.row).1

section Example

/-- Alice's confirmed hour with Paula. -/
def heldHour : Booking := ⟨10, alice.id, paula.id, "Massage", 10 * hour, 11 * hour, .confirmed⟩

def oneHeld : Store where
  users := newPlatform.users
  bookings := [heldHour]
  reviews := []
  notifications := []
  sound := by decide

/-- Alice moves the start, and Paula the end. -/
def bothBounds (i : Bool) : BookingUpdate where
  serviceName := none
  startTime := if i then some (9 * hour) else none
  endTime := if i then none else some (12 * hour)
  status := none
  nameLength := noName
  timeRange := by cases i <;> simp

def aliceAndPaula : Bool → Event :=
  edits (fun _ => sampleAmbient 0 0) (fun i => if i then alice.id else paula.id) heldHour.id
    bothBounds

/-- Both load the row before either has committed, and check against its old bounds. -/
theorem disjoint_edits_kept_bounds :
    ∃ final, ((concurrently aliceAndPaula oneHeld).run
        [true, false, true, false, true, false, true, false, true, false]).store.booking?
          heldHour.id = some final ∧
      (∀ i, (bothBounds i).KeptIn final) ∧ final.startTime < final.endTime ∧
      ((concurrently aliceAndPaula oneHeld).run
        [true, false, true, false, true, false, true, false, true, false]).store.NoOverlap := by
  refine disjoint_edits_kept (by decide) List.mem_cons_self _ _ bothBounds
    ⟨.inl rfl, .inr rfl, .inl rfl, .inl rfl⟩ _ fun i => ?_
  refine ⟨.booking { heldHour with startTime := 9 * hour, endTime := 12 * hour }, ?_⟩
  cases i <;> rfl

end Example

end BookingPlatform

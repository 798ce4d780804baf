import BookingPlatform.Reviewing
import BookingPlatform.SummaryAgreement

/-!
# Better reviews

A raised rating, a new one that is no less than the mean, or the loss of one that is no more
than it: the summary of a provider reads no worse afterwards.
-/

namespace BookingPlatform

set_option autoImplicit false

open Transact

section Classes

def Sentiment.rank : Sentiment → Nat
  | .dissatisfied => 0
  | .mixed => 1
  | .favorable => 2
  | .positive => 3

theorem sentimentOf_mono {q r : ℚ} (h : q ≤ r) : (sentimentOf q).rank ≤ (sentimentOf r).rank := by
  unfold sentimentOf
  by_cases hpositive : 9 / 2 ≤ q
  · rw [if_pos hpositive, if_pos (hpositive.trans h)]
  by_cases hfavorable : 7 / 2 ≤ q
  · rw [if_neg hpositive, if_pos hfavorable, if_pos (hfavorable.trans h)]
    split <;> decide
  by_cases hmixed : 5 / 2 ≤ q
  · rw [if_neg hpositive, if_neg hfavorable, if_pos hmixed, if_pos (hmixed.trans h)]
    split
    · decide
    split <;> decide
  · rw [if_neg hpositive, if_neg hfavorable, if_neg hmixed]
    exact Nat.zero_le _

/-- The text ends in the sentence of this class. -/
def ReadsAs (summary : String) (c : Sentiment) : Prop := c.sentence.toList <:+ summary.toList

theorem readsAs_unique {summary : String} {c d : Sentiment} (hc : ReadsAs summary c)
    (hd : ReadsAs summary d) : c = d := by
  have hnot : ∀ c d : Sentiment, c.sentence.toList <:+ d.sentence.toList → c = d := by
    intro c d
    cases c <;> cases d <;> decide
  rcases List.suffix_or_suffix_of_suffix hc hd with h | h
  · exact hnot c d h
  · exact (hnot d c h).symm

/-- The text of a provider with reviews, with the mean printed in hundredths. -/
def reviewedText (name : String) (totalCount hundredths : Nat) (c : Sentiment) : String :=
  name ++ " has " ++ toString totalCount ++ " reviews with an average " ++ "rating of " ++
    (toString (hundredths / 100) ++ "." ++ String.ofList (digits 2 hundredths)) ++ "/5.0. " ++
      c.sentence

/-- The class a printed mean stands for. -/
def sentimentOfPrinted (hundredths : Nat) : Sentiment :=
  if 450 ≤ hundredths then .positive
  else if 350 ≤ hundredths then .favorable
  else if 250 ≤ hundredths then .mixed
  else .dissatisfied

theorem readsAs_reviewedText {name : String} {totalCount hundredths : Nat} {c d : Sentiment} :
    ReadsAs (reviewedText name totalCount hundredths c) d ↔ d = c := by
  have hself : ReadsAs (reviewedText name totalCount hundredths c) c := by
    unfold ReadsAs reviewedText
    rw [String.toList_append]
    exact List.suffix_append _ _
  constructor
  · intro hd
    exact readsAs_unique hd hself
  · rintro rfl
    exact hself

theorem sentimentOf_hundredths (h : Nat) : sentimentOf ((h : ℚ) / 100) = sentimentOfPrinted h := by
  have hbound : ∀ n : Nat, ((n : ℚ) / 100 ≤ (h : ℚ) / 100 ↔ n ≤ h) := by
    intro n
    rw [div_le_div_iff_of_pos_right (by norm_num)]
    exact Nat.cast_le
  have h450 : 9 / 2 ≤ (h : ℚ) / 100 ↔ 450 ≤ h := by
    rw [← hbound 450]
    norm_num
  have h350 : 7 / 2 ≤ (h : ℚ) / 100 ↔ 350 ≤ h := by
    rw [← hbound 350]
    norm_num
  have h250 : 5 / 2 ≤ (h : ℚ) / 100 ↔ 250 ≤ h := by
    rw [← hbound 250]
    norm_num
  unfold sentimentOf sentimentOfPrinted
  simp only [h450, h350, h250]

end Classes

section Ratings
variable {p : UUID}

/-- The ratings of a provider among some rows. -/
def ratingsAmong (rows : List Review) (p : UUID) : List Int :=
  (rows.filter fun r => r.providerId = p).map Review.rating

theorem ratingsOf_eq (t : Tables) : t.ratingsOf p = ratingsAmong t.reviews p := rfl

theorem mem_ratingsAmong {rows : List Review} {r : Review} (hr : r ∈ rows)
    (hp : r.providerId = p) : r.rating ∈ ratingsAmong rows p :=
  List.mem_map_of_mem (List.mem_filter.mpr ⟨hr, by simpa using hp⟩)

theorem ratingsAmong_cons_own {r : Review} {rows : List Review} (hp : r.providerId = p) :
    ratingsAmong (r :: rows) p = r.rating :: ratingsAmong rows p := by
  simp [ratingsAmong, hp]

theorem ratingsAmong_perm {rows rows' : List Review} (h : rows.Perm rows') :
    (ratingsAmong rows p).Perm (ratingsAmong rows' p) := (h.filter _).map _

/-- Rows that are rewritten in place, with the same provider and no lower a rating. -/
theorem ratingsAmong_map {rows : List Review} {f : Review → Review}
    (hprovider : ∀ r ∈ rows, (f r).providerId = r.providerId)
    (hrating : ∀ r ∈ rows, r.rating ≤ (f r).rating) :
    List.Forall₂ (fun x y => x ≤ y) (ratingsAmong rows p) (ratingsAmong (rows.map f) p) := by
  induction rows with
  | nil => exact .nil
  | cons r rows ih =>
    have hrest := ih (fun x hx => hprovider x (List.mem_cons_of_mem r hx))
      fun x hx => hrating x (List.mem_cons_of_mem r hx)
    have hsame := hprovider r List.mem_cons_self
    rw [List.map_cons]
    by_cases hp : r.providerId = p
    · rw [ratingsAmong_cons_own hp, ratingsAmong_cons_own (hsame.trans hp)]
      exact .cons (hrating r List.mem_cons_self) hrest
    · have hother : ∀ x : Review, x.providerId = r.providerId → ∀ xs,
          ratingsAmong (x :: xs) p = ratingsAmong xs p := by
        intro x hx xs
        simp [ratingsAmong, hx, hp]
      rw [hother r rfl, hother (f r) hsame]
      exact hrest

/-- The row of a key, and the rows of the others. -/
theorem perm_cons_filter_key {α κ : Type} [DecidableEq κ] {key : α → κ} {rows : List α}
    (h : (rows.map key).Nodup) {a : α} (ha : a ∈ rows) :
    rows.Perm (a :: rows.filter fun x => key x ≠ key a) := by
  induction rows with
  | nil => cases ha
  | cons x xs ih =>
    obtain ⟨hfirst, hrest⟩ := List.nodup_cons.mp h
    rcases List.mem_cons.mp ha with rfl | ha
    · have hall : xs.filter (fun x => key x ≠ key a) = xs := by
        refine List.filter_eq_self.mpr fun x hx => ?_
        have hne : key x ≠ key a := fun heq => hfirst (heq ▸ List.mem_map_of_mem hx)
        simpa using hne
      rw [List.filter_cons_of_neg (by simp), hall]
    · have hne : key x ≠ key a := fun heq => hfirst (heq ▸ List.mem_map_of_mem ha)
      rw [List.filter_cons_of_pos (by simpa using hne)]
      exact ((ih hrest ha).cons x).trans (.swap a x _)

end Ratings

section Steps
variable {s : Store} {p : UUID} {e : Event}

/-- What can only be for the better of the provider's reviews. -/
inductive Improvement (s : Store) (p : UUID) : Event → Prop
  | raised {amb : Ambient} {caller : UUID} {reviewUpdate : ReviewUpdate} {r : Review}
      (hr : r ∈ s.reviews) (hp : r.providerId = p)
      (hraised : r.rating ≤ (r.revised reviewUpdate).rating) :
      Improvement s p (.request amb caller (.updateReview r.id reviewUpdate))
  | added {amb : Ambient} {caller : UUID} {reviewIn : ReviewCreate} {b : Booking}
      (hb : b ∈ s.bookings) (hkey : b.id = reviewIn.bookingId) (hp : b.providerId = p)
      (hmean : mean (s.ratingsOf p) ≤ reviewIn.rating) :
      Improvement s p (.request amb caller (.createReview reviewIn))
  | removed {amb : Ambient} {caller : UUID} {r other : Review} (hr : r ∈ s.reviews)
      (hp : r.providerId = p) (hmean : r.rating ≤ mean (s.ratingsOf p))
      (hother : other ∈ s.reviews) (hremains : other.providerId = p) (hne : other.id ≠ r.id) :
      Improvement s p (.request amb caller (.deleteReview r.id))

/-- A row whose rating is raised. -/
theorem mean_raised (hsome : s.ratingsOf p ≠ []) {r : Review} {reviewUpdate : ReviewUpdate}
    (hr : r ∈ s.reviews) (hraised : r.rating ≤ (r.revised reviewUpdate).rating) :
    ratingsAmong (s.reviews.map fun x =>
        if x.id = r.id then r.revised reviewUpdate else x) p ≠ [] ∧
      mean (s.ratingsOf p) ≤ mean (ratingsAmong (s.reviews.map fun x =>
        if x.id = r.id then r.revised reviewUpdate else x) p) := by
  have hrow : ∀ x ∈ s.reviews, x.id = r.id → x = r := fun x hx hid =>
    List.inj_on_of_nodup_map s.sound.reviewsKey hx hr hid
  have hpairs : List.Forall₂ (fun x y => x ≤ y) (ratingsAmong s.reviews p)
      (ratingsAmong (s.reviews.map fun x =>
        if x.id = r.id then r.revised reviewUpdate else x) p) := by
    refine ratingsAmong_map (fun x hx => ?_) fun x hx => ?_
    · split
      · rename_i hid
        rw [hrow x hx hid]
        rfl
      · rfl
    · split
      · rename_i hid
        rw [hrow x hx hid]
        exact hraised
      · exact le_rfl
  refine ⟨fun hnil => hsome ?_, mean_le_mean_of_forall₂ hpairs⟩
  rw [hnil] at hpairs
  exact List.forall₂_nil_right_iff.mp hpairs

/-- A row at the end that is at least as good as the mean. -/
theorem mean_added (hsome : s.ratingsOf p ≠ []) {r : Review} (hp : r.providerId = p)
    (hmean : mean (s.ratingsOf p) ≤ r.rating) :
    ratingsAmong (s.reviews ++ [r]) p ≠ [] ∧
      mean (s.ratingsOf p) ≤ mean (ratingsAmong (s.reviews ++ [r]) p) := by
  have hperm : (ratingsAmong (s.reviews ++ [r]) p).Perm (r.rating :: s.ratingsOf p) :=
    (ratingsAmong_perm (List.perm_append_singleton _ _)).trans (.of_eq (ratingsAmong_cons_own hp))
  refine ⟨fun hnil => ?_, ?_⟩
  · rw [hnil] at hperm
    exact List.cons_ne_nil _ _ hperm.nil_eq.symm
  · rw [mean_perm hperm]
    exact mean_le_mean_cons hsome hmean

/-- A row that is at most as good as the mean and not the last one. -/
theorem mean_removed {r other : Review} (hr : r ∈ s.reviews) (hp : r.providerId = p)
    (hmean : r.rating ≤ mean (s.ratingsOf p)) (hother : other ∈ s.reviews)
    (hremains : other.providerId = p) (hne : other.id ≠ r.id) :
    ratingsAmong (s.reviews.filter fun x => x.id ≠ r.id) p ≠ [] ∧
      mean (s.ratingsOf p) ≤ mean (ratingsAmong (s.reviews.filter fun x => x.id ≠ r.id) p) := by
  have hperm : (s.ratingsOf p).Perm
      (r.rating :: ratingsAmong (s.reviews.filter fun x => x.id ≠ r.id) p) :=
    (ratingsAmong_perm (perm_cons_filter_key s.sound.reviewsKey hr)).trans
      (.of_eq (ratingsAmong_cons_own hp))
  have hleft : ratingsAmong (s.reviews.filter fun x => x.id ≠ r.id) p ≠ [] :=
    List.ne_nil_of_mem (mem_ratingsAmong
      (List.mem_filter.mpr ⟨hother, by simpa using hne⟩) hremains)
  rw [mean_perm hperm] at hmean ⊢
  exact ⟨hleft, mean_cons_le_mean hleft hmean⟩

/-- The exact mean does not go down. -/
theorem mean_step (hsome : s.ratingsOf p ≠ []) (h : Improvement s p e) :
    (step s e).ratingsOf p ≠ [] ∧ mean (s.ratingsOf p) ≤ mean ((step s e).ratingsOf p) := by
  have hchange := step_reviews s e
  rw [ratingsOf_eq (step s e).toTables]
  generalize (step s e).reviews = rows at hchange ⊢
  cases h with
  | @raised amb caller reviewUpdate r hr hp hraised =>
    cases hchange with
    | kept => exact ⟨hsome, le_rfl⟩
    | added he => cases he
    | withdrawn he => cases he
    | @revised _ _ _ x he _ hx =>
      obtain ⟨hid, rfl⟩ : r.id = x.id ∧ reviewUpdate = _ := by
        injection he with _ _ hreq
        injection hreq with hid hupdate
        exact ⟨hid, hupdate⟩
      obtain rfl := List.inj_on_of_nodup_map s.sound.reviewsKey hr hx hid
      exact mean_raised hsome hr hraised
  | @added amb caller reviewIn b hb hkey hp hmean =>
    cases hchange with
    | kept => exact ⟨hsome, le_rfl⟩
    | revised he => cases he
    | withdrawn he => cases he
    | @added amb' author _ x he _ hx hxkey =>
      obtain rfl : reviewIn = _ := by
        injection he with _ _ hreq
        injection hreq
      obtain rfl := s.booking_unique hb hx (hkey.trans hxkey.symm)
      exact mean_added hsome hp hmean
  | @removed amb caller r other hr hp hmean hother hremains hne =>
    cases hchange with
    | kept => exact ⟨hsome, le_rfl⟩
    | added he => cases he
    | revised he => cases he
    | @withdrawn _ _ x he _ hx =>
      have hid : r.id = x.id := by
        injection he with _ _ hreq
        injection hreq
      obtain rfl := List.inj_on_of_nodup_map s.sound.reviewsKey hr hx hid
      exact mean_removed hr hp hmean hother hremains hne

end Steps

section Summaries
variable {s : Store} {provider : User}

/-- The rounded mean in hundredths, as it is printed. -/
def hundredths (s : Store) (p : UUID) : Nat := (roundHalfEven (mean (s.ratingsOf p) * 100)).toNat

theorem averageRating_eq (hsome : s.ratingsOf provider.id ≠ []) (now : Time) :
    (jobResult s provider now).averageRating = round2 (mean (s.ratingsOf provider.id)) :=
  roundedAverage_of_pos (List.length_pos_iff.mpr hsome)

/-- The job prints the average it reports, with the class that stands for it. -/
theorem jobResult_reviewed (hsome : s.ratingsOf provider.id ≠ []) (now : Time) :
    (jobResult s provider now).averageRating = (hundredths s provider.id : ℚ) / 100 ∧
      (jobResult s provider now).summary = reviewedText provider.name
        (s.ratingsOf provider.id).length (hundredths s provider.id)
        (sentimentOfPrinted (hundredths s provider.id)) := by
  have haverage : (jobResult s provider now).averageRating = _ := averageRating_eq hsome now
  have hone : ((1 : Int) : ℚ) ≤ mean (s.ratingsOf provider.id) := by
    rw [le_mean_iff hsome]
    exact_mod_cast (sum_bounds (ratingsOf_bounds s provider.id)).1
  have hnonneg : 0 ≤ roundHalfEven (mean (s.ratingsOf provider.id) * 100) := by
    apply le_roundHalfEven
    push_cast at hone ⊢
    linarith
  have hcast : ((hundredths s provider.id : Nat) : ℚ) =
      roundHalfEven (mean (s.ratingsOf provider.id) * 100) := by
    exact_mod_cast Int.toNat_of_nonneg hnonneg
  have hvalue : (jobResult s provider now).averageRating =
      (hundredths s provider.id : ℚ) / 100 := by
    rw [haverage, hcast]
    rfl
  refine ⟨hvalue, ?_⟩
  have hprinted : fixed2 (jobResult s provider now).averageRating =
      toString (hundredths s provider.id / 100) ++ "." ++
        String.ofList (digits 2 (hundredths s provider.id)) := by
    unfold fixed2
    rw [haverage, roundHalfEven_round2]
    rfl
  have hlength : (s.ratingsOf provider.id).length ≠ 0 := fun h =>
    hsome (List.length_eq_zero_iff.mp h)
  change summaryText provider.name (s.ratingsOf provider.id).length
    (jobResult s provider now).averageRating = _
  unfold summaryText reviewedText
  rw [if_neg hlength, hprinted, hvalue, sentimentOf_hundredths]

end Summaries

/-- The text prints the average that is reported, and is of the class that stands for it. -/
def ResultDump.Fits (result : ResultDump) (name : String) : Prop :=
  ∃ count printed : Nat, result.averageRating = (printed : ℚ) / 100 ∧
    result.summary = reviewedText name count printed (sentimentOfPrinted printed)

/-- After an improvement the job reports no lower an average and no worse a class, and both
texts fit the averages they print. -/
theorem better_never_reads_worse (s : Store) (provider : User) (hprovider : provider ∈ s.users)
    (hrole : provider.role = .provider) (hsome : s.ratingsOf provider.id ≠ []) (e : Event)
    (he : Improvement s provider.id e) (redis redis' : Redis) (clock clock' : JobClock)
    (j j' : UUID) :
    ∃ (data data' : JobData) (result result' : ResultDump),
      ((processSummaryJob clock j provider.id).exec (atRest s) redis).1 = .ok data ∧
      data.status = .completed ∧ data.result = some result ∧
      ((processSummaryJob clock' j' provider.id).exec (atRest (step s e)) redis').1 = .ok data' ∧
      data'.status = .completed ∧ data'.result = some result' ∧
      result.averageRating ≤ result'.averageRating ∧
      (∃ c c', (∀ d, ReadsAs result.summary d ↔ d = c) ∧
        (∀ d, ReadsAs result'.summary d ↔ d = c') ∧ c.rank ≤ c'.rank) ∧
      result.Fits provider.name ∧ result'.Fits provider.name := by
  have hp : s.user? provider.id = some provider := s.user?_eq_some.mpr ⟨hprovider, rfl⟩
  have hp' : (step s e).user? provider.id = some provider :=
    (step s e).user?_eq_some.mpr ⟨user_stays_step hprovider e, rfl⟩
  obtain ⟨hsome', hmean⟩ := mean_step hsome he
  obtain ⟨hvalue, htext⟩ := jobResult_reviewed hsome clock.finished
  obtain ⟨hvalue', htext'⟩ := jobResult_reviewed hsome' clock'.finished
  have haverage : (jobResult s provider clock.finished).averageRating ≤
      (jobResult (step s e) provider clock'.finished).averageRating := by
    rw [averageRating_eq hsome, averageRating_eq hsome']
    exact round2_mono hmean
  have hrank : (sentimentOfPrinted (hundredths s provider.id)).rank ≤
      (sentimentOfPrinted (hundredths (step s e) provider.id)).rank := by
    rw [← sentimentOf_hundredths, ← sentimentOf_hundredths, ← hvalue, ← hvalue']
    exact sentimentOf_mono haverage
  refine ⟨_, _, _, _, processSummaryJob_ok hp hrole, rfl, rfl, processSummaryJob_ok hp' hrole,
    rfl, rfl, haverage, ⟨_, _, fun d => ?_, fun d => ?_, hrank⟩, ⟨_, _, hvalue, htext⟩,
    _, _, hvalue', htext'⟩
  · rw [htext]
    exact readsAs_reviewedText
  · rw [htext']
    exact readsAs_reviewedText

/-- Alice gives Paula a fifth star. -/
def fifthStar : ReviewUpdate := ⟨some 5, none, by simp, noComment⟩

theorem better_never_reads_worse_paula :
    ∃ data data' result result',
      ((processSummaryJob ⟨1, 2, 3⟩ 7 paula.id).exec (atRest paulasReview) noJobs).1 = .ok data ∧
      data.result = some result ∧
      ((processSummaryJob ⟨4, 5, 6⟩ 8 paula.id).exec (atRest (step paulasReview
        (.request (sampleAmbient 0 0) alice.id (.updateReview 30 fifthStar)))) noJobs).1 =
          .ok data' ∧
      data'.result = some result' ∧ result.averageRating ≤ result'.averageRating := by
  have hbetter : Improvement paulasReview paula.id
      (.request (sampleAmbient 0 0) alice.id (.updateReview 30 fifthStar)) :=
    .raised (r := ⟨30, 10, alice.id, paula.id, 4, none, 12 * hour⟩) (by decide) rfl (by decide)
  obtain ⟨data, data', result, result', hdata, _, hresult, hdata', _, hresult', hle, _⟩ :=
    better_never_reads_worse paulasReview paula (by decide) rfl (by decide) _ hbetter noJobs noJobs
      ⟨1, 2, 3⟩ ⟨4, 5, 6⟩ 7 8
  exact ⟨data, data', result, result', hdata, hresult, hdata', hresult', hle⟩

end BookingPlatform

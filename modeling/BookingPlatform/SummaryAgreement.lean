import BookingPlatform.Listing
import BookingPlatform.Remote.Solo
import BookingPlatform.TornReads

/-!
# Two summaries and a list

The aggregates of a provider's reviews are computed twice, and the list shows the same rows.
On a store at rest the three agree.
-/

namespace BookingPlatform

set_option autoImplicit false

open Transact Transact.Program

section Request
variable {s : Store} {p : UUID}

theorem average_in_bounds (s : Store) (p : UUID) :
    0 ≤ roundedAverage (average (s.ratingsOf p)) ∧
      roundedAverage (average (s.ratingsOf p)) ≤ 5 := by
  obtain ⟨hlo, hhi⟩ := roundedAverage_bounds (ratingsOf_bounds s p) (by decide)
  exact ⟨hlo, by exact_mod_cast hhi⟩

/-- The answer of the request on this store. -/
def reviewSummary (s : Store) (p : UUID) : ProviderReviewSummary where
  providerId := p
  reviewCount := (s.ratingsOf p).length
  averageRating := roundedAverage (average (s.ratingsOf p))
  ratingDistribution := distributionOf (groupCounts (s.ratingsOf p))
  averageBounds := average_in_bounds s p

theorem getProviderReviewSummary_ok {provider : User} (hp : s.user? p = some provider)
    (hrole : provider.role = .provider) :
    outcome s (getProviderReviewSummary p) = .ok (reviewSummary s p) := by
  refine outcome_of_exec (σ := .fresh s) ?_
  refine (exec_bind_ok (exec_getOr404_some
    (by rw [exec_getUser, Session.fresh_working, hp]))).trans ?_
  refine (exec_pass (not_not.mpr hrole)).trans ?_
  refine (exec_bind_ok (exec_select _ _)).trans ((exec_bind_ok (exec_select _ _)).trans ?_)
  rw [exec_ofExcept]
  refine congrArg (Prod.mk · _) ?_
  exact dif_pos (average_in_bounds s p)

end Request

section Job
open Remote Remote.Script
variable {s : Store} {p j : UUID} {clock : JobClock} {redis : Redis}

/-- No command raises, and the database does not change. -/
def atRest (s : Store) : Nat → Moment := fun _ => ⟨s, none⟩

/-- The result of the job on this store. -/
def jobResult (s : Store) (provider : User) (finishedAt : Time) : ReviewSummaryResult :=
  { summaryResult provider provider.id
      ((s.ratingsOf provider.id).length, average (s.ratingsOf provider.id))
      (groupCounts (s.ratingsOf provider.id)) finishedAt with
    countBound := Int.natCast_nonneg _
    averageBounds := average_in_bounds s provider.id }

theorem exec_command {α : Type} {c : Command} {k : c.Reply → Script backend α} {a : c.Reply}
    {st st' : Redis} (h : perform c ⟨s, none⟩ st = (.ok a, st')) :
    (send c >>= k).exec (atRest s) st = (k a).exec (atRest s) st' :=
  Script.exec_bind_ok (Script.exec_send_eq (S := backend)
    (show perform c (atRest s 0) st = _ from h))

theorem exec_trying {c : Command} {data : JobData} {k : c.Reply → Script backend JobData}
    {a : c.Reply} {st : Redis} (h : perform c ⟨s, none⟩ st = (.ok a, st)) :
    (trying clock j data (send c) k).exec (atRest s) st = (k a).exec (atRest s) st :=
  Script.exec_bind_ok (Script.exec_attempt_eq (r := .ok a)
    (Script.exec_send_eq (S := backend) (show perform c (atRest s 0) st = _ from h)))

theorem processSummaryJob_ok {provider : User} (hp : s.user? provider.id = some provider)
    (hrole : provider.role = .provider) :
    ((processSummaryJob clock j provider.id).exec (atRest s) redis).1 =
      .ok (JobData.completed (.started (redis.records j) j provider.id clock.started)
        (jobResult s provider clock.finished) clock.finished) := by
  have hfound : ∀ st, perform (.sql (.user provider.id)) ⟨s, none⟩ st =
      (.ok (some provider), st) := fun st => congrArg (fun x => (Except.ok x, st)) hp
  have hvalid : (summaryResult provider provider.id (s.answer (.reviewStats provider.id))
      (s.answer (.ratingCounts provider.id)) clock.finished).validate =
        .ok (jobResult s provider clock.finished) :=
    dif_pos ⟨Int.natCast_nonneg _, average_in_bounds s provider.id⟩
  unfold processSummaryJob
  rw [exec_command rfl, exec_command rfl, exec_trying (hfound _)]
  change Prod.fst (Script.exec (if _ then _ else _) _ _) = _
  rw [if_neg (not_not.mpr hrole), exec_trying rfl, exec_trying rfl]
  simp only [hvalid]
  rfl

end Job

section Buckets
variable {s : Store}

theorem count_ratingsOf (s : Store) (p : UUID) (r : Int) :
    (s.ratingsOf p).count r =
      (s.reviews.filter fun y => y.providerId = p && y.rating = r).length := by
  unfold Tables.ratingsOf List.count
  rw [List.countP_map, List.countP_filter, List.countP_eq_length_filter]
  refine congrArg List.length (List.filter_congr fun y _ => ?_)
  simp [Bool.and_comm, beq_eq_decide]

/-- Whose list with which provider filter shows the reviews of this provider. -/
def Lists (provider caller : User) (wanted : Option UUID) : Prop :=
  (caller = provider ∧ (wanted = none ∨ wanted = some provider.id)) ∨
    (caller.role = .admin ∧ wanted = some provider.id)

/-- All pages of such a list, with a rating filter, hold the reviews that are counted. -/
theorem length_pages {provider caller : User} {wanted : Option UUID} {limit : Nat}
    (hrole : provider.role = .provider) (hlists : Lists provider caller wanted)
    (hlimit : 1 ≤ limit) (r : Int) :
    ∃ pages, (∀ xs, ListsReviews s caller wanted (some r) limit xs ↔ xs = pages) ∧
      pages.length = (s.ratingsOf provider.id).count r := by
  refine ⟨_, listsReviews_iff hlimit wanted (some r), ?_⟩
  rw [List.length_insertionSort, count_ratingsOf]
  refine congrArg List.length (List.filter_congr fun y _ => ?_)
  rcases hlists with ⟨rfl, rfl | rfl⟩ | ⟨hadmin, rfl⟩
  · simp [Review.visibleTo, hrole]
  · simp [Review.visibleTo, hrole]
  · simp [Review.visibleTo, hadmin]

end Buckets

/-- On a store at rest, the request and the job report the same figures of a provider: five
buckets that hold as many reviews as the list shows for each rating, their number, and
their mean to two decimals. -/
theorem summaries_agree (s : Store) (provider : User) (hprovider : provider ∈ s.users)
    (hrole : provider.role = .provider) (redis : Redis) (clock : JobClock) (j : UUID) :
    ∃ (x : ProviderReviewSummary) (data : JobData) (result : ResultDump),
      outcome s (getProviderReviewSummary provider.id) = .ok x ∧
      ((processSummaryJob clock j provider.id).exec (atRest s) redis).1 = .ok data ∧
      data.status = .completed ∧ data.result = some result ∧
      (result.reviewCount = x.reviewCount ∧ result.averageRating = x.averageRating ∧
        result.ratingDistribution = x.ratingDistribution) ∧
      x.ratingDistribution.map Prod.fst = [1, 2, 3, 4, 5] ∧
      (∀ r cnt, (r, cnt) ∈ x.ratingDistribution →
        cnt = (s.reviews.filter fun y => y.providerId = provider.id && y.rating = r).length ∧
        ∀ caller wanted limit, Lists provider caller wanted → 1 ≤ limit →
          ∃ pages, (∀ xs, ListsReviews s caller wanted (some r) limit xs ↔ xs = pages) ∧
            pages.length = cnt) ∧
      x.ratingDistribution.total = x.reviewCount ∧
      (x.reviewCount = 0 → x.averageRating = 0) ∧
      (0 < x.reviewCount →
        x.averageRating = round2 (x.ratingDistribution.weighted / x.reviewCount) ∧
          1 ≤ x.averageRating ∧ x.averageRating ≤ 5) := by
  have hp : s.user? provider.id = some provider := s.user?_eq_some.mpr ⟨hprovider, rfl⟩
  have hbounds := ratingsOf_bounds s provider.id
  obtain ⟨htotal, hweighted⟩ := distributionOf_sums hbounds
  have hbuckets : (reviewSummary s provider.id).ratingDistribution =
      [1, 2, 3, 4, 5].map fun k => (k, (s.ratingsOf provider.id).count k) :=
    distributionOf_eq hbounds
  refine ⟨_, _, _, getProviderReviewSummary_ok hp hrole, processSummaryJob_ok hp hrole, rfl, rfl,
    ⟨rfl, rfl, rfl⟩, ?_, fun r cnt hmem => ?_, htotal, fun hzero => ?_, fun hpos => ?_⟩
  · rw [hbuckets]
    rfl
  · rw [hbuckets] at hmem
    obtain ⟨k, _, hk⟩ := List.mem_map.mp hmem
    obtain ⟨rfl, rfl⟩ := Prod.mk.inj hk
    exact ⟨count_ratingsOf s provider.id k, fun caller wanted limit hlists hlimit =>
      length_pages hrole hlists hlimit k⟩
  · have hnone : s.ratingsOf provider.id = [] := List.length_eq_zero_iff.mp hzero
    change roundedAverage (average (s.ratingsOf provider.id)) = 0
    rw [hnone]
    rfl
  · have hpos' : 0 < (s.ratingsOf provider.id).length := hpos
    have hmean : (reviewSummary s provider.id).averageRating =
        round2 ((s.ratingsOf provider.id).sum / (s.ratingsOf provider.id).length) :=
      roundedAverage_of_pos hpos'
    refine ⟨?_, ?_, (average_in_bounds s provider.id).2⟩
    · rw [hmean]
      change _ = round2 ((distributionOf (groupCounts (s.ratingsOf provider.id))).weighted / _)
      rw [hweighted]
      rfl
    · rw [hmean]
      have hone : ((1 : Int) : ℚ) ≤
          (s.ratingsOf provider.id).sum / (s.ratingsOf provider.id).length := by
        have hlength : (0 : ℚ) < (s.ratingsOf provider.id).length := by exact_mod_cast hpos'
        rw [le_div_iff₀ hlength]
        exact_mod_cast (sum_bounds hbounds).1
      exact_mod_cast le_round2 hone

/-- Alice's hour with Paula, reviewed with four stars. -/
def paulasReview : Store where
  users := newPlatform.users
  bookings := [⟨10, alice.id, paula.id, "Massage", 10 * hour, 11 * hour, .completed⟩]
  reviews := [⟨30, 10, alice.id, paula.id, 4, none, 12 * hour⟩]
  notifications := []
  sound := by decide

theorem summaries_agree_paula :
    ∃ (x : ProviderReviewSummary) (data : JobData) (result : ResultDump),
      outcome paulasReview (getProviderReviewSummary paula.id) = .ok x ∧
      ((processSummaryJob ⟨1, 2, 3⟩ 7 paula.id).exec (atRest paulasReview) noJobs).1 = .ok data ∧
      data.result = some result ∧ result.averageRating = x.averageRating ∧
      x.ratingDistribution.total = x.reviewCount := by
  obtain ⟨x, data, result, hx, hdata, _, hresult, ⟨_, hmean, _⟩, _, _, htotal, _⟩ :=
    summaries_agree paulasReview paula (by decide) rfl noJobs ⟨1, 2, 3⟩ 7
  exact ⟨x, data, result, hx, hdata, hresult, hmean, htotal⟩

end BookingPlatform

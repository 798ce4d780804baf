import BookingPlatform.JobQueue
import BookingPlatform.Remote.Turns
import BookingPlatform.ReviewRace
import BookingPlatform.Transact.Readers

/-!
# Summaries torn between two reads

Count and mean come from one SELECT and the distribution from the next. A summary agrees
with itself when no commit between the two has changed the figures of the first.
-/

namespace BookingPlatform

set_option autoImplicit false

open Transact Transact.Program

section Figures

/-- The distribution describes as many reviews as are counted, and their mean. -/
structure Tallies (reviewCount : Int) (averageRating : ℚ) (d : Distribution) : Prop where
  total : (d.total : Int) = reviewCount
  mean : 0 < reviewCount → averageRating = round2 (d.weighted / d.total)

/-- The number of the provider's reviews, and their mean to two decimals. -/
def figures (s : Store) (providerId : UUID) : Nat × ℚ :=
  ((s.ratingsOf providerId).length, roundedAverage (average (s.ratingsOf providerId)))

theorem roundedAverage_of_pos {values : List Int} (h : 0 < values.length) :
    roundedAverage (average values) = round2 (values.sum / values.length) := by
  unfold average
  rw [if_neg (List.length_pos_iff.mp h)]
  rfl

/-- Count and mean of one store match the distribution of another if and only if the two
stores have the same figures. -/
theorem tallies_iff (s t : Store) (p : UUID) :
    Tallies (s.ratingsOf p).length (roundedAverage (average (s.ratingsOf p)))
      (distributionOf (groupCounts (t.ratingsOf p))) ↔ figures s p = figures t p := by
  obtain ⟨htotal, hweighted⟩ := distributionOf_sums (ratingsOf_bounds t p)
  constructor
  · rintro ⟨hcount, hmean⟩
    rw [htotal] at hcount
    have hlength : (s.ratingsOf p).length = (t.ratingsOf p).length := by omega
    refine Prod.ext hlength ?_
    change roundedAverage _ = roundedAverage _
    by_cases hpos : 0 < (s.ratingsOf p).length
    · rw [hmean (by omega), htotal, hweighted, roundedAverage_of_pos (hlength ▸ hpos)]
    · have hs : s.ratingsOf p = [] := List.length_eq_zero_iff.mp (by omega)
      have ht : t.ratingsOf p = [] := List.length_eq_zero_iff.mp (by omega)
      rw [hs, ht]
  · intro hfigures
    obtain ⟨hlength, hmean⟩ := Prod.mk.inj hfigures
    refine ⟨by rw [htotal, hlength], fun hpos => ?_⟩
    rw [hmean, htotal, hweighted, roundedAverage_of_pos (by omega)]

end Figures

section Request
variable {amb : Ambient} {caller p : UUID}

theorem readsOnly_summary : (serve amb caller (.getProviderReviewSummary p)).ReadsOnly := by
  refine readsOnly_bind (readsOnly_bind (readsOnly_select _) fun user => ?_) fun user => ?_
  · cases user <;> trivial
  refine readsOnly_bind (readsOnly_bind (readsOnly_bind (readsOnly_select _) fun provider => ?_)
    fun provider => ?_) fun _ => trivial
  · cases provider <;> trivial
  refine readsOnly_bind (readsOnly_refuseIf _ _) fun _ => ?_
  refine readsOnly_bind (readsOnly_select _) fun stats => ?_
  exact readsOnly_bind (readsOnly_select _) fun distRows => trivial

theorem replay_getOr404 {α : Type} {row : Service (Option α)} {detail : String} {a : α}
    {seen rest : List Store} (h : (getOr404 row detail).replay seen = some (.ok a, rest)) :
    row.replay seen = some (.ok (some a), rest) := by
  obtain ⟨found, mid, hrow, hfound⟩ := replay_bind h
  cases found with
  | none => cases (replay_done hfound).1
  | some b =>
    obtain ⟨hb, rfl⟩ := replay_done hfound
    rw [hrow, Except.ok.inj hb]

/-- Count and mean are those of the third store the request meets, the distribution that of
the fourth. -/
theorem replay_summary {seen rest : List Store} {x : ProviderReviewSummary}
    (h : (serve amb caller (.getProviderReviewSummary p)).replay seen =
      some (.ok (.summary x), rest)) :
    ∃ s₁ s₂ s t, seen = s₁ :: s₂ :: s :: t :: rest ∧
      x.reviewCount = (s.ratingsOf p).length ∧
      x.averageRating = roundedAverage (average (s.ratingsOf p)) ∧
      x.ratingDistribution = distributionOf (groupCounts (t.ratingsOf p)) := by
  obtain ⟨user, seen₁, huser, hhandle⟩ := replay_bind h
  obtain ⟨found, mid, hfound, hcurrent⟩ := replay_bind huser
  obtain ⟨s₁, rfl, _⟩ := replay_select hfound
  obtain rfl : seen₁ = mid := by
    cases found with
    | none => cases (replay_done hcurrent).1
    | some u => exact (replay_done hcurrent).2
  obtain ⟨y, hservice, hy⟩ := replay_map hhandle
  obtain rfl := Response.summary.inj hy
  obtain ⟨provider, seen₂, hprovider, hchecked⟩ := replay_bind hservice
  obtain ⟨s₂, rfl, _⟩ := replay_select (replay_getOr404 hprovider)
  obtain ⟨_, _, hrole, hfirst⟩ := replay_bind hchecked
  obtain ⟨_, rfl⟩ := replay_refuseIf hrole
  obtain ⟨stats, _, hstats, hsecond⟩ := replay_bind hfirst
  obtain ⟨s, rfl, rfl⟩ := replay_select hstats
  obtain ⟨distRows, _, hrows, hlast⟩ := replay_bind hsecond
  obtain ⟨t, rfl, rfl⟩ := replay_select hrows
  obtain ⟨hsummary, rfl⟩ := replay_done hlast
  unfold providerReviewSummary at hsummary
  split at hsummary
  · obtain rfl := Except.ok.inj hsummary
    exact ⟨s₁, s₂, s, t, rfl, rfl, rfl, rfl⟩
  · cases hsummary

end Request

section Job
open Remote Remote.Script
variable {clock : JobClock} {j p : UUID} {turns rest : List (Moment × Redis)} {last : JobData}

theorem perform_sql {q : Query} {m : Moment} {s : Redis} {a : q.Answer}
    (h : (perform (.sql q) m s).1 = .ok a) : m.db.answer q = a := by
  unfold perform at h
  cases hm : m.raises with
  | none =>
    rw [hm] at h
    exact Except.ok.inj h
  | some text =>
    rw [hm] at h
    cases h

/-- A job that ends completed has got through every command of its try block. -/
theorem replay_trying {c : Command} {data : JobData} {k : c.Reply → Script backend JobData}
    (h : (trying clock j data (send c) k).replay turns = some (.ok last, rest))
    (hlast : last.status = .completed) :
    ∃ t mid a, turns = t :: mid ∧ (perform c t.1 t.2).1 = .ok a ∧
      (k a).replay mid = some (.ok last, rest) := by
  obtain ⟨r, mid, hattempt, hnext⟩ := Script.replay_bind h
  obtain ⟨t, rfl, hreply⟩ := Script.replay_attempt_send hattempt
  cases r with
  | ok a => exact ⟨t, mid, a, rfl, hreply, hnext⟩
  | error exc =>
    obtain ⟨_, _, _, hfailed⟩ := Script.replay_bind hnext
    obtain ⟨hdata, _⟩ := Script.replay_done hfailed
    obtain rfl := Except.ok.inj hdata
    cases hlast

theorem replay_store {data : JobData}
    (h : (store clock j data).replay turns = some (.ok last, rest))
    (hlast : last.status = .completed) : ∃ t, turns = t :: rest ∧ last = data := by
  obtain ⟨t, mid, _, rfl, _, hdone⟩ := replay_trying h hlast
  obtain ⟨hdata, rfl⟩ := Script.replay_done hdone
  exact ⟨t, rfl, (Except.ok.inj hdata).symm⟩

/-- Count and mean are those of the database at the fourth command of the job, the
distribution that of the database at the fifth. -/
theorem replay_processSummaryJob
    (h : (processSummaryJob clock j p).replay turns = some (.ok last, rest))
    (hlast : last.status = .completed) :
    ∃ t₁ t₂ t₃ s t t₆ result, turns = t₁ :: t₂ :: t₃ :: s :: t :: t₆ :: rest ∧
      last.result = some result ∧
      result.reviewCount = (s.1.db.ratingsOf p).length ∧
      result.averageRating = roundedAverage (average (s.1.db.ratingsOf p)) ∧
      result.ratingDistribution = distributionOf (groupCounts (t.1.db.ratingsOf p)) := by
  obtain ⟨raw, _, hget, hloaded⟩ := Script.replay_bind h
  obtain ⟨t₁, rfl, _⟩ := Script.replay_send hget
  obtain ⟨_, _, hset, hstarted⟩ := Script.replay_bind hloaded
  obtain ⟨t₂, rfl, _⟩ := Script.replay_send hset
  obtain ⟨t₃, _, provider, rfl, _, hprovider⟩ := replay_trying hstarted hlast
  cases provider with
  | none =>
    obtain ⟨_, _, rfl⟩ := replay_store hprovider hlast
    cases hlast
  | some provider =>
    change Script.replay (if _ then _ else _) _ = _ at hprovider
    split at hprovider
    · obtain ⟨_, _, rfl⟩ := replay_store hprovider hlast
      cases hlast
    obtain ⟨s, _, stats, rfl, hstats, hcounting⟩ := replay_trying hprovider hlast
    obtain ⟨t, _, distRows, rfl, hrows, hresult⟩ := replay_trying hcounting hlast
    obtain rfl := perform_sql hstats
    obtain rfl := perform_sql hrows
    split at hresult
    · obtain ⟨_, _, _, hfailed⟩ := Script.replay_bind hresult
      obtain ⟨hdata, _⟩ := Script.replay_done hfailed
      obtain rfl := Except.ok.inj hdata
      cases hlast
    · rename_i result hvalid
      obtain ⟨t₆, rfl, rfl⟩ := replay_store hresult hlast
      unfold ResultDump.validate at hvalid
      split at hvalid
      · obtain rfl := Except.ok.inj hvalid
        exact ⟨t₁, t₂, t₃, s, t, t₆, _, rfl, rfl, rfl, rfl, rfl⟩
      · cases hvalid

end Job

/-- A summary agrees with itself if and only if the number and the rounded mean of the
provider's reviews were the same when its two aggregates were read, in a request among any
others and in a job among any databases. -/
theorem summary_tallies_iff {ι : Type} [DecidableEq ι] :
    (∀ (s₀ : Store) (events : ι → Event) (schedule : List ι) (i : ι) (amb : Ambient)
      (caller p : UUID) (x : ProviderReviewSummary),
      events i = .request amb caller (.getProviderReviewSummary p) →
      ((concurrently events s₀).run schedule).outcome i = some (.ok (.summary x)) →
      ∃ s₁ s₂ s t rest, (concurrently events s₀).seenBy i schedule = s₁ :: s₂ :: s :: t :: rest ∧
        (Tallies x.reviewCount x.averageRating x.ratingDistribution ↔ figures s p = figures t p)) ∧
    ∀ (s₀ : Redis) (agents : ι → Agent) (schedule : List (ι × Moment)) (i : ι)
      (clock : JobClock) (j p : UUID) (data : JobData), agents i = .process clock j p →
      ((agentsOn s₀ agents).run schedule).outcome i = some (.ok (.processed data)) →
      data.status = .completed →
      ∃ t₁ t₂ t₃ s t t₆ rest result,
        (agentsOn s₀ agents).turns i schedule = t₁ :: t₂ :: t₃ :: s :: t :: t₆ :: rest ∧
        data.result = some result ∧
        (Tallies result.reviewCount result.averageRating result.ratingDistribution ↔
          figures s.1.db p = figures t.1.db p) := by
  constructor
  · intro s₀ events schedule i amb caller p x hi hx
    have hprogram : ((concurrently events s₀).procs i).rest =
        serve amb caller (.getProviderReviewSummary p) := by
      change (events i).program = _
      rw [hi]
      rfl
    obtain ⟨rest, hreplay⟩ := System.outcome_of_reads (S := concurrently events s₀) (i := i)
      (by rw [hprogram]; exact readsOnly_summary) rfl schedule hx
    rw [hprogram] at hreplay
    obtain ⟨s₁, s₂, s, t, hseen, hcount, hmean, hdist⟩ := replay_summary hreplay
    refine ⟨s₁, s₂, s, t, rest, hseen, ?_⟩
    rw [hcount, hmean, hdist]
    exact tallies_iff s t p
  · intro s₀ agents schedule i clock j p data hi hdata hcompleted
    obtain ⟨rest, hreplay⟩ := Remote.System.replay_of_outcome hdata
    have hscript : (agentsOn s₀ agents).scripts i = (Agent.process clock j p).script := by
      change (agents i).script = _
      rw [hi]
    rw [hscript] at hreplay
    obtain ⟨last, hjob, hlast⟩ := Remote.Script.replay_map hreplay
    obtain rfl := Report.processed.inj hlast
    obtain ⟨t₁, t₂, t₃, s, t, t₆, result, hturns, hresult, hcount, hmean, hdist⟩ :=
      replay_processSummaryJob hjob hcompleted
    refine ⟨t₁, t₂, t₃, s, t, t₆, rest, result, hturns, hresult, ?_⟩
    rw [hcount, hmean, hdist]
    exact tallies_iff s.1.db t.1.db p

section Sample

/-- Bob asks for the summary of Paula's reviews while Alice writes one. -/
def asksAndWrites : Bool → Event
  | true => .request (sampleAmbient 0 0) bob.id (.getProviderReviewSummary paula.id)
  | false => (submittedTwice true).event

/-- Alice's request falls between Bob's two aggregates. -/
def between : List Bool := List.replicate 3 true ++ List.replicate 6 false ++ [true]

def tornSummary : ProviderReviewSummary where
  providerId := paula.id
  reviewCount := 0
  averageRating := 0
  ratingDistribution := [(1, 0), (2, 0), (3, 0), (4, 0), (5, 1)]
  averageBounds := by decide +kernel

/-- A job for Paula, with Alice's review committed before the last two of its commands. -/
def paulasJob : Unit → Agent := fun _ => .process ⟨1, 2, 3⟩ 7 paula.id

def writtenMeanwhile : List (Unit × Moment) :=
  List.replicate 4 ((), ⟨completedHour, none⟩) ++
    List.replicate 2 ((), ⟨step completedHour (submittedTwice true).event, none⟩)

def tornJob : JobData :=
  JobData.completed (.started none 7 paula.id 1)
    { summaryResult paula paula.id (0, none) [(5, 1)] 2 with
      countBound := by decide +kernel
      averageBounds := by decide +kernel } 2

/-- No review is counted, and the distribution has one. -/
theorem not_tallies_torn (averageRating : ℚ) :
    ¬ Tallies 0 averageRating [(1, 0), (2, 0), (3, 0), (4, 0), (5, 1)] := fun h =>
  absurd h.total (by decide)

theorem summary_torn :
    (((concurrently asksAndWrites completedHour).run between).outcome true =
        some (.ok (.summary tornSummary)) ∧
      ¬ Tallies tornSummary.reviewCount tornSummary.averageRating
        tornSummary.ratingDistribution) ∧
    ((agentsOn noJobs paulasJob).run writtenMeanwhile).outcome () =
        some (.ok (.processed tornJob)) ∧
      ∃ result, tornJob.result = some result ∧
        ¬ Tallies result.reviewCount result.averageRating result.ratingDistribution :=
  ⟨⟨by decide +kernel, not_tallies_torn _⟩, by decide +kernel, _, rfl, not_tallies_torn _⟩

theorem summary_tallies_iff_bob :
    (∃ s₁ s₂ s t rest, (concurrently asksAndWrites completedHour).seenBy true between =
        s₁ :: s₂ :: s :: t :: rest ∧
      (Tallies tornSummary.reviewCount tornSummary.averageRating
        tornSummary.ratingDistribution ↔ figures s paula.id = figures t paula.id)) ∧
    ∃ t₁ t₂ t₃ s t t₆ rest result, (agentsOn noJobs paulasJob).turns () writtenMeanwhile =
        t₁ :: t₂ :: t₃ :: s :: t :: t₆ :: rest ∧
      tornJob.result = some result ∧
      (Tallies result.reviewCount result.averageRating result.ratingDistribution ↔
        figures s.1.db paula.id = figures t.1.db paula.id) :=
  ⟨summary_tallies_iff.1 completedHour asksAndWrites between true _ _ _ tornSummary rfl
      (by decide +kernel),
    summary_tallies_iff.2 noJobs paulasJob writtenMeanwhile () _ _ _ tornJob rfl
      (by decide +kernel) rfl⟩

end Sample

end BookingPlatform

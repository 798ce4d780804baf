import BookingPlatform.Aggregates
import BookingPlatform.Worker

/-!
# What clients and workers do with a job

The phases an agent goes through, told by its own calls alone: from the record a client
saves to the message it pushes, and from the message a worker pops to the record it
leaves. Every script keeps to them.
-/

namespace BookingPlatform

set_option autoImplicit false

open Remote Remote.Script

inductive Phase where
  | enqueuing (jobId : UUID) (now : Time) (providerId : UUID)
  | saved (jobId providerId : UUID)
  | enqueued (jobId : UUID)
  | polling (jobId : UUID)
  | polled (raw : Option JobData)
  | unavailable
  | idle
  | claimed (jobId providerId : UUID)
  | loaded (jobId providerId : UUID) (raw : Option JobData)
  | working (jobId : UUID) (data : JobData)
  | failing (jobId : UUID) (data : JobData) (exc : Failure)

namespace Phase

/-- The job whose message the agent is handling. -/
def handling : Phase → Option UUID
  | .claimed jobId _ => some jobId
  | .loaded jobId _ _ => some jobId
  | .working jobId _ => some jobId
  | .failing jobId _ _ => some jobId
  | _ => none

end Phase

/-- The record that ends a job: completed, or failed on the data at hand. -/
def JobData.Ends (data last : JobData) : Prop :=
  (∃ error now, last = data.failed error now) ∨ ∃ result now, last = data.completed result now

namespace Phase

def Allows : Phase → Command → Prop
  | .enqueuing jobId now providerId, c =>
    c = .sql (.user providerId) ∨ c = .set jobId (queuedJob jobId now providerId)
  | .saved jobId providerId, c => c = .rpush (.task jobId providerId)
  | .polling jobId, c => c = .get jobId
  | .idle, c => c = .ping ∨ c = .selectOne ∨ c = .blpop
  | .claimed jobId _, c => c = .get jobId
  | .loaded jobId providerId raw, c => ∃ now, c = .set jobId (.started raw jobId providerId now)
  | .working jobId data, c => (∃ q, c = .sql q) ∨ ∃ last, data.Ends last ∧ c = .set jobId last
  | .failing jobId data exc, c => ∃ now, c = .set jobId (data.failed exc.text now)
  | _, _ => False

def next : Phase → (c : Command) → Except Failure c.Reply → Phase
  | .enqueuing jobId _ providerId, .set .., .ok _ => .saved jobId providerId
  | .enqueuing .., .set .., .error _ => .unavailable
  | .saved jobId _, .rpush _, .ok _ => .enqueued jobId
  | .saved .., .rpush _, .error _ => .unavailable
  | .polling _, .get _, .ok raw => .polled raw
  | .polling _, .get _, .error _ => .unavailable
  | .idle, .blpop, .ok (some (.task jobId providerId)) => .claimed jobId providerId
  | .claimed jobId providerId, .get _, .ok raw => .loaded jobId providerId raw
  | .claimed .., .get _, .error _ => .idle
  | .loaded jobId _ _, .set _ data, .ok _ => .working jobId data
  | .loaded .., .set .., .error _ => .idle
  | .working jobId data, .sql _, .error exc => .failing jobId data exc
  | .working .., .set .., .ok _ => .idle
  | .working jobId _, .set _ last, .error exc => .failing jobId last exc
  | .failing .., .set .., _ => .idle
  | q, _, _ => q

end Phase

abbrev jobProtocol : Protocol backend where
  Phase := Phase
  Allows := Phase.Allows
  next := Phase.next

def Agent.start : Agent → Phase
  | .enqueue jobId now providerId => .enqueuing jobId now providerId
  | .poll jobId => .polling jobId
  | .process _ jobId providerId => .claimed jobId providerId
  | .worker .. => .idle

section Scripts
variable {α : Type}

/-- A poll answers with the record it has read. -/
def pollAnswer (raw : Option JobData) : Except Failure Report :=
  match raw with
  | none => .error (.httpException 404 "Summary job not found")
  | some data => Report.job <$> data.validate

/-- How each agent ends. -/
def Agent.Ends : Agent → Except Failure Report → Phase → Prop
  | .enqueue jobId now providerId, r, q => ∀ x, r = .ok x →
    q = .enqueued jobId ∧ Except.ok x = Report.job <$> (queuedJob jobId now providerId).validate
  | .poll _, r, q => (∃ raw, q = .polled raw ∧ r = pollAnswer raw) ∨
    (q = .unavailable ∧ r = .error (.httpException 503 "Task queue is temporarily unavailable"))
  | _, _, q => q = .idle

theorem follows_onException {clock : JobClock} {jobId : UUID} {data : JobData} {exc : Failure}
    {Q : Except Failure JobData → Phase → Prop} (hQ : ∀ r, Q r .idle) :
    (onException clock jobId data exc).Follows jobProtocol Q (.failing jobId data exc) := by
  refine follows_bind (R := fun _ q => q = .idle)
    (follows_send ⟨clock.failed, rfl⟩ (fun _ _ _ _ => rfl) fun _ => rfl) ?_ ?_
  · rintro _ _ rfl
    exact hQ _
  · rintro _ _ rfl
    exact hQ _

/-- A command of the try block: it goes through, or the handler takes over. -/
theorem follows_trying {c : Command} {clock : JobClock} {jobId : UUID} {data : JobData}
    {k : c.Reply → Script backend JobData} {Q : Except Failure JobData → Phase → Prop} {q : Phase}
    (hallows : q.Allows c) (hQ : ∀ r, Q r .idle)
    (hok : ∀ m s a, (perform c m s).1 = .ok a →
      (k a).Follows jobProtocol Q (q.next c (.ok a)))
    (herr : ∀ exc, q.next c (.error exc) = .failing jobId data exc) :
    (trying clock jobId data (send c) k).Follows jobProtocol Q q := by
  let R : Except Failure c.Reply → Phase → Prop := fun r q' =>
    (∀ a, r = .ok a → (k a).Follows jobProtocol Q q') ∧
      ∀ exc, r = .error exc → q' = .failing jobId data exc
  have hsend : (send c).Follows jobProtocol R q := by
    apply follows_send hallows
    · intro m s a ha
      refine ⟨fun b hb => ?_, nofun⟩
      obtain rfl := Except.ok.inj hb
      exact hok m s a ha
    · intro exc
      refine ⟨nofun, fun exc' hexc => ?_⟩
      obtain rfl := Except.error.inj hexc
      exact herr exc
  refine follows_bind (R := fun r q' => ∃ x, r = .ok x ∧ R x q')
    (follows_attempt hsend fun r q' h => ⟨r, rfl, h⟩) ?_ ?_
  · rintro r q' ⟨x, hx, hvalue, hfailing⟩
    obtain rfl := Except.ok.inj hx
    cases r with
    | ok a => exact hvalue a rfl
    | error exc =>
      rw [hfailing exc rfl]
      exact follows_onException hQ
  · rintro exc q' ⟨x, hx, _⟩
    cases hx

theorem follows_store {clock : JobClock} {jobId : UUID} {data last : JobData}
    {Q : Except Failure JobData → Phase → Prop} (hends : data.Ends last) (hQ : ∀ r, Q r .idle) :
    (store clock jobId last).Follows jobProtocol Q (.working jobId data) :=
  follows_trying (.inr ⟨last, hends, rfl⟩) hQ (fun _ _ _ _ => hQ _) fun _ => rfl

theorem ratingsOf_bounds (s : Store) (providerId : UUID) :
    ∀ r ∈ s.ratingsOf providerId, 1 ≤ r ∧ r ≤ 5 := by
  intro r hr
  obtain ⟨review, hreview, rfl⟩ := List.mem_map.mp hr
  exact s.sound.checkReviewRatingRange review (List.mem_of_mem_filter hreview)

/-- What a store counts and averages is within the bounds of the result schema. -/
theorem summaryResult_valid {m : Moment} {t : Redis} {providerId : UUID} {stats : Nat × Option ℚ}
    (h : (perform (.sql (.reviewStats providerId)) m t).1 = .ok stats) (provider : User)
    (rows : List (Int × Nat)) (now : Time) :
    ∃ result, (summaryResult provider providerId stats rows now).validate = .ok result := by
  unfold perform at h
  cases hraises : m.raises with
  | some text =>
    rw [hraises] at h
    cases h
  | none =>
    rw [hraises] at h
    obtain rfl : m.db.answer (.reviewStats providerId) = stats := Except.ok.inj h
    obtain ⟨hlo, hhi⟩ := roundedAverage_bounds (ratingsOf_bounds m.db providerId) (by decide)
    push_cast at hhi
    unfold ResultDump.validate
    rw [dif_pos ⟨Int.natCast_nonneg _, hlo, hhi⟩]
    exact ⟨_, rfl⟩

theorem follows_processSummaryJob {clock : JobClock} {jobId providerId : UUID}
    {Q : Except Failure JobData → Phase → Prop} (hQ : ∀ r, Q r .idle) :
    (processSummaryJob clock jobId providerId).Follows jobProtocol Q
      (.claimed jobId providerId) := by
  refine follows_bind (R := fun r q => match r with
    | .ok raw => q = .loaded jobId providerId raw
    | .error _ => q = .idle) (follows_send rfl (fun _ _ _ _ => rfl) fun _ => rfl) ?_ ?_
  swap
  · rintro e q rfl
    exact hQ _
  rintro raw q rfl
  refine follows_bind (R := fun r q => match r with
    | .ok _ => q = .working jobId (.started raw jobId providerId clock.started)
    | .error _ => q = .idle)
    (follows_send ⟨clock.started, rfl⟩ (fun _ _ _ _ => rfl) fun _ => rfl) ?_ ?_
  swap
  · rintro e q rfl
    exact hQ _
  rintro _ q rfl
  -- Inside the try block: three SELECTs, each of which may hand over to the handler.
  refine follows_trying (.inl ⟨_, rfl⟩) hQ (fun m s provider _ => ?_) fun _ => rfl
  cases provider with
  | none => exact follows_store (.inl ⟨_, _, rfl⟩) hQ
  | some provider =>
    change Script.Follows _ _ (if _ then _ else _) _
    split
    · exact follows_store (.inl ⟨_, _, rfl⟩) hQ
    refine follows_trying (.inl ⟨_, rfl⟩) hQ (fun m s stats hstats => ?_) fun _ => rfl
    refine follows_trying (.inl ⟨_, rfl⟩) hQ (fun m' s' rows _ => ?_) fun _ => rfl
    obtain ⟨result, hresult⟩ := summaryResult_valid hstats provider rows clock.finished
    rw [hresult]
    exact follows_store (.inr ⟨_, _, rfl⟩) hQ

theorem follows_enqueueSummaryJob (jobId : UUID) (now : Time) (providerId : UUID) :
    (enqueueSummaryJob jobId now providerId).Follows jobProtocol
      (fun r q => ∀ x, r = .ok x →
        q = .enqueued jobId ∧ (queuedJob jobId now providerId).validate = .ok x)
      (.enqueuing jobId now providerId) := by
  refine follows_bind (R := fun _ q => q = .enqueuing jobId now providerId)
    (follows_send (.inl rfl) (fun _ _ _ _ => rfl) fun _ => rfl) ?_ fun _ _ _ _ h => nomatch h
  rintro provider _ rfl
  cases provider with
  | none => exact fun _ h => nomatch h
  | some provider =>
    change Script.Follows _ _ (if _ then _ else _) _
    split
    · exact fun _ h => nomatch h
    refine follows_bind (R := fun r q => ∀ x, r = .ok x → q = .enqueued jobId)
      (follows_tryCatch (R := fun r q => ∀ x, r = .ok x → q = .enqueued jobId) ?_
        (fun _ _ h => h) fun _ _ _ _ h => nomatch h) ?_ fun _ _ _ _ h => nomatch h
    · refine follows_bind (R := fun r q => ∀ x, r = .ok x → q = .saved jobId providerId)
        (follows_send (.inr rfl) (fun _ _ _ _ _ _ => rfl) fun _ _ h => nomatch h) ?_
        fun _ _ _ _ h => nomatch h
      intro _ q hq
      obtain rfl := hq _ rfl
      exact follows_send rfl (fun _ _ _ _ _ _ => rfl) fun _ _ h => nomatch h
    · intro _ q hq x hx
      exact ⟨hq _ rfl, hx⟩

theorem follows_getSummaryJob (jobId : UUID) :
    (getSummaryJob jobId).Follows jobProtocol
      (fun r q => (∃ raw, q = .polled raw ∧ Report.job <$> r = pollAnswer raw) ∨
        (q = .unavailable ∧
          r = .error (.httpException 503 "Task queue is temporarily unavailable")))
      (.polling jobId) := by
  refine follows_bind (R := fun r q => match r with
      | .ok raw => q = .polled raw
      | .error e => q = .unavailable ∧
          e = .httpException 503 "Task queue is temporarily unavailable")
    (follows_tryCatch (R := fun r q => match r with
      | .ok raw => q = .polled raw
      | .error _ => q = .unavailable) (follows_send rfl (fun _ _ _ _ => rfl) fun _ => rfl)
      (fun _ _ h => h) fun _ _ h => ⟨h, rfl⟩) ?_ ?_
  · rintro raw _ rfl
    cases raw with
    | none => exact .inl ⟨none, rfl, rfl⟩
    | some data => exact .inl ⟨some data, rfl, rfl⟩
  · rintro e _ ⟨rfl, rfl⟩
    exact .inr ⟨rfl, rfl⟩

theorem follows_checkConnection {c : Command} (h : Phase.idle.Allows c)
    (hidle : ∀ r, Phase.idle.next c r = .idle) :
    (checkConnection c).Follows jobProtocol (fun r q => (∃ b, r = .ok b) ∧ q = .idle) .idle := by
  refine follows_bind (R := fun r q => (∃ x, r = .ok x) ∧ q = .idle)
    (follows_attempt (R := fun _ q => q = .idle)
      (follows_send h (fun _ _ a _ => hidle (.ok a)) fun e => hidle (.error e))
      fun r q hq => ⟨⟨r, rfl⟩, hq⟩) ?_ ?_
  · rintro x _ ⟨_, rfl⟩
    cases x with
    | ok _ => exact ⟨⟨true, rfl⟩, rfl⟩
    | error _ => exact ⟨⟨false, rfl⟩, rfl⟩
  · rintro _ _ ⟨⟨_, h⟩, _⟩
    cases h

theorem follows_workerRound (clock : JobClock) (jobsProcessed : Nat) :
    (workerRound clock jobsProcessed).Follows jobProtocol (fun _ q => q = .idle) .idle := by
  refine follows_bind (R := fun r q => match r with
      | .ok (some (.task jobId providerId)) => q = .claimed jobId providerId
      | _ => q = .idle) (follows_send (.inr (.inr rfl)) (fun _ _ item _ => ?_) fun _ => rfl) ?_ ?_
  · match item with
    | none => exact rfl
    | some (.malformed raw) => exact rfl
    | some (.task jobId providerId) => exact rfl
  · intro item q hq
    match item, hq with
    | none, hq => exact hq
    | some (.malformed raw), hq => exact hq
    | some (.task jobId providerId), hq =>
      obtain rfl : q = .claimed jobId providerId := hq
      refine follows_bind (R := fun _ q => q = .idle)
        (follows_processSummaryJob fun _ => rfl) (fun _ _ h => h) fun _ _ h => h
  · exact fun _ _ h => h

theorem follows_workerLoop (clock : Nat → JobClock) (maxJobs : Option Nat)
    (rounds jobsProcessed : Nat) :
    (workerLoop clock maxJobs rounds jobsProcessed).Follows jobProtocol (fun _ q => q = .idle)
      .idle := by
  induction rounds generalizing jobsProcessed with
  | zero => exact rfl
  | succ rounds ih =>
    unfold workerLoop
    split
    · exact rfl
    refine follows_bind (R := fun r q => (∃ x, r = .ok x) ∧ q = .idle)
      (follows_attempt (follows_workerRound (clock rounds) jobsProcessed)
        fun r _ hq => ⟨⟨r, rfl⟩, hq⟩) ?_ ?_
    · rintro x _ ⟨_, rfl⟩
      cases x with
      | ok jobsProcessed => exact ih jobsProcessed
      | error _ => exact ih jobsProcessed
    · rintro _ _ ⟨_, hq⟩
      exact hq

theorem follows_runWorker (rounds : Nat) (clock : Nat → JobClock) (maxJobs : Option Nat) :
    (runWorker rounds clock maxJobs).Follows jobProtocol (fun _ q => q = .idle) .idle := by
  refine follows_bind (follows_checkConnection (.inl rfl) fun _ => rfl) ?_ fun _ _ h => h.2
  rintro redisOk _ ⟨_, rfl⟩
  cases redisOk with
  | false => exact rfl
  | true =>
    refine follows_bind (follows_checkConnection (.inr (.inl rfl)) fun _ => rfl) ?_
      fun _ _ h => h.2
    rintro dbOk _ ⟨_, rfl⟩
    cases dbOk with
    | false => exact rfl
    | true => exact follows_workerLoop clock maxJobs rounds 0

/-- Every agent keeps to the protocol from its first phase on. -/
theorem follows_script (agent : Agent) :
    agent.script.Follows jobProtocol agent.Ends agent.start := by
  cases agent with
  | enqueue jobId now providerId =>
    refine follows_map (follows_mono (follows_enqueueSummaryJob jobId now providerId) ?_)
    intro r q h x hx
    cases r with
    | error e => cases hx
    | ok response =>
      obtain ⟨hq, hvalid⟩ := h response rfl
      rw [hvalid]
      exact ⟨hq, hx.symm⟩
  | poll jobId =>
    refine follows_map (follows_mono (follows_getSummaryJob jobId) ?_)
    rintro r q (hread | ⟨hq, rfl⟩)
    · exact .inl hread
    · exact .inr ⟨hq, rfl⟩
  | process clock jobId providerId => exact follows_map (follows_processSummaryJob fun _ => rfl)
  | worker rounds clock maxJobs => exact follows_map (follows_runWorker rounds clock maxJobs)

theorem agentsOn_onTrack {ι : Type} [DecidableEq ι] (s : Redis) (agents : ι → Agent) :
    (agentsOn s agents).OnTrack jobProtocol (fun i => (agents i).start)
      (fun i => (agents i).Ends) := fun i => follows_script (agents i)

end Scripts

end BookingPlatform

import BookingPlatform.JobQueue

/-!
# What a record says of its job

A result for a job that is completed, an error for one that has failed, and neither for
any other. Two calls break this: the handler of a job whose completed record could not be
stored, and the first SET for a job that is at its end already.
-/

namespace BookingPlatform

set_option autoImplicit false

open Remote

section Law
variable {data last : JobData}

/-- Result and error match the status. -/
structure JobData.Lawful (data : JobData) : Prop where
  result : data.result.isSome ↔ data.status = .completed
  error : data.error.isSome ↔ data.status = .failed

theorem lawful_queuedJob (j : UUID) (now : Time) (p : UUID) : (queuedJob j now p).Lawful :=
  ⟨by simp [queuedJob], by simp [queuedJob]⟩

theorem lawful_completed (data : JobData) (result : ReviewSummaryResult) (now : Time) :
    (data.completed result now).Lawful :=
  ⟨by simp [JobData.completed], by simp [JobData.completed]⟩

/-- A failed record is lawful if it had no result. -/
theorem lawful_failed_iff (h : data.Lawful) (error : String) (now : Time) :
    (data.failed error now).Lawful ↔ data.status ≠ .completed := by
  constructor
  · intro hfailed hstatus
    exact JobStatus.noConfusion (hfailed.result.mp (h.result.mpr hstatus))
  · intro hstatus
    refine ⟨?_, by simp [JobData.failed]⟩
    have hresult : ¬ data.result.isSome := fun hresult => hstatus (h.result.mp hresult)
    simpa [JobData.failed] using hresult

/-- A record is lawful when it is marked as processing if it was not at an end. -/
theorem lawful_started_iff (h : data.Lawful) (j p : UUID) (now : Time) :
    (JobData.started (some data) j p now).Lawful ↔ ¬ data.status.Over := by
  constructor
  · rintro hstarted (hstatus | hstatus)
    · exact JobStatus.noConfusion (hstarted.result.mp (h.result.mpr hstatus))
    · exact JobStatus.noConfusion (hstarted.error.mp (h.error.mpr hstatus))
  · intro hstatus
    have hresult : ¬ data.result.isSome := fun hresult => hstatus (.inl (h.result.mp hresult))
    have herror : ¬ data.error.isSome := fun herror => hstatus (.inr (h.error.mp herror))
    exact ⟨by simpa [JobData.started] using hresult, by simpa [JobData.started] using herror⟩

theorem lawful_started_none (j p : UUID) (now : Time) :
    (JobData.started none j p now).Lawful :=
  ⟨by simp [JobData.started, queuedJob], by simp [JobData.started, queuedJob]⟩

theorem status_started (raw : Option JobData) (j p : UUID) (now : Time) :
    (JobData.started raw j p now).status = .processing := by
  cases raw <;> rfl

theorem JobData.Lawful.ends (h : data.Lawful) (hstatus : data.status = .processing)
    (hends : data.Ends last) : last.Lawful := by
  rcases hends with ⟨error, now, rfl⟩ | ⟨result, now, rfl⟩
  · exact (lawful_failed_iff h error now).mpr (by rw [hstatus]; exact nofun)
  · exact lawful_completed data result now

end Law

/-- Every stored record is lawful. -/
def Redis.Lawful (s : Redis) : Prop := ∀ j data, s.records j = some data → data.Lawful

/-- What an agent has in hand is lawful. -/
def Phase.Lawful : Phase → Prop
  | .loaded _ _ raw => ∀ data, raw = some data → data.Lawful
  | .working _ data => data.status = .processing ∧ data.Lawful
  | .failing _ data _ => data.Lawful
  | _ => True

/-- The call goes through, and stores an end as processing, or a result as failed. -/
def Breaks (q : Phase) (e : Remote.Event backend) : Prop :=
  (∃ a, e.reply = .ok a) ∧
    match q with
    | .loaded _ _ (some data) => data.status.Over
    | .failing _ data _ => data.status = .completed
    | _ => False

section Steps
variable {s : Redis} {q : Phase} {c : Command}

theorem lawful_set {id : UUID} {data : JobData} (h : s.Lawful) :
    Redis.Lawful { s with records := Function.update s.records id (some data) } ↔
      data.Lawful := by
  constructor
  · intro hset
    exact hset id data (Function.update_self id (some data) s.records)
  · intro hdata j old hold
    change Function.update s.records id (some data) j = some old at hold
    by_cases hj : j = id
    · subst j
      rw [Function.update_self] at hold
      obtain rfl := Option.some.inj hold
      exact hdata
    · rw [Function.update_of_ne hj] at hold
      exact h j old hold

theorem breaks_loaded {id p : UUID} {data : JobData} {r : c.Reply} :
    Breaks (.loaded id p (some data)) ⟨c, .ok r⟩ ↔ data.status.Over :=
  ⟨fun h => h.2, fun h => ⟨⟨r, rfl⟩, h⟩⟩

theorem breaks_failing {id : UUID} {data : JobData} {exc : Failure} {r : c.Reply} :
    Breaks (.failing id data exc) ⟨c, .ok r⟩ ↔ data.status = .completed :=
  ⟨fun h => h.2, fun h => ⟨⟨r, rfl⟩, h⟩⟩

/-- A call leaves the records lawful if and only if it does not break the law. -/
theorem lawful_perform_iff (hs : s.Lawful) (hq : q.Lawful) (hallows : q.Allows c) (m : Moment) :
    (perform c m s).2.Lawful ↔ ¬ Breaks q ⟨c, (perform c m s).1⟩ := by
  unfold perform
  cases hm : m.raises with
  | some text =>
    refine iff_of_true hs ?_
    rintro ⟨⟨a, ha⟩, _⟩
    cases ha
  | none =>
    cases q with
    | enqueuing id now p =>
      rcases hallows with rfl | rfl
      · exact iff_of_true hs fun h => h.2
      · exact (lawful_set hs).trans (iff_of_true (lawful_queuedJob id now p) fun h => h.2)
    | saved id p =>
      obtain rfl := hallows
      exact iff_of_true hs fun h => h.2
    | polling id =>
      obtain rfl := hallows
      exact iff_of_true hs fun h => h.2
    | idle => rcases hallows with rfl | rfl | rfl <;> exact iff_of_true hs fun h => h.2
    | claimed id p =>
      obtain rfl := hallows
      exact iff_of_true hs fun h => h.2
    | loaded id p raw =>
      obtain ⟨now, rfl⟩ := hallows
      refine (lawful_set hs).trans ?_
      cases raw with
      | none => exact iff_of_true (lawful_started_none id p now) fun h => h.2
      | some data => exact (lawful_started_iff (hq data rfl) id p now).trans breaks_loaded.not.symm
    | working id data =>
      rcases hallows with ⟨query, rfl⟩ | ⟨last, hends, rfl⟩
      · exact iff_of_true hs fun h => h.2
      · exact (lawful_set hs).trans (iff_of_true (hq.2.ends hq.1 hends) fun h => h.2)
    | failing id data exc =>
      obtain ⟨now, rfl⟩ := hallows
      refine (lawful_set hs).trans ?_
      exact (lawful_failed_iff hq exc.text now).trans breaks_failing.not.symm
    | enqueued | polled | unavailable => exact hallows.elim

/-- What an agent takes in hand from lawful records is lawful, if it does not break the law. -/
theorem lawful_next (hs : s.Lawful) (hq : q.Lawful) (hallows : q.Allows c) (m : Moment)
    (hkeeps : ¬ Breaks q ⟨c, (perform c m s).1⟩) : (q.next c (perform c m s).1).Lawful := by
  unfold perform at hkeeps ⊢
  cases hm : m.raises with
  | some text =>
    cases q with
    | working id data =>
      rcases hallows with ⟨query, rfl⟩ | ⟨last, hends, rfl⟩
      · exact hq.2
      · exact hq.2.ends hq.1 hends
    | enqueuing id now p => rcases hallows with rfl | rfl <;> trivial
    | idle => rcases hallows with rfl | rfl | rfl <;> trivial
    | saved id p | polling id | claimed id p =>
      obtain rfl := hallows
      trivial
    | loaded id p raw =>
      obtain ⟨now, rfl⟩ := hallows
      trivial
    | failing id data exc =>
      obtain ⟨now, rfl⟩ := hallows
      trivial
    | enqueued | polled | unavailable => exact hallows.elim
  | none =>
    rw [hm] at hkeeps
    cases q with
    | enqueuing id now p => rcases hallows with rfl | rfl <;> trivial
    | saved id p | polling id =>
      obtain rfl := hallows
      trivial
    | idle =>
      rcases hallows with rfl | rfl | rfl
      · trivial
      · trivial
      · match s.queue.head? with
        | none => trivial
        | some (.task id p) => trivial
        | some (.malformed raw) => trivial
    | claimed id p =>
      obtain rfl := hallows
      exact fun data hdata => hs id data hdata
    | loaded id p raw =>
      obtain ⟨now, rfl⟩ := hallows
      refine ⟨status_started raw id p now, ?_⟩
      cases raw with
      | none => exact lawful_started_none id p now
      | some data =>
        exact (lawful_started_iff (hq data rfl) id p now).mpr fun h => hkeeps (breaks_loaded.mpr h)
    | working id data =>
      rcases hallows with ⟨query, rfl⟩ | ⟨last, hends, rfl⟩
      · exact hq
      · trivial
    | failing id data exc =>
      obtain ⟨now, rfl⟩ := hallows
      trivial
    | enqueued | polled | unavailable => exact hallows.elim

end Steps

section Runs
variable {ι : Type} [DecidableEq ι]

/-- The records, and what the agents have in hand, are lawful. -/
def AllLawful (agents : ι → Agent) (s : Redis) (trace : Trace backend ι) : Prop :=
  s.Lawful ∧ ∀ i, (phases agents trace i).Lawful

/-- The event does not break the law. -/
def KeepsLaw (agents : ι → Agent) (before : Trace backend ι) (i : ι)
    (e : Remote.Event backend) : Prop := ¬ Breaks (phases agents before i) e

theorem allLawful_rules (agents : ι → Agent) :
    System.Invariant jobProtocol (fun i => (agents i).start) (KeepsLaw agents)
      (AllLawful agents) := by
  refine ⟨fun {s trace i c} m h hallows hkeeps => ⟨?_, fun k => ?_⟩⟩
  · exact (lawful_perform_iff h.1 (h.2 i) hallows m).mpr hkeeps
  · rw [phases_snoc]
    by_cases hk : k = i
    · subst k
      rw [Function.update_self]
      exact lawful_next h.1 (h.2 i) hallows m hkeeps
    · rw [Function.update_of_ne hk]
      exact h.2 k

theorem lawful_start (agent : Agent) : agent.start.Lawful := by
  cases agent <;> trivial

/-- In every state of a run the records match their status if and only if no handler stores
a failure over a completed record in hand, and no job at its end is processed again. -/
theorem records_lawful_iff (s : Redis) (agents : ι → Agent) (hs : s.Lawful)
    (schedule : List (ι × Moment)) :
    (∀ past, past <+: schedule → ((agentsOn s agents).run past).state.Lawful) ↔
      Admits (KeepsLaw agents) ((agentsOn s agents).run schedule).trace := by
  apply (allLawful_rules agents).run_iff
  · intro t trace h
    exact h.1
  · intro t trace i c m h hallows hgood
    exact (lawful_perform_iff h.1 (h.2 i) hallows m).mp hgood
  · exact agentsOn_onTrack s agents
  · exact ⟨hs, fun i => lawful_start (agents i)⟩
  · exact admits_nil _

theorem records_lawful_iff_crew :
    (∀ past, past <+: inTurn → ((agentsOn noJobs crew).run past).state.Lawful) ↔
      Admits (KeepsLaw crew) ((agentsOn noJobs crew).run inTurn).trace :=
  records_lawful_iff noJobs crew (fun _ _ h => nomatch h) inTurn

/-- The client, then the worker, whose last SET raises; its handler's does not. -/
def lastSetFails : List (Party × Moment) :=
  List.replicate 3 (.client, fine) ++ List.replicate 8 (.worker, fine) ++
    [(.worker, broken), (.worker, fine)]

/-- The job has failed, and has a result. -/
theorem failed_with_result :
    noJobs.Lawful ∧ ¬ ((agentsOn noJobs crew).run lastSetFails).state.Lawful := by
  refine ⟨fun _ _ h => (nomatch h), fun h => ?_⟩
  have hstored : (((agentsOn noJobs crew).run lastSetFails).state.records 7).map
      (fun data => (data.status, data.result.isSome)) = some (.failed, true) := by
    decide +kernel
  obtain ⟨data, hdata, hboth⟩ := Option.map_eq_some_iff.mp hstored
  obtain ⟨hfailed, hresult⟩ := Prod.mk.inj hboth
  have hcompleted := (h 7 data hdata).result.mp hresult
  rw [hfailed] at hcompleted
  cases hcompleted

end Runs

end BookingPlatform

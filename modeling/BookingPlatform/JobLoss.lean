import BookingPlatform.JobQueue

/-!
# Accepted jobs that are lost

With faults, a job that its client has got through is in the queue, in the hands of a
worker, or at its end, until a worker lets it go: a command outside the try block of
`process_summary_job`, or in its handler, raises. Then it is lost for good.
-/

namespace BookingPlatform

set_option autoImplicit false

open Remote

section Loss
variable {ι : Type} {o : ι} {j : UUID} {s : Redis}

/-- The message of the job is in the queue, or its record shows an end. -/
def Kept (s : Redis) (j : UUID) : Prop :=
  (∃ p, .task j p ∈ s.queue) ∨ ∃ data, s.records j = some data ∧ data.status.Over

theorem Stage.kept {F : Prop} {ph : ι → Phase} {ps : List ι} (h : Stage F o j s ph ps)
    (ho : ph o = .enqueued j) (hfree : ∀ i, (ph i).handling ≠ some j) : Kept s j := by
  rcases h.enqueued_cases ho with ⟨p, _, hqueue, _⟩ | ⟨_, k, _, hheld | hended⟩
  · have hm : Payload.task j p ∈ s.messagesOf j := by
      rw [hqueue]
      exact List.mem_singleton_self _
    exact .inl ⟨p, List.mem_of_mem_filter hm⟩
  · exact (hfree k hheld.handling).elim
  · obtain ⟨data, hdata, hover, _⟩ := hended
    exact .inr ⟨data, hdata, hover⟩

theorem Gone.not_kept {ph : ι → Phase} (h : Gone o j s ph) : ¬ Kept s j := by
  rintro (⟨p, hp⟩ | ⟨data, hdata, hover⟩)
  · have hm : Payload.task j p ∈ s.messagesOf j := List.mem_filter.mpr ⟨hp, decide_eq_true rfl⟩
    rw [h.queue] at hm
    cases hm
  · obtain ⟨data', hdata', hstatus, _⟩ := h.record
    obtain rfl := Option.some.inj (hdata.symm.trans hdata')
    rcases hover with hover | hover <;> rw [hover] at hstatus <;> rcases hstatus with h | h <;>
      cases h

variable [DecidableEq ι] {agents : ι → Agent}

/-- The event does not let the job go. -/
def Keeps (agents : ι → Agent) (j : UUID) (before : Trace backend ι) (i : ι)
    (e : Remote.Event backend) : Prop := ¬ Loses j (phases agents before i) e

/-- The job is at one of its stages as long as nobody has let it go, and lost afterwards. -/
def KeptOrGone (agents : ι → Agent) (o : ι) (j : UUID) (s : Redis)
    (trace : Trace backend ι) : Prop :=
  (Admits (Keeps agents j) trace ∧ Stage True o j s (phases agents trace) (poppers j trace)) ∨
    (¬ Admits (Keeps agents j) trace ∧ Gone o j s (phases agents trace))

theorem keptOrGone_rules (agents : ι → Agent) (o : ι) (j : UUID) :
    System.Invariant jobProtocol (fun i => (agents i).start) (fun _ _ _ => True)
      (KeptOrGone agents o j) := by
  refine ⟨fun {s trace i c} m h hallows _ => ?_⟩
  change (phases agents trace i).Allows c at hallows
  rcases h with ⟨hkept, hstage⟩ | ⟨hlost, hgone⟩
  · by_cases hloses : Loses j (phases agents trace i) ⟨c, (perform c m s).1⟩
    · exact .inr ⟨fun h => h.snoc.2 hloses, gone_call_of_loses m hstage hallows hloses⟩
    · exact .inl ⟨hkept.concat hloses, stage_call m hstage hallows (fun _ => trivial) hloses⟩
  · exact .inr ⟨fun h => hlost h.snoc.1, gone_call m hgone hallows⟩

theorem keptOrGone_run {now : Time} {p : UUID} (ho : agents o = .enqueue j now p)
    (hfresh : Fresh s agents o j) (schedule : List (ι × Moment)) :
    KeptOrGone agents o j ((agentsOn s agents).run schedule).state
      ((agentsOn s agents).run schedule).trace := by
  have hboot : KeptOrGone agents o j s [] :=
    .inl ⟨admits_nil _, stage_boot ho hfresh⟩
  exact (keptOrGone_rules agents o j).run_keeps (agentsOn_onTrack s agents) hboot schedule
    fun _ _ _ _ _ => trivial

/-- At a moment at which nobody handles an accepted job, it is in the queue or at its end if
and only if nobody has let it go so far. -/
theorem accepted_kept_iff (s : Redis) (agents : ι → Agent) (schedule : List (ι × Moment))
    {now : Time} {p : UUID} (ho : agents o = .enqueue j now p) (hfresh : Fresh s agents o j)
    (haccepted : Accepted ((agentsOn s agents).run schedule) o)
    (hfree : ∀ i, (phases agents ((agentsOn s agents).run schedule).trace i).handling ≠ some j) :
    Kept ((agentsOn s agents).run schedule).state j ↔
      Admits (Keeps agents j) ((agentsOn s agents).run schedule).trace := by
  rcases keptOrGone_run ho hfresh schedule with ⟨hkept, hstage⟩ | ⟨hlost, hgone⟩
  · exact ⟨fun _ => hkept, fun _ => hstage.kept (enqueued_of_accepted ho haccepted) hfree⟩
  · exact ⟨fun h => (hgone.not_kept h).elim, fun h => (hlost h).elim⟩

theorem accepted_kept_iff_crew :
    Kept ((agentsOn noJobs crew).run inTurn).state 7 ↔
      Admits (Keeps crew 7) ((agentsOn noJobs crew).run inTurn).trace := by
  refine accepted_kept_iff noJobs crew inTurn rfl fresh_crew ⟨_, rfl⟩ ?_
  intro i
  cases i <;> decide +kernel

/-- The client, then the worker, whose first command after BLPOP raises. -/
def getFails : List (Party × Moment) :=
  List.replicate 3 (.client, fine) ++ List.replicate 3 (.worker, fine) ++ [(.worker, broken)]

/-- The worker goes on, the message is gone, and the record is queued for good. -/
theorem accepted_lost :
    Accepted ((agentsOn noJobs crew).run getFails) .client ∧
    (∀ i, (phases crew ((agentsOn noJobs crew).run getFails).trace i).handling ≠ some 7) ∧
    ¬ Kept ((agentsOn noJobs crew).run getFails).state 7 := by
  refine ⟨⟨_, rfl⟩, ?_, ?_⟩
  · intro i
    cases i <;> decide +kernel
  rintro (⟨p, hp⟩ | ⟨data, hdata, hover⟩)
  · cases hp
  · obtain rfl := Option.some.inj hdata
    rcases hover with h | h <;> cases h

end Loss

end BookingPlatform

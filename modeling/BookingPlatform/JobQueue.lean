import BookingPlatform.Api
import BookingPlatform.JobStages

/-!
# The job queue

Clients that enqueue and poll, and workers, in any order of their single commands: what
holds of the queue, and of each job with an id of its own.
-/

namespace BookingPlatform

set_option autoImplicit false

open Remote

section Versions

def JobStatus.rank : JobStatus → Nat
  | .queued => 1
  | .processing => 2
  | .completed => 3
  | .failed => 3

def rank (record : Option JobData) : Nat := record.elim 0 fun data => data.status.rank

/-- The record is the same, or has moved on: queued, then processing, then at its end. -/
def Leads (old new : Option JobData) : Prop := old = new ∨ rank old < rank new

theorem Leads.trans {a b c : Option JobData} (hab : Leads a b) (hbc : Leads b c) :
    Leads a c := by
  rcases hab with rfl | hab
  · exact hbc
  · rcases hbc with rfl | hbc
    · exact .inr hab
    · exact .inr (hab.trans hbc)

theorem rank_some {data : JobData} {status : JobStatus} (h : data.status = status) :
    rank (some data) = status.rank := congrArg JobStatus.rank h

theorem rank_over {data : JobData} (h : data.status.Over) : rank (some data) = 3 := by
  rcases h with h | h <;> exact rank_some h

theorem rank_queued {j : UUID} {record : Option JobData}
    (h : Shows j (· = .queued) record) : rank record = 1 := by
  obtain ⟨data, rfl, hstatus, _⟩ := h
  exact rank_some hstatus

theorem rank_started (raw : Option JobData) (j p : UUID) (now : Time) :
    rank (some (.started raw j p now)) = 2 := by
  cases raw <;> rfl

/-- What has been read of the job's record, in order. -/
def reads {ι : Type} (jobId : UUID) (trace : Trace backend ι) : List (Option JobData) :=
  trace.filterMap fun x =>
    match x.2 with
    | ⟨.get id, .ok raw⟩ => if id = jobId then some raw else none
    | _ => none

theorem reads_append {ι : Type} (jobId : UUID) (xs ys : Trace backend ι) :
    reads jobId (xs ++ ys) = reads jobId xs ++ reads jobId ys := List.filterMap_append

end Versions

section Rules
variable {ι : Type} {F : Prop} {o i : ι} {j : UUID} {s t : Redis}
  {ph : ι → Phase} {ps : List ι} {q q' : Phase} {e : Remote.Event backend}

/-- A step moves the record on, or leaves it. -/
theorem Stage.leads (h : Stage F o j s ph ps) (hq : ph i = q) (hstep : JobStep j s t q e q') :
    Leads (s.records j) (t.records j) := by
  cases hstep with
  | aside _ hrecord _ _ _ _ _ => exact .inl hrecord.symm
  | push hrecord _ | pop hrecord _ => exact .inl hrecord.symm
  | save hrecord _ =>
    obtain ⟨_, hr, _⟩ := h.of_enqueuing hq
    rw [hr, hrecord]
    exact .inr Nat.one_pos
  | start hrecord _ =>
    obtain ⟨hheld, _⟩ := h.of_handling (i := i) (by rw [hq]; rfl)
    rw [hq] at hheld
    cases hheld with
    | loaded hshows =>
      rw [hrecord]
      exact .inr (by rw [rank_queued hshows, rank_started]; decide)
  | finish hends hrecord _ =>
    obtain ⟨hheld, _⟩ := h.of_handling (i := i) (by rw [hq]; rfl)
    rw [hq] at hheld
    generalize s.records j = record at hheld
    cases hheld with
    | working hstatus _ =>
      rw [hrecord]
      exact .inr (by rw [rank_some hstatus, rank_over hends.over]; decide)
  | rescue hrecord _ =>
    obtain ⟨hheld, _⟩ := h.of_handling (i := i) (by rw [hq]; rfl)
    rw [hq] at hheld
    generalize s.records j = record at hheld
    cases hheld with
    | failing _ hshows =>
      obtain ⟨data, hdata, hstatus, _⟩ := hshows
      obtain rfl := Option.some.inj hdata
      rw [hrecord]
      exact .inr (by rw [rank_some hstatus, rank_over (.inr rfl)]; decide)
  | saveFails hstate | pushFails hstate | load hstate | trip hstate | finishFails _ hstate
    | lose _ _ _ hstate => exact .inl (by rw [hstate])

/-- Only the owner, and who has taken the message, write the record. -/
theorem Stage.sets (h : Stage F o j s ph ps) (hq : ph i = q) (hstep : JobStep j s t q e q')
    (hsets : Sets j e) : i = o ∨ ps = [i] := by
  cases hstep with
  | aside _ _ _ _ hnot _ _ => exact (hnot hsets).elim
  | save _ _ => exact .inl (h.of_enqueuing hq).1
  | start _ _ => exact .inr (h.of_handling (i := i) (by rw [hq]; rfl)).2.2.2.2
  | finish _ _ _ => exact .inr (h.of_handling (i := i) (by rw [hq]; rfl)).2.2.2.2
  | rescue _ _ => exact .inr (h.of_handling (i := i) (by rw [hq]; rfl)).2.2.2.2
  | saveFails | push | pushFails | pop | load | trip | finishFails => exact hsets.elim
  | lose _ hnot _ _ => exact (hnot hsets).elim

theorem Stage.poppers_le (h : Stage F o j s ph ps) : ps.length ≤ 1 := by
  cases h <;> simp

/-- Whoever reads the record of an enqueued job can answer. -/
theorem Stage.readable (h : Stage F o j s ph ps) (ho : ph o = .enqueued j) :
    Shows j (fun _ => True) (s.records j) := by
  rcases h.enqueued_cases ho with ⟨_, hqueued, _, _⟩ | ⟨_, _, _, hheld | hended⟩
  · exact hqueued.mono fun _ _ => trivial
  · exact hheld.shows.mono fun _ _ => trivial
  · exact hended.mono fun _ _ => trivial

/-- A queued record has its message in the queue, or somebody on the way to or from it. -/
theorem Stage.pending (h : Stage False o j s ph ps) {data : JobData}
    (hdata : s.records j = some data) (hstatus : data.status = .queued) :
    (∃ m ∈ s.queue, m.jobId? = some j) ∨ (∃ p, ph o = .saved j p) ∨
      ∃ k p, ph k = .claimed j p ∨ ∃ raw, ph k = .loaded j p raw := by
  cases h with
  | unborn hr _ _ _ => rw [hr] at hdata; cases hdata
  | saved _ _ howner _ => exact .inr (.inl ⟨_, howner⟩)
  | abandoned hfault _ _ _ => exact hfault.elim
  | @waiting p _ hqueue _ _ =>
    have hm : Payload.task j p ∈ s.messagesOf j := by
      rw [hqueue]
      exact List.mem_singleton_self _
    obtain ⟨hm, hj⟩ := List.mem_filter.mp hm
    exact .inl ⟨_, hm, of_decide_eq_true hj⟩
  | @held k hheld _ _ _ =>
    rw [hdata] at hheld
    generalize hk : ph k = q at hheld
    cases hheld with
    | claimed _ => exact .inr (.inr ⟨k, _, .inl hk⟩)
    | loaded _ => exact .inr (.inr ⟨k, _, .inr ⟨_, hk⟩⟩)
    | working hworking _ =>
      rw [hstatus] at hworking
      cases hworking
    | failing _ hshows =>
      obtain ⟨_, hsame, hprocessing, _⟩ := hshows
      obtain rfl := Option.some.inj hsame
      rw [hstatus] at hprocessing
      cases hprocessing
  | ended hrecord _ _ _ =>
    obtain ⟨_, hsame, hover, _⟩ := hrecord
    rw [hdata] at hsame
    obtain rfl := Option.some.inj hsame
    rw [hstatus] at hover
    rcases hover with h | h <;> cases h

end Rules

section Queue
variable {ι : Type}

/-- What has been taken and what is left is what was there and has been added, in order. -/
theorem pops_queue {c : Command} (m : Moment) (s : Redis) (trace : Trace backend ι) (i : ι)
    {added : List Payload} (h : (pops trace).map Prod.snd ++ s.queue = added ++ pushes trace) :
    (pops (trace ++ [(i, ⟨c, (perform c m s).1⟩)])).map Prod.snd ++ (perform c m s).2.queue =
      added ++ pushes (trace ++ [(i, ⟨c, (perform c m s).1⟩)]) := by
  rw [pops_append, pushes_append, List.map_append]
  have quiet : (pops trace).map Prod.snd ++ [] ++ s.queue = added ++ (pushes trace ++ []) := by
    rw [List.append_nil, List.append_nil, h]
  unfold perform
  cases hm : m.raises with
  | some text => cases c <;> exact quiet
  | none =>
    cases c with
    | rpush payload =>
      change (pops trace).map Prod.snd ++ [] ++ (s.queue ++ [payload]) =
        added ++ (pushes trace ++ [payload])
      rw [List.append_nil, ← List.append_assoc, h, List.append_assoc]
    | blpop =>
      cases hqueue : s.queue with
      | nil =>
        rw [hqueue] at quiet
        exact quiet
      | cons payload rest =>
        change (pops trace).map Prod.snd ++ [payload] ++ rest = added ++ (pushes trace ++ [])
        rw [List.append_nil, List.append_assoc, List.singleton_append, ← hqueue, h]
    | _ => exact quiet

theorem pops_run [DecidableEq ι] (s : Redis) (agents : ι → Agent) (schedule : List (ι × Moment)) :
    (pops ((agentsOn s agents).run schedule).trace).map Prod.snd ++
        ((agentsOn s agents).run schedule).state.queue =
      s.queue ++ pushes ((agentsOn s agents).run schedule).trace := by
  have rules : System.Invariant jobProtocol (fun i => (agents i).start) (fun _ _ _ => True)
      (fun t trace => (pops trace).map Prod.snd ++ t.queue = s.queue ++ pushes trace) :=
    ⟨fun m h _ _ => pops_queue m _ _ _ h⟩
  exact rules.run_keeps (agentsOn_onTrack s agents) (by simp [agentsOn, System.boot, pops, pushes])
    schedule fun _ _ _ _ _ => trivial

end Queue

section Workers
open Remote.Script

def Agent.isWorker : Agent → Prop
  | .worker .. => True
  | _ => False

/-- Only workers take messages from the queue. -/
def Agent.MayCall (agent : Agent) (c : Command) : Prop := c = .blpop → agent.isWorker

variable {agent : Agent}

theorem mayCall_trying {c : Command} {clock : JobClock} {jobId : UUID} {data : JobData}
    {k : c.Reply → Script backend JobData} (hc : c ≠ .blpop)
    (hk : ∀ a, (k a).Calls agent.MayCall) :
    (trying clock jobId data (send c) k).Calls agent.MayCall := by
  refine calls_bind (calls_attempt (calls_send fun h => (hc h).elim)) fun r => ?_
  cases r with
  | ok a => exact hk a
  | error exc => exact calls_bind (calls_send nofun) fun _ => trivial

theorem mayCall_store (clock : JobClock) (jobId : UUID) (data : JobData) :
    (store clock jobId data).Calls agent.MayCall :=
  mayCall_trying nofun fun _ => trivial

theorem mayCall_processSummaryJob (clock : JobClock) (jobId providerId : UUID) :
    (processSummaryJob clock jobId providerId).Calls agent.MayCall := by
  refine calls_bind (calls_send nofun) fun raw => calls_bind (calls_send nofun) fun _ => ?_
  refine mayCall_trying nofun fun provider => ?_
  cases provider with
  | none => exact mayCall_store ..
  | some provider =>
    change Script.Calls _ (if _ then _ else _)
    split
    · exact mayCall_store ..
    refine mayCall_trying nofun fun stats => mayCall_trying nofun fun distRows => ?_
    split
    · exact calls_bind (calls_send nofun) fun _ => trivial
    · exact mayCall_store ..

theorem mayCall_enqueueSummaryJob (jobId : UUID) (now : Time) (providerId : UUID) :
    (enqueueSummaryJob jobId now providerId).Calls agent.MayCall := by
  refine calls_bind (calls_send nofun) fun provider => ?_
  cases provider with
  | none => trivial
  | some provider =>
    change Script.Calls _ (if _ then _ else _)
    split
    · trivial
    refine calls_bind (calls_tryCatch ?_ fun _ => trivial) fun _ => trivial
    exact calls_bind (calls_send nofun) fun _ => calls_send nofun

theorem mayCall_getSummaryJob (jobId : UUID) : (getSummaryJob jobId).Calls agent.MayCall := by
  refine calls_bind (calls_tryCatch (calls_send nofun) fun _ => trivial) fun rawJob => ?_
  cases rawJob <;> trivial

theorem mayCall_script (agent : Agent) : agent.script.Calls agent.MayCall := by
  cases agent with
  | enqueue jobId now providerId => exact calls_map (mayCall_enqueueSummaryJob ..)
  | poll jobId => exact calls_map (mayCall_getSummaryJob ..)
  | process clock jobId providerId => exact calls_map (mayCall_processSummaryJob ..)
  | worker rounds clock maxJobs => exact calls_all (fun _ _ => trivial) _

theorem poppers_workers {ι : Type} [DecidableEq ι] (s : Redis) (agents : ι → Agent) (j : UUID)
    (schedule : List (ι × Moment)) {k : ι}
    (hk : k ∈ poppers j ((agentsOn s agents).run schedule).trace) : (agents k).isWorker := by
  have hcalls := System.commands_run (A := agentsOn s agents) (C := fun i => (agents i).MayCall)
    (fun i => mayCall_script (agents i)) (List.forall_mem_nil _) schedule
  obtain ⟨⟨i, payload⟩, hpop, rfl⟩ := List.mem_map.mp hk
  obtain ⟨⟨i', c, r⟩, hx, hevent⟩ := List.mem_filterMap.mp (List.mem_of_mem_filter hpop)
  have hcall := hcalls _ hx
  cases c with
  | blpop =>
    match r, hevent with
    | .ok (some payload), hevent =>
      obtain ⟨rfl, _⟩ := Prod.mk.inj (Option.some.inj hevent)
      exact hcall rfl
  | _ => cases hevent

end Workers

section Runs
variable {ι : Type} {agents : ι → Agent} {o i : ι} {j : UUID} {s : Redis}
  {trace : Trace backend ι} {c : Command}

/-- A call that goes through reads the record as it is, if it reads it. -/
theorem reads_snoc (m : Moment) (s : Redis) (trace : Trace backend ι) (i : ι) (j : UUID) :
    reads j (trace ++ [(i, ⟨c, (perform c m s).1⟩)]) = reads j trace ∨
      reads j (trace ++ [(i, ⟨c, (perform c m s).1⟩)]) = reads j trace ++ [s.records j] := by
  rw [reads_append]
  have quiet : reads j trace ++ [] = reads j trace := List.append_nil _
  unfold perform
  cases hm : m.raises with
  | some text => cases c <;> exact .inl quiet
  | none =>
    cases c with
    | get id =>
      by_cases hid : id = j
      · subst hid
        exact .inr (by simp [reads])
      · exact .inl (by simp [reads, hid])
    | _ => exact .inl quiet

theorem poppers_mono {x : ι} (e : Remote.Event backend) (h : x ∈ poppers j trace) :
    x ∈ poppers j (trace ++ [(i, e)]) := by
  by_cases hpops : Pops j e
  · rw [poppers_snoc_of_pops trace hpops]
    exact List.mem_append_left _ h
  · rwa [poppers_snoc_of_not trace hpops]

variable [DecidableEq ι]

/-- What is known of a job in a run without faults: its stage, who has written its record,
and that what was read of it, with what it is now, only moves on. -/
structure Tracked (agents : ι → Agent) (o : ι) (j : UUID) (s : Redis)
    (trace : Trace backend ι) : Prop where
  stage : Stage False o j s (phases agents trace) (poppers j trace)
  writers : ∀ x ∈ trace, Sets j x.2 → x.1 = o ∨ x.1 ∈ poppers j trace
  versions : (reads j trace ++ [s.records j]).Pairwise Leads

theorem tracked_boot {now : Time} {p : UUID} (ho : agents o = .enqueue j now p)
    (h : Fresh s agents o j) : Tracked agents o j s [] where
  stage := stage_boot ho h
  writers := fun _ hx => nomatch hx
  versions := List.pairwise_singleton _ _

theorem Tracked.call (h : Tracked agents o j s trace)
    (hallows : (phases agents trace i).Allows c) (m : Moment)
    (hok : ∃ a, (perform c m s).1 = .ok a) :
    Tracked agents o j (perform c m s).2 (trace ++ [(i, ⟨c, (perform c m s).1⟩)]) := by
  obtain ⟨a, ha⟩ := hok
  have hstep := jobStep j m s hallows
  refine ⟨?_, ?_, ?_⟩
  · refine stage_call m h.stage hallows ?_ ?_
    · rintro ⟨exc, hexc⟩
      rw [ha] at hexc
      cases hexc
    · rw [ha]
      exact not_loses_ok
  · intro x hx hsets
    rcases List.mem_append.mp hx with hx | hx
    · exact (h.writers x hx hsets).imp_right fun hmem => poppers_mono _ hmem
    · obtain rfl := List.mem_singleton.mp hx
      rcases h.stage.sets rfl hstep hsets with hio | hps
      · exact .inl hio
      · refine .inr (poppers_mono _ ?_)
        rw [hps]
        exact List.mem_singleton_self _
  · have hleads := h.stage.leads rfl hstep
    obtain ⟨hreads, _, hnow⟩ := List.pairwise_append.mp h.versions
    have hnow' : ∀ old ∈ reads j trace, Leads old ((perform c m s).2.records j) :=
      fun old hold => (hnow old hold _ (List.mem_singleton_self _)).trans hleads
    rcases reads_snoc m s trace i j with hsame | hread
    · rw [hsame]
      refine List.pairwise_append.mpr ⟨hreads, List.pairwise_singleton _ _, ?_⟩
      intro old hold new hnew
      rw [List.mem_singleton.mp hnew]
      exact hnow' old hold
    · rw [hread]
      refine List.pairwise_append.mpr ⟨h.versions, List.pairwise_singleton _ _, ?_⟩
      intro old hold new hnew
      rw [List.mem_singleton.mp hnew]
      rcases List.mem_append.mp hold with hold | hold
      · exact hnow' old hold
      · rw [List.mem_singleton.mp hold]
        exact hleads

/-- A call that goes through. -/
def Answered {ι : Type} (_ : Trace backend ι) (_ : ι) (e : Remote.Event backend) : Prop :=
  ∃ a, e.reply = .ok a

theorem tracked_rules (agents : ι → Agent) (o : ι) (j : UUID) :
    System.Invariant jobProtocol (fun i => (agents i).start) Answered
      (Tracked agents o j) :=
  ⟨fun m h hallows hok => h.call hallows m hok⟩

theorem perform_answered {c : Command} {m : Moment} (hm : m.raises = none) (s : Redis) :
    ∃ a, (perform c m s).1 = .ok a := by
  unfold perform
  rw [hm]
  cases c <;> exact ⟨_, rfl⟩

theorem admits_answered {A : System backend ι Report} (h : ∀ x ∈ A.trace, ∃ a, x.2.reply = .ok a)
    {schedule : List (ι × Moment)} (hok : ∀ x ∈ schedule, x.2.raises = none) :
    Admits Answered (A.run schedule).trace := by
  have hall := System.events_run (R := fun e : Remote.Event backend => ∃ a, e.reply = .ok a)
    (M := fun m : Moment => m.raises = none) (fun _ _ s hm => perform_answered hm s) h hok
  exact fun before i e after hsplit => Admits.of_forall hall before i e after hsplit

/-! ## Polls -/

theorem validate_jobId {data : JobData} {response : ReviewSummaryJobResponse}
    (h : data.validate = .ok response) : response.jobId = data.jobId := by
  unfold JobData.validate at h
  cases hresult : data.result.mapM ResultDump.validate with
  | error e =>
    rw [hresult] at h
    cases h
  | ok result =>
    rw [hresult] at h
    obtain rfl := Except.ok.inj h
    rfl

theorem pollAnswer_of_shows {raw : Option JobData} (h : Shows j (fun _ => True) raw) :
    ∃ response, pollAnswer raw = .ok (.job response) ∧ response.jobId = j := by
  obtain ⟨data, rfl, _, hid, response, hvalid⟩ := h
  refine ⟨response, ?_, (validate_jobId hvalid).trans hid⟩
  change Report.job <$> data.validate = _
  rw [hvalid]
  rfl

theorem phases_poll (hi : agents i = .poll j) (trace : Trace backend ι) :
    phases agents trace i = .polling j ∨ (∃ raw, phases agents trace i = .polled raw) ∨
      phases agents trace i = .unavailable := by
  refine Protocol.phase_keeps (P := jobProtocol)
    (R := fun q : Phase => q = .polling j ∨ (∃ raw, q = .polled raw) ∨ q = .unavailable) _
    (.inl (by rw [hi]; rfl)) ?_ trace
  rintro q ⟨c, r⟩ (rfl | ⟨raw, rfl⟩ | rfl)
  · cases c with
    | get id =>
      cases r with
      | ok raw => exact .inr (.inl ⟨raw, rfl⟩)
      | error exc => exact .inr (.inr rfl)
    | _ => exact .inl rfl
  · exact .inr (.inl ⟨raw, rfl⟩)
  · exact .inr (.inr rfl)

/-- A poll of a job whose client has returned: it has read nothing yet, or it has read what
it can answer with. -/
structure Polling (agents : ι → Agent) (o i : ι) (j : UUID) (s : Redis)
    (trace : Trace backend ι) : Prop where
  job : Tracked agents o j s trace
  owner : phases agents trace o = .enqueued j
  poll : phases agents trace i = .polling j ∨
    ∃ raw, phases agents trace i = .polled raw ∧ Shows j (fun _ => True) raw

theorem Polling.call (h : Polling agents o i j s trace) {k : ι}
    (hallows : (phases agents trace k).Allows c) (m : Moment)
    (hok : ∃ a, (perform c m s).1 = .ok a) :
    Polling agents o i j (perform c m s).2 (trace ++ [(k, ⟨c, (perform c m s).1⟩)]) := by
  have hko : o ≠ k := by
    rintro rfl
    rw [h.owner] at hallows
    exact hallows
  refine ⟨h.job.call hallows m hok, ?_, ?_⟩
  · rw [phases_snoc, Function.update_of_ne hko]
    exact h.owner
  · by_cases hki : i = k
    · subst k
      rw [phases_snoc, Function.update_self]
      rcases h.poll with hpolling | ⟨raw, hpolled, _⟩
      · rw [hpolling] at hallows ⊢
        obtain rfl : c = .get j := hallows
        have hread : (perform (.get j) m s).1 = .ok (s.records j) := by
          obtain ⟨a, ha⟩ := hok
          unfold perform at ha ⊢
          cases hm : m.raises with
          | none => rfl
          | some text =>
            rw [hm] at ha
            cases ha
        rw [hread]
        exact .inr ⟨_, rfl, h.job.stage.readable h.owner⟩
      · rw [hpolled] at hallows
        exact hallows.elim
    · rw [phases_snoc, Function.update_of_ne hki]
      exact h.poll

theorem polling_rules (agents : ι → Agent) (o i : ι) (j : UUID) :
    System.Invariant jobProtocol (fun i => (agents i).start) Answered
      (Polling agents o i j) :=
  ⟨fun m h hallows hok => h.call hallows m hok⟩

end Runs

section Claims
variable {ι : Type} [DecidableEq ι]

theorem tracked_run {s : Redis} {agents : ι → Agent} {o : ι} {j : UUID} {now : Time} {p : UUID}
    (ho : agents o = .enqueue j now p) (hfresh : Fresh s agents o j)
    {schedule : List (ι × Moment)} (hok : ∀ x ∈ schedule, x.2.raises = none) :
    Tracked agents o j ((agentsOn s agents).run schedule).state
      ((agentsOn s agents).run schedule).trace :=
  (tracked_rules agents o j).run_keeps (agentsOn_onTrack s agents) (tracked_boot ho hfresh)
    schedule (admits_answered (A := agentsOn s agents) (List.forall_mem_nil _) hok)

/-- The agent has returned a job, and has not raised. -/
def Accepted (A : System backend ι Report) (i : ι) : Prop :=
  ∃ response, A.outcome i = some (.ok response)

theorem enqueued_of_accepted {s : Redis} {agents : ι → Agent} {o : ι} {j : UUID} {now : Time}
    {p : UUID} (ho : agents o = .enqueue j now p) {schedule : List (ι × Moment)}
    (h : Accepted ((agentsOn s agents).run schedule) o) :
    phases agents ((agentsOn s agents).run schedule).trace o = .enqueued j := by
  obtain ⟨response, hresponse⟩ := h
  have hends := ((agentsOn_onTrack s agents).run schedule).ended hresponse
  rw [ho] at hends
  exact (hends response rfl).1

/-- A record moves on between any two moments. -/
theorem leads_run {s : Redis} {agents : ι → Agent} {o : ι} {j : UUID} {now : Time} {p : UUID}
    (ho : agents o = .enqueue j now p) (hfresh : Fresh s agents o j)
    {before after : List (ι × Moment)} (hok : ∀ x ∈ before ++ after, x.2.raises = none) :
    Leads (((agentsOn s agents).run before).state.records j)
      (((agentsOn s agents).run (before ++ after)).state.records j) := by
  have hbefore : ∀ x ∈ before, x.2.raises = none := fun x hx =>
    hok x (List.mem_append_left _ hx)
  rw [System.run_append]
  refine (tracked_rules agents o j).run_relates (R := fun s t : Redis =>
      Leads (s.records j) (t.records j)) (fun _ => .inl rfl) (fun h h' => h.trans h')
    (fun m h hallows _ => h.stage.leads rfl (jobStep j m _ hallows))
    ((agentsOn_onTrack s agents).run before) (tracked_run ho hfresh hbefore) after ?_
  rw [← System.run_append]
  exact admits_answered (List.forall_mem_nil _) hok

/-- A poll that starts after the client of its job has returned is answered. -/
theorem poll_answered {s : Redis} {agents : ι → Agent} {o i : ι} {j : UUID} {now : Time}
    {p : UUID} (ho : agents o = .enqueue j now p) (hfresh : Fresh s agents o j)
    (hi : agents i = .poll j) {before after : List (ι × Moment)}
    (hok : ∀ x ∈ before ++ after, x.2.raises = none)
    (haccepted : Accepted ((agentsOn s agents).run before) o)
    (hlate : ((agentsOn s agents).run before).outcome i = none) {r : Except Failure Report}
    (hr : ((agentsOn s agents).run (before ++ after)).outcome i = some r) :
    ∃ response, r = .ok (.job response) ∧ response.jobId = j := by
  have htrack := (agentsOn_onTrack s agents).run before
  have hbefore : ∀ x ∈ before, x.2.raises = none := fun x hx =>
    hok x (List.mem_append_left _ hx)
  have hpolling : phases agents ((agentsOn s agents).run before).trace i = .polling j := by
    obtain ⟨c, hc⟩ := htrack.pending hlate
    change (phases agents _ i).Allows c at hc
    rcases phases_poll hi ((agentsOn s agents).run before).trace with h | ⟨raw, h⟩ | h
    · exact h
    · rw [h] at hc
      exact hc.elim
    · rw [h] at hc
      exact hc.elim
  rw [System.run_append] at hr
  have hrun := (polling_rules agents o i j).run_keeps htrack
    ⟨tracked_run ho hfresh hbefore, enqueued_of_accepted ho haccepted, .inl hpolling⟩ after
    (by rw [← System.run_append]; exact admits_answered (List.forall_mem_nil _) hok)
  have hends := (htrack.run after).ended hr
  rw [hi] at hends
  rcases hends with ⟨raw, hraw, rfl⟩ | ⟨hunavailable, _⟩
  · rcases hrun.poll with h | ⟨raw', h, hshows⟩
    · exact nomatch hraw.symm.trans h
    · obtain rfl : raw = raw' := Phase.polled.inj (hraw.symm.trans h)
      exact pollAnswer_of_shows hshows
  · rcases hrun.poll with h | ⟨raw', h, _⟩
    · exact nomatch hunavailable.symm.trans h
    · exact nomatch hunavailable.symm.trans h

/-- What holds of the job of client `o` at the end of a run without faults. -/
structure JobLaws (s : Redis) (agents : ι → Agent) (o : ι) (j : UUID)
    (schedule : List (ι × Moment)) (A : System backend ι Report) : Prop where
  once : (poppers j A.trace).length ≤ 1
  workers : ∀ k ∈ poppers j A.trace, (agents k).isWorker
  writers : ∀ x ∈ A.trace, Sets j x.2 → x.1 = o ∨ x.1 ∈ poppers j A.trace
  handed : Accepted A o → (∃ p, A.state.messagesOf j = [.task j p] ∧ poppers j A.trace = []) ∨
    (A.state.messagesOf j = [] ∧ ∃ k, poppers j A.trace = [k])
  versions : (reads j A.trace ++ [A.state.records j]).Pairwise Leads
  forward : ∀ before after, schedule = before ++ after →
    Leads (((agentsOn s agents).run before).state.records j) (A.state.records j)
  pending : ∀ data, A.state.records j = some data → data.status = .queued →
    (∃ m ∈ A.state.queue, m.jobId? = some j) ∨ (∃ p, phases agents A.trace o = .saved j p) ∨
      ∃ k p, phases agents A.trace k = .claimed j p ∨
        ∃ raw, phases agents A.trace k = .loaded j p raw
  answered : ∀ before after i r, schedule = before ++ after → agents i = .poll j →
    Accepted ((agentsOn s agents).run before) o →
    ((agentsOn s agents).run before).outcome i = none → A.outcome i = some r →
    ∃ response, r = .ok (.job response) ∧ response.jobId = j

theorem queue_keeps_jobs (s : Redis) (agents : ι → Agent) (schedule : List (ι × Moment))
    (hok : ∀ x ∈ schedule, x.2.raises = none) :
    (pops ((agentsOn s agents).run schedule).trace).map Prod.snd ++
        ((agentsOn s agents).run schedule).state.queue =
      s.queue ++ pushes ((agentsOn s agents).run schedule).trace ∧
    ∀ o j now p, agents o = .enqueue j now p → Fresh s agents o j →
      JobLaws s agents o j schedule ((agentsOn s agents).run schedule) := by
  refine ⟨pops_run s agents schedule, fun o j now p ho hfresh => ?_⟩
  have hrun := tracked_run ho hfresh hok
  exact {
    once := hrun.stage.poppers_le
    workers := fun k hk => poppers_workers s agents j schedule hk
    writers := hrun.writers
    handed := by
      intro haccepted
      rcases hrun.stage.enqueued_cases (enqueued_of_accepted ho haccepted) with
        ⟨p, _, hqueue, hpoppers⟩ | ⟨hqueue, k, hpoppers, _⟩
      · exact .inl ⟨p, hqueue, hpoppers⟩
      · exact .inr ⟨hqueue, k, hpoppers⟩
    versions := hrun.versions
    forward := by
      rintro before after rfl
      exact leads_run ho hfresh hok
    pending := fun data hdata hstatus => hrun.stage.pending hdata hstatus
    answered := by
      rintro before after i r rfl hi haccepted hlate hr
      exact poll_answered ho hfresh hi hok haccepted hlate hr }

end Claims

section Sample

def noJobs : Redis := ⟨[], fun _ => none⟩

inductive Party where
  | client
  | worker
  | reader
  deriving DecidableEq

/-- A client that asks for Paula's summary, a worker, and a poll. -/
def crew : Party → Agent
  | .client => .enqueue 7 0 paula.id
  | .worker => .worker 1 (fun _ => ⟨1, 2, 3⟩) none
  | .reader => .poll 7

def fine : Moment := ⟨newPlatform, none⟩

def broken : Moment := ⟨newPlatform, some "Connection reset by peer"⟩

/-- The client, then the worker, then the poll. -/
def inTurn : List (Party × Moment) :=
  List.replicate 3 (.client, fine) ++ List.replicate 9 (.worker, fine) ++ [(.reader, fine)]

theorem fresh_crew : Fresh noJobs crew .client 7 where
  record := rfl
  queue := rfl
  alone := by
    intro i hi
    cases i with
    | client => exact (hi rfl).elim
    | worker => exact nofun
    | reader => exact nofun

theorem queue_keeps_jobs_crew :
    JobLaws noJobs crew .client 7 inTurn ((agentsOn noJobs crew).run inTurn) ∧
    poppers 7 ((agentsOn noJobs crew).run inTurn).trace = [.worker] ∧
    (reads 7 ((agentsOn noJobs crew).run inTurn).trace).map (Option.map JobData.status) =
      [some .queued, some .completed] :=
  ⟨(queue_keeps_jobs noJobs crew inTurn (by decide)).2 .client 7 0 paula.id rfl fresh_crew,
    by decide +kernel, by decide +kernel⟩

end Sample

end BookingPlatform

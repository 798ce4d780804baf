import BookingPlatform.JobQueue
import BookingPlatform.Remote.Solo

/-!
# Half an enqueue

The record and the message of a new job are written by two commands. When the second one
raises, the client is told 503 and the record stays, for good: nobody can take a message
that is not there.
-/

namespace BookingPlatform

set_option autoImplicit false

open Remote

/-- Redis knows nothing of the job. -/
structure Redis.Lacks (s : Redis) (jobId : UUID) : Prop where
  record : s.records jobId = none
  queue : s.messagesOf jobId = []

/-- Redis has the record of the job and the message about it. -/
structure Redis.Holds (s : Redis) (jobId providerId : UUID) : Prop where
  record : ∃ data, s.records jobId = some data ∧ data.jobId = jobId ∧ data.providerId = providerId
  message : .task jobId providerId ∈ s.queue

/-- What the client may conclude from the answer: after a 503 nothing has been written, after
a response both the record and the message have been, of the job that it names. -/
structure Entire (jobId providerId : UUID) (before : Redis)
    (x : Except Failure ReviewSummaryJobResponse × Redis × (Nat → Moment)) : Prop where
  refused : ∀ detail, x.1 = .error (.httpException 503 detail) →
    x.2.1 = before ∧ x.2.1.Lacks jobId
  accepted : ∀ response, x.1 = .ok response → x.2.1.Holds jobId providerId ∧
    response.jobId = jobId ∧ response.providerId = providerId

/-- The provider is read and the record is set, and the push raises. -/
def HalfWay (ms : Nat → Moment) : Prop :=
  (ms 0).raises = none ∧ (ms 1).raises = none ∧ (ms 2).raises ≠ none

section Calls
variable {m : Moment} {text : String}

theorem perform_raised (hm : m.raises = some text) (c : Command) (s : Redis) :
    perform c m s = (.error (.exception text), s) := by
  unfold perform
  rw [hm]

theorem perform_fine (hm : m.raises = none) (c : Command) (s : Redis) :
    perform c m s = perform c ⟨m.db, none⟩ s := by
  rw [← hm]

end Calls

section Writes
variable (ms : Nat → Moment) {s : Redis} {data : JobData} {payload : Payload} {text : String}

/-- The commands of the try block. -/
def saveAndPush (data : JobData) (payload : Payload) : Script backend Unit := do
  send (.set data.jobId data)
  send (.rpush payload)

def Redis.save (s : Redis) (data : JobData) : Redis :=
  { s with records := Function.update s.records data.jobId (some data) }

def Redis.push (s : Redis) (payload : Payload) : Redis := { s with queue := s.queue ++ [payload] }

theorem exec_saveAndPush_unsaved (h : (ms 0).raises = some text) :
    ∃ rest, (saveAndPush data payload).exec ms s = (.error (.exception text), s, rest) :=
  ⟨_, Script.exec_bind_error (Script.exec_send_eq (S := backend) (perform_raised h _ s))⟩

theorem exec_saveAndPush_saved (h : (ms 0).raises = none) :
    (saveAndPush data payload).exec ms s =
      (send (.rpush payload)).exec (fun n => ms (n + 1)) (s.save data) :=
  Script.exec_bind_ok (Script.exec_send_eq (S := backend) (perform_fine h _ s))

theorem exec_saveAndPush_unpushed (hset : (ms 0).raises = none) (h : (ms 1).raises = some text) :
    ∃ rest, (saveAndPush data payload).exec ms s =
      (.error (.exception text), s.save data, rest) := by
  rw [exec_saveAndPush_saved ms hset]
  exact ⟨_, Script.exec_send_eq (S := backend) (perform_raised h _ _)⟩

theorem exec_saveAndPush_ok (hset : (ms 0).raises = none) (h : (ms 1).raises = none) :
    ∃ rest, (saveAndPush data payload).exec ms s =
      (.ok (), (s.save data).push payload, rest) := by
  rw [exec_saveAndPush_saved ms hset]
  exact ⟨_, Script.exec_send_eq (S := backend) (perform_fine h _ _)⟩

end Writes

section Enqueue
variable {ms rest : Nat → Moment} {s s' : Redis} {jobId : UUID} {now : Time} {provider : User}
  {text : String}

/-- `model_validate` of the record of a new job. -/
def queuedResponse (jobId : UUID) (now : Time) (p : UUID) : ReviewSummaryJobResponse where
  jobId := jobId
  status := .queued
  providerId := p
  result := none
  error := none
  createdAt := now
  updatedAt := some now

theorem exec_enqueue_unread (s : Redis) (jobId : UUID) (now : Time) (p : UUID)
    (h : (ms 0).raises = some text) :
    ∃ rest, (enqueueSummaryJob jobId now p).exec ms s = (.error (.exception text), s, rest) :=
  ⟨_, Script.exec_bind_error (Script.exec_send_eq (S := backend) (perform_raised h _ s))⟩

variable (hread : (ms 0).raises = none) (hprovider : (ms 0).db.user? provider.id = some provider)
  (hrole : provider.role = .provider)
include hread hprovider hrole

/-- For a valid provider the try block runs, its handler, and the response is built. -/
theorem exec_enqueue : (enqueueSummaryJob jobId now provider.id).exec ms s =
    (tryCatch (saveAndPush (queuedJob jobId now provider.id) (.task jobId provider.id)) (fun _ =>
        throw (Failure.httpException 503 "Task queue is temporarily unavailable")) >>= fun _ =>
      Script.ofExcept (queuedJob jobId now provider.id).validate).exec
        (fun n => ms (n + 1)) s := by
  have hfound : perform (.sql (.user provider.id)) (ms 0) s = (.ok (some provider), s) :=
    (perform_fine hread _ s).trans (congrArg (fun x => (Except.ok x, s)) hprovider)
  refine (Script.exec_bind_ok (Script.exec_send_eq (S := backend) hfound)).trans ?_
  change Script.exec (if _ then _ else _) _ _ = _
  rw [if_neg (not_not.mpr hrole)]
  rfl

theorem exec_enqueue_error {e : Failure}
    (h : (saveAndPush (queuedJob jobId now provider.id) (.task jobId provider.id)).exec
      (fun n => ms (n + 1)) s = (.error e, s', rest)) :
    (enqueueSummaryJob jobId now provider.id).exec ms s =
      (.error (.httpException 503 "Task queue is temporarily unavailable"), s', rest) := by
  rw [exec_enqueue hread hprovider hrole]
  exact Script.exec_bind_error (Script.exec_tryCatch_error h)

theorem exec_enqueue_ok
    (h : (saveAndPush (queuedJob jobId now provider.id) (.task jobId provider.id)).exec
      (fun n => ms (n + 1)) s = (.ok (), s', rest)) :
    (enqueueSummaryJob jobId now provider.id).exec ms s =
      (.ok (queuedResponse jobId now provider.id), s', rest) := by
  rw [exec_enqueue hread hprovider hrole]
  exact Script.exec_bind_ok (Script.exec_tryCatch_ok h)

/-- Stopped half way, the call answers 503 and leaves the record. -/
theorem exec_enqueue_halfWay (hset : (ms 1).raises = none) (hpush : (ms 2).raises = some text) :
    ∃ rest, (enqueueSummaryJob jobId now provider.id).exec ms s =
      (.error (.httpException 503 "Task queue is temporarily unavailable"),
        s.save (queuedJob jobId now provider.id), rest) := by
  obtain ⟨rest, hwrites⟩ := exec_saveAndPush_unpushed (fun n => ms (n + 1)) hset hpush
  exact ⟨rest, exec_enqueue_error hread hprovider hrole hwrites⟩

end Enqueue

section Answers
variable {jobId p : UUID} {s s' : Redis} {now : Time} {ms rest : Nat → Moment}

theorem records_save : (s.save (queuedJob jobId now p)).records jobId =
    some (queuedJob jobId now p) := Function.update_self ..

theorem Entire.of_exception {text : String} :
    Entire jobId p s (.error (.exception text), s', rest) where
  refused := fun _ h => nomatch h
  accepted := fun _ h => nomatch h

theorem Entire.of_untouched {e : Failure} (hnew : s.Lacks jobId) :
    Entire jobId p s (.error e, s, rest) where
  refused := fun _ _ => ⟨rfl, hnew⟩
  accepted := fun _ h => nomatch h

theorem Entire.of_both : Entire jobId p s (.ok (queuedResponse jobId now p),
    (s.save (queuedJob jobId now p)).push (.task jobId p), rest) where
  refused := fun _ h => nomatch h
  accepted := by
    rintro _ ⟨⟩
    exact ⟨⟨⟨_, records_save, rfl, rfl⟩, List.mem_append_right _ List.mem_cons_self⟩, rfl, rfl⟩

theorem not_entire_of_saved {detail : String} : ¬ Entire jobId p s
    (.error (.httpException 503 detail), s.save (queuedJob jobId now p), rest) := by
  intro h
  have hrecord := (h.refused detail rfl).2.record
  change (s.save _).records jobId = none at hrecord
  rw [records_save] at hrecord
  cases hrecord

end Answers

section Left
variable {ι : Type} [DecidableEq ι] {agents : ι → Agent} {s : Redis} {jobId : UUID}
  {raw : Option JobData}

/-- The record of the job is as it was left, whoever has read it has read it so, and nobody
is about to take the job on. -/
structure Stranded (agents : ι → Agent) (jobId : UUID) (raw : Option JobData) (s : Redis)
    (trace : Trace backend ι) : Prop where
  record : s.records jobId = raw
  queue : s.messagesOf jobId = []
  others : ∀ i, (phases agents trace i).about ≠ some jobId
  reads : ∀ x ∈ reads jobId trace, x = raw

theorem stranded_rules (agents : ι → Agent) (jobId : UUID) (raw : Option JobData) :
    System.Invariant jobProtocol (fun i => (agents i).start) (fun _ _ _ => True)
      (Stranded agents jobId raw) := by
  refine ⟨fun {s trace i c} m h hallows _ => ?_⟩
  change (phases agents trace i).Allows c at hallows
  obtain ⟨_, hrecord, hqueue, hfree⟩ :=
    (jobStep jobId m s hallows).bystander (h.others i) h.queue
  refine ⟨hrecord.trans h.record, hqueue, ?_, ?_⟩
  · rw [phases_snoc]
    exact about_update hfree fun k _ => h.others k
  · rcases reads_snoc m s trace i jobId with hsame | hread
    · rw [hsame]
      exact h.reads
    · rw [hread]
      intro x hx
      rcases List.mem_append.mp hx with hx | hx
      · exact h.reads x hx
      · exact (List.mem_singleton.mp hx).trans h.record

/-- What half an enqueue leaves stays as it is in every run of clients with other jobs, of
workers and of polls: the job reads as queued for as long as there is a record of it. -/
theorem left_queued_run {ms : Nat → Moment} {now : Time} {provider : User}
    (hprovider : (ms 0).db.user? provider.id = some provider) (hrole : provider.role = .provider)
    (hhalf : HalfWay ms) (hnew : s.Lacks jobId) (hothers : ∀ i, (agents i).names ≠ some jobId)
    (schedule : List (ι × Moment)) :
    ∃ left rest, (enqueueSummaryJob jobId now provider.id).exec ms s =
      (.error (.httpException 503 "Task queue is temporarily unavailable"), left, rest) ∧
      Stranded agents jobId (some (queuedJob jobId now provider.id))
        ((agentsOn left agents).run schedule).state
        ((agentsOn left agents).run schedule).trace := by
  obtain ⟨text, hpush⟩ := Option.ne_none_iff_exists'.mp hhalf.2.2
  obtain ⟨rest, hexec⟩ := exec_enqueue_halfWay hhalf.1 hprovider hrole hhalf.2.1 hpush
  refine ⟨_, rest, hexec, ?_⟩
  refine (stranded_rules agents jobId _).run_keeps (agentsOn_onTrack _ agents) ?_ schedule
    fun _ _ _ _ _ => trivial
  refine ⟨records_save, hnew.queue, fun i => ?_, fun x hx => nomatch hx⟩
  change (agents i).start.about ≠ _
  rw [about_start]
  exact hothers i

end Left

/-- An enqueue for a valid provider has all of its effect or none, as its answer says, unless
it is stopped half way. -/
theorem failed_enqueue_iff (s : Redis) (ms : Nat → Moment) (now : Time) (jobId : UUID)
    (provider : User) (hprovider : (ms 0).db.user? provider.id = some provider)
    (hrole : provider.role = .provider) (hnew : s.Lacks jobId) :
    Entire jobId provider.id s ((enqueueSummaryJob jobId now provider.id).exec ms s) ↔
      ¬ HalfWay ms := by
  cases hread : (ms 0).raises with
  | some text =>
    obtain ⟨rest, hexec⟩ := exec_enqueue_unread s jobId now provider.id hread
    rw [hexec]
    exact iff_of_true .of_exception fun h => nomatch hread.symm.trans h.1
  | none =>
  cases hset : (ms 1).raises with
  | some text =>
    obtain ⟨rest, hwrites⟩ := exec_saveAndPush_unsaved (fun n => ms (n + 1)) hset
    rw [exec_enqueue_error hread hprovider hrole hwrites]
    exact iff_of_true (.of_untouched hnew) fun h => nomatch hset.symm.trans h.2.1
  | none =>
  cases hpush : (ms 2).raises with
  | some text =>
    obtain ⟨rest, hexec⟩ := exec_enqueue_halfWay hread hprovider hrole hset hpush
    rw [hexec]
    refine iff_of_false not_entire_of_saved (not_not.mpr ⟨hread, hset, ?_⟩)
    rw [hpush]
    exact nofun
  | none =>
    obtain ⟨rest, hwrites⟩ := exec_saveAndPush_ok (fun n => ms (n + 1)) hset hpush
    rw [exec_enqueue_ok hread hprovider hrole hwrites]
    exact iff_of_true .of_both fun h => h.2.2 hpush

/-- The push raises. -/
def pushFails : Nat → Moment
  | 2 => broken
  | _ => fine

theorem lacks_noJobs : noJobs.Lacks 7 := ⟨rfl, rfl⟩

theorem failed_enqueue_iff_paula :
    Entire 7 paula.id noJobs ((enqueueSummaryJob 7 0 paula.id).exec (fun _ => fine) noJobs) ↔
      ¬ HalfWay fun _ => fine :=
  failed_enqueue_iff noJobs (fun _ => fine) 0 7 paula (by decide) rfl lacks_noJobs

/-- The client is told 503, and a poll finds the job queued. -/
theorem failed_enqueue_leaves_record :
    ¬ Entire 7 paula.id noJobs ((enqueueSummaryJob 7 0 paula.id).exec pushFails noJobs) ∧
    ((getSummaryJob 7).exec (fun _ => fine)
      ((enqueueSummaryJob 7 0 paula.id).exec pushFails noJobs).2.1).1 =
        .ok (queuedResponse 7 0 paula.id) :=
  ⟨not_entire_of_saved, rfl⟩

end BookingPlatform

import BookingPlatform.Enqueuing
import BookingPlatform.Strings.Uuid

/-!
# What one worker takes from the queue

The messages of the queue are strings; a worker decodes each after it has popped it. With a
limit on the number of jobs it takes the messages up to the last job it may process, and
the rest stays in the queue.
-/

namespace BookingPlatform

set_option autoImplicit false

open Remote Strings Strings.Json

section Messages

/-- How deep the interpreter recurses, and its decimal digits of other scripts. -/
structure Interpreter where
  recursionDepth : Nat
  decimal : Nat → Option Nat

variable (py : Interpreter)

/-- `uuid.UUID` of what is no string raises. -/
def uuidOf : Json → Option UUID
  | .string s => uuid? py.decimal s
  | _ => none

/-- Decoding, subscripting and the two constructors, each of which may raise. -/
def taskOf (raw : Str) : Option (UUID × UUID) := do
  let taskData ← loads py.recursionDepth raw
  let jobId ← uuidOf py (← taskData.item? (points "job_id"))
  let providerId ← uuidOf py (← taskData.item? (points "provider_id"))
  pure (jobId, providerId)

def Payload.read (raw : String) : Payload :=
  match taskOf py (points raw) with
  | some (jobId, providerId) => .task jobId providerId
  | none => .malformed raw

/-- What `enqueue_summary_job` pushes. -/
def taskMessage (jobId providerId : UUID) : Str :=
  dumpsObject [(points "job_id", strUuid jobId), (points "provider_id", strUuid providerId)]

theorem scalar_strUuid (u : UUID) : ∀ c ∈ strUuid u, Scalar c := by
  intro c hc
  rcases mem_strUuid hc with hhex | rfl
  · unfold IsHex at hhex
    unfold Scalar IsHigh IsLow
    omega
  · decide

theorem taskOf_taskMessage {depth : Nat} (hdepth : py.recursionDepth = depth + 1)
    (jobId providerId : UUID) :
    taskOf py (taskMessage jobId providerId) = some (jobId, providerId) := by
  have hscalar : ∀ x ∈ [(points "job_id", strUuid jobId),
      (points "provider_id", strUuid providerId)], (∀ c ∈ x.1, Scalar c) ∧ ∀ c ∈ x.2, Scalar c := by
    intro x hx
    simp only [List.mem_cons, List.not_mem_nil, or_false] at hx
    rcases hx with rfl | rfl
    · exact ⟨scalar_points "job_id", scalar_strUuid jobId⟩
    · exact ⟨scalar_points "provider_id", scalar_strUuid providerId⟩
  have hloads := loads_dumpsObject hscalar depth
  have huuid : ∀ u, uuidOf py (.string (strUuid u)) = some u :=
    fun u => uuid?_strUuid py.decimal u
  have hkeys : points "provider_id" ≠ points "job_id" := fun h => absurd (points_inj h) (by decide)
  have hjob : ∀ x y, item? (points "job_id")
      (.object [(points "job_id", x), (points "provider_id", y)]) = some x := fun x y =>
    (item?_of_ne hkeys y [(points "job_id", x)]).trans (item?_last _ x [])
  have hprovider : ∀ x y, item? (points "provider_id")
      (.object [(points "job_id", x), (points "provider_id", y)]) = some y := fun x y =>
    item?_last _ y [(points "job_id", x)]
  unfold taskOf taskMessage
  rw [hdepth, hloads]
  simp only [List.map_cons, List.map_nil, Option.bind_eq_bind, Option.bind_some, hjob, hprovider,
    huuid]
  rfl

/-- The worker reads back what a client has pushed. -/
theorem read_taskMessage {depth : Nat} (hdepth : py.recursionDepth = depth + 1)
    {jobId providerId : UUID} {raw : String} (hraw : points raw = taskMessage jobId providerId) :
    Payload.read py raw = .task jobId providerId := by
  unfold Payload.read
  rw [hraw, taskOf_taskMessage py hdepth]

end Messages

section Moments
variable {ms : Nat → Moment}

/-- The moments after so many commands. -/
def later (ms : Nat → Moment) (d : Nat) : Nat → Moment := fun n => ms (n + d)

theorem later_later (ms : Nat → Moment) (d e : Nat) : later (later ms d) e = later ms (d + e) := by
  funext n
  unfold later
  rw [Nat.add_assoc, Nat.add_comm e d]

/-- No command raises. -/
def Calm (ms : Nat → Moment) : Prop := ∀ n, (ms n).raises = none

theorem Calm.later (h : Calm ms) (d : Nat) : Calm (later ms d) := fun n => h (n + d)

variable {α β : Type} {c : Command} {a : c.Reply} {s s' : Redis}

theorem exec_calm (h : Calm ms) (hc : perform c ⟨(ms 0).db, none⟩ s = (.ok a, s')) :
    (send c).exec ms s = (.ok a, s', later ms 1) :=
  Script.exec_send_eq (S := backend) ((perform_fine (h 0) c s).trans hc)

theorem exec_calm_bind (h : Calm ms) {k : c.Reply → Script backend α}
    (hc : perform c ⟨(ms 0).db, none⟩ s = (.ok a, s')) :
    (send c >>= k).exec ms s = (k a).exec (later ms 1) s' :=
  Script.exec_bind_ok (exec_calm h hc)

theorem exec_calm_trying (h : Calm ms) {clock : JobClock} {j : UUID} {data : JobData}
    {k : c.Reply → Script backend JobData} (hc : perform c ⟨(ms 0).db, none⟩ s = (.ok a, s')) :
    (trying clock j data (send c) k).exec ms s = (k a).exec (later ms 1) s' :=
  Script.exec_bind_ok (Script.exec_attempt_eq (exec_calm h hc))

end Moments

section Job
variable {ms : Nat → Moment} (h : Calm ms) (records : UUID → Option JobData) (clock : JobClock)
  (j p : UUID)
include h

theorem exec_store (queue : List Payload) (data last : JobData) :
    (store clock j last).exec ms ⟨queue, Function.update records j (some data)⟩ =
      (.ok last, ⟨queue, Function.update records j (some last)⟩, later ms 1) := by
  refine (exec_calm_trying h rfl).trans ?_
  rw [← Function.update_idem (f := records) (a := j) (v := some data) (w := some last)]
  rfl

/-- The try block of a job, once it has read the provider. -/
def tryBlock (clock : JobClock) (j p : UUID) (data : JobData) (provider : Option User) :
    Script backend JobData :=
  match provider with
  | none => store clock j (data.failed "Provider not found" clock.finished)
  | some provider =>
    if provider.role ≠ UserRole.provider then
      store clock j (data.failed "User is not a provider" clock.finished)
    else
      trying clock j data (send (.sql (.reviewStats p))) fun stats : Nat × Option ℚ =>
        trying clock j data (send (.sql (.ratingCounts p))) fun rows : List (Int × Nat) =>
          match (summaryResult provider p stats rows clock.finished).validate with
          | .error exc => onException clock j data exc
          | .ok result => store clock j (data.completed result clock.finished)

theorem exec_tryBlock (data : JobData) (provider : Option User) : ∃ last e, ∀ queue,
    (tryBlock clock j p data provider).exec ms ⟨queue, Function.update records j (some data)⟩ =
      (.ok last, ⟨queue, Function.update records j (some last)⟩, later ms e) := by
  unfold tryBlock
  cases provider with
  | none => exact ⟨_, 1, fun queue => exec_store h records clock j queue data _⟩
  | some provider =>
    dsimp only
    split
    · exact ⟨_, 1, fun queue => exec_store h records clock j queue data _⟩
    · let stats := (ms 0).db.answer (.reviewStats p)
      let rows := (later ms 1 0).db.answer (.ratingCounts p)
      have hstats : ∀ st, perform (.sql (.reviewStats p)) ⟨(ms 0).db, none⟩ st =
          (.ok stats, st) := fun _ => rfl
      have hrows : ∀ st, perform (.sql (.ratingCounts p)) ⟨(later ms 1 0).db, none⟩ st =
          (.ok rows, st) := fun _ => rfl
      obtain ⟨result, hresult⟩ := summaryResult_valid
        (congrArg Prod.fst (hstats ⟨[], records⟩)) provider rows clock.finished
      refine ⟨data.completed result clock.finished, 3, fun queue => ?_⟩
      rw [exec_calm_trying h (hstats _), exec_calm_trying (h.later 1) (hrows _), hresult]
      exact exec_store ((h.later 1).later 1) records clock j queue data _

/-- While no command raises, a job goes through: its record is all that it changes. -/
theorem exec_processSummaryJob : ∃ last e, ∀ queue,
    (processSummaryJob clock j p).exec ms ⟨queue, records⟩ =
      (.ok last, ⟨queue, Function.update records j (some last)⟩, later ms (3 + e)) := by
  have hprovider : ∀ st, perform (.sql (.user p)) ⟨(later ms 2 0).db, none⟩ st =
      (.ok ((later ms 2 0).db.user? p), st) := fun _ => rfl
  obtain ⟨last, e, hblock⟩ := exec_tryBlock (h.later 3) records clock j p
    (.started (records j) j p clock.started) ((later ms 2 0).db.user? p)
  refine ⟨last, e, fun queue => ?_⟩
  rw [← later_later, ← hblock queue]
  change Script.exec (send (.get j) >>= fun raw =>
    send (.set j (.started raw j p clock.started)) >>= fun _ =>
      trying clock j (.started raw j p clock.started) (send (.sql (.user p)))
        (tryBlock clock j p (.started raw j p clock.started))) _ _ = _
  rw [exec_calm_bind h rfl, exec_calm_bind (h.later 1) rfl]
  exact exec_calm_trying (h.later 2) (hprovider _)

end Job

section Loop
variable {ms rest : Nat → Moment} {records after : UUID → Option JobData}
  {jobs : List (UUID × UUID)} {queue : List Payload} {clock : Nat → JobClock}

/-- From some moment on each, the jobs are processed once and one after another. -/
inductive Processed : (Nat → Moment) → List (UUID × UUID) → (UUID → Option JobData) →
    (UUID → Option JobData) → Prop where
  | done {ms : Nat → Moment} {records : UUID → Option JobData} : Processed ms [] records records
  | job {ms rest : Nat → Moment} (d : Nat) {clock : JobClock} {jobId providerId : UUID}
      {last : JobData} {jobs : List (UUID × UUID)} {records after : UUID → Option JobData}
      (hjob : ∀ queue, (processSummaryJob clock jobId providerId).exec (later ms d)
        ⟨queue, records⟩ =
          (.ok last, ⟨queue, Function.update records jobId (some last)⟩, rest))
      (hjobs : Processed rest jobs (Function.update records jobId (some last)) after) :
      Processed ms ((jobId, providerId) :: jobs) records after

theorem Processed.wait (h : Processed (later ms 1) jobs records after) :
    Processed ms jobs records after := by
  cases h with
  | done => exact .done
  | job d hjob hjobs =>
    rw [later_later] at hjob
    exact .job (1 + d) hjob hjobs

theorem Processed.untouched (h : Processed ms jobs records after) {jobId : UUID}
    (hjobs : ∀ x ∈ jobs, x.1 ≠ jobId) : after jobId = records jobId := by
  induction h with
  | done => rfl
  | job d hjob hrest ih =>
    rw [ih fun x hx => hjobs x (List.mem_cons_of_mem _ hx)]
    exact Function.update_of_ne (hjobs _ List.mem_cons_self).symm ..

def Payload.task? : Payload → Option (UUID × UUID)
  | .task jobId providerId => some (jobId, providerId)
  | .malformed _ => none

def jobsOf (queue : List Payload) : List (UUID × UUID) := queue.filterMap Payload.task?

theorem exec_round_malformed (h : Calm ms) (clock : JobClock) (raw : String) (n : Nat) :
    (workerRound clock n).exec ms ⟨.malformed raw :: queue, records⟩ =
      (.error (unreadable raw), ⟨queue, records⟩, later ms 1) := by
  unfold workerRound
  rw [exec_calm_bind h (a := some (.malformed raw)) rfl]
  rfl

theorem exec_round_task (h : Calm ms) {clock : JobClock} {jobId providerId : UUID} {n : Nat}
    {last : JobData} (hjob : (processSummaryJob clock jobId providerId).exec (later ms 1)
      ⟨queue, records⟩ = (.ok last, ⟨queue, after⟩, rest)) :
    (workerRound clock n).exec ms ⟨.task jobId providerId :: queue, records⟩ =
      (.ok (n + 1), ⟨queue, after⟩, rest) := by
  unfold workerRound
  rw [exec_calm_bind h (a := some (.task jobId providerId)) rfl]
  exact Script.exec_bind_ok hjob

/-- One round of the loop below the limit. -/
theorem exec_loop_step {rounds limit n : Nat} (hlimit : n < limit) {s s' : Redis}
    {x : Except Failure Nat} (hround : (workerRound (clock rounds) n).exec ms s = (x, s', rest)) :
    (workerLoop clock (some limit) (rounds + 1) n).exec ms s =
      (workerLoop clock (some limit) rounds (x.toOption.getD n)).exec rest s' := by
  rw [workerLoop, if_neg (by simpa using hlimit)]
  refine (Script.exec_bind_ok (Script.exec_attempt_eq hround)).trans ?_
  cases x <;> rfl

theorem exec_loop_limit (rounds n : Nat) (s : Redis) :
    (workerLoop clock (some n) rounds n).exec ms s = (.ok n, s, ms) := by
  cases rounds with
  | zero => rfl
  | succ rounds =>
    rw [workerLoop, if_pos (by simp)]
    rfl

/-- The loop takes the messages up to the last job that is missing, and no more. -/
theorem exec_workerLoop (clock : Nat → JobClock) (h : Calm ms) (queue : List Payload)
    (missing n rounds : Nat) (hmissing : missing ≤ (jobsOf queue).length)
    (hrounds : queue.length ≤ rounds) :
    ∃ taken left after rest, queue = taken ++ left ∧ (jobsOf taken).length = missing ∧
      (∀ fewer, fewer <+: taken → fewer ≠ taken → (jobsOf fewer).length < missing) ∧
      (workerLoop clock (some (n + missing)) rounds n).exec ms ⟨queue, records⟩ =
        (.ok (n + missing), ⟨left, after⟩, rest) ∧
      Processed ms (jobsOf taken) records after := by
  induction queue generalizing ms records missing n rounds with
  | nil =>
    obtain rfl := Nat.le_zero.mp hmissing
    refine ⟨[], [], records, ms, rfl, rfl, fun fewer hpart hne => ?_, exec_loop_limit rounds n _,
      .done⟩
    exact absurd (List.prefix_nil.mp hpart) hne
  | cons message queue ih =>
    cases missing with
    | zero =>
      refine ⟨[], message :: queue, records, ms, rfl, rfl, fun fewer hpart hne => ?_,
        exec_loop_limit rounds n _, .done⟩
      exact absurd (List.prefix_nil.mp hpart) hne
    | succ missing =>
      obtain ⟨rounds, rfl⟩ : ∃ r, rounds = r + 1 := ⟨rounds - 1, by
        rw [List.length_cons] at hrounds
        omega⟩
      rw [List.length_cons] at hrounds
      cases message with
      | malformed raw =>
        obtain ⟨taken, left, after, rest, rfl, hlength, hfewer, hexec, hjobs⟩ :=
          ih (h.later 1) (missing + 1) n rounds hmissing (by omega)
        refine ⟨.malformed raw :: taken, left, after, rest, rfl, hlength,
          fun fewer hpart hne => ?_, ?_, hjobs.wait⟩
        · rcases List.prefix_cons_iff.mp hpart with rfl | ⟨fewer', rfl, hpart'⟩
          · exact Nat.succ_pos missing
          · exact hfewer fewer' hpart' fun heq => hne (by rw [heq])
        · exact (exec_loop_step (by omega) (exec_round_malformed h _ raw n)).trans hexec
      | task jobId providerId =>
        obtain ⟨last, e, hjob⟩ :=
          exec_processSummaryJob (h.later 1) records (clock rounds) jobId providerId
        obtain ⟨taken, left, after, rest, rfl, hlength, hfewer, hexec, hjobs⟩ :=
          ih ((h.later 1).later (3 + e)) missing (n + 1) rounds (Nat.le_of_succ_le_succ hmissing)
            (by omega)
        have hsum : n + (missing + 1) = n + 1 + missing := by omega
        refine ⟨.task jobId providerId :: taken, left, after, rest, rfl,
          congrArg Nat.succ hlength, fun fewer hpart hne => ?_, ?_, .job 1 hjob hjobs⟩
        · rcases List.prefix_cons_iff.mp hpart with rfl | ⟨fewer', rfl, hpart'⟩
          · exact Nat.succ_pos missing
          · exact Nat.succ_lt_succ (hfewer fewer' hpart' fun heq => hne (by rw [heq]))
        · rw [hsum]
          exact (exec_loop_step (by omega) (exec_round_task h (hjob _))).trans hexec

theorem exec_checkConnection (h : Calm ms) {c : Command} {a : c.Reply} {s : Redis}
    (hc : perform c ⟨(ms 0).db, none⟩ s = (.ok a, s)) :
    (checkConnection c).exec ms s = (.ok true, s, later ms 1) :=
  Script.exec_bind_ok (Script.exec_attempt_eq (exec_calm h hc))

theorem exec_runWorker (h : Calm ms) (rounds : Nat) (maxJobs : Option Nat) (s : Redis) :
    (runWorker rounds clock maxJobs).exec ms s =
      (workerLoop clock maxJobs rounds 0).exec (later (later ms 1) 1) s := by
  unfold runWorker
  rw [Script.exec_bind_ok (exec_checkConnection (c := .ping) h rfl)]
  simp only [Bool.not_true, Bool.false_eq_true, if_false]
  rw [Script.exec_bind_ok (exec_checkConnection (c := .selectOne) (h.later 1) rfl)]
  simp only [Bool.not_true, Bool.false_eq_true, if_false]

end Loop

section Raws
variable (py : Interpreter)

/-- The jobs of a queue of strings. -/
def jobsIn (raws : List String) : List (UUID × UUID) :=
  raws.filterMap fun raw => taskOf py (points raw)

theorem task?_read (raw : String) : (Payload.read py raw).task? = taskOf py (points raw) := by
  unfold Payload.read
  cases taskOf py (points raw) with
  | none => rfl
  | some x => rfl

theorem jobsOf_read (raws : List String) :
    jobsOf (raws.map (Payload.read py)) = jobsIn py raws := by
  unfold jobsOf jobsIn
  rw [List.filterMap_map]
  exact List.filterMap_congr fun raw _ => task?_read py raw

end Raws

/-- While nothing raises, the worker takes the shortest part of the queue that holds as many
jobs as it may process, processes them in order, and leaves the rest. -/
theorem worker_takes_shortest (py : Interpreter) (raws : List String)
    (records : UUID → Option JobData) (ms : Nat → Moment) (hcalm : Calm ms)
    (clock : Nat → JobClock) (k rounds : Nat) (hk : k ≤ (jobsIn py raws).length)
    (hrounds : raws.length ≤ rounds) :
    ∃ taken left after rest, raws = taken ++ left ∧
      (jobsIn py taken).length = k ∧
      (∀ fewer, fewer <+: taken → fewer ≠ taken → (jobsIn py fewer).length < k) ∧
      (runWorker rounds clock (some k)).exec ms ⟨raws.map (Payload.read py), records⟩ =
        (.ok k, ⟨left.map (Payload.read py), after⟩, rest) ∧
      Processed ms (jobsIn py taken) records after ∧
      ∀ jobId, (∀ x ∈ jobsIn py taken, x.1 ≠ jobId) → after jobId = records jobId := by
  rw [← jobsOf_read] at hk
  obtain ⟨taken, left, after, rest, hsplit, hlength, hfewer, hexec, hjobs⟩ :=
    exec_workerLoop clock ((hcalm.later 1).later 1) (raws.map (Payload.read py)) k 0 rounds hk
      (by rwa [List.length_map])
  obtain ⟨taken, left, rfl, rfl, rfl⟩ := List.map_eq_append_iff.mp hsplit
  rw [jobsOf_read] at hlength hjobs
  refine ⟨taken, left, after, rest, rfl, hlength, fun fewer hpart hne => ?_, ?_,
    hjobs.wait.wait, fun jobId => hjobs.untouched⟩
  · rw [← jobsOf_read]
    refine hfewer _ (hpart.map _) fun heq => hne (hpart.eq_of_length ?_)
    have hlengths := congrArg List.length heq
    rwa [List.length_map, List.length_map] at hlengths
  · rw [Nat.zero_add] at hexec
    rw [exec_runWorker hcalm, hexec]

/-- A text that is no JSON, and a job with a key too many. -/
def twoRaws : List String := [
  "not json",
  "\x7b\"job_id\": \"00000000-0000-0000-0000-000000000007\", \"n\": 1, " ++
    "\"provider_id\": \"00000000-0000-0000-0000-000000000003\"\x7d"]

def cpython : Interpreter := ⟨1000, fun _ => none⟩

theorem twoRaws_jobs : 1 ≤ (jobsIn cpython twoRaws).length := by decide +kernel

theorem worker_takes_shortest_of_two :
    ∃ taken left after rest, twoRaws = taken ++ left ∧
      (jobsIn cpython taken).length = 1 ∧
      (runWorker 2 (fun _ => ⟨0, 1, 2⟩) (some 1)).exec (fun _ => fine)
        ⟨twoRaws.map (Payload.read cpython), fun _ => none⟩ =
          (.ok 1, ⟨left.map (Payload.read cpython), after⟩, rest) := by
  obtain ⟨taken, left, after, rest, hsplit, hlength, _, hexec, _⟩ :=
    worker_takes_shortest cpython twoRaws (fun _ => none) (fun _ => fine) (fun _ => rfl)
      (fun _ => ⟨0, 1, 2⟩) 1 2 twoRaws_jobs (by decide)
  exact ⟨taken, left, after, rest, hsplit, hlength, hexec⟩

end BookingPlatform

import BookingPlatform.TextRecords
import BookingPlatform.Datetimes

/-!
# The queue and its records, through their texts

Every agent on Redis as it is does, call for call, what it does on queues and records that
are values: each text is read back as what it was written for.
-/

namespace BookingPlatform

set_option autoImplicit false

open Remote Remote.Script Strings Strings.Json

section Correspondence
variable (py : Interpreter) (pydantic : Pydantic)

/-- The text is the message, or one that the worker cannot read. -/
def MessageText (payload : Payload) (text : Str) : Prop :=
  match payload with
  | .task jobId providerId => taskOf py text = some (jobId, providerId)
  | .malformed raw => points raw = text ∧ taskOf py text = none

/-- The text is that of the record, which is its own. -/
def RecordText (jobId : UUID) (data : JobData) (text : Str) : Prop :=
  data.jobId = jobId ∧ ∃ d, text = d.dumps ∧ Represents pydantic d data

/-- What a run on values has in Redis is there as texts; both see the same database at every
moment. -/
def inText : Correspondence backend textBackend where
  States s t := List.Forall₂ (MessageText py) s.queue t.queue ∧
    ∀ jobId, Option.Rel (RecordText pydantic jobId) (s.records jobId) (t.strings (jobKey jobId))
  Moments m m' := m = m' ∧ Short m.db.reviews.length

variable {py pydantic} {s : Redis} {t : TextRedis} {jobId : UUID}

theorem jobKey_inj {j j' : UUID} (h : jobKey j = jobKey j') : j = j' := by
  have htext : strUuid j = strUuid j' := List.append_cancel_left h
  have hread := congrArg (uuid? fun _ => none) htext
  rw [uuid?_strUuid, uuid?_strUuid] at hread
  exact Option.some.inj hread

theorem record_update {data : JobData} {text : Str}
    (h : ∀ j, Option.Rel (RecordText pydantic j) (s.records j) (t.strings (jobKey j)))
    (hnew : RecordText pydantic jobId data text) (j : UUID) :
    Option.Rel (RecordText pydantic j) (Function.update s.records jobId (some data) j)
      (Function.update t.strings (jobKey jobId) (some text) (jobKey j)) := by
  by_cases hj : j = jobId
  · subst j
    rw [Function.update_self, Function.update_self]
    exact .some hnew
  · rw [Function.update_of_ne hj, Function.update_of_ne fun hkey => hj (jobKey_inj hkey)]
    exact h j

end Correspondence

section Calls
variable {py : Interpreter} {pydantic : Pydantic} {jobId : UUID} {α β : Type}

/-- Both raise the same, or what both do when nothing is raised corresponds. -/
theorem calls_simulate {c : Command} {c' : TextCommand} {P : c.Reply → c'.Reply → Prop}
    (h : ∀ (db : Store) s t, Short db.reviews.length → (inText py pydantic).States s t →
      (inText py pydantic).States (perform c ⟨db, none⟩ s).2 (performText c' ⟨db, none⟩ t).2 ∧
        Results Eq P (perform c ⟨db, none⟩ s).1
          (performText c' ⟨db, none⟩ t).1) :
    Simulates (inText py pydantic) Eq P (BookingPlatform.send c) (sendText c') := by
  apply simulates_send
  rintro m _ s t ⟨rfl, hshort⟩ hst
  obtain ⟨db, raises⟩ := m
  cases raises with
  | none => exact h db s t hshort hst
  | some text => exact ⟨hst, .error rfl⟩

theorem simulates_sql {q : Query} {P : q.Answer → q.Answer → Prop}
    (h : ∀ db : Store, Short db.reviews.length → P (db.answer q) (db.answer q)) :
    Simulates (inText py pydantic) Eq P (BookingPlatform.send (.sql q)) (sendText (.sql q)) :=
  calls_simulate fun db _ _ hshort hst => ⟨hst, .ok (h db hshort)⟩

theorem simulates_get (jobId : UUID) :
    Simulates (inText py pydantic) Eq (Option.Rel (RecordText pydantic jobId))
      (BookingPlatform.send (.get jobId)) (sendText (.get (jobKey jobId))) :=
  calls_simulate fun _ _ _ _ hst => ⟨hst, .ok (hst.2 jobId)⟩

theorem simulates_set {data : JobData} {d : Dict} (hid : data.jobId = jobId)
    (h : Represents pydantic d data) :
    Simulates (inText py pydantic) Eq (fun _ _ => True) (BookingPlatform.send (.set jobId data))
      (sendText (.set (jobKey jobId) d.dumps)) :=
  calls_simulate fun _ _ _ _ hst =>
    ⟨⟨hst.1, record_update hst.2 ⟨hid, d, rfl, h⟩⟩, .ok trivial⟩

theorem simulates_rpush {payload : Payload} {text : Str} (h : MessageText py payload text) :
    Simulates (inText py pydantic) Eq (fun _ _ => True) (BookingPlatform.send (.rpush payload))
      (sendText (.rpush text)) :=
  calls_simulate fun _ _ _ _ hst =>
    ⟨⟨List.rel_append hst.1 (.cons h .nil), hst.2⟩, .ok trivial⟩

theorem simulates_blpop :
    Simulates (inText py pydantic) Eq (Option.Rel (MessageText py)) (BookingPlatform.send .blpop)
      (sendText .blpop) := by
  refine calls_simulate fun _ s t _ hst => ?_
  obtain ⟨queue, records⟩ := s
  obtain ⟨texts, strings⟩ := t
  obtain ⟨hqueue, hrecords⟩ := hst
  dsimp only at hqueue
  cases hqueue with
  | nil => exact ⟨⟨.nil, hrecords⟩, .ok .none⟩
  | cons hfirst hrest => exact ⟨⟨hrest, hrecords⟩, .ok (.some hfirst)⟩

end Calls

section Process
variable {py : Interpreter} {pydantic : Pydantic} {jobId providerId : UUID} {data : JobData}
  {d : Dict} {clock : JobClock}

/-- The readings of the clock are datetimes. -/
structure JobClock.Dated (clock : JobClock) : Prop where
  started : Representable clock.started
  finished : Representable clock.finished
  failed : Representable clock.failed

/-- The record in hand, and the dictionary that represents it. -/
def InHand (pydantic : Pydantic) (jobId : UUID) (data : JobData) (d : Dict) : Prop :=
  data.jobId = jobId ∧ Represents pydantic d data

theorem simulates_onException (hclock : clock.Dated) (h : InHand pydantic jobId data d)
    {exc exc' : Failure} (hexc : exc = exc') :
    Simulates (inText py pydantic) Eq (InHand pydantic jobId) (onException clock jobId data exc)
      (onExceptionText clock jobId d exc') := by
  subst hexc
  have hfailed := h.2.failed exc.text hclock.failed
  refine simulates_bind (P := fun _ _ => True) (simulates_set h.1 hfailed) fun _ _ _ => ?_
  exact simulates_pure ⟨h.1, hfailed⟩

theorem simulates_trying (hclock : clock.Dated) (h : InHand pydantic jobId data d) {α β : Type}
    {P : α → β → Prop} {p : Script backend α} {q : Script textBackend β}
    {k : α → Script backend JobData} {k' : β → Script textBackend Dict}
    (hp : Simulates (inText py pydantic) Eq P p q)
    (hk : ∀ a b, P a b → Simulates (inText py pydantic) Eq (InHand pydantic jobId) (k a) (k' b)) :
    Simulates (inText py pydantic) Eq (InHand pydantic jobId) (trying clock jobId data p k)
      (tryingText clock jobId d q k') := by
  refine simulates_bind (simulates_attempt hp) fun r r' hr => ?_
  cases hr with
  | ok hab => exact hk _ _ hab
  | error hexc => exact simulates_onException hclock h hexc

theorem simulates_store (hclock : clock.Dated) (h : InHand pydantic jobId data d) :
    Simulates (inText py pydantic) Eq (InHand pydantic jobId) (store clock jobId data)
      (storeText clock jobId d) :=
  simulates_trying hclock h (simulates_set h.1 h.2) fun _ _ _ => simulates_pure h

theorem short_of_le {m n : Nat} (h : Short n) (hle : m ≤ n) : Short m := Nat.lt_of_le_of_lt hle h

/-- What a database answers to the two SELECTs makes a result that can be written. -/
theorem plain_summary {db db' : Store} (hdb : Short db.reviews.length)
    (hdb' : Short db'.reviews.length) (provider : User) (hfinished : Representable clock.finished)
    {result : ReviewSummaryResult}
    (h : (summaryResult provider providerId (db.answer (.reviewStats providerId))
      (db'.answer (.ratingCounts providerId)) clock.finished).validate = .ok result) :
    result.Plain := by
  have hresult : result.toResultDump = summaryResult provider providerId
      (db.answer (.reviewStats providerId)) (db'.answer (.ratingCounts providerId))
      clock.finished := by
    unfold ResultDump.validate at h
    split at h
    · cases h
      rfl
    · cases h
  rw [hresult]
  have hratings := ratingsOf_bounds db providerId
  have hlength : ∀ s : Store, (s.ratingsOf providerId).length ≤ s.reviews.length := by
    intro s
    unfold Tables.ratingsOf
    rw [List.length_map]
    exact List.length_filter_le _ _
  constructor
  · exact ⟨_, rfl, short_of_le hdb (hlength db)⟩
  · obtain ⟨n, hn⟩ : ∃ n : Int, roundedAverage (average (db.ratingsOf providerId)) = n / 100 := by
      unfold average
      split
      · exact ⟨0, by simp [roundedAverage]⟩
      · exact ⟨_, rfl⟩
    obtain ⟨hlow, hhigh⟩ := roundedAverage_bounds hratings (by decide)
    rw [hn] at hlow hhigh
    have hnonneg : 0 ≤ n := by
      by_contra hneg
      have hcast : (n : ℚ) < 0 := by exact_mod_cast not_le.mp hneg
      linarith
    have hle : n ≤ 500 := by
      have hcast : (n : ℚ) ≤ 500 := by
        push_cast at hhigh
        linarith
      exact_mod_cast hcast
    obtain ⟨k, rfl⟩ := Int.eq_ofNat_of_zero_le hnonneg
    refine ⟨k, by omega, ?_⟩
    rw [Int.cast_natCast] at hn
    exact hn
  · refine ⟨fun r => (db'.ratingsOf providerId).count r, fun r => ?_, ?_⟩
    · exact short_of_le hdb' (List.count_le_length.trans (hlength db'))
    · exact distributionOf_eq (ratingsOf_bounds db' providerId)
  · exact hfinished

theorem simulates_process (hdepth : 3 ≤ py.recursionDepth) (hpydantic : pydantic.ReadsBack)
    (hclock : clock.Dated) (jobId providerId : UUID) :
    Simulates (inText py pydantic) Eq (InHand pydantic jobId)
      (processSummaryJob clock jobId providerId)
      (processText py pydantic clock jobId providerId) := by
  refine simulates_bind (simulates_get jobId) fun raw text htext => ?_
  -- Whatever was stored is loaded, or both start anew.
  obtain ⟨d, hload, hinHand⟩ : ∃ d, currentDict py clock jobId providerId text = .ok d ∧
      InHand pydantic jobId (.started raw jobId providerId clock.started)
        (markStarted d clock.started) := by
    cases htext with
    | none => exact ⟨_, rfl, rfl, represents_fresh clock jobId providerId hclock.started⟩
    | some h =>
      obtain ⟨hid, d, rfl, hd⟩ := h
      refine ⟨d, ?_, hid, hd.started jobId providerId hclock.started⟩
      unfold currentDict
      rw [present_dumps]
      exact hd.load hdepth
  change Simulates _ _ _ (BookingPlatform.send _ >>= _) (Script.ofExcept _ >>= _)
  rw [hload]
  change Simulates _ _ _ (BookingPlatform.send _ >>= _)
    (sendText (.set (jobKey jobId) (markStarted d clock.started).dumps) >>= _)
  refine simulates_bind (simulates_set hinHand.1 hinHand.2) fun _ _ _ => ?_
  -- The try block, on what both have in hand.
  refine simulates_trying hclock hinHand (simulates_sql (P := Eq) fun _ _ => rfl) ?_
  rintro (provider : Option User) _ rfl
  cases provider with
  | none =>
    exact simulates_store hclock ⟨hinHand.1, hinHand.2.failed _ hclock.finished⟩
  | some provider =>
    change Simulates _ _ _ (if _ then _ else _) (if _ then _ else _)
    split
    · exact simulates_store hclock ⟨hinHand.1, hinHand.2.failed _ hclock.finished⟩
    refine simulates_trying hclock hinHand (simulates_sql (P := fun stats stats' =>
      stats = stats' ∧ ∃ db : Store, Short db.reviews.length ∧
        stats = db.answer (.reviewStats providerId)) fun db hdb => ⟨rfl, db, hdb, rfl⟩) ?_
    rintro stats _ ⟨rfl, db, hdb, rfl⟩
    refine simulates_trying hclock hinHand (simulates_sql (P := fun rows rows' =>
      rows = rows' ∧ ∃ db' : Store, Short db'.reviews.length ∧
        rows = db'.answer (.ratingCounts providerId)) fun db hdb => ⟨rfl, db, hdb, rfl⟩) ?_
    rintro rows _ ⟨rfl, db', hdb', rfl⟩
    cases hresult : (summaryResult provider providerId (db.answer (.reviewStats providerId))
        (db'.answer (.ratingCounts providerId)) clock.finished).validate with
    | error exc => exact simulates_onException hclock hinHand rfl
    | ok result =>
      have hplain := plain_summary hdb hdb' provider hclock.finished hresult
      exact simulates_store hclock
        ⟨hinHand.1, hinHand.2.completed hplain hpydantic hclock.finished⟩

end Process

section Agents
variable {py : Interpreter} {pydantic : Pydantic}

/-- The agent's clock reads datetimes. -/
def Agent.Dated : Agent → Prop
  | .enqueue _ now _ => Representable now
  | .poll _ => True
  | .process clock _ _ => clock.Dated
  | .worker _ clock _ => ∀ n, (clock n).Dated

theorem simulates_enqueue (hdepth : 1 ≤ py.recursionDepth) (hpydantic : pydantic.ReadsBack)
    (jobId providerId : UUID) {now : Time} (hnow : Representable now) :
    Simulates (inText py pydantic) Eq
      (fun response view => view = response.view ∧ view.jobId = jobId)
      (enqueueSummaryJob jobId now providerId) (enqueueText pydantic jobId now providerId) := by
  have hpayload : Represents pydantic (jobPayload jobId now providerId)
      (queuedJob jobId now providerId) := represents_jobPayload jobId providerId hnow
  refine simulates_bind (simulates_sql (P := Eq) fun _ _ => rfl) ?_
  rintro (provider : Option User) _ rfl
  cases provider with
  | none => exact simulates_throw rfl
  | some provider =>
    change Simulates _ _ _ (if _ then _ else _) (if _ then _ else _)
    split
    · exact simulates_throw rfl
    have hsave : Simulates (inText py pydantic) Eq (fun _ _ => True)
        (BookingPlatform.send (.set jobId (queuedJob jobId now providerId)) >>= fun _ =>
          BookingPlatform.send (.rpush (.task jobId providerId)))
        (sendText (.set (jobKey jobId) (jobPayload jobId now providerId).dumps) >>= fun _ =>
          sendText (.rpush (taskMessage jobId providerId))) := by
      refine simulates_bind (simulates_set rfl hpayload) fun _ _ _ => simulates_rpush ?_
      obtain ⟨depth, hdepth⟩ : ∃ n, py.recursionDepth = n + 1 := ⟨py.recursionDepth - 1, by omega⟩
      exact taskOf_taskMessage py hdepth jobId providerId
    refine simulates_bind (simulates_tryCatch hsave fun _ _ _ => simulates_throw rfl)
      fun _ _ _ => ?_
    obtain ⟨response, hvalid, hview, hid⟩ := hpayload.read hpydantic
    rw [hvalid, hview]
    exact simulates_ofExcept (.ok ⟨rfl, hid⟩)

/-- A poll fails in these two ways only: what is stored can always be read. -/
def PollError (e e' : Failure) : Prop :=
  e = e' ∧ (e = .httpException 404 "Summary job not found" ∨
    e = .httpException 503 "Task queue is temporarily unavailable")

theorem simulates_poll (hdepth : 3 ≤ py.recursionDepth) (hpydantic : pydantic.ReadsBack)
    (jobId : UUID) :
    Simulates (inText py pydantic) PollError
      (fun response view => view = response.view ∧ view.jobId = jobId)
      (getSummaryJob jobId) (pollText py pydantic jobId) := by
  refine simulates_bind (simulates_tryCatch (simulates_get jobId) fun _ _ _ =>
    simulates_throw ⟨rfl, .inr rfl⟩) fun raw text htext => ?_
  cases htext with
  | none => exact simulates_throw ⟨rfl, .inl rfl⟩
  | some h =>
    obtain ⟨hid, d, rfl, hd⟩ := h
    obtain ⟨response, hvalid, hview, hresponse⟩ := hd.read hpydantic
    have hread : readJob py pydantic d.dumps = .ok response.view := by
      unfold readJob
      rw [hd.load hdepth]
      exact hview
    dsimp only
    rw [present_dumps, hvalid]
    dsimp only
    rw [hread]
    exact simulates_ofExcept (.ok ⟨rfl, hresponse.trans hid⟩)

theorem simulates_workerRound (hdepth : 3 ≤ py.recursionDepth) (hpydantic : pydantic.ReadsBack)
    {clock : JobClock} (hclock : clock.Dated) (jobsProcessed : Nat) :
    Simulates (inText py pydantic) Eq Eq (workerRound clock jobsProcessed)
      (workerRoundText py pydantic clock jobsProcessed) := by
  refine simulates_bind simulates_blpop fun item text htext => ?_
  cases htext with
  | none => exact simulates_pure rfl
  | @some payload raw h =>
    cases payload with
    | task jobId providerId =>
      have htask : taskOf py raw = some (jobId, providerId) := h
      dsimp only
      rw [htask]
      exact simulates_bind (simulates_process hdepth hpydantic hclock jobId providerId)
        fun _ _ _ => simulates_pure rfl
    | malformed original =>
      obtain ⟨rfl, hnone⟩ := h
      dsimp only
      rw [hnone]
      refine simulates_throw ?_
      unfold unreadable unreadableText
      rw [ofPoints?_points]
      rfl

theorem simulates_workerLoop (hdepth : 3 ≤ py.recursionDepth) (hpydantic : pydantic.ReadsBack)
    {clock : Nat → JobClock} (hclock : ∀ n, (clock n).Dated) (maxJobs : Option Nat)
    (rounds jobsProcessed : Nat) :
    Simulates (inText py pydantic) Eq Eq (workerLoop clock maxJobs rounds jobsProcessed)
      (workerLoopText py pydantic clock maxJobs rounds jobsProcessed) := by
  induction rounds generalizing jobsProcessed with
  | zero => exact simulates_pure rfl
  | succ rounds ih =>
    unfold workerLoop workerLoopText
    split
    · exact simulates_pure rfl
    refine simulates_bind (simulates_attempt (simulates_workerRound hdepth hpydantic
      (hclock rounds) jobsProcessed)) fun r r' hr => ?_
    cases hr with
    | ok hab =>
      subst hab
      exact ih _
    | error _ => exact ih jobsProcessed

theorem simulates_checkConnection {c : Command} {c' : TextCommand}
    (h : Simulates (inText py pydantic) Eq (fun _ _ => True) (BookingPlatform.send c)
      (sendText c')) :
    Simulates (inText py pydantic) Eq Eq (checkConnection c) (checkConnectionText c') := by
  refine simulates_bind (simulates_attempt h) fun r r' hr => ?_
  cases hr with
  | ok _ => exact simulates_pure rfl
  | error _ => exact simulates_pure rfl

theorem simulates_runWorker (hdepth : 3 ≤ py.recursionDepth) (hpydantic : pydantic.ReadsBack)
    (rounds : Nat) {clock : Nat → JobClock} (hclock : ∀ n, (clock n).Dated)
    (maxJobs : Option Nat) :
    Simulates (inText py pydantic) Eq Eq (runWorker rounds clock maxJobs)
      (runWorkerText py pydantic rounds clock maxJobs) := by
  refine simulates_bind (simulates_checkConnection (calls_simulate fun _ _ _ _ hst =>
    ⟨hst, .ok trivial⟩)) ?_
  rintro redisOk _ rfl
  cases redisOk with
  | false => exact simulates_pure rfl
  | true =>
    refine simulates_bind (simulates_checkConnection (calls_simulate fun _ _ _ _ hst =>
      ⟨hst, .ok trivial⟩)) ?_
    rintro dbOk _ rfl
    cases dbOk with
    | false => exact simulates_pure rfl
    | true => exact simulates_workerLoop hdepth hpydantic hclock maxJobs rounds 0

/-- What an agent reports, and what it is in the texts. -/
inductive ReportText (pydantic : Pydantic) : Agent → Report → TextReport → Prop
  | enqueued {jobId providerId : UUID} {now : Time} {response : ReviewSummaryJobResponse}
    (hid : response.view.jobId = jobId) :
    ReportText pydantic (.enqueue jobId now providerId) (.job response) (.job response.view)
  | polled {jobId : UUID} {response : ReviewSummaryJobResponse}
    (hid : response.view.jobId = jobId) :
    ReportText pydantic (.poll jobId) (.job response) (.job response.view)
  | processed {clock : JobClock} {jobId providerId : UUID} {data : JobData} {d : Dict}
    (h : InHand pydantic jobId data d) :
    ReportText pydantic (.process clock jobId providerId) (.processed data) (.processed d)
  | stopped {rounds n : Nat} {clock : Nat → JobClock} {maxJobs : Option Nat} :
    ReportText pydantic (.worker rounds clock maxJobs) (.stopped n) (.stopped n)

/-- How an agent fails: alike on both sides, and a poll never because of what is stored. -/
def ErrorText (agent : Agent) (e e' : Failure) : Prop :=
  match agent with
  | .poll _ => PollError e e'
  | .enqueue _ _ _ => e = e'
  | .process _ _ _ => e = e'
  | .worker _ _ _ => e = e'

theorem simulates_script (hdepth : 3 ≤ py.recursionDepth) (hpydantic : pydantic.ReadsBack)
    {agent : Agent} (hagent : agent.Dated) :
    Simulates (inText py pydantic) (ErrorText agent) (ReportText pydantic agent) agent.script
      (agent.textScript py pydantic) := by
  cases agent with
  | enqueue jobId now providerId =>
    refine simulates_map (simulates_enqueue (by omega) hpydantic jobId providerId hagent) ?_
    rintro response _ ⟨rfl, hid⟩
    exact .enqueued hid
  | poll jobId =>
    refine simulates_map (simulates_poll hdepth hpydantic jobId) ?_
    rintro response _ ⟨rfl, hid⟩
    exact .polled hid
  | process clock jobId providerId =>
    exact simulates_map (simulates_process hdepth hpydantic hagent jobId providerId) fun _ _ h =>
      .processed h
  | worker rounds clock maxJobs =>
    refine simulates_map (simulates_runWorker hdepth hpydantic rounds hagent maxJobs) ?_
    rintro n _ rfl
    exact .stopped

/-- In every run, Redis holds the texts of what a run on queues and records of values would
have in it, and every agent reports the same as there; a poll shows the record of its job, or
fails with 404 or 503, but never because it could not read what was stored. -/
theorem texts_run_as_values (py : Interpreter) (hdepth : 3 ≤ py.recursionDepth)
    (pydantic : Pydantic) (hpydantic : pydantic.ReadsBack) {ι : Type} [DecidableEq ι]
    (agents : ι → Agent) (hagents : ∀ i, (agents i).Dated) (s : Redis) (t : TextRedis)
    (hst : (inText py pydantic).States s t) (schedule : List (ι × Moment))
    (hshort : ∀ x ∈ schedule, Short x.2.db.reviews.length) :
    (inText py pydantic).States ((agentsOn s agents).run schedule).state
      ((textAgentsOn py pydantic t agents).run schedule).state ∧
    ∀ i, Option.Rel (Results (ErrorText (agents i)) (ReportText pydantic (agents i)))
      (((agentsOn s agents).run schedule).outcome i)
      (((textAgentsOn py pydantic t agents).run schedule).outcome i) := by
  have hboot : System.Simulates (inText py pydantic) (fun i => ErrorText (agents i))
      (fun i => ReportText pydantic (agents i)) (agentsOn s agents)
      (textAgentsOn py pydantic t agents) :=
    ⟨hst, fun i => simulates_script hdepth hpydantic (hagents i)⟩
  have hmoments : List.Forall₂ (fun x y => x.1 = y.1 ∧ (inText py pydantic).Moments x.2 y.2)
      schedule schedule := by
    rw [List.forall₂_same]
    exact fun x hx => ⟨rfl, rfl, hshort x hx⟩
  have hrun := hboot.run hmoments
  exact ⟨hrun.states, hrun.outcome⟩

end Agents

section Example

/-! A stand-in for pydantic, which reads what is written here and little else. -/

def plainText? : Json → Option Str
  | .string s => some s
  | .null => none
  | .bool _ => none
  | .number _ => none
  | .array _ => none
  | .object _ => none

def plainNumber? : Json → Option Str
  | .number l => some l
  | .null => none
  | .bool _ => none
  | .string _ => none
  | .array _ => none
  | .object _ => none

def natural (ds : Str) : Nat := Nat.ofDigitChars 10 (ds.map Char.ofNat) 0

def decimal? (l : Str) : Option ℚ := do
  let (int, rest) ← digits? l
  let decimals ← after? 46 rest
  let (fraction, _) ← fixed? decimals.length 0 decimals
  pure (natural int + fraction / 10 ^ decimals.length)

def plainPydantic : Pydantic where
  uuid? x := (plainText? x).bind (uuid? fun _ => none)
  datetime? x := (plainText? x).bind datetime?
  int? x := (plainNumber? x).map fun l => natural l
  float? x := (plainNumber? x).bind decimal?
  str? := plainText?
  dumpDatetime t := (isoBody t).map Char.toNat ++ points "Z"

theorem natural_toString (n : Nat) : natural (points (toString n)) = n := by
  have hchars : (points (toString n)).map Char.ofNat = Nat.toDigits 10 n := by
    unfold points
    rw [List.map_map, Nat.toString_eq_repr, Nat.toList_repr]
    exact (List.map_congr_left fun c _ => Char.ofNat_toNat c).trans (List.map_id _)
  unfold natural
  rw [hchars, Nat.ofDigitChars_ten_toDigits]

theorem decimal?_digits (n width k : Nat) :
    decimal? (points (toString n) ++ 46 :: (digits width k).map Char.toNat) =
      some (n + ((k % 10 ^ width : Nat) : ℚ) / 10 ^ width) := by
  have hlength : ((digits width k).map Char.toNat).length = width := by
    rw [List.length_map]
    induction width generalizing k with
    | zero => rfl
    | succ width ih => rw [digits, List.length_append, ih, List.length_singleton]
  have hint : digits? (points (toString n) ++ 46 :: (digits width k).map Char.toNat) =
      some (points (toString n), 46 :: (digits width k).map Char.toNat) := by
    obtain ⟨d, ds, hds⟩ : ∃ d ds, points (toString n) = d :: ds := by
      rcases natural_cases n with h | ⟨d, ds, h, _⟩
      · exact ⟨48, [], h⟩
      · exact ⟨d, ds, h⟩
    have hall := digits_natural n
    rw [hds] at hall ⊢
    exact digits?_append hall fun c hc => by
      obtain rfl := Option.some.inj hc
      rfl
  have hfraction := fixed?_digits width k 0 []
  rw [List.append_nil, Nat.zero_mul, Nat.zero_add] at hfraction
  have hpoint : after? 46 (46 :: (digits width k).map Char.toNat) =
      some ((digits width k).map Char.toNat) := rfl
  unfold decimal?
  simp only [hint, Option.bind_eq_bind, Option.bind_some, hpoint, hlength, hfraction,
    natural_toString]
  rfl

theorem plainPydantic_float (k : Nat) :
    plainPydantic.float? (floatText ((k : ℚ) / 100)) = some ((k : ℚ) / 100) := by
  have hround : (roundHalfEven ((k : ℚ) / 100 * 100)).toNat = k := by
    rw [div_mul_cancel₀ _ (by norm_num), ← Int.cast_natCast, roundHalfEven_int, Int.toNat_natCast]
  unfold floatText
  rw [hround]
  change decimal? _ = _
  split_ifs with hten
  · have hk : k = 100 * (k / 100) + 10 * (k / 10 % 10 ^ 1) := by omega
    have hcast : (k : ℚ) = 100 * (k / 100 : Nat) + 10 * (k / 10 % 10 ^ 1 : Nat) := by
      exact_mod_cast hk
    rw [decimal?_digits, hcast]
    exact congrArg some (by ring)
  · have hk : k = 100 * (k / 100) + k % 10 ^ 2 := by omega
    have hcast : (k : ℚ) = 100 * (k / 100 : Nat) + (k % 10 ^ 2 : Nat) := by
      exact_mod_cast hk
    rw [decimal?_digits, hcast]
    exact congrArg some (by ring)

theorem plainPydantic_uuid (u : UUID) : plainPydantic.uuid? (uuidText u) = some u := by
  unfold plainPydantic uuidText
  simp only [plainText?, Option.bind_some]
  exact uuid?_strUuid _ u

theorem plainPydantic_datetime (s : Str) :
    plainPydantic.datetime? (.string s) = datetime? s := by
  unfold plainPydantic
  simp only [plainText?, Option.bind_some]

theorem plainPydantic_dumpDatetime (t : Time) :
    plainPydantic.dumpDatetime t = (isoBody t).map Char.toNat ++ points "Z" := rfl

theorem plainPydantic_int (n : Nat) : plainPydantic.int? (intText n) = some (n : Int) := by
  unfold plainPydantic intText
  simp only [plainNumber?, Option.map_some]
  exact congrArg (fun m : Nat => some (m : Int)) (natural_toString n)

theorem plainPydantic_readsBack : plainPydantic.ReadsBack where
  uuid := plainPydantic_uuid
  isoformat t ht := by
    unfold isoText textOf
    rw [plainPydantic_datetime, isoformat_eq]
    exact datetime?_body ht (.inl rfl)
  dumped t ht := by
    rw [plainPydantic_datetime, plainPydantic_dumpDatetime]
    exact datetime?_body ht (.inr rfl)
  dumpedText t _ := by
    intro c hc
    rw [plainPydantic_dumpDatetime] at hc
    rcases List.mem_append.mp hc with hc | hc
    · obtain ⟨d, _, rfl⟩ := List.mem_map.mp hc
      exact scalar_toNat d
    · exact scalar_points "Z" c hc
  int n := plainPydantic_int n
  float k _ := plainPydantic_float k
  str _ := rfl

theorem texts_run_as_values_crew :
    (inText ⟨1000, fun _ => none⟩ plainPydantic).States ((agentsOn noJobs crew).run inTurn).state
      ((textAgentsOn ⟨1000, fun _ => none⟩ plainPydantic ⟨[], fun _ => none⟩ crew).run
        inTurn).state ∧
    ∀ i, Option.Rel (Results (ErrorText (crew i)) (ReportText plainPydantic (crew i)))
      (((agentsOn noJobs crew).run inTurn).outcome i)
      (((textAgentsOn ⟨1000, fun _ => none⟩ plainPydantic ⟨[], fun _ => none⟩ crew).run
        inTurn).outcome i) := by
  refine texts_run_as_values ⟨1000, fun _ => none⟩ (by decide) plainPydantic
    plainPydantic_readsBack crew (fun i => ?_) noJobs ⟨[], fun _ => none⟩
    ⟨.nil, fun _ => .none⟩ inTurn fun x hx => ?_
  · cases i with
    | client => exact (by decide : Representable 0)
    | worker =>
      have hclock : JobClock.Dated ⟨1, 2, 3⟩ := ⟨by decide, by decide, by decide⟩
      exact fun _ => hclock
    | reader => exact trivial
  · have hfine : x.2 = fine := by
      simp only [inTurn, List.mem_append, List.mem_replicate, List.mem_singleton] at hx
      rcases hx with (⟨_, rfl⟩ | ⟨_, rfl⟩) | rfl
      all_goals rfl
    rw [hfine]
    exact Nat.pow_pos (by decide)

end Example

end BookingPlatform

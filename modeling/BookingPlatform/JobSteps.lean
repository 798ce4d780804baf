import BookingPlatform.JobProtocol

/-!
# What a call can do to one job

Every call of an agent, seen from one job: it has nothing to do with it, or it is one of
the steps from its record's first version to its last.
-/

namespace BookingPlatform

set_option autoImplicit false

open Remote

def Payload.jobId? : Payload → Option UUID
  | .task jobId _ => some jobId
  | .malformed _ => none

/-- The messages about a job that are in the queue. -/
def Redis.messagesOf (s : Redis) (jobId : UUID) : List Payload :=
  s.queue.filter fun m => m.jobId? = some jobId

/-- The event takes a message of the job from the queue. -/
def Pops (jobId : UUID) (e : Remote.Event backend) : Prop :=
  match e with
  | ⟨.blpop, .ok (some payload)⟩ => payload.jobId? = some jobId
  | _ => False

/-- The event writes the record of the job. -/
def Sets (jobId : UUID) (e : Remote.Event backend) : Prop :=
  match e with
  | ⟨.set id _, .ok _⟩ => id = jobId
  | _ => False

namespace Phase

/-- The job whose record or message the agent is about to write. -/
def about : Phase → Option UUID
  | .enqueuing jobId _ _ => some jobId
  | .saved jobId _ => some jobId
  | q => q.handling

/-- The agent has no more calls to make. -/
def Over : Phase → Prop
  | .enqueued _ | .polled _ | .unavailable => True
  | _ => False

end Phase

/-- The job leaves the hands of its agent without an end: a call outside the try block, or
in its handler, has raised. -/
def Loses (jobId : UUID) (q : Phase) (e : Remote.Event backend) : Prop :=
  q.handling = some jobId ∧ (∀ data, q ≠ .working jobId data) ∧ ∃ exc, e.reply = .error exc

/-- What a call does to a job, by the phase of the agent before and after it. -/
inductive JobStep (j : UUID) (s t : Redis) : Phase → Remote.Event backend → Phase → Prop
  | aside {q q' : Phase} {e : Remote.Event backend} (hlive : ¬ q.Over)
      (hrecord : t.records j = s.records j) (hqueue : t.messagesOf j = s.messagesOf j)
      (hpops : ¬ Pops j e) (hsets : ¬ Sets j e) (hkept : ¬ Loses j q e)
      (hphase : q' = q ∨ (q.about ≠ some j ∧ q'.about ≠ some j)) : JobStep j s t q e q'
  | save {now : Time} {p : UUID} (hrecord : t.records j = some (queuedJob j now p))
      (hqueue : t.messagesOf j = s.messagesOf j) :
      JobStep j s t (.enqueuing j now p) ⟨.set j (queuedJob j now p), .ok ()⟩ (.saved j p)
  | saveFails {now : Time} {p : UUID} {exc : Failure} (hstate : t = s) :
      JobStep j s t (.enqueuing j now p) ⟨.set j (queuedJob j now p), .error exc⟩ .unavailable
  | push {p : UUID} (hrecord : t.records j = s.records j)
      (hqueue : t.messagesOf j = s.messagesOf j ++ [.task j p]) :
      JobStep j s t (.saved j p) ⟨.rpush (.task j p), .ok ()⟩ (.enqueued j)
  | pushFails {p : UUID} {exc : Failure} (hstate : t = s) :
      JobStep j s t (.saved j p) ⟨.rpush (.task j p), .error exc⟩ .unavailable
  | pop {p : UUID} (hrecord : t.records j = s.records j)
      (hqueue : s.messagesOf j = .task j p :: t.messagesOf j) :
      JobStep j s t .idle ⟨.blpop, .ok (some (.task j p))⟩ (.claimed j p)
  | load {p : UUID} (hstate : t = s) :
      JobStep j s t (.claimed j p) ⟨.get j, .ok (s.records j)⟩ (.loaded j p (s.records j))
  | start {p : UUID} {raw : Option JobData} {now : Time}
      (hrecord : t.records j = some (.started raw j p now))
      (hqueue : t.messagesOf j = s.messagesOf j) :
      JobStep j s t (.loaded j p raw) ⟨.set j (.started raw j p now), .ok ()⟩
        (.working j (.started raw j p now))
  | trip {data : JobData} {query : Query} {exc : Failure} (hstate : t = s) :
      JobStep j s t (.working j data) ⟨.sql query, .error exc⟩ (.failing j data exc)
  | finish {data last : JobData} (hends : data.Ends last) (hrecord : t.records j = some last)
      (hqueue : t.messagesOf j = s.messagesOf j) :
      JobStep j s t (.working j data) ⟨.set j last, .ok ()⟩ .idle
  | finishFails {data last : JobData} {exc : Failure} (hends : data.Ends last) (hstate : t = s) :
      JobStep j s t (.working j data) ⟨.set j last, .error exc⟩ (.failing j last exc)
  | rescue {data : JobData} {exc : Failure} {now : Time}
      (hrecord : t.records j = some (data.failed exc.text now))
      (hqueue : t.messagesOf j = s.messagesOf j) :
      JobStep j s t (.failing j data exc) ⟨.set j (data.failed exc.text now), .ok ()⟩ .idle
  | lose {q : Phase} {e : Remote.Event backend} (hpops : ¬ Pops j e) (hsets : ¬ Sets j e)
      (hloses : Loses j q e) (hstate : t = s) : JobStep j s t q e .idle

section Inversion
variable {j : UUID} {s : Redis} {q : Phase} {c : Command}

theorem messagesOf_push (payload : Payload) :
    Redis.messagesOf { s with queue := s.queue ++ [payload] } j =
      s.messagesOf j ++ if payload.jobId? = some j then [payload] else [] := by
  unfold Redis.messagesOf
  rw [List.filter_append]
  congr 1
  by_cases h : payload.jobId? = some j <;> simp [h]

theorem messagesOf_pop {payload : Payload} {rest : List Payload} (h : s.queue = payload :: rest) :
    s.messagesOf j = (if payload.jobId? = some j then [payload] else []) ++
      Redis.messagesOf { s with queue := s.queue.tail } j := by
  unfold Redis.messagesOf
  rw [h, List.tail_cons]
  by_cases hj : payload.jobId? = some j <;> simp [hj]

theorem not_loses_ok {r : c.Reply} : ¬ Loses j q ⟨c, .ok r⟩ := by
  rintro ⟨_, _, _, h⟩
  cases h

/-- A call that raises leaves everything as it was. -/
theorem jobStep_raised (j : UUID) (s : Redis) (h : q.Allows c) (exc : Failure) :
    JobStep j s s q ⟨c, .error exc⟩ (q.next c (.error exc)) := by
  have hpops : ¬ Pops j (⟨c, .error exc⟩ : Remote.Event backend) := by cases c <;> exact id
  have hsets : ¬ Sets j (⟨c, .error exc⟩ : Remote.Event backend) := by cases c <;> exact id
  have aside : ∀ q', ¬ q.Over → q.handling ≠ some j →
      (q' = q ∨ (q.about ≠ some j ∧ q'.about ≠ some j)) → JobStep j s s q ⟨c, .error exc⟩ q' :=
    fun q' hlive hfree hq => .aside hlive rfl rfl hpops hsets (fun h => hfree h.1) hq
  have lose : q.handling = some j → (∀ data, q ≠ .working j data) →
      JobStep j s s q ⟨c, .error exc⟩ .idle :=
    fun hq hwork => .lose hpops hsets ⟨hq, hwork, exc, rfl⟩ rfl
  cases q with
  | enqueuing id now p =>
    rcases h with rfl | rfl
    · exact aside _ nofun nofun (.inl rfl)
    · by_cases hid : id = j
      · subst hid
        exact .saveFails rfl
      · exact aside _ nofun nofun (.inr ⟨fun h => hid (Option.some.inj h), nofun⟩)
  | saved id p =>
    obtain rfl := h
    by_cases hid : id = j
    · subst hid
      exact .pushFails rfl
    · exact aside _ nofun nofun (.inr ⟨fun h => hid (Option.some.inj h), nofun⟩)
  | enqueued id => exact h.elim
  | polling id =>
    obtain rfl := h
    exact aside _ nofun nofun (.inr ⟨nofun, nofun⟩)
  | polled raw => exact h.elim
  | unavailable => exact h.elim
  | idle =>
    rcases h with rfl | rfl | rfl <;> exact aside _ nofun nofun (.inl rfl)
  | claimed id p =>
    obtain rfl := h
    by_cases hid : id = j
    · subst hid
      exact lose rfl fun _ => nofun
    · have hother : some id ≠ some j := fun h => hid (Option.some.inj h)
      exact aside _ nofun hother (.inr ⟨hother, nofun⟩)
  | loaded id p raw =>
    obtain ⟨now, rfl⟩ := h
    by_cases hid : id = j
    · subst hid
      exact lose rfl fun _ => nofun
    · have hother : some id ≠ some j := fun h => hid (Option.some.inj h)
      exact aside _ nofun hother (.inr ⟨hother, nofun⟩)
  | working id data =>
    by_cases hid : id = j
    · subst hid
      rcases h with ⟨query, rfl⟩ | ⟨last, hends, rfl⟩
      · exact .trip rfl
      · exact .finishFails hends rfl
    · have hother : some id ≠ some j := fun h => hid (Option.some.inj h)
      rcases h with ⟨query, rfl⟩ | ⟨last, hends, rfl⟩ <;>
        exact aside _ nofun hother (.inr ⟨hother, hother⟩)
  | failing id data exc' =>
    obtain ⟨now, rfl⟩ := h
    by_cases hid : id = j
    · subst hid
      exact lose rfl fun _ => nofun
    · have hother : some id ≠ some j := fun h => hid (Option.some.inj h)
      exact aside _ nofun hother (.inr ⟨hother, nofun⟩)

/-- A call that goes through. -/
theorem jobStep_ok (j : UUID) (s : Redis) (h : q.Allows c) {m : Moment} (hm : m.raises = none) :
    JobStep j s (perform c m s).2 q ⟨c, (perform c m s).1⟩ (q.next c (perform c m s).1) := by
  have hsame : ∀ {r : c.Reply} {q' : Phase}, ¬ q.Over → ¬ Pops j ⟨c, .ok r⟩ →
      ¬ Sets j ⟨c, .ok r⟩ → (q' = q ∨ (q.about ≠ some j ∧ q'.about ≠ some j)) →
      JobStep j s s q ⟨c, .ok r⟩ q' := fun hlive hpops hsets hq =>
    .aside hlive rfl rfl hpops hsets not_loses_ok hq
  have hset : ∀ {id : UUID} {data : JobData}, id ≠ j →
      Function.update s.records id (some data) j = s.records j := fun hid =>
    Function.update_of_ne (Ne.symm hid) _ _
  simp only [perform, hm]
  cases q with
  | enqueuing id now p =>
    rcases h with rfl | rfl
    · exact hsame nofun nofun nofun (.inl rfl)
    · by_cases hid : id = j
      · subst hid
        exact .save (Function.update_self ..) rfl
      · exact .aside nofun (hset hid) rfl nofun hid not_loses_ok
          (.inr ⟨fun h => hid (Option.some.inj h), fun h => hid (Option.some.inj h)⟩)
  | saved id p =>
    obtain rfl := h
    by_cases hid : id = j
    · subst hid
      exact .push rfl (by rw [messagesOf_push]; simp [Payload.jobId?])
    · refine .aside nofun rfl ?_ nofun nofun not_loses_ok
        (.inr ⟨fun h => hid (Option.some.inj h), nofun⟩)
      rw [messagesOf_push]
      simp [Payload.jobId?, hid]
  | enqueued id => exact h.elim
  | polling id =>
    obtain rfl := h
    exact hsame nofun nofun nofun (.inr ⟨nofun, nofun⟩)
  | polled raw => exact h.elim
  | unavailable => exact h.elim
  | idle =>
    rcases h with rfl | rfl | rfl
    · exact hsame nofun nofun nofun (.inl rfl)
    · exact hsame nofun nofun nofun (.inl rfl)
    · cases hqueue : s.queue with
      | nil =>
        refine .aside nofun rfl ?_ nofun nofun not_loses_ok (.inl rfl)
        simp [Redis.messagesOf, hqueue]
      | cons payload rest =>
        have hpop := messagesOf_pop (j := j) hqueue
        rw [hqueue, List.tail_cons] at hpop
        cases payload with
        | malformed raw =>
          exact .aside nofun rfl (by simpa [Payload.jobId?] using hpop.symm) nofun
            nofun not_loses_ok (.inl rfl)
        | task id p =>
          by_cases hid : id = j
          · subst hid
            exact .pop rfl (by simpa [Payload.jobId?] using hpop)
          · refine .aside nofun rfl (by simpa [Payload.jobId?, hid] using hpop.symm)
              (fun h => hid (Option.some.inj h)) nofun not_loses_ok
              (.inr ⟨nofun, fun h => hid (Option.some.inj h)⟩)
  | claimed id p =>
    obtain rfl := h
    by_cases hid : id = j
    · subst hid
      exact .load rfl
    · exact hsame nofun nofun nofun
        (.inr ⟨fun h => hid (Option.some.inj h), fun h => hid (Option.some.inj h)⟩)
  | loaded id p raw =>
    obtain ⟨now, rfl⟩ := h
    by_cases hid : id = j
    · subst hid
      exact .start (Function.update_self ..) rfl
    · exact .aside nofun (hset hid) rfl nofun hid not_loses_ok
        (.inr ⟨fun h => hid (Option.some.inj h), fun h => hid (Option.some.inj h)⟩)
  | working id data =>
    rcases h with ⟨query, rfl⟩ | ⟨last, hends, rfl⟩
    · exact hsame nofun nofun nofun (.inl rfl)
    · by_cases hid : id = j
      · subst hid
        exact .finish hends (Function.update_self ..) rfl
      · exact .aside nofun (hset hid) rfl nofun hid not_loses_ok
          (.inr ⟨fun h => hid (Option.some.inj h), nofun⟩)
  | failing id data exc =>
    obtain ⟨now, rfl⟩ := h
    by_cases hid : id = j
    · subst hid
      exact .rescue (Function.update_self ..) rfl
    · exact .aside nofun (hset hid) rfl nofun hid not_loses_ok
        (.inr ⟨fun h => hid (Option.some.inj h), nofun⟩)

/-- Every call the protocol allows is one of the steps. -/
theorem jobStep (j : UUID) (m : Moment) (s : Redis) (h : q.Allows c) :
    JobStep j s (perform c m s).2 q ⟨c, (perform c m s).1⟩ (q.next c (perform c m s).1) := by
  cases hm : m.raises with
  | none => exact jobStep_ok j s h hm
  | some text =>
    have hraised : perform c m s = (.error (.exception text), s) := by
      unfold perform
      rw [hm]
    rw [hraised]
    exact jobStep_raised j s h _

end Inversion

end BookingPlatform

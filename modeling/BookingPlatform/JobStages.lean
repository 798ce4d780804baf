import BookingPlatform.JobSteps

/-!
# The stages of a job

From the moment its client is about to save it, a job is in one of a few places, and in
the hands of one agent at most.
-/

namespace BookingPlatform

set_option autoImplicit false

open Remote

section Traces
variable {ι : Type}

/-- The messages that have been taken from the queue, and by whom. -/
def pops (trace : Trace backend ι) : List (ι × Payload) :=
  trace.filterMap fun x =>
    match x.2 with
    | ⟨.blpop, .ok (some payload)⟩ => some (x.1, payload)
    | _ => none

/-- The messages that have been put into it. -/
def pushes (trace : Trace backend ι) : List Payload :=
  trace.filterMap fun x =>
    match x.2 with
    | ⟨.rpush payload, .ok _⟩ => some payload
    | _ => none

theorem pops_append (xs ys : Trace backend ι) : pops (xs ++ ys) = pops xs ++ pops ys :=
  List.filterMap_append

theorem pushes_append (xs ys : Trace backend ι) :
    pushes (xs ++ ys) = pushes xs ++ pushes ys := List.filterMap_append

/-- Who has taken a message about the job. -/
def poppers (jobId : UUID) (trace : Trace backend ι) : List ι :=
  ((pops trace).filter fun x => x.2.jobId? = some jobId).map Prod.fst

theorem poppers_append (jobId : UUID) (xs ys : Trace backend ι) :
    poppers jobId (xs ++ ys) = poppers jobId xs ++ poppers jobId ys := by
  unfold poppers
  rw [pops_append, List.filter_append, List.map_append]

variable {j : UUID} {i : ι} {e : Remote.Event backend} (trace : Trace backend ι)

theorem poppers_snoc_of_pops (h : Pops j e) :
    poppers j (trace ++ [(i, e)]) = poppers j trace ++ [i] := by
  rw [poppers_append]
  obtain ⟨c, r⟩ := e
  cases c with
  | blpop =>
    match r, h with
    | .ok (some payload), h =>
      have hpayload : payload.jobId? = some j := h
      simp [poppers, pops, hpayload]
  | _ => exact h.elim

theorem poppers_snoc_of_not (h : ¬ Pops j e) :
    poppers j (trace ++ [(i, e)]) = poppers j trace := by
  rw [poppers_append]
  have quiet : poppers j trace ++ [] = poppers j trace := List.append_nil _
  obtain ⟨c, r⟩ := e
  cases c with
  | blpop =>
    match r, h with
    | .ok (some payload), h =>
      have hpayload : ¬ payload.jobId? = some j := h
      simp [poppers, pops, hpayload]
    | .ok none, _ => exact quiet
    | .error _, _ => exact quiet
  | _ => exact quiet

end Traces

section Records
variable {j : UUID} {data last : JobData}

/-- The record is that of the job, and a poll that reads it can answer. -/
def JobData.Decodes (jobId : UUID) (data : JobData) : Prop :=
  data.jobId = jobId ∧ ∃ response, data.validate = .ok response

theorem decodes_iff : data.Decodes j ↔
    data.jobId = j ∧ ∀ raw, data.result = some raw → ∃ result, raw.validate = .ok result := by
  unfold JobData.Decodes JobData.validate
  cases data.result with
  | none => simp [pure, Except.pure, bind, Except.bind]
  | some raw =>
    cases h : raw.validate <;>
      simp [h, pure, Except.pure, bind, Except.bind]

theorem decodes_queuedJob (j : UUID) (now : Time) (p : UUID) : (queuedJob j now p).Decodes j :=
  decodes_iff.mpr ⟨rfl, fun _ h => nomatch h⟩

theorem JobData.Decodes.started (h : data.Decodes j) (p : UUID) (now : Time) :
    (JobData.started (some data) j p now).Decodes j :=
  decodes_iff.mpr ⟨h.1, (decodes_iff.mp h).2⟩

theorem JobData.Decodes.failed (h : data.Decodes j) (error : String) (now : Time) :
    (data.failed error now).Decodes j :=
  decodes_iff.mpr ⟨h.1, (decodes_iff.mp h).2⟩

theorem JobData.Decodes.completed (h : data.Decodes j) (result : ReviewSummaryResult)
    (now : Time) : (data.completed result now).Decodes j := by
  refine decodes_iff.mpr ⟨h.1, fun raw hraw => ?_⟩
  obtain rfl := Option.some.inj hraw
  unfold ResultDump.validate
  rw [dif_pos ⟨result.countBound, result.averageBounds⟩]
  exact ⟨_, rfl⟩

theorem JobData.Decodes.ends (h : data.Decodes j) (hends : data.Ends last) : last.Decodes j := by
  rcases hends with ⟨error, now, rfl⟩ | ⟨result, now, rfl⟩
  · exact h.failed error now
  · exact h.completed result now

def JobStatus.Over (status : JobStatus) : Prop := status = .completed ∨ status = .failed

theorem JobData.Ends.over (hends : data.Ends last) : last.status.Over := by
  rcases hends with ⟨error, now, rfl⟩ | ⟨result, now, rfl⟩
  · exact .inr rfl
  · exact .inl rfl

/-- What is stored for the job can be read, and shows the status. -/
def Shows (jobId : UUID) (P : JobStatus → Prop) (record : Option JobData) : Prop :=
  ∃ data, record = some data ∧ P data.status ∧ data.Decodes jobId

theorem Shows.mono {P P' : JobStatus → Prop} {record : Option JobData} (h : Shows j P record)
    (hP : ∀ status, P status → P' status) : Shows j P' record := by
  obtain ⟨data, hdata, hstatus, hdecodes⟩ := h
  exact ⟨data, hdata, hP _ hstatus, hdecodes⟩

end Records

/-- What an agent that handles the job finds in Redis, by its phase. -/
inductive Held (j : UUID) : Phase → Option JobData → Prop
  | claimed {p : UUID} {record : Option JobData} (hshows : Shows j (· = .queued) record) :
      Held j (.claimed j p) record
  | loaded {p : UUID} {record : Option JobData} (hshows : Shows j (· = .queued) record) :
      Held j (.loaded j p record) record
  | working {data : JobData} (hstatus : data.status = .processing) (hdecodes : data.Decodes j) :
      Held j (.working j data) (some data)
  | failing {data last : JobData} {exc : Failure} (hdecodes : last.Decodes j)
      (hshows : Shows j (· = .processing) (some data)) : Held j (.failing j last exc) (some data)

theorem Held.handling {j : UUID} {q : Phase} {record : Option JobData} (h : Held j q record) :
    q.handling = some j := by
  cases h <;> rfl

/-- Whoever handles a job finds a record that shows it as queued or processing. -/
theorem Held.shows {j : UUID} {q : Phase} {record : Option JobData} (h : Held j q record) :
    Shows j (fun status => status = .queued ∨ status = .processing) record := by
  cases h with
  | claimed hshows | loaded hshows => exact hshows.mono fun _ => .inl
  | working hstatus hdecodes => exact ⟨_, rfl, .inr hstatus, hdecodes⟩
  | failing _ hshows => exact hshows.mono fun _ => .inr

theorem about_of_handling {j : UUID} {q : Phase} (h : q.handling = some j) :
    q.about = some j := by
  cases q <;> first | exact h | cases h

/-- An agent that handles a job goes on with it, or brings it to an end. -/
theorem Held.step {j : UUID} {s t : Redis} {q q' : Phase} {e : Remote.Event backend}
    (h : Held j q (s.records j)) (hstep : JobStep j s t q e q') (hkept : ¬ Loses j q e) :
    ¬ Pops j e ∧ t.messagesOf j = s.messagesOf j ∧
      (Held j q' (t.records j) ∨ (q' = .idle ∧ Shows j JobStatus.Over (t.records j))) := by
  have habout := about_of_handling h.handling
  generalize hrec : s.records j = record at h
  cases hstep with
  | aside _ hrecord hqueue hpops _ _ hphase =>
    rcases hphase with rfl | ⟨hfree, _⟩
    · exact ⟨hpops, hqueue, .inl (by rwa [hrecord, hrec])⟩
    · exact (hfree habout).elim
  | save | saveFails | push | pushFails | pop => cases h
  | load hstate =>
    cases h with
    | claimed hshows =>
      rw [hstate, hrec]
      exact ⟨nofun, rfl, .inl (.loaded hshows)⟩
  | start hrecord hqueue =>
    cases h with
    | loaded hshows =>
      obtain ⟨data, rfl, _, hdecodes⟩ := hshows
      rw [hrecord]
      exact ⟨nofun, hqueue, .inl (.working rfl (hdecodes.started _ _))⟩
  | trip hstate =>
    cases h with
    | working hstatus hdecodes =>
      rw [hstate, hrec]
      exact ⟨nofun, rfl, .inl (.failing hdecodes ⟨_, rfl, hstatus, hdecodes⟩)⟩
  | finish hends hrecord hqueue =>
    cases h with
    | working _ hdecodes =>
      exact ⟨nofun, hqueue, .inr ⟨rfl, _, hrecord, hends.over, hdecodes.ends hends⟩⟩
  | finishFails hends hstate =>
    cases h with
    | working hstatus hdecodes =>
      rw [hstate, hrec]
      exact ⟨nofun, rfl, .inl (.failing (hdecodes.ends hends) ⟨_, rfl, hstatus, hdecodes⟩)⟩
  | rescue hrecord hqueue =>
    cases h with
    | failing hdecodes _ =>
      exact ⟨nofun, hqueue, .inr ⟨rfl, _, hrecord, .inr rfl, hdecodes.failed _ _⟩⟩
  | lose _ _ hloses _ => exact (hkept hloses).elim

section Stages
variable {ι : Type}

/-- Where a job is: its owner is the client that enqueues it, and the list tells who has
taken its message. `F` says whether the client's commands may fail. -/
inductive Stage (F : Prop) (o : ι) (j : UUID) (s : Redis) (ph : ι → Phase) : List ι → Prop
  | unborn {now : Time} {p : UUID} (hrecord : s.records j = none) (hqueue : s.messagesOf j = [])
      (howner : ph o = .enqueuing j now p) (hothers : ∀ i, i ≠ o → (ph i).about ≠ some j) :
      Stage F o j s ph []
  | saved {p : UUID} (hrecord : Shows j (· = .queued) (s.records j))
      (hqueue : s.messagesOf j = []) (howner : ph o = .saved j p)
      (hothers : ∀ i, i ≠ o → (ph i).about ≠ some j) : Stage F o j s ph []
  | abandoned (hfault : F) (hqueue : s.messagesOf j = []) (howner : ph o = .unavailable)
      (hothers : ∀ i, (ph i).about ≠ some j) : Stage F o j s ph []
  | waiting {p : UUID} (hrecord : Shows j (· = .queued) (s.records j))
      (hqueue : s.messagesOf j = [.task j p]) (howner : ph o = .enqueued j)
      (hothers : ∀ i, (ph i).about ≠ some j) : Stage F o j s ph []
  | held {k : ι} (hheld : Held j (ph k) (s.records j)) (hqueue : s.messagesOf j = [])
      (howner : ph o = .enqueued j) (hothers : ∀ i, i ≠ k → (ph i).about ≠ some j) :
      Stage F o j s ph [k]
  | ended {k : ι} (hrecord : Shows j JobStatus.Over (s.records j)) (hqueue : s.messagesOf j = [])
      (howner : ph o = .enqueued j) (hothers : ∀ i, (ph i).about ≠ some j) :
      Stage F o j s ph [k]

/-- The job has been let go without an end: no message is left, and nobody handles it. -/
structure Gone (o : ι) (j : UUID) (s : Redis) (ph : ι → Phase) : Prop where
  record : Shows j (fun status => status = .queued ∨ status = .processing) (s.records j)
  queue : s.messagesOf j = []
  owner : ph o = .enqueued j
  others : ∀ i, (ph i).about ≠ some j

variable {F : Prop} {o i : ι} {j : UUID} {s t : Redis} {ph ph' : ι → Phase} {ps : List ι}

theorem Stage.owner_cases (h : Stage F o j s ph ps) :
    (ph o).about = some j ∨ (ph o).Over := by
  cases h with
  | unborn _ _ howner _ => exact .inl (by rw [howner]; rfl)
  | saved _ _ howner _ => exact .inl (by rw [howner]; rfl)
  | abandoned _ _ howner _ => exact .inr (by rw [howner]; trivial)
  | waiting _ _ howner _ => exact .inr (by rw [howner]; trivial)
  | held _ _ howner _ => exact .inr (by rw [howner]; trivial)
  | ended _ _ howner _ => exact .inr (by rw [howner]; trivial)

/-- Once the client has pushed its message, the message waits in the queue, or one agent has
taken it and handles the job or has ended it. -/
theorem Stage.enqueued_cases (h : Stage F o j s ph ps) (ho : ph o = .enqueued j) :
    (∃ p, Shows j (· = .queued) (s.records j) ∧ s.messagesOf j = [.task j p] ∧ ps = []) ∨
      (s.messagesOf j = [] ∧ ∃ k, ps = [k] ∧
        (Held j (ph k) (s.records j) ∨ Shows j JobStatus.Over (s.records j))) := by
  cases h with
  | unborn _ _ howner _ => rw [howner] at ho; cases ho
  | saved _ _ howner _ => rw [howner] at ho; cases ho
  | abandoned _ _ howner _ => rw [howner] at ho; cases ho
  | waiting hrecord hqueue _ _ => exact .inl ⟨_, hrecord, hqueue, rfl⟩
  | held hheld hqueue _ _ => exact .inr ⟨hqueue, _, rfl, .inl hheld⟩
  | ended hrecord hqueue _ _ => exact .inr ⟨hqueue, _, rfl, .inr hrecord⟩

/-- What has nothing to do with the job leaves it where it is. -/
theorem Stage.aside (h : Stage F o j s ph ps) (hrecord : t.records j = s.records j)
    (hqueue : t.messagesOf j = s.messagesOf j) (howner : ph' o = ph o)
    (hsame : ∀ i, ph' i = ph i ∨ ((ph i).about ≠ some j ∧ (ph' i).about ≠ some j)) :
    Stage F o j t ph' ps := by
  have free : ∀ i, (ph i).about ≠ some j → (ph' i).about ≠ some j := by
    intro i hi
    rcases hsame i with h | h
    · rwa [h]
    · exact h.2
  cases h with
  | unborn hr hq ho hothers =>
    exact .unborn (hrecord.trans hr) (hqueue.trans hq) (howner.trans ho)
      fun i hi => free i (hothers i hi)
  | saved hr hq ho hothers =>
    exact .saved (hrecord ▸ hr) (hqueue.trans hq) (howner.trans ho)
      fun i hi => free i (hothers i hi)
  | abandoned hfault hq ho hothers =>
    exact .abandoned hfault (hqueue.trans hq) (howner.trans ho) fun i => free i (hothers i)
  | waiting hr hq ho hothers =>
    exact .waiting (hrecord ▸ hr) (hqueue.trans hq) (howner.trans ho)
      fun i => free i (hothers i)
  | @held k hheld hq ho hothers =>
    have hk : ph' k = ph k :=
      (hsame k).resolve_right fun h => h.1 (about_of_handling hheld.handling)
    exact .held (by rwa [hk, hrecord]) (hqueue.trans hq) (howner.trans ho)
      fun i hi => free i (hothers i hi)
  | ended hr hq ho hothers =>
    exact .ended (hrecord ▸ hr) (hqueue.trans hq) (howner.trans ho) fun i => free i (hothers i)

/-- Whoever is about to write the job's record or message is alone in this: the owner, or
the one who has taken the message. -/
theorem Stage.acting (h : Stage F o j s ph ps) (hi : (ph i).about = some j) :
    s.messagesOf j = [] ∧ (∀ k, k ≠ i → (ph k).about ≠ some j) ∧
      (((i = o ∧ ps = []) ∧ ((∃ now p, ph i = .enqueuing j now p ∧ s.records j = none) ∨
          ∃ p, ph i = .saved j p ∧ Shows j (· = .queued) (s.records j))) ∨
        ((ph o = .enqueued j ∧ ps = [i]) ∧ Held j (ph i) (s.records j))) := by
  cases h with
  | unborn hr hq ho hothers =>
    have hio : i = o := by
      by_contra hne
      exact hothers i hne hi
    subst i
    exact ⟨hq, hothers, .inl ⟨⟨rfl, rfl⟩, .inl ⟨_, _, ho, hr⟩⟩⟩
  | saved hr hq ho hothers =>
    have hio : i = o := by
      by_contra hne
      exact hothers i hne hi
    subst i
    exact ⟨hq, hothers, .inl ⟨⟨rfl, rfl⟩, .inr ⟨_, ho, hr⟩⟩⟩
  | abandoned _ _ _ hothers => exact (hothers i hi).elim
  | waiting _ _ _ hothers => exact (hothers i hi).elim
  | @held k hheld hq ho hothers =>
    have hik : i = k := by
      by_contra hne
      exact hothers i hne hi
    subst i
    exact ⟨hq, hothers, .inr ⟨⟨ho, rfl⟩, hheld⟩⟩
  | ended _ _ _ hothers => exact (hothers i hi).elim

theorem Stage.of_enqueuing (h : Stage F o j s ph ps) {now : Time} {p : UUID}
    (hi : ph i = .enqueuing j now p) : i = o ∧ s.records j = none ∧ s.messagesOf j = [] ∧
      (∀ k, k ≠ i → (ph k).about ≠ some j) ∧ ps = [] := by
  obtain ⟨hq, hothers, hact⟩ := h.acting (i := i) (by rw [hi]; rfl)
  rw [hi] at hact
  rcases hact with ⟨⟨hio, hps⟩, ⟨_, _, _, hr⟩ | ⟨_, hsaved, _⟩⟩ | ⟨_, hheld⟩
  · exact ⟨hio, hr, hq, hothers, hps⟩
  · cases hsaved
  · cases hheld

theorem Stage.of_saved (h : Stage F o j s ph ps) {p : UUID} (hi : ph i = .saved j p) :
    i = o ∧ Shows j (· = .queued) (s.records j) ∧ s.messagesOf j = [] ∧
      (∀ k, k ≠ i → (ph k).about ≠ some j) ∧ ps = [] := by
  obtain ⟨hq, hothers, hact⟩ := h.acting (i := i) (by rw [hi]; rfl)
  rw [hi] at hact
  rcases hact with ⟨⟨hio, hps⟩, ⟨_, _, henqueuing, _⟩ | ⟨_, _, hr⟩⟩ | ⟨_, hheld⟩
  · cases henqueuing
  · exact ⟨hio, hr, hq, hothers, hps⟩
  · cases hheld

/-- Only who has taken its message handles the job. -/
theorem Stage.of_handling (h : Stage F o j s ph ps) (hi : (ph i).handling = some j) :
    Held j (ph i) (s.records j) ∧ s.messagesOf j = [] ∧ ph o = .enqueued j ∧
      (∀ k, k ≠ i → (ph k).about ≠ some j) ∧ ps = [i] := by
  obtain ⟨hq, hothers, hact⟩ := h.acting (about_of_handling hi)
  rcases hact with ⟨_, ⟨_, _, henqueuing, _⟩ | ⟨_, hsaved, _⟩⟩ | ⟨⟨ho, hps⟩, hheld⟩
  · rw [henqueuing] at hi
    cases hi
  · rw [hsaved] at hi
    cases hi
  · exact ⟨hheld, hq, ho, hothers, hps⟩

theorem Stage.of_message (h : Stage F o j s ph ps) {m : Payload} {rest : List Payload}
    (hm : s.messagesOf j = m :: rest) : Shows j (· = .queued) (s.records j) ∧ rest = [] ∧
      ph o = .enqueued j ∧ (∀ k, (ph k).about ≠ some j) ∧ ps = [] := by
  cases h with
  | unborn _ hq _ _ => rw [hm] at hq; cases hq
  | saved _ hq _ _ => rw [hm] at hq; cases hq
  | abandoned _ hq _ _ => rw [hm] at hq; cases hq
  | waiting hr hq ho hothers =>
    rw [hm] at hq
    exact ⟨hr, (List.cons.inj hq).2, ho, hothers, rfl⟩
  | held _ hq _ _ => rw [hm] at hq; cases hq
  | ended _ hq _ _ => rw [hm] at hq; cases hq

section Steps
variable [DecidableEq ι] {q q' : Phase} {e : Remote.Event backend}

theorem about_update (hq' : q'.about ≠ some j) (hothers : ∀ k, k ≠ i → (ph k).about ≠ some j)
    (k : ι) : (Function.update ph i q' k).about ≠ some j := by
  by_cases hk : k = i
  · subst k
    rwa [Function.update_self]
  · rw [Function.update_of_ne hk]
    exact hothers k hk

theorem about_update_other (hothers : ∀ k, k ≠ i → (ph k).about ≠ some j) (k : ι) (hk : k ≠ i) :
    (Function.update ph i q' k).about ≠ some j := by
  rw [Function.update_of_ne hk]
  exact hothers k hk

variable {ps' : List ι}

/-- A job goes from stage to stage, unless its agent lets it go. -/
theorem Stage.step (h : Stage F o j s ph ps) (hq : ph i = q) (hstep : JobStep j s t q e q')
    (hfault : (∃ exc, e.reply = .error exc) → F) (hkept : ¬ Loses j q e)
    (hpop : Pops j e → ps' = ps ++ [i]) (hnot : ¬ Pops j e → ps' = ps) :
    Stage F o j t (Function.update ph i q') ps' := by
  have howner : ph o = .enqueued j → q ≠ .enqueued j →
      Function.update ph i q' o = .enqueued j := by
    intro ho hne
    rw [Function.update_of_ne, ho]
    rintro rfl
    exact hne (hq.symm.trans ho)
  by_cases hhandling : q.handling = some j
  · obtain ⟨hheld, hm, ho, hothers, rfl⟩ := h.of_handling (i := i) (by rw [hq]; exact hhandling)
    rw [hq] at hheld
    have hlive : q ≠ .enqueued j := by
      rintro rfl
      cases hhandling
    obtain ⟨hpops, hqueue, hnext | ⟨rfl, hended⟩⟩ := hheld.step hstep hkept
    · rw [hnot hpops]
      refine .held ?_ (hqueue.trans hm) (howner ho hlive) (about_update_other hothers)
      rwa [Function.update_self]
    · rw [hnot hpops]
      exact .ended hended (hqueue.trans hm) (howner ho hlive) (about_update nofun hothers)
  cases hstep with
  | aside hlive hrecord hqueue hpops _ _ hphase =>
    rw [hnot hpops]
    refine h.aside hrecord hqueue ?_ fun k => ?_
    · by_cases hio : o = i
      · subst o
        rw [Function.update_self, hq]
        have hcases := h.owner_cases
        rw [hq] at hcases
        rcases hphase with hsame | ⟨hfree, _⟩
        · exact hsame
        · exact (hcases.elim hfree hlive).elim
      · exact Function.update_of_ne hio _ _
    · by_cases hk : k = i
      · subst k
        rw [Function.update_self, hq]
        exact hphase
      · exact .inl (Function.update_of_ne hk _ _)
  | save hrecord hqueue =>
    obtain ⟨rfl, hr, hm, hothers, rfl⟩ := h.of_enqueuing hq
    rw [hnot nofun]
    exact .saved ⟨_, hrecord, rfl, decodes_queuedJob ..⟩ (hqueue.trans hm)
      (Function.update_self ..) (about_update_other hothers)
  | saveFails hstate =>
    obtain ⟨rfl, hr, hm, hothers, rfl⟩ := h.of_enqueuing hq
    rw [hnot nofun, hstate]
    exact .abandoned (hfault ⟨_, rfl⟩) hm (Function.update_self ..) (about_update nofun hothers)
  | push hrecord hqueue =>
    obtain ⟨rfl, hr, hm, hothers, rfl⟩ := h.of_saved hq
    rw [hnot nofun]
    exact .waiting (hrecord ▸ hr) (by rw [hqueue, hm]; rfl) (Function.update_self ..)
      (about_update nofun hothers)
  | pushFails hstate =>
    obtain ⟨rfl, hr, hm, hothers, rfl⟩ := h.of_saved hq
    rw [hnot nofun, hstate]
    exact .abandoned (hfault ⟨_, rfl⟩) hm (Function.update_self ..) (about_update nofun hothers)
  | pop hrecord hqueue =>
    obtain ⟨hr, hrest, ho, hothers, rfl⟩ := h.of_message hqueue
    rw [hpop rfl]
    refine .held ?_ hrest (howner ho nofun) (about_update_other fun k _ => hothers k)
    rw [Function.update_self, hrecord]
    exact .claimed hr
  | load | start | trip | finish | finishFails | rescue => exact (hhandling rfl).elim
  | lose _ _ hloses _ => exact (hhandling hloses.1).elim

/-- An agent that raises outside the try block, or in its handler, lets the job go. -/
theorem Stage.loses (h : Stage F o j s ph ps) (hq : ph i = q) (hstep : JobStep j s t q e q')
    (hloses : Loses j q e) : Gone o j t (Function.update ph i q') := by
  obtain ⟨hheld, hm, ho, hothers, rfl⟩ := h.of_handling (i := i) (by rw [hq]; exact hloses.1)
  rw [hq] at hheld
  have howner : Function.update ph i q' o = .enqueued j := by
    rw [Function.update_of_ne, ho]
    rintro rfl
    rw [← hq, ho] at hloses
    cases hloses.1
  have hstate : t = s ∧ q'.about ≠ some j := by
    obtain ⟨hhandling, hwork, exc, hexc⟩ := hloses
    cases hstep with
    | aside _ _ _ _ _ hkept _ => exact (hkept ⟨hhandling, hwork, exc, hexc⟩).elim
    | save | saveFails | push | pushFails | pop => cases hhandling
    | load | start | rescue => cases hexc
    | trip | finish | finishFails => exact (hwork _ rfl).elim
    | lose _ _ _ hstate => exact ⟨hstate, nofun⟩
  obtain ⟨rfl, hfree⟩ := hstate
  exact ⟨hheld.shows, hm, howner, about_update hfree hothers⟩

/-- A call of an agent that is not about the job, while no message of the job is left. -/
theorem JobStep.bystander (hstep : JobStep j s t q e q') (hfree : q.about ≠ some j)
    (hqueue : s.messagesOf j = []) : ¬ q.Over ∧ t.records j = s.records j ∧
      t.messagesOf j = [] ∧ q'.about ≠ some j := by
  cases hstep with
  | aside hlive hrecord hsame _ _ _ hphase =>
    refine ⟨hlive, hrecord, hsame.trans hqueue, ?_⟩
    rcases hphase with rfl | hphase
    · exact hfree
    · exact hphase.2
  | save | saveFails | push | pushFails => exact (hfree rfl).elim
  | load | start | trip | finish | finishFails | rescue => exact (hfree rfl).elim
  | pop _ hmessage =>
    rw [hqueue] at hmessage
    cases hmessage
  | lose _ _ hloses _ => exact (hfree (about_of_handling hloses.1)).elim

/-- A job that has been let go stays as it is. -/
theorem Gone.step (h : Gone o j s ph) (hq : ph i = q) (hstep : JobStep j s t q e q') :
    Gone o j t (Function.update ph i q') := by
  obtain ⟨hlive, hrecord, hqueue, hfree⟩ := hstep.bystander (hq ▸ h.others i) h.queue
  refine ⟨hrecord ▸ h.record, hqueue, ?_, about_update hfree fun k _ => h.others k⟩
  rw [Function.update_of_ne, h.owner]
  rintro rfl
  rw [h.owner] at hq
  subst q
  exact hlive trivial

end Steps

end Stages

/-- The job an agent is given by name. -/
def Agent.names : Agent → Option UUID
  | .enqueue jobId _ _ => some jobId
  | .process _ jobId _ => some jobId
  | _ => none

section Runs
variable {ι : Type}

/-- The id of the job is new, and only its owner is given it. -/
structure Fresh (s : Redis) (agents : ι → Agent) (owner : ι) (jobId : UUID) : Prop where
  record : s.records jobId = none
  queue : s.messagesOf jobId = []
  alone : ∀ i, i ≠ owner → (agents i).names ≠ some jobId

variable [DecidableEq ι]

/-- Where their calls have brought the agents. -/
def phases (agents : ι → Agent) (trace : Trace backend ι) : ι → Phase :=
  jobProtocol.phase (fun i => (agents i).start) trace

variable {F : Prop} {agents : ι → Agent} {o i : ι} {j : UUID} {s : Redis}
  {trace : Trace backend ι}

theorem about_start (agent : Agent) : agent.start.about = agent.names := by
  cases agent <;> rfl

theorem stage_boot {now : Time} {p : UUID} (ho : agents o = .enqueue j now p)
    (h : Fresh s agents o j) : Stage F o j s (phases agents []) (poppers j []) := by
  have howner : (agents o).start = .enqueuing j now p := by
    rw [ho]
    rfl
  refine .unborn h.record h.queue howner ?_
  · intro i hi
    change (agents i).start.about ≠ _
    rw [about_start]
    exact h.alone i hi

theorem phases_snoc (c : Command) (r : Except Failure c.Reply) :
    phases agents (trace ++ [(i, ⟨c, r⟩)]) =
      Function.update (phases agents trace) i ((phases agents trace i).next c r) :=
  jobProtocol.phase_snoc _ trace i ⟨c, r⟩

section Call
variable {c : Command} (m : Moment)

theorem stage_call (h : Stage F o j s (phases agents trace) (poppers j trace))
    (hallows : (phases agents trace i).Allows c)
    (hfault : (∃ exc, (perform c m s).1 = .error exc) → F)
    (hkept : ¬ Loses j (phases agents trace i) ⟨c, (perform c m s).1⟩) :
    Stage F o j (perform c m s).2 (phases agents (trace ++ [(i, ⟨c, (perform c m s).1⟩)]))
      (poppers j (trace ++ [(i, ⟨c, (perform c m s).1⟩)])) := by
  rw [phases_snoc]
  exact h.step rfl (jobStep j m s hallows) hfault hkept (poppers_snoc_of_pops trace)
    (poppers_snoc_of_not trace)

theorem gone_call_of_loses (h : Stage F o j s (phases agents trace) (poppers j trace))
    (hallows : (phases agents trace i).Allows c)
    (hloses : Loses j (phases agents trace i) ⟨c, (perform c m s).1⟩) :
    Gone o j (perform c m s).2 (phases agents (trace ++ [(i, ⟨c, (perform c m s).1⟩)])) := by
  rw [phases_snoc]
  exact h.loses rfl (jobStep j m s hallows) hloses

theorem gone_call (h : Gone o j s (phases agents trace))
    (hallows : (phases agents trace i).Allows c) :
    Gone o j (perform c m s).2 (phases agents (trace ++ [(i, ⟨c, (perform c m s).1⟩)])) := by
  rw [phases_snoc]
  exact h.step rfl (jobStep j m s hallows)

end Call

end Runs

end BookingPlatform

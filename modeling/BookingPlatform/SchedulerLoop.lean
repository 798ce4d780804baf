import Mathlib.Data.List.Basic

/-!
# Starting and stopping the scheduler

`stop` clears one field before it awaits the loop and the other one after that. A `start`
in between makes a loop that the end of `stop` loses from sight.
-/

namespace BookingPlatform

set_option autoImplicit false

section Model

inductive LoopPhase where
  | created
  | sleeping
  | done
  deriving DecidableEq, Repr

/-- The task of one `_run_loop`, and whether it has been asked to cancel. -/
structure LoopTask where
  phase : LoopPhase
  cancelling : Bool
  deriving DecidableEq, Repr

namespace LoopTask

def isDone (t : LoopTask) : Bool := t.phase = .done

/-- A finished task ignores `cancel`. -/
def cancel (t : LoopTask) : LoopTask := if t.isDone then t else { t with cancelling := true }

/-- To the next await or the end: a cancelled task breaks out of its sleep, or does not even
begin; another one looks at `_running` before it runs the jobs and sleeps. -/
def advance (running : Bool) (t : LoopTask) : LoopTask :=
  if t.isDone then t
  else if t.cancelling || !running then { t with phase := .done }
  else { t with phase := .sleeping }

end LoopTask

/-- The two fields, every task ever created, by its number, and the calls of `stop` that
await one. -/
structure BackgroundJobScheduler where
  running : Bool
  task : Option Nat
  tasks : List LoopTask
  stopping : List Nat
  deriving DecidableEq, Repr

namespace BackgroundJobScheduler

def init : BackgroundJobScheduler := ⟨false, none, [], []⟩

def Live (s : BackgroundJobScheduler) (i : Nat) : Prop :=
  ∃ t, s.tasks[i]? = some t ∧ t.isDone = false

instance (s : BackgroundJobScheduler) (i : Nat) : Decidable (s.Live i) :=
  decidable_of_iff ((s.tasks[i]?.any fun t => !t.isDone) = true) (by
    unfold Live
    cases s.tasks[i]? <;> simp)

def isRunning (s : BackgroundJobScheduler) : Bool := s.running && s.task.any fun i => s.Live i

def start (s : BackgroundJobScheduler) : BackgroundJobScheduler :=
  if s.isRunning then s
  else
    { s with
      running := true
      task := some s.tasks.length
      tasks := s.tasks ++ [⟨.created, false⟩] }

/-- Up to its await: that of a finished task does not suspend the call. -/
def stop (s : BackgroundJobScheduler) : BackgroundJobScheduler :=
  if !s.running && s.task.isNone then s
  else
    match s.task with
    | none => { s with running := false }
    | some i =>
      let tasks := s.tasks.modify i LoopTask.cancel
      if s.Live i then { s with running := false, tasks := tasks, stopping := s.stopping ++ [i] }
      else { s with running := false, tasks := tasks, task := none }

/-- One call of `stop` goes on, if what it awaits has finished. -/
def resume (s : BackgroundJobScheduler) (k : Nat) : BackgroundJobScheduler :=
  match s.stopping[k]? with
  | none => s
  | some i =>
    if s.Live i then s else { s with task := none, stopping := s.stopping.eraseIdx k }

def runLoop (s : BackgroundJobScheduler) (i : Nat) : BackgroundJobScheduler :=
  { s with tasks := s.tasks.modify i (LoopTask.advance s.running) }

/-- What the event loop does next. -/
inductive Turn where
  | start
  | stop
  | resume (k : Nat)
  | runLoop (i : Nat)
  deriving DecidableEq, Repr

def turn (s : BackgroundJobScheduler) : Turn → BackgroundJobScheduler
  | .start => s.start
  | .stop => s.stop
  | .resume k => s.resume k
  | .runLoop i => s.runLoop i

def turns (s : BackgroundJobScheduler) (ts : List Turn) : BackgroundJobScheduler :=
  ts.foldl turn s

end BackgroundJobScheduler

end Model

namespace BackgroundJobScheduler
variable {s : BackgroundJobScheduler} {i j : Nat}

section Tasks

@[simp] theorem isDone_cancel (t : LoopTask) : t.cancel.isDone = t.isDone := by
  unfold LoopTask.cancel
  split <;> rfl

theorem isDone_advance {t : LoopTask} {running : Bool}
    (h : t.isDone = true ∨ t.cancelling = true ∨ running = false) :
    (t.advance running).isDone = true := by
  unfold LoopTask.advance
  split
  · assumption
  · rename_i hdone
    rw [if_pos]
    · rfl
    · rcases h with h | h | h
      · exact absurd h hdone
      · rw [h]
        rfl
      · rw [h]
        simp

/-- The task has ended, or ends at its next step. -/
def Doomed (s : BackgroundJobScheduler) (i : Nat) : Prop :=
  ∃ t, s.tasks[i]? = some t ∧ (t.isDone = true ∨ t.cancelling = true)

def Finished (s : BackgroundJobScheduler) (i : Nat) : Prop :=
  ∃ t, s.tasks[i]? = some t ∧ t.isDone = true

theorem Finished.not_live (h : s.Finished i) : ¬ s.Live i := by
  rintro ⟨t, ht, hlive⟩
  obtain ⟨u, hu, hdone⟩ := h
  rw [hu] at ht
  cases ht
  rw [hdone] at hlive
  cases hlive

theorem getElem?_stop (s : BackgroundJobScheduler) (j : Nat) :
    s.stop.tasks[j]? = s.tasks[j]? ∨ s.stop.tasks[j]? = s.tasks[j]?.map LoopTask.cancel := by
  unfold stop
  split
  · exact .inl rfl
  · split
    · exact .inl rfl
    · rename_i i _
      dsimp only
      by_cases hij : i = j
      · right
        split <;> simp [hij]
      · left
        split <;> simp [hij]

theorem getElem?_runLoop (s : BackgroundJobScheduler) (i j : Nat) :
    (s.runLoop i).tasks[j]? =
      if i = j then s.tasks[j]?.map (LoopTask.advance s.running) else s.tasks[j]? := by
  unfold runLoop
  rw [List.getElem?_modify]
  split <;> simp

theorem live_stop : s.stop.Live j ↔ s.Live j := by
  unfold Live
  rcases s.getElem?_stop j with h | h
  · rw [h]
  · rw [h]
    cases s.tasks[j]? <;> simp

theorem live_runLoop (h : (s.runLoop i).Live j) : s.Live j := by
  obtain ⟨t, ht, hlive⟩ := h
  rw [getElem?_runLoop] at ht
  split at ht
  · obtain ⟨u, hu, rfl⟩ := Option.map_eq_some_iff.mp ht
    refine ⟨u, hu, ?_⟩
    by_contra hdone
    rw [isDone_advance (.inl ((Bool.not_eq_false _).mp hdone))] at hlive
    cases hlive
  · exact ⟨t, ht, hlive⟩

theorem live_start (h : s.start.Live j) : j = s.tasks.length ∨ s.Live j := by
  unfold start at h
  split at h
  · exact .inr h
  · obtain ⟨t, ht, hlive⟩ := h
    dsimp only at ht
    rcases Nat.lt_trichotomy j s.tasks.length with hj | hj | hj
    · rw [List.getElem?_append_left hj] at ht
      exact .inr ⟨t, ht, hlive⟩
    · exact .inl hj
    · rw [List.getElem?_eq_none (by simp; omega)] at ht
      cases ht

/-- What a turn does to a task that is there: nothing, or a request to cancel, or a step. -/
theorem turn_task {t : LoopTask} (ht : s.tasks[j]? = some t) (e : Turn) :
    (s.turn e).tasks[j]? = some t ∨ (s.turn e).tasks[j]? = some t.cancel ∨
      (e = .runLoop j ∧ (s.turn e).tasks[j]? = some (t.advance s.running)) := by
  cases e with
  | start =>
    left
    change s.start.tasks[j]? = some t
    unfold start
    split
    · exact ht
    · exact (List.getElem?_append_left (List.getElem?_eq_some_iff.mp ht).1).trans ht
  | stop =>
    rcases s.getElem?_stop j with h | h
    · exact .inl (h.trans ht)
    · rw [ht] at h
      exact .inr (.inl h)
  | resume k =>
    left
    change (s.resume k).tasks[j]? = some t
    unfold resume
    split
    · exact ht
    · split <;> exact ht
  | runLoop i =>
    have h := getElem?_runLoop s i j
    rw [ht] at h
    split at h
    · rename_i hij
      exact .inr (.inr ⟨by rw [hij], h⟩)
    · exact .inl h

theorem Finished.turn (h : s.Finished j) (e : Turn) : (s.turn e).Finished j := by
  obtain ⟨t, ht, hdone⟩ := h
  rcases turn_task ht e with h | h | ⟨_, h⟩
  · exact ⟨t, h, hdone⟩
  · exact ⟨_, h, by rw [isDone_cancel, hdone]⟩
  · exact ⟨_, h, isDone_advance (.inl hdone)⟩

theorem Doomed.turn (h : s.Doomed j) (e : Turn) : (s.turn e).Doomed j := by
  obtain ⟨t, ht, hdone | hcancel⟩ := h
  · obtain ⟨t', ht', hdone'⟩ := Finished.turn ⟨t, ht, hdone⟩ e
    exact ⟨t', ht', .inl hdone'⟩
  · rcases turn_task ht e with h | h | ⟨_, h⟩
    · exact ⟨t, h, .inr hcancel⟩
    · refine ⟨_, h, .inr ?_⟩
      unfold LoopTask.cancel
      split
      · exact hcancel
      · rfl
    · exact ⟨_, h, .inl (isDone_advance (.inr (.inl hcancel)))⟩

theorem Doomed.runLoop (h : s.Doomed j) : (s.runLoop j).Finished j := by
  obtain ⟨t, ht, hdoomed⟩ := h
  have hstep := getElem?_runLoop s j j
  rw [if_pos rfl, ht] at hstep
  exact ⟨_, hstep, isDone_advance (hdoomed.imp_right .inl)⟩

/-- Whatever else happens, a doomed task has ended once it has taken a step. -/
theorem Doomed.turns (h : s.Doomed j) {ts : List Turn} (hstep : .runLoop j ∈ ts) :
    ¬ (s.turns ts).Live j := by
  have hkeep : ∀ (ts : List Turn) (s : BackgroundJobScheduler), s.Finished j →
      (s.turns ts).Finished j := by
    intro ts
    induction ts with
    | nil => exact fun _ h => h
    | cons e ts ih => exact fun s h => ih _ (h.turn e)
  induction ts generalizing s with
  | nil => cases hstep
  | cons e ts ih =>
    rcases List.mem_cons.mp hstep with rfl | hmem
    · exact (hkeep ts _ h.runLoop).not_live
    · exact ih (h.turn e) hmem

end Tasks

section Equations

theorem isRunning_eq (s : BackgroundJobScheduler) {i : Nat} (htask : s.task = some i) :
    s.isRunning = (s.running && decide (s.Live i)) := by
  unfold isRunning
  rw [htask]
  rfl

theorem start_of_running (h : s.isRunning = true) : s.start = s := if_pos h

theorem start_of_not_running (h : s.isRunning = false) : s.start =
    { s with
      running := true
      task := some s.tasks.length
      tasks := s.tasks ++ [⟨.created, false⟩] } := by
  unfold start
  rw [if_neg (by rw [h]; exact Bool.false_ne_true)]

theorem stop_of_live (htask : s.task = some i) (hlive : s.Live i) : s.stop =
    { s with
      running := false
      tasks := s.tasks.modify i LoopTask.cancel
      stopping := s.stopping ++ [i] } := by
  unfold stop
  rw [htask]
  simp [hlive]

theorem running_stop (s : BackgroundJobScheduler) : s.stop.running = false := by
  unfold stop
  split
  · rename_i h
    cases hrunning : s.running with
    | false => rfl
    | true =>
      rw [hrunning] at h
      simp at h
  · split
    · rfl
    · dsimp only
      split <;> rfl

/-- `stop` waits for the loop it found running, and forgets no other one. -/
theorem stop_stopping (s : BackgroundJobScheduler) :
    (∀ j ∈ s.stopping, j ∈ s.stop.stopping) ∧
      ∀ j, s.task = some j → s.Live j → j ∈ s.stop.stopping := by
  constructor
  · intro j hj
    unfold stop
    split
    · exact hj
    · split
      · exact hj
      · dsimp only
        split
        · exact List.mem_append_left _ hj
        · exact hj
  · intro j htask hlive
    rw [stop_of_live htask hlive]
    exact List.mem_append_right _ (List.mem_singleton_self j)

theorem stop_doomed (htask : s.task = some i) (hlive : s.Live i) : s.stop.Doomed i := by
  obtain ⟨t, ht, hdone⟩ := hlive
  rw [stop_of_live htask ⟨t, ht, hdone⟩]
  refine ⟨t.cancel, by simp [ht], .inr ?_⟩
  unfold LoopTask.cancel
  rw [hdone]
  rfl

/-- The `k`th suspended `stop` is about to come back from its await. -/
def Returns (s : BackgroundJobScheduler) (k : Nat) : Prop :=
  ∃ i, s.stopping[k]? = some i ∧ ¬ s.Live i

def Turn.resumed : Turn → Option Nat
  | .resume k => some k
  | _ => none

theorem resume_of_returns {k : Nat} (h : s.Returns k) :
    s.resume k = { s with task := none, stopping := s.stopping.eraseIdx k } := by
  obtain ⟨i, hi, hended⟩ := h
  unfold resume
  rw [hi]
  exact if_neg hended

theorem resume_of_not_returns {k : Nat} (h : ¬ s.Returns k) : s.resume k = s := by
  unfold resume
  split
  · rfl
  · rename_i i hi
    by_cases hlive : s.Live i
    · exact if_pos hlive
    · exact absurd ⟨i, hi, hlive⟩ h

end Equations

section Control

/-- Every loop that goes on is awaited by a `stop`, or is the one the fields show. -/
structure Controlled (s : BackgroundJobScheduler) : Prop where
  seen : ∀ j, s.Live j → j ∈ s.stopping ∨ (s.running = true ∧ s.task = some j)
  awake : s.running = true →
    ∃ i t, s.task = some i ∧ s.tasks[i]? = some t ∧ t.isDone = false ∧ t.cancelling = false

theorem Controlled.isRunning (h : s.Controlled) : s.isRunning = s.running := by
  cases hrunning : s.running with
  | false =>
    unfold BackgroundJobScheduler.isRunning
    rw [hrunning]
    rfl
  | true =>
    obtain ⟨i, t, htask, ht, hdone, _⟩ := h.awake hrunning
    rw [isRunning_eq s htask, hrunning]
    exact decide_eq_true ⟨t, ht, hdone⟩

theorem controlled_init : init.Controlled where
  seen j hlive := by
    obtain ⟨t, ht, _⟩ := hlive
    cases ht
  awake h := by cases h

theorem Controlled.start (h : s.Controlled) : s.start.Controlled := by
  cases hrunning : s.running with
  | true =>
    rw [start_of_running (h.isRunning.trans hrunning)]
    exact h
  | false =>
    have heq := start_of_not_running (h.isRunning.trans hrunning)
    constructor
    · intro j hlive
      rcases live_start hlive with hj | hold
      · right
        rw [heq, hj]
        exact ⟨rfl, rfl⟩
      · rcases h.seen j hold with hwait | ⟨hrun, _⟩
        · left
          rw [heq]
          exact hwait
        · rw [hrunning] at hrun
          cases hrun
    · intro _
      rw [heq]
      exact ⟨s.tasks.length, ⟨.created, false⟩, rfl, by simp, rfl, rfl⟩

theorem Controlled.stop (h : s.Controlled) : s.stop.Controlled := by
  obtain ⟨hkept, hfound⟩ := stop_stopping s
  constructor
  · intro j hlive
    left
    have hbefore := live_stop.mp hlive
    rcases h.seen j hbefore with hwait | ⟨_, htask⟩
    · exact hkept j hwait
    · exact hfound j htask hbefore
  · intro hrunning
    rw [running_stop] at hrunning
    cases hrunning

theorem Controlled.resume (h : s.Controlled) {k : Nat}
    (hstopped : s.Returns k → s.running = false) : (s.resume k).Controlled := by
  by_cases hreturns : s.Returns k
  · have hrunning := hstopped hreturns
    rw [resume_of_returns hreturns]
    obtain ⟨i, hi, hended⟩ := hreturns
    constructor
    · intro j hlive
      left
      rcases h.seen j hlive with hwait | ⟨hrun, _⟩
      · have hne : j ≠ i := fun heq => hended (heq ▸ hlive)
        obtain ⟨m, hm⟩ := List.mem_iff_getElem?.mp hwait
        refine List.mem_eraseIdx_iff_getElem?.mpr ⟨m, fun hmk => hne ?_, hm⟩
        rw [hmk, hi] at hm
        exact (Option.some.inj hm).symm
      · rw [hrunning] at hrun
        cases hrun
    · intro hrun
      rw [hrunning] at hrun
      cases hrun
  · rw [resume_of_not_returns hreturns]
    exact h

theorem Controlled.runLoop (h : s.Controlled) (m : Nat) : (s.runLoop m).Controlled := by
  constructor
  · intro j hlive
    exact h.seen j (live_runLoop hlive)
  · intro hrunning
    obtain ⟨i, t, htask, ht, hdone, hcancel⟩ := h.awake hrunning
    have hstep := getElem?_runLoop s m i
    rw [ht] at hstep
    split at hstep
    · -- Nobody has asked the loop to stop: it goes to sleep again.
      have hsleeps : t.advance s.running = { t with phase := .sleeping } := by
        have hrun : s.running = true := hrunning
        unfold LoopTask.advance
        rw [hdone, hcancel, hrun]
        rfl
      rw [Option.map_some, hsleeps] at hstep
      exact ⟨i, _, htask, hstep, rfl, hcancel⟩
    · exact ⟨i, t, htask, hstep, hdone, hcancel⟩

/-- No `stop` comes back from its await to find that a `start` has made a loop meanwhile. -/
def Undisturbed (s : BackgroundJobScheduler) : List Turn → Prop
  | [] => True
  | e :: ts =>
    (∀ k ∈ e.resumed, s.Returns k → s.running = false) ∧ (s.turn e).Undisturbed ts

theorem Controlled.turn (h : s.Controlled) {e : Turn}
    (hstopped : ∀ k ∈ e.resumed, s.Returns k → s.running = false) : (s.turn e).Controlled := by
  cases e with
  | start => exact h.start
  | stop => exact h.stop
  | resume k => exact h.resume (hstopped k rfl)
  | runLoop i => exact h.runLoop i

theorem Controlled.turns (h : s.Controlled) {ts : List Turn} (hts : s.Undisturbed ts) :
    (s.turns ts).Controlled := by
  induction ts generalizing s with
  | nil => exact h
  | cons e ts ih => exact ih (h.turn hts.1) hts.2

/-- At most one loop goes on once every `stop` has returned, and it is the one that
`is_running` shows, `start` refuses to double and `stop` ends. -/
theorem one_loop_of_undisturbed (ts : List Turn) (hts : init.Undisturbed ts)
    (hreturned : (init.turns ts).stopping = []) :
    (∀ j k, (init.turns ts).Live j → (init.turns ts).Live k → j = k) ∧
      ∀ j, (init.turns ts).Live j →
        (init.turns ts).isRunning = true ∧ (init.turns ts).start = init.turns ts ∧
          ∀ more, .runLoop j ∈ more → ¬ ((init.turns ts).stop.turns more).Live j := by
  have hcontrolled := controlled_init.turns hts
  have hshown : ∀ j, (init.turns ts).Live j →
      (init.turns ts).running = true ∧ (init.turns ts).task = some j := by
    intro j hlive
    rcases hcontrolled.seen j hlive with hwait | h
    · rw [hreturned] at hwait
      cases hwait
    · exact h
  refine ⟨fun j k hj hk => ?_, fun j hj => ?_⟩
  · have htask := (hshown j hj).2.symm.trans (hshown k hk).2
    exact Option.some.inj htask
  · obtain ⟨hrunning, htask⟩ := hshown j hj
    have hshows := hcontrolled.isRunning.trans hrunning
    exact ⟨hshows, start_of_running hshows, fun more => (stop_doomed htask hj).turns⟩

/-- Started, stopped and started again, with one loop left. -/
theorem one_loop_of_restart : init.Undisturbed
      [.start, .runLoop 0, .stop, .runLoop 0, .resume 0, .start] ∧
    (∀ j k, (init.turns [.start, .runLoop 0, .stop, .runLoop 0, .resume 0, .start]).Live j →
      (init.turns [.start, .runLoop 0, .stop, .runLoop 0, .resume 0, .start]).Live k → j = k) ∧
    (init.turns [.start, .runLoop 0, .stop, .runLoop 0, .resume 0, .start]).isRunning = true := by
  have hts : init.Undisturbed [.start, .runLoop 0, .stop, .runLoop 0, .resume 0, .start] :=
    ⟨nofun, nofun, nofun, nofun, fun _ _ _ => rfl, nofun, trivial⟩
  have h := one_loop_of_undisturbed _ hts (by decide)
  exact ⟨hts, h.1, (h.2 1 (by decide)).1⟩

/-- A `start` while the `stop` waits: the second loop goes on, is not shown, and may be
doubled by a third one. -/
theorem start_during_stop :
    let s := init.turns [.start, .runLoop 0, .stop, .start, .runLoop 0, .resume 0]
    s.stopping = [] ∧ s.Live 1 ∧ s.isRunning = false ∧
      s.start.stopping = [] ∧ s.start.Live 1 ∧ s.start.Live 2 := by
  decide

/-- A `stop` that does come back while a newer loop runs leaves that loop out of sight. -/
theorem unseen_of_returns {k : Nat} (h : s.Controlled) (hreturns : s.Returns k)
    (hrunning : s.running = true) :
    (s.resume k).isRunning = false ∧ ∃ j, (s.resume k).Live j := by
  obtain ⟨j, t, _, ht, hdone, _⟩ := h.awake hrunning
  rw [resume_of_returns hreturns]
  exact ⟨Bool.and_false _, j, t, ht, hdone⟩

end Control

end BackgroundJobScheduler

end BookingPlatform

import BookingPlatform.Remote.Script
import Mathlib.Logic.Function.Basic
import Mathlib.Data.List.Induction

/-!
# Agents that share a server

Each agent runs its script; a step is the next call of one of them, at a moment of its
own. The trace is what has been called and replied so far, in order, and tells the phase
each agent is in.
-/

namespace Remote

set_option autoImplicit false

variable {S : Server} {ι ρ : Type}

structure Event (S : Server) where
  command : S.Command
  reply : Except S.Error (S.Reply command)

abbrev Trace (S : Server) (ι : Type) := List (ι × Event S)

structure System (S : Server) (ι ρ : Type) where
  state : S.State
  scripts : ι → Script S ρ
  trace : Trace S ι

namespace Protocol
variable (P : Protocol S) (start : ι → P.Phase)

def advance (q : P.Phase) (e : Event S) : P.Phase := P.next q e.command e.reply

variable [DecidableEq ι]

/-- Where its own calls have brought an agent. -/
def phase (trace : Trace S ι) (i : ι) : P.Phase :=
  (trace.filter fun x => x.1 = i).foldl (fun q x => P.advance q x.2) (start i)

@[simp] theorem phase_nil (i : ι) : P.phase start [] i = start i := rfl

@[simp] theorem phase_snoc_self (trace : Trace S ι) (i : ι) (e : Event S) :
    P.phase start (trace ++ [(i, e)]) i = P.advance (P.phase start trace i) e := by
  simp [phase, List.filter_append]

theorem phase_snoc_other (trace : Trace S ι) {i j : ι} (h : j ≠ i) (e : Event S) :
    P.phase start (trace ++ [(i, e)]) j = P.phase start trace j := by
  simp [phase, List.filter_append, Ne.symm h]

theorem phase_snoc (trace : Trace S ι) (i : ι) (e : Event S) :
    P.phase start (trace ++ [(i, e)]) =
      Function.update (P.phase start trace) i (P.advance (P.phase start trace i) e) := by
  funext j
  by_cases hj : j = i
  · subst j
    rw [phase_snoc_self, Function.update_self]
  · rw [P.phase_snoc_other start trace hj, Function.update_of_ne hj]

/-- What every call of an agent keeps holds in the phase it is in. -/
theorem phase_keeps {R : P.Phase → Prop} {i : ι} (h : R (start i))
    (keep : ∀ q e, R q → R (P.advance q e)) (trace : Trace S ι) : R (P.phase start trace i) := by
  induction trace using List.reverseRecOn with
  | nil => exact h
  | append_singleton trace x ih =>
    obtain ⟨j, e⟩ := x
    by_cases hj : i = j
    · subst j
      rw [phase_snoc_self]
      exact keep _ e ih
    · rwa [P.phase_snoc_other start trace hj]

end Protocol

/-- Every event of the trace is admitted, after what came before it. -/
def Admits (A : Trace S ι → ι → Event S → Prop) (trace : Trace S ι) : Prop :=
  ∀ before i e after, trace = before ++ (i, e) :: after → A before i e

theorem admits_nil (A : Trace S ι → ι → Event S → Prop) : Admits A [] := by
  intro before i e after hsplit
  exact (List.append_ne_nil_of_right_ne_nil before (List.cons_ne_nil _ _) hsplit.symm).elim

theorem Admits.snoc {A : Trace S ι → ι → Event S → Prop} {trace : Trace S ι} {i : ι}
    {e : Event S} (h : Admits A (trace ++ [(i, e)])) : Admits A trace ∧ A trace i e := by
  refine ⟨fun before j f after hsplit => ?_, h trace i e [] rfl⟩
  exact h before j f (after ++ [(i, e)]) (by rw [hsplit, List.append_assoc, List.cons_append])

theorem Admits.concat {A : Trace S ι → ι → Event S → Prop} {trace : Trace S ι} {i : ι}
    {e : Event S} (h : Admits A trace) (he : A trace i e) : Admits A (trace ++ [(i, e)]) := by
  intro before j f after hsplit
  rcases List.eq_nil_or_concat after with rfl | ⟨rest, x, rfl⟩
  · obtain ⟨rfl, hlast⟩ := List.append_inj' hsplit rfl
    obtain ⟨rfl, rfl⟩ := Prod.mk.inj (List.head_eq_of_cons_eq hlast)
    exact he
  · rw [List.concat_eq_append, ← List.cons_append, ← List.append_assoc] at hsplit
    exact h before j f rest (List.append_inj' hsplit rfl).1

theorem Admits.of_forall {A : Event S → Prop} {trace : Trace S ι} (h : ∀ x ∈ trace, A x.2) :
    Admits (fun _ _ e => A e) trace := by
  intro before i e after hsplit
  exact h (i, e) (by rw [hsplit]; exact List.mem_append_right _ List.mem_cons_self)

theorem Admits.left {A : Trace S ι → ι → Event S → Prop} {trace more : Trace S ι}
    (h : Admits A (trace ++ more)) : Admits A trace := fun before i e after hsplit =>
  h before i e (after ++ more) (by rw [hsplit, List.append_assoc, List.cons_append])

namespace System

def boot (s : S.State) (scripts : ι → Script S ρ) : System S ι ρ := ⟨s, scripts, []⟩

/-- What agent `i` has returned or raised, once it is through. -/
def outcome (A : System S ι ρ) (i : ι) : Option (Except S.Error ρ) :=
  match A.scripts i with
  | .done r => some r
  | .call .. => none

variable [DecidableEq ι]

def step (A : System S ι ρ) (i : ι) (m : S.Moment) : System S ι ρ :=
  match A.scripts i with
  | .done _ => A
  | .call c k =>
    ⟨(S.perform c m A.state).2, Function.update A.scripts i (k (S.perform c m A.state).1),
      A.trace ++ [(i, ⟨c, (S.perform c m A.state).1⟩)]⟩

def run (A : System S ι ρ) (schedule : List (ι × S.Moment)) : System S ι ρ :=
  schedule.foldl (fun A x => A.step x.1 x.2) A

@[simp] theorem run_nil (A : System S ι ρ) : A.run [] = A := rfl

theorem run_append (A : System S ι ρ) (xs ys : List (ι × S.Moment)) :
    A.run (xs ++ ys) = (A.run xs).run ys := List.foldl_append

theorem run_snoc (A : System S ι ρ) (xs : List (ι × S.Moment)) (x : ι × S.Moment) :
    A.run (xs ++ [x]) = (A.run xs).step x.1 x.2 := by
  simp [run]

/-- A step does nothing, or is one call of its agent. -/
theorem step_cases (A : System S ι ρ) (i : ι) (m : S.Moment) :
    A.step i m = A ∨ ∃ c k, A.scripts i = .call c k ∧
      A.step i m = ⟨(S.perform c m A.state).2,
        Function.update A.scripts i (k (S.perform c m A.state).1),
        A.trace ++ [(i, ⟨c, (S.perform c m A.state).1⟩)]⟩ := by
  unfold step
  cases A.scripts i with
  | done r => exact .inl rfl
  | call c k => exact .inr ⟨c, k, rfl, rfl⟩

/-- The trace only grows. -/
theorem trace_run (A : System S ι ρ) (schedule : List (ι × S.Moment)) :
    ∃ more, (A.run schedule).trace = A.trace ++ more := by
  induction schedule generalizing A with
  | nil => exact ⟨[], (List.append_nil _).symm⟩
  | cons x xs ih =>
    obtain ⟨more, hmore⟩ := ih (A.step x.1 x.2)
    change ∃ more, ((A.step x.1 x.2).run xs).trace = A.trace ++ more
    rcases A.step_cases x.1 x.2 with hstep | ⟨c, k, _, hstep⟩
    · rw [hstep] at hmore ⊢
      exact ⟨more, hmore⟩
    · refine ⟨(x.1, ⟨c, (S.perform c x.2 A.state).1⟩) :: more, ?_⟩
      rw [hmore, hstep, List.append_assoc, List.singleton_append]

/-- What a call satisfies at every moment of a schedule, all events of its run satisfy. -/
theorem events_run {R : Event S → Prop} {M : S.Moment → Prop}
    (call : ∀ c m s, M m → R ⟨c, (S.perform c m s).1⟩) {A : System S ι ρ}
    (h : ∀ x ∈ A.trace, R x.2) {schedule : List (ι × S.Moment)} (hM : ∀ x ∈ schedule, M x.2) :
    ∀ x ∈ (A.run schedule).trace, R x.2 := by
  induction schedule generalizing A with
  | nil => exact h
  | cons x xs ih =>
    refine ih (A := A.step x.1 x.2) ?_ fun y hy => hM y (List.mem_cons_of_mem x hy)
    rcases A.step_cases x.1 x.2 with hstep | ⟨c, k, _, hstep⟩
    · rwa [hstep]
    · rw [hstep]
      intro y hy
      rcases List.mem_append.mp hy with hy | hy
      · exact h y hy
      · rw [List.mem_singleton.mp hy]
        exact call c x.2 A.state (hM x List.mem_cons_self)

/-- The events of an agent are calls its script makes. -/
theorem commands_run {C : ι → S.Command → Prop} {A : System S ι ρ}
    (hscripts : ∀ i, (A.scripts i).Calls (C i)) (h : ∀ x ∈ A.trace, C x.1 x.2.command)
    (schedule : List (ι × S.Moment)) :
    ∀ x ∈ (A.run schedule).trace, C x.1 x.2.command := by
  induction schedule generalizing A with
  | nil => exact h
  | cons x xs ih =>
    change ∀ y ∈ ((A.step x.1 x.2).run xs).trace, C y.1 y.2.command
    rcases A.step_cases x.1 x.2 with hstep | ⟨c, k, hi, hstep⟩
    · rw [hstep]
      exact ih hscripts h
    · have hcall := hscripts x.1
      rw [hi] at hcall
      rw [hstep]
      apply ih
      · intro j
        by_cases hj : j = x.1
        · subst j
          simp only [Function.update_self]
          exact hcall.2 _
        · simp only [Function.update_of_ne hj]
          exact hscripts j
      · intro y hy
        rcases List.mem_append.mp hy with hy | hy
        · exact h y hy
        · rw [List.mem_singleton.mp hy]
          exact hcall.1

theorem admits_first {Adm : Trace S ι → ι → Event S → Prop} {A : System S ι ρ}
    {x : ι × S.Moment} {xs : List (ι × S.Moment)} (h : Admits Adm (A.run (x :: xs)).trace) :
    Admits Adm (A.step x.1 x.2).trace := by
  obtain ⟨more, hmore⟩ := (A.step x.1 x.2).trace_run xs
  have hall : Admits Adm ((A.step x.1 x.2).run xs).trace := h
  rw [hmore] at hall
  exact hall.left

/-- Every agent is where its protocol says. -/
def OnTrack (P : Protocol S) (start : ι → P.Phase) (Q : ι → Except S.Error ρ → P.Phase → Prop)
    (A : System S ι ρ) : Prop :=
  ∀ i, (A.scripts i).Follows P (Q i) (P.phase start A.trace i)

/-- What holds at first and is kept by every call that is allowed and admitted. -/
structure Invariant (P : Protocol S) (start : ι → P.Phase)
    (A : Trace S ι → ι → Event S → Prop) (Inv : S.State → Trace S ι → Prop) : Prop where
  step : ∀ {s trace i c} (m : S.Moment), Inv s trace → P.Allows (P.phase start trace i) c →
    A trace i ⟨c, (S.perform c m s).1⟩ →
      Inv (S.perform c m s).2 (trace ++ [(i, ⟨c, (S.perform c m s).1⟩)])

variable {P : Protocol S} {start : ι → P.Phase} {Q : ι → Except S.Error ρ → P.Phase → Prop}
  {Adm : Trace S ι → ι → Event S → Prop} {Inv : S.State → Trace S ι → Prop}

theorem OnTrack.boot {s : S.State} {scripts : ι → Script S ρ}
    (h : ∀ i, (scripts i).Follows P (Q i) (start i)) :
    (System.boot s scripts).OnTrack P start Q := h

theorem OnTrack.step {A : System S ι ρ} (h : A.OnTrack P start Q) (i : ι) (m : S.Moment) :
    (A.step i m).OnTrack P start Q := by
  rcases A.step_cases i m with hstep | ⟨c, k, hi, hstep⟩
  · rw [hstep]
    exact h
  · rw [hstep]
    intro j
    by_cases hj : j = i
    · subst j
      have hcall := h i
      rw [hi] at hcall
      simp only [Function.update_self, Protocol.phase_snoc_self]
      exact hcall.2 m A.state
    · simp only [Function.update_of_ne hj, P.phase_snoc_other start A.trace hj]
      exact h j

theorem OnTrack.run {A : System S ι ρ} (h : A.OnTrack P start Q)
    (schedule : List (ι × S.Moment)) : (A.run schedule).OnTrack P start Q := by
  induction schedule generalizing A with
  | nil => exact h
  | cons x xs ih => exact ih (h.step x.1 x.2)

theorem OnTrack.ended {A : System S ι ρ} (h : A.OnTrack P start Q) {i : ι}
    {r : Except S.Error ρ} (hr : A.outcome i = some r) : Q i r (P.phase start A.trace i) := by
  have hi := h i
  unfold outcome at hr
  split at hr
  · rename_i r' hscript
    rw [hscript] at hi
    obtain rfl := Option.some.inj hr
    exact hi
  · cases hr

/-- An agent that is not through is at a call its protocol allows. -/
theorem OnTrack.pending {A : System S ι ρ} (h : A.OnTrack P start Q) {i : ι}
    (hi : A.outcome i = none) : ∃ c, P.Allows (P.phase start A.trace i) c := by
  have hscript := h i
  unfold outcome at hi
  split at hi
  · cases hi
  · rename_i c k hcall
    rw [hcall] at hscript
    exact ⟨c, hscript.1⟩

theorem Invariant.step_keeps (rules : Invariant P start Adm Inv) {A : System S ι ρ}
    (h : A.OnTrack P start Q) (hinv : Inv A.state A.trace) (i : ι) (m : S.Moment)
    (hadm : Admits Adm (A.step i m).trace) : Inv (A.step i m).state (A.step i m).trace := by
  rcases A.step_cases i m with hstep | ⟨c, k, hi, hstep⟩
  · rw [hstep]
    exact hinv
  · rw [hstep] at hadm ⊢
    have hcall := h i
    rw [hi] at hcall
    exact rules.step m hinv hcall.1 hadm.snoc.2

/-- An invariant holds in every state of a run whose events are all admitted. -/
theorem Invariant.run_keeps (rules : Invariant P start Adm Inv) {A : System S ι ρ}
    (h : A.OnTrack P start Q) (hinv : Inv A.state A.trace) (schedule : List (ι × S.Moment))
    (hadm : Admits Adm (A.run schedule).trace) :
    Inv (A.run schedule).state (A.run schedule).trace := by
  induction schedule generalizing A with
  | nil => exact hinv
  | cons x xs ih =>
    exact ih (h.step x.1 x.2) (rules.step_keeps h hinv x.1 x.2 (admits_first hadm)) hadm

/-- What every such call does to the state, a run of them does. -/
theorem Invariant.run_relates (rules : Invariant P start Adm Inv) {R : S.State → S.State → Prop}
    (refl : ∀ s, R s s) (trans : ∀ {s t u}, R s t → R t u → R s u)
    (call : ∀ {s trace i c} (m : S.Moment), Inv s trace → P.Allows (P.phase start trace i) c →
      Adm trace i ⟨c, (S.perform c m s).1⟩ → R s (S.perform c m s).2)
    {A : System S ι ρ} (h : A.OnTrack P start Q) (hinv : Inv A.state A.trace)
    (schedule : List (ι × S.Moment)) (hadm : Admits Adm (A.run schedule).trace) :
    R A.state (A.run schedule).state := by
  induction schedule generalizing A with
  | nil => exact refl _
  | cons x xs ih =>
    have hfirst := admits_first hadm
    have hone : R A.state (A.step x.1 x.2).state := by
      rcases A.step_cases x.1 x.2 with hstep | ⟨c, k, hi, hstep⟩
      · rw [hstep]
        exact refl _
      · rw [hstep] at hfirst ⊢
        have hcall := h x.1
        rw [hi] at hcall
        exact call x.2 hinv hcall.1 hfirst.snoc.2
    exact trans hone (ih (h.step x.1 x.2) (rules.step_keeps h hinv x.1 x.2 hfirst) hadm)

/-- Where a call is admitted if what it leaves is good, the states of a run are all good
if and only if its calls are all admitted. -/
theorem Invariant.run_iff (rules : Invariant P start Adm Inv) {Good : S.State → Prop}
    (good : ∀ {s trace}, Inv s trace → Good s)
    (allowed : ∀ {s trace i c} (m : S.Moment), Inv s trace → P.Allows (P.phase start trace i) c →
      Good (S.perform c m s).2 → Adm trace i ⟨c, (S.perform c m s).1⟩)
    {A : System S ι ρ} (h : A.OnTrack P start Q) (hinv : Inv A.state A.trace)
    (htrace : Admits Adm A.trace) (schedule : List (ι × S.Moment)) :
    (∀ past, past <+: schedule → Good (A.run past).state) ↔
      Admits Adm (A.run schedule).trace := by
  constructor
  · intro hgood
    induction schedule generalizing A with
    | nil => exact htrace
    | cons x xs ih =>
      have hone : Admits Adm (A.step x.1 x.2).trace := by
        have hfirst : Good (A.step x.1 x.2).state := hgood [x] ⟨xs, rfl⟩
        rcases A.step_cases x.1 x.2 with hstep | ⟨c, k, hi, hstep⟩
        · rwa [hstep]
        · rw [hstep] at hfirst ⊢
          have hcall := h x.1
          rw [hi] at hcall
          exact htrace.concat (allowed x.2 hinv hcall.1 hfirst)
      refine ih (h.step x.1 x.2) (rules.step_keeps h hinv x.1 x.2 hone) hone fun past hpast => ?_
      exact hgood (x :: past) (List.cons_prefix_cons.mpr ⟨rfl, hpast⟩)
  · rintro hadm past ⟨rest, rfl⟩
    rw [run_append] at hadm
    obtain ⟨more, hmore⟩ := (A.run past).trace_run rest
    rw [hmore] at hadm
    exact good (rules.run_keeps h hinv past hadm.left)

end System

end Remote

import BookingPlatform.Remote.Agents

/-!
# Simulation between two servers

The same agents on two servers, whose states and moments correspond. When each script on
the one makes a call whenever its counterpart on the other does, and calls keep the
correspondence, the two systems run in step, whatever the schedule.
-/

namespace Remote

set_option autoImplicit false

/-- What corresponds on two servers. -/
structure Correspondence (S T : Server) where
  States : S.State → T.State → Prop
  Moments : S.Moment → T.Moment → Prop

variable {S T : Server} {α α' β β' : Type}

/-- Both succeed, with values that are related, or both raise errors that are. -/
inductive Results {ε ε' : Type} (E : ε → ε' → Prop) (P : α → β → Prop) :
    Except ε α → Except ε' β → Prop
  | ok {a : α} {b : β} (h : P a b) : Results E P (.ok a) (.ok b)
  | error {e : ε} {e' : ε'} (h : E e e') : Results E P (.error e) (.error e')

namespace Script
variable (R : Correspondence S T)

/-- Call for call, at corresponding moments and in corresponding states, up to results that
correspond. -/
def Simulates (E : S.Error → T.Error → Prop) (P : α → β → Prop) :
    Script S α → Script T β → Prop
  | .done r, .done r' => Results E P r r'
  | .call c k, .call c' k' => ∀ m m' s t, R.Moments m m' → R.States s t →
    R.States (S.perform c m s).2 (T.perform c' m' t).2 ∧
      Simulates E P (k (S.perform c m s).1) (k' (T.perform c' m' t).1)
  | .done _, .call _ _ => False
  | .call _ _, .done _ => False

variable {R} {E E' : S.Error → T.Error → Prop} {P : α → β → Prop} {P' : α' → β' → Prop}
  {p : Script S α} {q : Script T β}

theorem simulates_pure {a : α} {b : β} (h : P a b) :
    Simulates R E P (pure a : Script S α) (pure b : Script T β) := .ok h

theorem simulates_throw {e : S.Error} {e' : T.Error} (h : E e e') :
    Simulates R E P (throw e : Script S α) (throw e' : Script T β) := .error h

theorem simulates_ofExcept {r : Except S.Error α} {r' : Except T.Error β}
    (h : Results E P r r') : Simulates R E P (ofExcept r) (ofExcept r') := h

/-- A single call. -/
theorem simulates_send {c : S.Command} {c' : T.Command} {P : S.Reply c → T.Reply c' → Prop}
    (h : ∀ m m' s t, R.Moments m m' → R.States s t →
      R.States (S.perform c m s).2 (T.perform c' m' t).2 ∧
        Results E P (S.perform c m s).1 (T.perform c' m' t).1) :
    Simulates R E P (send c) (send c') := h

theorem simulates_bind {f : α → Script S α'} {g : β → Script T β'} (h : Simulates R E P p q)
    (hfg : ∀ a b, P a b → Simulates R E P' (f a) (g b)) : Simulates R E P' (p >>= f) (q >>= g) := by
  change Simulates R E P' (p.bind f) (q.bind g)
  induction p generalizing q with
  | done r =>
    cases q with
    | done r' =>
      cases h with
      | ok hab => exact hfg _ _ hab
      | error he => exact .error he
    | call c' k' => exact h.elim
  | call c k ih =>
    cases q with
    | done r' => exact h.elim
    | call c' k' =>
      intro m m' s t hm hst
      obtain ⟨hstates, hrest⟩ := h m m' s t hm hst
      exact ⟨hstates, ih _ hrest⟩

theorem simulates_map {f : α → α'} {g : β → β'} (h : Simulates R E P p q)
    (hfg : ∀ a b, P a b → P' (f a) (g b)) : Simulates R E P' (f <$> p) (g <$> q) :=
  simulates_bind h fun a b hab => simulates_pure (hfg a b hab)

theorem simulates_tryCatch {f : S.Error → Script S α} {g : T.Error → Script T β}
    (h : Simulates R E P p q) (hfg : ∀ e e', E e e' → Simulates R E' P (f e) (g e')) :
    Simulates R E' P (tryCatch p f) (tryCatch q g) := by
  change Simulates R E' P (p.handle f) (q.handle g)
  induction p generalizing q with
  | done r =>
    cases q with
    | done r' =>
      cases h with
      | ok hab => exact .ok hab
      | error he => exact hfg _ _ he
    | call c' k' => exact h.elim
  | call c k ih =>
    cases q with
    | done r' => exact h.elim
    | call c' k' =>
      intro m m' s t hm hst
      obtain ⟨hstates, hrest⟩ := h m m' s t hm hst
      exact ⟨hstates, ih _ hrest⟩

theorem simulates_attempt (h : Simulates R E P p q) :
    Simulates R E' (Results E P) p.attempt q.attempt := by
  induction p generalizing q with
  | done r =>
    cases q with
    | done r' => exact .ok h
    | call c' k' => exact h.elim
  | call c k ih =>
    cases q with
    | done r' => exact h.elim
    | call c' k' =>
      intro m m' s t hm hst
      obtain ⟨hstates, hrest⟩ := h m m' s t hm hst
      exact ⟨hstates, ih _ hrest⟩

end Script

namespace System
variable {ι ρ ρ' : Type} {R : Correspondence S T} {E : ι → S.Error → T.Error → Prop}
  {P : ι → ρ → ρ' → Prop}

/-- Two systems whose states correspond, and whose scripts simulate each other. -/
structure Simulates (R : Correspondence S T) (E : ι → S.Error → T.Error → Prop)
    (P : ι → ρ → ρ' → Prop) (A : System S ι ρ) (B : System T ι ρ') : Prop where
  states : R.States A.state B.state
  scripts : ∀ i, Script.Simulates R (E i) (P i) (A.scripts i) (B.scripts i)

/-- Agents are through on both sides or on neither, and then with results that correspond. -/
theorem Simulates.outcome {A : System S ι ρ} {B : System T ι ρ'} (h : Simulates R E P A B)
    (i : ι) :
    Option.Rel (Results (E i) (P i)) (A.outcome i) (B.outcome i) := by
  have hi := h.scripts i
  unfold System.outcome
  cases hA : A.scripts i with
  | done r =>
    cases hB : B.scripts i with
    | done r' =>
      rw [hA, hB] at hi
      exact .some hi
    | call c' k' =>
      rw [hA, hB] at hi
      exact hi.elim
  | call c k =>
    cases hB : B.scripts i with
    | done r' =>
      rw [hA, hB] at hi
      exact hi.elim
    | call c' k' => exact .none

variable [DecidableEq ι]

theorem Simulates.step {A : System S ι ρ} {B : System T ι ρ'} (h : Simulates R E P A B) (i : ι)
    {m : S.Moment} {m' : T.Moment} (hm : R.Moments m m') :
    Simulates R E P (A.step i m) (B.step i m') := by
  have hi := h.scripts i
  unfold System.step
  cases hA : A.scripts i with
  | done r =>
    cases hB : B.scripts i with
    | done r' => exact h
    | call c' k' =>
      rw [hA, hB] at hi
      exact hi.elim
  | call c k =>
    cases hB : B.scripts i with
    | done r' =>
      rw [hA, hB] at hi
      exact hi.elim
    | call c' k' =>
      rw [hA, hB] at hi
      obtain ⟨hstates, hrest⟩ := hi m m' A.state B.state hm h.states
      refine ⟨hstates, fun j => ?_⟩
      by_cases hj : j = i
      · subst j
        simp only [Function.update_self]
        exact hrest
      · simp only [Function.update_of_ne hj]
        exact h.scripts j

theorem Simulates.run {A : System S ι ρ} {B : System T ι ρ'} (h : Simulates R E P A B)
    {xs : List (ι × S.Moment)} {ys : List (ι × T.Moment)}
    (hmoments : List.Forall₂ (fun x y => x.1 = y.1 ∧ R.Moments x.2 y.2) xs ys) :
    Simulates R E P (A.run xs) (B.run ys) := by
  induction hmoments generalizing A B with
  | nil => exact h
  | @cons x y xs ys hxy _ ih =>
    obtain ⟨hi, hm⟩ := hxy
    have hstep := h.step x.1 hm
    rw [show B.step x.1 y.2 = B.step y.1 y.2 by rw [hi]] at hstep
    exact ih hstep

end System

end Remote

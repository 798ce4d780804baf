import BookingPlatform.Remote.Agents

/-!
# The turns of an agent

What an agent returns is decided by its own turns: the moment of each, and the state the
server was in.
-/

namespace Remote

set_option autoImplicit false

variable {S : Server} {α β ι ρ : Type}

namespace Script

/-- What a script returns when its calls meet these moments and states, and those it does
not get to. -/
def replay : Script S α → List (S.Moment × S.State) →
    Option (Except S.Error α × List (S.Moment × S.State))
  | .done r, turns => some (r, turns)
  | .call _ _, [] => none
  | .call c k, t :: turns => (k (S.perform c t.1 t.2).1).replay turns

section Replay
variable {turns rest : List (S.Moment × S.State)} {a : α} {b : β}

theorem replay_done {r : Except S.Error α} (h : (done r).replay turns = some (.ok a, rest)) :
    r = .ok a ∧ rest = turns := by
  obtain ⟨hr, hrest⟩ := Prod.mk.inj (Option.some.inj h)
  exact ⟨hr, hrest.symm⟩

/-- A script that has returned a value has got through its first part. -/
theorem replay_bind {p : Script S α} {f : α → Script S β}
    (h : (p >>= f).replay turns = some (.ok b, rest)) :
    ∃ a mid, p.replay turns = some (.ok a, mid) ∧ (f a).replay mid = some (.ok b, rest) := by
  change (p.bind f).replay turns = _ at h
  induction p generalizing turns with
  | done r =>
    cases r with
    | ok a => exact ⟨a, turns, rfl, h⟩
    | error e => cases (replay_done h).1
  | call c k ih =>
    cases turns with
    | nil => cases h
    | cons t turns => exact ih _ h

theorem replay_send {c : S.Command} {a : S.Reply c}
    (h : (send c).replay turns = some (.ok a, rest)) :
    ∃ t, turns = t :: rest ∧ (S.perform c t.1 t.2).1 = .ok a := by
  cases turns with
  | nil => cases h
  | cons t turns =>
    obtain ⟨ha, rfl⟩ := replay_done h
    exact ⟨t, rfl, ha⟩

theorem replay_attempt_send {c : S.Command} {r : Except S.Error (S.Reply c)}
    (h : (send c).attempt.replay turns = some (.ok r, rest)) :
    ∃ t, turns = t :: rest ∧ (S.perform c t.1 t.2).1 = r := by
  cases turns with
  | nil => cases h
  | cons t turns =>
    obtain ⟨hr, rfl⟩ := replay_done h
    exact ⟨t, rfl, Except.ok.inj hr⟩

theorem replay_map {p : Script S α} {f : α → β}
    (h : (f <$> p).replay turns = some (.ok b, rest)) :
    ∃ a, p.replay turns = some (.ok a, rest) ∧ f a = b := by
  obtain ⟨a, mid, hp, hf⟩ := replay_bind h
  obtain ⟨hb, rfl⟩ := replay_done hf
  exact ⟨a, hp, Except.ok.inj hb⟩

end Replay

end Script

namespace System
variable [DecidableEq ι]

def turns (A : System S ι ρ) (i : ι) : List (ι × S.Moment) → List (S.Moment × S.State)
  | [] => []
  | x :: xs =>
    if x.1 = i then (x.2, A.state) :: (A.step x.1 x.2).turns i xs
    else (A.step x.1 x.2).turns i xs

theorem step_other (A : System S ι ρ) {i j : ι} (h : j ≠ i) (m : S.Moment) :
    (A.step i m).scripts j = A.scripts j := by
  rcases A.step_cases i m with hstep | ⟨c, k, _, hstep⟩
  · rw [hstep]
  · rw [hstep]
    exact Function.update_of_ne h ..

theorem replay_of_outcome {A : System S ι ρ} {i : ι} {schedule : List (ι × S.Moment)}
    {r : Except S.Error ρ} (hr : (A.run schedule).outcome i = some r) :
    ∃ rest, (A.scripts i).replay (A.turns i schedule) = some (r, rest) := by
  induction schedule generalizing A with
  | nil =>
    unfold outcome at hr
    split at hr
    · rename_i r' hscript
      change A.scripts i = .done r' at hscript
      rw [hscript]
      exact ⟨[], congrArg (Option.map (·, [])) hr⟩
    · cases hr
  | cons x xs ih =>
    have hnext := ih (A := A.step x.1 x.2) hr
    unfold turns
    by_cases hx : x.1 = i
    · rw [if_pos hx]
      subst i
      rcases hscript : A.scripts x.1 with r' | ⟨c, k⟩
      · have hsame : A.step x.1 x.2 = A := by
          unfold step
          rw [hscript]
        rw [hsame, hscript] at hnext
        obtain ⟨rest, hrest⟩ := hnext
        obtain ⟨rfl, _⟩ := Prod.mk.inj (Option.some.inj hrest)
        exact ⟨_, rfl⟩
      · have hself : (A.step x.1 x.2).scripts x.1 = k (S.perform c x.2 A.state).1 := by
          unfold step
          rw [hscript]
          exact Function.update_self ..
        rw [hself] at hnext
        exact hnext
    · rw [if_neg hx]
      rwa [A.step_other (Ne.symm hx)] at hnext

end System

end Remote

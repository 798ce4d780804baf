import BookingPlatform.Remote.Agents

/-!
# A script on its own

The run of one script that nobody interrupts: its calls meet one moment after another.
-/

namespace Remote

set_option autoImplicit false

variable {S : Server} {α β ι ρ : Type}

namespace Script

/-- What the script returns, the state it leaves, and the moments it has not used. -/
def exec : Script S α → (Nat → S.Moment) → S.State →
    Except S.Error α × S.State × (Nat → S.Moment)
  | .done r, ms, s => (r, s, ms)
  | .call c k, ms, s =>
    (k (S.perform c (ms 0) s).1).exec (fun n => ms (n + 1)) (S.perform c (ms 0) s).2

variable {ms ms' : Nat → S.Moment} {s s' : S.State}

@[simp] theorem exec_done (r : Except S.Error α) : (done r).exec ms s = (r, s, ms) := rfl

theorem exec_send (c : S.Command) : (send c).exec ms s =
    ((S.perform c (ms 0) s).1, (S.perform c (ms 0) s).2, fun n => ms (n + 1)) := rfl

theorem exec_bind (p : Script S α) (f : α → Script S β) :
    (p >>= f).exec ms s =
      match p.exec ms s with
      | (.ok a, s', ms') => (f a).exec ms' s'
      | (.error e, s', ms') => (.error e, s', ms') := by
  change (p.bind f).exec ms s = _
  induction p generalizing ms s with
  | done r => cases r <;> rfl
  | call c k ih => exact ih _

theorem exec_tryCatch (p : Script S α) (f : S.Error → Script S α) :
    (tryCatch p f).exec ms s =
      match p.exec ms s with
      | (.ok a, s', ms') => (.ok a, s', ms')
      | (.error e, s', ms') => (f e).exec ms' s' := by
  change (p.handle f).exec ms s = _
  induction p generalizing ms s with
  | done r => cases r <;> rfl
  | call c k ih => exact ih _

theorem exec_attempt (p : Script S α) :
    p.attempt.exec ms s = (.ok (p.exec ms s).1, (p.exec ms s).2) := by
  induction p generalizing ms s with
  | done r => rfl
  | call c k ih => exact ih _

section Rules
variable {p : Script S α}

theorem exec_bind_ok {f : α → Script S β} {a : α} (h : p.exec ms s = (.ok a, s', ms')) :
    (p >>= f).exec ms s = (f a).exec ms' s' := by
  rw [exec_bind, h]

theorem exec_bind_error {f : α → Script S β} {e : S.Error}
    (h : p.exec ms s = (.error e, s', ms')) : (p >>= f).exec ms s = (.error e, s', ms') := by
  rw [exec_bind, h]

theorem exec_tryCatch_ok {f : S.Error → Script S α} {a : α}
    (h : p.exec ms s = (.ok a, s', ms')) : (tryCatch p f).exec ms s = (.ok a, s', ms') := by
  rw [exec_tryCatch, h]

theorem exec_tryCatch_error {f : S.Error → Script S α} {e : S.Error}
    (h : p.exec ms s = (.error e, s', ms')) : (tryCatch p f).exec ms s = (f e).exec ms' s' := by
  rw [exec_tryCatch, h]

theorem exec_send_eq {c : S.Command} {r : Except S.Error (S.Reply c)}
    (h : S.perform c (ms 0) s = (r, s')) :
    (send c).exec ms s = (r, s', fun n => ms (n + 1)) := by
  rw [exec_send, h]

theorem exec_attempt_eq {r : Except S.Error α} (h : p.exec ms s = (r, s', ms')) :
    p.attempt.exec ms s = (.ok r, s', ms') := by
  rw [exec_attempt, h]

end Rules

end Script

namespace System
variable [DecidableEq ι]

/-- Alone at its turns, an agent of a system does what its script does. -/
theorem run_alone {A : System S ι ρ} {i : ι} (ms : Nat → S.Moment) :
    ∃ schedule : List (ι × S.Moment), (∀ x ∈ schedule, x.1 = i) ∧
      (A.run schedule).state = ((A.scripts i).exec ms A.state).2.1 ∧
      (A.run schedule).outcome i = some ((A.scripts i).exec ms A.state).1 := by
  induction hscript : A.scripts i generalizing A ms with
  | done r =>
    refine ⟨[], fun x hx => absurd hx List.not_mem_nil, rfl, ?_⟩
    unfold outcome
    rw [run_nil, hscript]
    rfl
  | call c k ih =>
    have hstate : (A.step i (ms 0)).state = (S.perform c (ms 0) A.state).2 := by
      unfold step
      rw [hscript]
    have hself : (A.step i (ms 0)).scripts i = k (S.perform c (ms 0) A.state).1 := by
      unfold step
      rw [hscript]
      exact Function.update_self ..
    obtain ⟨schedule, hown, hleft, hout⟩ := ih _ (fun n => ms (n + 1)) hself
    refine ⟨(i, ms 0) :: schedule, fun x hx => ?_, ?_, ?_⟩
    · rcases List.mem_cons.mp hx with rfl | hx
      · rfl
      · exact hown x hx
    · exact hleft.trans (by rw [hstate]; rfl)
    · exact hout.trans (by rw [hstate]; rfl)

end System

end Remote

import BookingPlatform.Transact.Program

/-!
# One statement fails

A solitary run in which the database fails once, on a statement chosen in advance. The
failing statement has no effect and aborts the open transaction; everything after it goes
as usual.
-/

namespace Transact

set_option autoImplicit false

variable {D : Database} {α β : Type}

namespace Program

/-- The run in which statement `n`, counted from 0, raises `e`. A commit counts for the
statements it flushes and for itself: whichever of them fails, nothing is committed. -/
def execFault (e : D.Error) : Nat → Program D α → Session D → Except D.Error α × Session D
  | _, .done r, σ => (r, σ)
  | 0, .query _ k, σ => (k (.error e)).exec σ.discard
  | n + 1, .query q k, σ => (k (.ok (D.answer q σ.working))).execFault e n σ
  | 0, .execute _ k, σ => (k (.error e)).exec σ.discard
  | n + 1, .execute w k, σ =>
    match D.apply w σ.working with
    | .ok (r, s) => (k (.ok r)).execFault e n { σ with working := s }
    | .error e' => (k (.error e')).execFault e n σ.discard
  | n, .commit ws k, σ =>
    if n ≤ ws.length then (k (.error e)).exec σ.discard
    else
      match D.applyAll ws σ.working with
      | .ok s => (k (.ok ())).execFault e (n - ws.length - 1) (.fresh s)
      | .error e' => (k (.error e')).execFault e (n - ws.length - 1) σ.discard
  | n, .rollback k, σ => k.execFault e n σ.discard

/-- What is committed at the moment statement `n` is sent, if the run gets there. -/
def committedAt : Nat → Program D α → Session D → Option D.Store
  | _, .done _, _ => none
  | 0, .query .., σ => some σ.committed
  | n + 1, .query q k, σ => (k (.ok (D.answer q σ.working))).committedAt n σ
  | 0, .execute .., σ => some σ.committed
  | n + 1, .execute w k, σ =>
    match D.apply w σ.working with
    | .ok (r, s) => (k (.ok r)).committedAt n { σ with working := s }
    | .error e => (k (.error e)).committedAt n σ.discard
  | n, .commit ws k, σ =>
    if n ≤ ws.length then some σ.committed
    else
      match D.applyAll ws σ.working with
      | .ok s => (k (.ok ())).committedAt (n - ws.length - 1) (.fresh s)
      | .error e => (k (.error e)).committedAt (n - ws.length - 1) σ.discard
  | n, .rollback k, σ => k.committedAt n σ.discard

/-- Nothing is left but to roll back and raise. -/
def Raises : Program D α → Prop
  | .done (.error _) => True
  | .rollback k => k.Raises
  | _ => False

namespace Raises
variable {p : Program D α}

theorem exec (h : p.Raises) (σ : Session D) :
    (∃ e, (p.exec σ).1 = .error e) ∧ (p.exec σ).2.committed = σ.committed := by
  induction p generalizing σ with
  | done r =>
    cases r with
    | ok a => exact h.elim
    | error e => exact ⟨⟨e, rfl⟩, rfl⟩
  | rollback k ih => exact ih h σ.discard
  | _ => exact h.elim

/-- Such a program sends no statement that could fail. -/
theorem execFault (h : p.Raises) (e : D.Error) (n : Nat) (σ : Session D) :
    p.execFault e n σ = p.exec σ ∧ p.committedAt n σ = none := by
  induction p generalizing σ with
  | done r => exact ⟨by cases n <;> rfl, by cases n <;> rfl⟩
  | rollback k ih =>
    have hk := ih h σ.discard
    cases n <;> exact hk
  | _ => exact h.elim

theorem bind (h : p.Raises) (f : α → Program D β) : (p.bind f).Raises := by
  induction p with
  | done r =>
    cases r with
    | ok a => exact h.elim
    | error e => exact h
  | rollback k ih => exact ih h
  | _ => exact h.elim

theorem handle (h : p.Raises) {f : D.Error → Program D α} (hf : ∀ e, (f e).Raises) :
    (p.handle f).Raises := by
  induction p with
  | done r =>
    cases r with
    | ok a => exact h.elim
    | error e => exact hf e
  | rollback k ih => exact ih h
  | _ => exact h.elim

theorem rollback_throw (e : D.Error) : (do rollbackAll; throw e : Program D α).Raises := trivial

end Raises

/-- Along the undisturbed run from `σ`, any failing statement is the end, and an error of
the program's own leaves `s` committed; `Q` holds of a success. -/
def Orderly (s : D.Store) : Program D α → Session D → (α → Session D → Prop) → Prop
  | .done (.ok a), σ, Q => Q a σ
  | .done (.error _), σ, _ => σ.committed = s
  | .query q k, σ, Q =>
    (∀ e, (k (.error e)).Raises) ∧ (k (.ok (D.answer q σ.working))).Orderly s σ Q
  | .execute w k, σ, Q => (∀ e, (k (.error e)).Raises) ∧
    match D.apply w σ.working with
    | .ok (r, t) => (k (.ok r)).Orderly s { σ with working := t } Q
    | .error _ => σ.committed = s
  | .commit ws k, σ, Q => (∀ e, (k (.error e)).Raises) ∧
    match D.applyAll ws σ.working with
    | .ok t => (k (.ok ())).Orderly s (.fresh t) Q
    | .error _ => σ.committed = s
  | .rollback k, σ, Q => k.Orderly s σ.discard Q

section Rules
variable {s : D.Store} {σ : Session D}

theorem orderly_execute {w : D.Write} {k : Except D.Error (D.Result w) → Program D α}
    {Q : α → Session D → Prop} :
    (Program.execute w k).Orderly s σ Q ↔ (∀ e, (k (.error e)).Raises) ∧
      match D.apply w σ.working with
      | .ok (r, t) => (k (.ok r)).Orderly s { σ with working := t } Q
      | .error _ => σ.committed = s := by
  rw [Orderly]

theorem orderly_mono {p : Program D α} {Q R : α → Session D → Prop} (h : p.Orderly s σ Q)
    (hQR : ∀ a τ, Q a τ → R a τ) : p.Orderly s σ R := by
  induction p generalizing σ with
  | done r =>
    cases r with
    | ok a => exact hQR a σ h
    | error e => exact h
  | query q k ih => exact ⟨h.1, ih _ h.2⟩
  | execute w k ih =>
    rw [orderly_execute] at h ⊢
    refine ⟨h.1, ?_⟩
    have hs := h.2
    split <;> rename_i heq <;> rw [heq] at hs
    · exact ih _ hs
    · exact hs
  | commit ws k ih =>
    refine ⟨h.1, ?_⟩
    have hs := h.2
    split <;> rename_i heq <;> rw [heq] at hs
    · exact ih _ hs
    · exact hs
  | rollback k ih => exact ih h

theorem orderly_bind {p : Program D α} {f : α → Program D β} {Q : β → Session D → Prop}
    (h : p.Orderly s σ fun a τ => (f a).Orderly s τ Q) : (p >>= f).Orderly s σ Q := by
  change (p.bind f).Orderly s σ Q
  induction p generalizing σ with
  | done r =>
    cases r with
    | ok a => exact h
    | error e => exact h
  | query q k ih => exact ⟨fun e => (h.1 e).bind f, ih _ h.2⟩
  | execute w k ih =>
    rw [orderly_execute] at h
    refine orderly_execute.mpr ⟨fun e => (h.1 e).bind f, ?_⟩
    have hs := h.2
    split <;> rename_i heq <;> rw [heq] at hs
    · exact ih _ hs
    · exact hs
  | commit ws k ih =>
    refine ⟨fun e => (h.1 e).bind f, ?_⟩
    have hs := h.2
    split <;> rename_i heq <;> rw [heq] at hs
    · exact ih _ hs
    · exact hs
  | rollback k ih => exact ih h

/-- A handler that only rolls back and raises keeps a block orderly. -/
theorem orderly_tryCatch {p : Program D α} {f : D.Error → Program D α}
    {Q : α → Session D → Prop} (h : p.Orderly s σ Q) (hf : ∀ e, (f e).Raises) :
    (tryCatch p f).Orderly s σ Q := by
  -- An error that reaches the handler leaves the handler's program to run from here.
  have hraise : ∀ {q : Program D α} {τ : Session D}, q.Raises → τ.committed = s →
      q.Orderly s τ Q := by
    intro q τ hq hτ
    induction q generalizing τ with
    | done r =>
      cases r with
      | ok a => exact hq.elim
      | error e => exact hτ
    | rollback k ih => exact ih hq hτ
    | _ => exact hq.elim
  change (p.handle f).Orderly s σ Q
  induction p generalizing σ with
  | done r =>
    cases r with
    | ok a => exact h
    | error e => exact hraise (hf e) h
  | query q k ih => exact ⟨fun e => (h.1 e).handle hf, ih _ h.2⟩
  | execute w k ih =>
    rw [orderly_execute] at h
    refine orderly_execute.mpr ⟨fun e => (h.1 e).handle hf, ?_⟩
    have hs := h.2
    split <;> rename_i heq <;> rw [heq] at hs
    · exact ih _ hs
    · exact hs
  | commit ws k ih =>
    refine ⟨fun e => (h.1 e).handle hf, ?_⟩
    have hs := h.2
    split <;> rename_i heq <;> rw [heq] at hs
    · exact ih _ hs
    · exact hs
  | rollback k ih => exact ih h

theorem orderly_select {q : D.Query} {Q : D.Answer q → Session D → Prop}
    (h : Q (D.answer q σ.working) σ) : (select q).Orderly s σ Q := ⟨fun _ => trivial, h⟩

theorem orderly_send {w : D.Write} {Q : D.Result w → Session D → Prop} (hσ : σ.committed = s)
    (h : ∀ r t, D.apply w σ.working = .ok (r, t) → Q r { σ with working := t }) :
    (send w).Orderly s σ Q := by
  refine orderly_execute.mpr ⟨fun _ => trivial, ?_⟩
  split
  · rename_i r t heq
    exact h r t heq
  · exact hσ

theorem orderly_commitAll {ws : List D.Write} {Q : Unit → Session D → Prop}
    (hσ : σ.committed = s) (h : ∀ t, D.applyAll ws σ.working = .ok t → Q () (.fresh t)) :
    (commitAll ws).Orderly s σ Q := by
  refine ⟨fun _ => trivial, ?_⟩
  split
  · rename_i t heq
    exact h t heq
  · exact hσ

theorem orderly_refuseIf {c : Prop} [Decidable c] {e : D.Error} {Q : Unit → Session D → Prop}
    (hσ : σ.committed = s) (h : ¬ c → Q () σ) : (refuseIf c e).Orderly s σ Q := by
  unfold refuseIf
  split
  · exact hσ
  · rename_i hc
    exact h hc

theorem orderly_runIf {c : Prop} [Decidable c] {p : Program D Unit} {Q : Unit → Session D → Prop}
    (hp : c → p.Orderly s σ Q) (h : ¬ c → Q () σ) : (runIf c p).Orderly s σ Q := by
  unfold runIf
  split
  · rename_i hc
    exact hp hc
  · rename_i hc
    exact h hc

theorem orderly_ofExcept {r : Except D.Error α} {Q : α → Session D → Prop}
    (hσ : σ.committed = s) (h : ∀ a, r = .ok a → Q a σ) : (ofExcept r).Orderly s σ Q := by
  cases r with
  | ok a => exact h a rfl
  | error e => exact hσ

end Rules

variable {s : D.Store} {p : Program D α} {σ : Session D} {Q : α → Session D → Prop}

/-- Undisturbed, an orderly program succeeds or leaves `s` committed. -/
theorem Orderly.exec (h : p.Orderly s σ Q) :
    (∃ a, (p.exec σ).1 = .ok a ∧ Q a (p.exec σ).2) ∨
      ((∃ e, (p.exec σ).1 = .error e) ∧ (p.exec σ).2.committed = s) := by
  induction p generalizing σ with
  | done r =>
    cases r with
    | ok a => exact .inl ⟨a, rfl, h⟩
    | error e => exact .inr ⟨⟨e, rfl⟩, h⟩
  | query q k ih => exact ih _ h.2
  | execute w k ih =>
    rw [orderly_execute] at h
    have hs := h.2
    simp only [Program.exec]
    split <;> rename_i heq <;> rw [heq] at hs
    · exact ih _ hs
    · obtain ⟨he, hsame⟩ := (h.1 _).exec σ.discard
      exact .inr ⟨he, hsame.trans hs⟩
  | commit ws k ih =>
    have hs := h.2
    simp only [Program.exec]
    split <;> rename_i heq <;> rw [heq] at hs
    · exact ih _ hs
    · obtain ⟨he, hsame⟩ := (h.1 _).exec σ.discard
      exact .inr ⟨he, hsame.trans hs⟩
  | rollback k ih => exact ih h

/-- A failing statement of an orderly program is an error that leaves committed what was
committed when it was sent; a statement that is never sent disturbs nothing. -/
theorem Orderly.execFault (h : p.Orderly s σ Q) (e : D.Error) (n : Nat) :
    match p.committedAt n σ with
    | none => p.execFault e n σ = p.exec σ
    | some t => (∃ e', (p.execFault e n σ).1 = .error e') ∧
        (p.execFault e n σ).2.committed = t := by
  induction p generalizing σ n with
  | done r => cases n <;> rfl
  | query q k ih =>
    cases n with
    | zero => exact (h.1 e).exec σ.discard
    | succ n => exact ih _ h.2 n
  | execute w k ih =>
    rw [orderly_execute] at h
    cases n with
    | zero => exact (h.1 e).exec σ.discard
    | succ n =>
      have hs := h.2
      simp only [committedAt, Program.execFault, Program.exec]
      cases heq : D.apply w σ.working with
      | ok r =>
        rw [heq] at hs
        exact ih _ hs n
      | error e' =>
        obtain ⟨hrun, hnone⟩ := (h.1 e').execFault e n σ.discard
        simp only [hnone, hrun]
  | commit ws k ih =>
    have hs := h.2
    simp only [committedAt, Program.execFault, Program.exec]
    by_cases hn : n ≤ ws.length
    · simp only [if_pos hn]
      exact (h.1 e).exec σ.discard
    · simp only [if_neg hn]
      cases heq : D.applyAll ws σ.working with
      | ok t =>
        rw [heq] at hs
        exact ih _ hs _
      | error e' =>
        obtain ⟨hrun, hnone⟩ := (h.1 e').execFault e (n - ws.length - 1) σ.discard
        simp only [hnone, hrun]
  | rollback k ih => exact ih h n

/-- Either the undisturbed success, or an error that leaves `s` committed. -/
def AllOrNothing (s : D.Store) (e : D.Error) (n : Nat) (p : Program D α) : Prop :=
  ((∃ a, (p.exec (.fresh s)).1 = .ok a) ∧ p.execFault e n (.fresh s) = p.exec (.fresh s)) ∨
    ((∃ e', (p.execFault e n (.fresh s)).1 = .error e') ∧
      (p.execFault e n (.fresh s)).2.committed = s)

/-- Exactly the statements sent when nothing but `s` has been committed may fail. -/
theorem Orderly.allOrNothing_iff (h : p.Orderly s (.fresh s) Q) (e : D.Error) (n : Nat) :
    p.AllOrNothing s e n ↔ ∀ t, p.committedAt n (.fresh s) = some t → t = s := by
  have hfault := h.execFault e n
  cases hat : p.committedAt n (.fresh s) with
  | none =>
    rw [hat] at hfault
    refine iff_of_true ?_ fun t ht => nomatch ht
    rcases h.exec with ⟨a, ha, _⟩ | ⟨he, hsame⟩
    · exact .inl ⟨⟨a, ha⟩, hfault⟩
    · refine .inr ?_
      rw [hfault]
      exact ⟨he, hsame⟩
  | some t =>
    rw [hat] at hfault
    obtain ⟨⟨e', he'⟩, hcommitted⟩ := hfault
    constructor
    · rintro (⟨⟨a, ha⟩, hrun⟩ | ⟨_, hsame⟩) u hu
      · rw [hrun, ha] at he'
        cases he'
      · obtain rfl := Option.some.inj hu
        exact hcommitted.symm.trans hsame
    · intro hsame
      exact .inr ⟨⟨e', he'⟩, hcommitted.trans (hsame t rfl)⟩

end Program

end Transact

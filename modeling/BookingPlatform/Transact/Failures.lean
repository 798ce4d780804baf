import BookingPlatform.Transact.Interleaving

/-!
# What a program may raise

`wpIn` is `wp` over the stores that an assertion about the client admits. The assertion may
speak of what the client has been told and has committed. If every client keeps its own by
its steps, and that of the others by its commits, then in every interleaving a program
raises nothing but what a proof about it alone says.
-/

namespace Transact

set_option autoImplicit false

variable {D : Database} {α β : Type}

namespace Program

def wpIn (H : Client D → D.Store → Prop) :
    Program D α → Client D → (Except D.Error α → Client D → Prop) → Prop
  | .done r, c, Q => Q r c
  | .query q k, c, Q => ∀ s, H c s →
    (k (.ok (D.answer q (D.view c.pending s)))).wpIn H
      (c.learn q (D.answer q (D.view c.pending s))) Q
  | .execute w k, c, Q => ∀ s, H c s →
    match D.apply w (D.view c.pending s) with
    | .ok (r, _) => (k (.ok r)).wpIn H (c.wrote w) Q
    | .error e => (k (.error e)).wpIn H c.abort Q
  | .commit ws k, c, Q => ∀ s, H c s →
    match D.applyAll (c.pending ++ ws) s with
    | .ok _ => (k (.ok ())).wpIn H (c.commit ws) Q
    | .error e => (k (.error e)).wpIn H c.abort Q
  | .rollback k, c, Q => k.wpIn H c.abort Q

variable {H : Client D → D.Store → Prop} {c : Client D}

theorem wpIn_mono {p : Program D α} {Q R : Except D.Error α → Client D → Prop}
    (h : p.wpIn H c Q) (hQR : ∀ r d, Q r d → R r d) : p.wpIn H c R := by
  induction p generalizing c with
  | done r => exact hQR _ _ h
  | query q k ih => exact fun s hs => ih _ (h s hs)
  | execute w k ih =>
    intro s hs
    have hk := h s hs
    split <;> rename_i heq <;> rw [heq] at hk <;> exact ih _ hk
  | commit ws k ih =>
    intro s hs
    have hk := h s hs
    split <;> rename_i heq <;> rw [heq] at hk <;> exact ih _ hk
  | rollback k ih => exact ih h

theorem wpIn_bind {p : Program D α} {f : α → Program D β}
    {Q : Except D.Error β → Client D → Prop}
    (h : p.wpIn H c fun r d =>
      match r with
      | .ok a => (f a).wpIn H d Q
      | .error e => Q (.error e) d) : (p >>= f).wpIn H c Q := by
  change (p.bind f).wpIn H c Q
  induction p generalizing c with
  | done r =>
    cases r with
    | ok a => exact h
    | error e => exact h
  | query q k ih => exact fun s hs => ih _ (h s hs)
  | execute w k ih =>
    intro s hs
    have hk := h s hs
    split <;> rename_i heq <;> rw [heq] at hk <;> exact ih _ hk
  | commit ws k ih =>
    intro s hs
    have hk := h s hs
    split <;> rename_i heq <;> rw [heq] at hk <;> exact ih _ hk
  | rollback k ih => exact ih h

theorem wpIn_tryCatch {p : Program D α} {handler : D.Error → Program D α}
    {Q : Except D.Error α → Client D → Prop}
    (h : p.wpIn H c fun r d =>
      match r with
      | .ok a => Q (.ok a) d
      | .error e => (handler e).wpIn H d Q) : (tryCatch p handler).wpIn H c Q := by
  change (p.handle handler).wpIn H c Q
  induction p generalizing c with
  | done r =>
    cases r with
    | ok a => exact h
    | error e => exact h
  | query q k ih => exact fun s hs => ih _ (h s hs)
  | execute w k ih =>
    intro s hs
    have hk := h s hs
    split <;> rename_i heq <;> rw [heq] at hk <;> exact ih _ hk
  | commit ws k ih =>
    intro s hs
    have hk := h s hs
    split <;> rename_i heq <;> rw [heq] at hk <;> exact ih _ hk
  | rollback k ih => exact ih h

/-- `Q` on success, and any error is one of `E`. -/
def raising (E : D.Error → Prop) (Q : α → Client D → Prop) : Except D.Error α → Client D → Prop
  | .ok a, d => Q a d
  | .error e, _ => E e

/-- Where `H` holds, the program raises errors of `E` only, and succeeds with `Q` only. -/
def FailsOnly (H : Client D → D.Store → Prop) (E : D.Error → Prop) (p : Program D α) (c : Client D)
    (Q : α → Client D → Prop) : Prop :=
  p.wpIn H c (raising E Q)

section Rules
variable {E E' : D.Error → Prop}

theorem FailsOnly.mono {p : Program D α} {Q R : α → Client D → Prop} (h : p.FailsOnly H E c Q)
    (hQR : ∀ a d, Q a d → R a d) : p.FailsOnly H E c R :=
  wpIn_mono h fun r d hr => by
    cases r with
    | ok a => exact hQR a d hr
    | error e => exact hr

theorem failsOnly_pure {a : α} {Q : α → Client D → Prop} (h : Q a c) :
    (pure a : Program D α).FailsOnly H E c Q := h

theorem failsOnly_throw {e : D.Error} {Q : α → Client D → Prop} (h : E e) :
    (throw e : Program D α).FailsOnly H E c Q := h

theorem failsOnly_bind {p : Program D α} {f : α → Program D β} {Q : β → Client D → Prop}
    (h : p.FailsOnly H E c fun a d => (f a).FailsOnly H E d Q) : (p >>= f).FailsOnly H E c Q :=
  wpIn_bind (wpIn_mono h fun r d hr => by
    cases r with
    | ok a => exact hr
    | error e => exact hr)

theorem failsOnly_map {p : Program D α} {f : α → β} {Q : β → Client D → Prop}
    (h : p.FailsOnly H E c fun a d => Q (f a) d) : (f <$> p).FailsOnly H E c Q :=
  failsOnly_bind h

theorem failsOnly_tryCatch {p : Program D α} {handler : D.Error → Program D α}
    {Q : α → Client D → Prop} (h : p.FailsOnly H E' c Q)
    (hhandler : ∀ e d, E' e → (handler e).FailsOnly H E d Q) :
    (tryCatch p handler).FailsOnly H E c Q :=
  wpIn_tryCatch (wpIn_mono h fun r d hr => by
    cases r with
    | ok a => exact hr
    | error e => exact hhandler e d hr)

theorem failsOnly_ofExcept {r : Except D.Error α} {Q : α → Client D → Prop}
    (hok : ∀ a, r = .ok a → Q a c) (herror : ∀ e, r = .error e → E e) :
    (ofExcept r).FailsOnly H E c Q := by
  cases r with
  | ok a => exact hok a rfl
  | error e => exact herror e rfl

theorem failsOnly_select {q : D.Query} {Q : D.Answer q → Client D → Prop}
    (h : ∀ s, H c s → Q (D.answer q (D.view c.pending s))
      (c.learn q (D.answer q (D.view c.pending s)))) : (select q).FailsOnly H E c Q :=
  fun s hs => h s hs

theorem failsOnly_send {w : D.Write} {Q : D.Result w → Client D → Prop}
    (hok : ∀ r, Q r (c.wrote w))
    (herror : ∀ s, H c s → ∀ e, D.apply w (D.view c.pending s) = .error e → E e) :
    (send w).FailsOnly H E c Q := by
  intro s hs
  split
  · exact hok _
  · rename_i e heq
    exact herror s hs e heq

theorem failsOnly_commitAll {ws : List D.Write} {Q : Unit → Client D → Prop}
    (hok : Q () (c.commit ws))
    (herror : ∀ s, H c s → ∀ e, D.applyAll (c.pending ++ ws) s = .error e → E e) :
    (commitAll ws).FailsOnly H E c Q := by
  intro s hs
  split
  · exact hok
  · rename_i e heq
    exact herror s hs e heq

/-- The usual handler: roll back and raise again. -/
theorem failsOnly_rollback_throw {e : D.Error} {Q : α → Client D → Prop} (h : E e) :
    (do rollbackAll; throw e : Program D α).FailsOnly H E c Q := h

theorem failsOnly_refuseIf {b : Prop} [Decidable b] {e : D.Error} {Q : Unit → Client D → Prop}
    (he : b → E e) (h : ¬ b → Q () c) : (refuseIf b e).FailsOnly H E c Q := by
  unfold refuseIf
  split
  · exact he ‹b›
  · exact h ‹¬ b›

theorem failsOnly_runIf {b : Prop} [Decidable b] {p : Program D Unit} {Q : Unit → Client D → Prop}
    (hrun : b → p.FailsOnly H E c Q) (hskip : ¬ b → Q () c) : (runIf b p).FailsOnly H E c Q := by
  unfold runIf
  split
  · exact hrun ‹b›
  · exact hskip ‹¬ b›

end Rules

end Program

namespace System
variable {ι ρ : Type} {O : ι → Obligation D} {H : ι → Client D → D.Store → Prop}
  {Q R : ι → Except D.Error ρ → Client D → Prop}

/-- What a client asserts survives its own steps and the commits of the others. -/
structure Company (O : ι → Obligation D) (H : ι → Client D → D.Store → Prop) : Prop where
  learn : ∀ {i c s}, H i c s → ∀ q,
    H i (c.learn q (D.answer q (D.view c.pending s))) s
  pending : ∀ {i c d s}, H i c s → d.log = c.log → d.committed = c.committed → H i d s
  own : ∀ {i c s t ws}, H i c s → O i c (c.pending ++ ws) →
    D.applyAll (c.pending ++ ws) s = .ok t → H i (c.commit ws) t
  other : ∀ {i j c d s t W}, i ≠ j → H i c s → H j d s → O j d W → D.applyAll W s = .ok t →
    H i c t

/-- Every client meets its obligations, and has come with its assertion to where it is. -/
structure Amid (O : ι → Obligation D) (H : ι → Client D → D.Store → Prop)
    (Q R : ι → Except D.Error ρ → Client D → Prop) (S : System D ι ρ) : Prop where
  safe : ∀ i, (S.procs i).rest.wp (O i) (S.procs i).client (Q i)
  ends : ∀ i, (S.procs i).rest.wpIn (H i) (S.procs i).client (R i)
  holds : ∀ i, H i (S.procs i).client S.store

/-- One command of a client, seen by itself. -/
theorem own_step (rules : Company O H) {i : ι} {p : Process D ρ} {s : D.Store}
    (hsafe : p.rest.wp (O i) p.client (Q i)) (hends : p.rest.wpIn (H i) p.client (R i))
    (hs : H i p.client s) :
    (p.step s).1.rest.wpIn (H i) (p.step s).1.client (R i) ∧
      H i (p.step s).1.client (p.step s).2 := by
  obtain ⟨rest, c⟩ := p
  cases rest with
  | done r => exact ⟨hends, hs⟩
  | query q k => exact ⟨hends s hs, rules.learn hs q⟩
  | execute w k =>
    have hk := hends s hs
    simp only [Process.step]
    split <;> rename_i heq <;> rw [heq] at hk
    · exact ⟨hk, rules.pending hs rfl rfl⟩
    · exact ⟨hk, rules.pending hs rfl rfl⟩
  | commit ws k =>
    have hk := hends s hs
    simp only [Process.step]
    split <;> rename_i heq <;> rw [heq] at hk
    · exact ⟨hk, rules.own hs hsafe.1 heq⟩
    · exact ⟨hk, rules.pending hs rfl rfl⟩
  | rollback k => exact ⟨hends, rules.pending hs rfl rfl⟩

variable [DecidableEq ι]

theorem Amid.step (rules : Company O H) {S : System D ι ρ} (h : S.Amid O H Q R) (i : ι) :
    (S.step i).Amid O H Q R := by
  obtain ⟨hends, hholds⟩ := own_step rules (h.safe i) (h.ends i) (h.holds i)
  -- The assertions of the others outlive the step of client `i`.
  have hother : ∀ j, j ≠ i → H j (S.procs j).client (S.step i).store := by
    intro j hj
    rcases Process.step_store (S.procs i) S.store with ⟨hs, _⟩ | ⟨W, hW, hall, _⟩
    · have hstore : (S.step i).store = S.store := hs
      rw [hstore]
      exact h.holds j
    · have hO := Process.committing_obligation (h.safe i) hW
      exact rules.other hj (h.holds j) (h.holds i) hO hall
  refine ⟨fun j => ?_, fun j => ?_, fun j => ?_⟩
  all_goals by_cases hj : j = i
  · subst j
    rw [step_self]
    exact Process.step_wp (h.safe i) S.store
  · rw [step_other S hj]
    exact h.safe j
  · subst j
    rw [step_self]
    exact hends
  · rw [step_other S hj]
    exact h.ends j
  · subst j
    rw [step_self]
    exact hholds
  · rw [step_other S hj]
    exact hother j hj

theorem Amid.run (rules : Company O H) {S : System D ι ρ} (h : S.Amid O H Q R)
    (schedule : List ι) : (S.run schedule).Amid O H Q R := by
  induction schedule generalizing S with
  | nil => exact h
  | cons i is ih => exact ih (h.step rules i)

omit [DecidableEq ι] in
/-- A client that is through has ended as its proof says. -/
theorem Amid.ended {S : System D ι ρ} (h : S.Amid O H Q R) {i : ι} {r : Except D.Error ρ}
    (hr : S.outcome i = some r) : R i r (S.procs i).client := by
  have hends := h.ends i
  unfold outcome at hr
  split at hr
  · rename_i r' hrest
    rw [hrest] at hends
    obtain rfl := Option.some.inj hr
    exact hends
  · cases hr

end System

end Transact

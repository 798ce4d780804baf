import BookingPlatform.Transact.Interleaving
import BookingPlatform.Transact.Relational

/-!
# Two systems in lockstep

A relation on stores says that they look the same. Two programs are alike when they send the
same commands as long as the answers come from stores that look the same, up to a relation on
what they return. Systems of programs that are alike stay so under every schedule.
-/

namespace Transact

set_option autoImplicit false

variable {D : Database} {α β γ δ : Type} {rel : D.Store → D.Store → Prop}

/-- What is not yet committed looks the same to its owner. -/
theorem Database.view_related {ws : List D.Write} (hws : ∀ w ∈ ws, Database.Respects rel w)
    {s t : D.Store} (h : rel s t) : rel (D.view ws s) (D.view ws t) := by
  induction ws generalizing s t with
  | nil => exact h
  | cons w ws ih =>
    have hrest : ∀ v ∈ ws, Database.Respects rel v := fun v hv =>
      hws v (List.mem_cons_of_mem w hv)
    simp only [Database.view]
    rcases hws w List.mem_cons_self s t h with ⟨e, hs, ht⟩ | ⟨r, s', t', hs, ht, h'⟩
    · rw [hs, ht]
      exact ih hrest h
    · rw [hs, ht]
      exact ih hrest h'

/-- The same error, or results that are related. -/
def Matching {ε : Type} (R : α → β → Prop) : Except ε α → Except ε β → Prop
  | .ok a, .ok b => R a b
  | .error e, .error e' => e = e'
  | .ok _, .error _ => False
  | .error _, .ok _ => False

theorem matching_eq {ε : Type} {r r' : Except ε α} (h : Matching Eq r r') : r = r' := by
  cases r with
  | ok a =>
    cases r' with
    | ok b => exact congrArg Except.ok h
    | error e => exact h.elim
  | error e =>
    cases r' with
    | ok b => exact h.elim
    | error e' => exact congrArg Except.error h

namespace Program

/-- The same commands in the same order, and results that are related. What follows a
statement or a commit that has gone through need only be alike if it can go through. -/
inductive Alike (rel : D.Store → D.Store → Prop) (R : α → β → Prop) :
    Program D α → Program D β → Prop
  | done {r r'} (h : Matching R r r') : Alike rel R (.done r) (.done r')
  | query {q k k'}
    (h : ∀ s t, rel s t → Alike rel R (k (.ok (D.answer q s))) (k' (.ok (D.answer q t)))) :
    Alike rel R (.query q k) (.query q k')
  | execute {w k k'} (hw : Database.Respects rel w)
    (hok : ∀ r, (∃ s t s', rel s t ∧ D.apply w s = .ok (r, s')) →
      Alike rel R (k (.ok r)) (k' (.ok r)))
    (herror : ∀ e, Alike rel R (k (.error e)) (k' (.error e))) :
    Alike rel R (.execute w k) (.execute w k')
  | commit {ws k k'} (hws : ∀ w ∈ ws, Database.Respects rel w)
    (hok : (∃ s t s', rel s t ∧ D.applyAll ws s = .ok s') →
      Alike rel R (k (.ok ())) (k' (.ok ())))
    (herror : ∀ e, Alike rel R (k (.error e)) (k' (.error e))) :
    Alike rel R (.commit ws k) (.commit ws k')
  | rollback {k k'} (h : Alike rel R k k') : Alike rel R (.rollback k) (.rollback k')

section Rules
variable {R : α → β → Prop} {R' : γ → δ → Prop}

theorem alike_pure {a : α} {b : β} (h : R a b) :
    Alike rel R (pure a : Program D α) (pure b : Program D β) := .done h

theorem alike_throw (e : D.Error) :
    Alike rel R (throw e : Program D α) (throw e : Program D β) := .done rfl

theorem alike_ofExcept (r : Except D.Error α) : Alike rel Eq (ofExcept r) (ofExcept r) := by
  cases r with
  | ok a => exact .done rfl
  | error e => exact .done rfl

theorem alike_bind {p : Program D α} {q : Program D β} {f : α → Program D γ}
    {g : β → Program D δ} (hp : Alike rel R p q)
    (hf : ∀ a b, R a b → Alike rel R' (f a) (g b)) : Alike rel R' (p >>= f) (q >>= g) := by
  change Alike rel R' (p.bind f) (q.bind g)
  induction hp with
  | @done r r' h =>
    cases r with
    | ok a =>
      cases r' with
      | ok b => exact hf a b h
      | error e => exact h.elim
    | error e =>
      cases r' with
      | ok b => exact h.elim
      | error e' => exact .done h
  | query _ ih => exact .query ih
  | execute hw _ _ ihok iherror => exact .execute hw ihok iherror
  | commit hws _ _ ihok iherror => exact .commit hws ihok iherror
  | rollback _ ih => exact .rollback ih

theorem alike_map {p : Program D α} (h : Alike rel Eq p p) (f : α → γ) :
    Alike rel Eq (f <$> p) (f <$> p) :=
  alike_bind h fun _ _ hab => alike_pure (congrArg f hab)

theorem alike_tryCatch {p : Program D α} {q : Program D β} {handler : D.Error → Program D α}
    {handler' : D.Error → Program D β} (hp : Alike rel R p q)
    (hhandler : ∀ e, Alike rel R (handler e) (handler' e)) :
    Alike rel R (tryCatch p handler) (tryCatch q handler') := by
  change Alike rel R (p.handle handler) (q.handle handler')
  induction hp with
  | @done r r' h =>
    cases r with
    | ok a =>
      cases r' with
      | ok b => exact .done h
      | error e => exact h.elim
    | error e =>
      cases r' with
      | ok b => exact h.elim
      | error e' =>
        obtain rfl : e = e' := h
        exact hhandler e
  | query _ ih => exact .query ih
  | execute hw _ _ ihok iherror => exact .execute hw ihok iherror
  | commit hws _ _ ihok iherror => exact .commit hws ihok iherror
  | rollback _ ih => exact .rollback ih

theorem alike_select {q : D.Query} {R : D.Answer q → D.Answer q → Prop}
    (h : ∀ s t, rel s t → R (D.answer q s) (D.answer q t)) :
    Alike rel R (select q) (select q) :=
  .query fun s t hst => .done (h s t hst)

/-- The result is one that the statement has had. -/
theorem alike_send {w : D.Write} (hw : Database.Respects rel w) :
    Alike rel (fun r r' => r = r' ∧ ∃ s t s', rel s t ∧ D.apply w s = .ok (r, s')) (send w)
      (send w) :=
  .execute hw (fun _ hr => .done ⟨rfl, hr⟩) fun _ => .done rfl

theorem alike_commitAll {ws : List D.Write} (hws : ∀ w ∈ ws, Database.Respects rel w) :
    Alike rel (fun _ _ => ∃ s t s', rel s t ∧ D.applyAll ws s = .ok s') (commitAll ws)
      (commitAll ws) :=
  .commit hws (fun h => .done h) fun _ => .done rfl

theorem alike_rollbackAll : Alike rel Eq (rollbackAll : Program D Unit) rollbackAll :=
  .rollback (.done rfl)

/-- Both sides refuse, or neither does. -/
theorem alike_refuseIf {c c' : Prop} [Decidable c] [Decidable c'] (hc : c ↔ c') (e : D.Error) :
    Alike rel (fun _ _ => ¬ c) (refuseIf c e) (refuseIf c' e) := by
  unfold refuseIf
  by_cases h : c
  · rw [if_pos h, if_pos (hc.mp h)]
    exact .done rfl
  · rw [if_neg h, if_neg fun h' => h (hc.mpr h')]
    exact .done h

theorem alike_runIf {c : Prop} [Decidable c] {p : Program D Unit} (h : c → Alike rel Eq p p) :
    Alike rel Eq (runIf c p) (runIf c p) := by
  unfold runIf
  split
  · exact h ‹c›
  · exact .done rfl

theorem Alike.mono {p : Program D α} {q : Program D β} {R₂ : α → β → Prop}
    (h : Alike rel R p q) (hR : ∀ a b, R a b → R₂ a b) : Alike rel R₂ p q := by
  induction h with
  | @done r r' h =>
    refine .done ?_
    cases r with
    | ok a =>
      cases r' with
      | ok b => exact hR a b h
      | error e => exact h.elim
    | error e =>
      cases r' with
      | ok b => exact h.elim
      | error e' => exact h
  | query _ ih => exact .query ih
  | execute hw _ _ ihok iherror => exact .execute hw ihok iherror
  | commit hws _ _ ihok iherror => exact .commit hws ihok iherror
  | rollback _ ih => exact .rollback ih

end Rules

end Program

namespace Process
variable {R : α → β → Prop}

/-- What is left is alike, and so is what has been sent. -/
structure Alike (rel : D.Store → D.Store → Prop) (R : α → β → Prop) (p : Process D α)
    (q : Process D β) : Prop where
  rest : Program.Alike rel R p.rest q.rest
  pending : p.client.pending = q.client.pending
  respects : ∀ w ∈ p.client.pending, Database.Respects rel w

theorem alike_step {p : Process D α} {q : Process D β} (h : p.Alike rel R q) {s t : D.Store}
    (hst : rel s t) : (p.step s).1.Alike rel R (q.step t).1 ∧ rel (p.step s).2 (q.step t).2 := by
  obtain ⟨rest, c⟩ := p
  obtain ⟨rest', d⟩ := q
  obtain ⟨hrest, hsame, hrespects⟩ := h
  have hpending : d.pending = c.pending := hsame.symm
  have hrespects : ∀ w ∈ c.pending, Database.Respects rel w := hrespects
  have hview := Database.view_related hrespects hst
  -- A rollback, and a statement that raises, leave nothing pending.
  have hnone : ∀ w ∈ ([] : List D.Write), Database.Respects rel w := fun w hw =>
    absurd hw List.not_mem_nil
  cases hrest with
  | done hr => exact ⟨⟨.done hr, hsame, hrespects⟩, hst⟩
  | query hk =>
    refine ⟨⟨?_, hsame, hrespects⟩, hst⟩
    simp only [step, hpending]
    exact hk _ _ hview
  | @execute w k k' hw hok herror =>
    simp only [step, hpending]
    rcases hw _ _ hview with ⟨e, hs, ht⟩ | ⟨r, s', t', hs, ht, _⟩
    · rw [hs, ht]
      exact ⟨⟨herror e, rfl, hnone⟩, hst⟩
    · rw [hs, ht]
      refine ⟨⟨hok r ⟨_, _, s', hview, hs⟩, ?_, ?_⟩, hst⟩
      · simp [hpending]
      · intro v hv
        simp only [Client.wrote_pending] at hv
        rcases List.mem_append.mp hv with hv | hv
        · exact hrespects v hv
        · exact List.mem_singleton.mp hv ▸ hw
  | @commit ws k k' hws hok herror =>
    have hall : ∀ w ∈ c.pending ++ ws, Database.Respects rel w := fun w hw =>
      (List.mem_append.mp hw).elim (hrespects w) (hws w)
    simp only [step, hpending]
    rcases Database.respects_applyAll hall hst with ⟨e, hs, ht⟩ | ⟨s', t', hs, ht, h'⟩
    · rw [hs, ht]
      exact ⟨⟨herror e, rfl, hnone⟩, hst⟩
    · rw [hs, ht]
      refine ⟨⟨hok ?_, rfl, hnone⟩, h'⟩
      -- The staged statements went through after the pending ones.
      rw [Database.applyAll_append] at hs
      rcases Database.respects_applyAll hrespects hst with ⟨e, hp, _⟩ | ⟨v, v', hp, _, hv⟩
      · rw [hp] at hs
        cases hs
      · rw [hp] at hs
        exact ⟨v, v', s', hv, hs⟩
  | rollback hk => exact ⟨⟨hk, rfl, hnone⟩, hst⟩

end Process

namespace System
variable {ι : Type} {R : α → β → Prop}

structure Alike (rel : D.Store → D.Store → Prop) (R : α → β → Prop) (S : System D ι α)
    (T : System D ι β) : Prop where
  store : rel S.store T.store
  procs : ∀ i, (S.procs i).Alike rel R (T.procs i)

theorem alike_boot {s t : D.Store} (h : rel s t) {programs : ι → Program D α}
    {programs' : ι → Program D β} (hp : ∀ i, Program.Alike rel R (programs i) (programs' i)) :
    (boot s programs).Alike rel R (boot t programs') :=
  ⟨h, fun i => ⟨hp i, rfl, fun _ hw => absurd hw List.not_mem_nil⟩⟩

theorem Alike.outcome {S : System D ι α} {T : System D ι α} (h : S.Alike rel Eq T) (i : ι) :
    S.outcome i = T.outcome i := by
  have hrest := (h.procs i).rest
  unfold System.outcome
  generalize (S.procs i).rest = p at hrest
  generalize (T.procs i).rest = q at hrest
  cases hrest with
  | done hr => rw [matching_eq hr]
  | query _ => rfl
  | execute _ _ _ => rfl
  | commit _ _ _ => rfl
  | rollback _ => rfl

variable [DecidableEq ι]

theorem Alike.step {S : System D ι α} {T : System D ι β} (h : S.Alike rel R T) (i : ι) :
    (S.step i).Alike rel R (T.step i) := by
  obtain ⟨hproc, hstore⟩ := Process.alike_step (h.procs i) h.store
  refine ⟨hstore, fun j => ?_⟩
  by_cases hj : j = i
  · subst hj
    rw [step_self, step_self]
    exact hproc
  · rw [step_other S hj, step_other T hj]
    exact h.procs j

theorem Alike.run {S : System D ι α} {T : System D ι β} (h : S.Alike rel R T)
    (schedule : List ι) : (S.run schedule).Alike rel R (T.run schedule) := by
  induction schedule generalizing S T with
  | nil => exact h
  | cons i is ih => exact ih (h.step i)

end System

end Transact

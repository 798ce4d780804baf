import BookingPlatform.Transact.Interleaving

/-!
# Clients that only read

What such a client returns is decided by the stores it has met, one at each of its turns.
-/

namespace Transact

set_option autoImplicit false

variable {D : Database} {α β : Type}

namespace Program

def ReadsOnly : Program D α → Prop
  | .done _ => True
  | .query _ k => ∀ a, (k (.ok a)).ReadsOnly
  | _ => False

/-- What a program that only reads returns when its queries meet these stores, and those it
does not get to. -/
def replay : Program D α → List D.Store → Option (Except D.Error α × List D.Store)
  | .done r, seen => some (r, seen)
  | .query q k, s :: seen => (k (.ok (D.answer q s))).replay seen
  | _, _ => none

theorem readsOnly_bind {p : Program D α} {f : α → Program D β} (h : p.ReadsOnly)
    (hf : ∀ a, (f a).ReadsOnly) : (p >>= f).ReadsOnly := by
  change (p.bind f).ReadsOnly
  induction p with
  | done r =>
    cases r with
    | ok a => exact hf a
    | error e => trivial
  | query q k ih => exact fun a => ih (.ok a) (h a)
  | execute w k => exact h.elim
  | commit ws k => exact h.elim
  | rollback k => exact h.elim

theorem readsOnly_refuseIf (c : Prop) [Decidable c] (e : D.Error) :
    (refuseIf c e).ReadsOnly := by
  unfold refuseIf
  split <;> trivial

theorem readsOnly_select (q : D.Query) : (select q).ReadsOnly := fun _ => trivial

section Replay
variable {seen rest : List D.Store} {a : α} {b : β}

theorem replay_done {r : Except D.Error α} (h : (done r).replay seen = some (.ok a, rest)) :
    r = .ok a ∧ rest = seen := by
  obtain ⟨hr, hrest⟩ := Prod.mk.inj (Option.some.inj h)
  exact ⟨hr, hrest.symm⟩

/-- A program that has returned a value has got through its first part. -/
theorem replay_bind {p : Program D α} {f : α → Program D β}
    (h : (p >>= f).replay seen = some (.ok b, rest)) :
    ∃ a mid, p.replay seen = some (.ok a, mid) ∧ (f a).replay mid = some (.ok b, rest) := by
  change (p.bind f).replay seen = _ at h
  induction p generalizing seen with
  | done r =>
    cases r with
    | ok a => exact ⟨a, seen, rfl, h⟩
    | error e => cases (replay_done h).1
  | query q k ih =>
    cases seen with
    | nil => cases h
    | cons s seen => exact ih _ h
  | execute w k => cases h
  | commit ws k => cases h
  | rollback k => cases h

theorem replay_select {q : D.Query} {a : D.Answer q}
    (h : (select q).replay seen = some (.ok a, rest)) :
    ∃ s, seen = s :: rest ∧ D.answer q s = a := by
  cases seen with
  | nil => cases h
  | cons s seen =>
    obtain ⟨ha, rfl⟩ := replay_done h
    exact ⟨s, rfl, Except.ok.inj ha⟩

theorem replay_refuseIf {c : Prop} [Decidable c] {e : D.Error} {u : Unit}
    (h : (refuseIf c e).replay seen = some (.ok u, rest)) : ¬ c ∧ rest = seen := by
  unfold refuseIf at h
  split at h
  · cases (replay_done h).1
  · exact ⟨by assumption, (replay_done h).2⟩

theorem replay_map {p : Program D α} {f : α → β}
    (h : (f <$> p).replay seen = some (.ok b, rest)) :
    ∃ a, p.replay seen = some (.ok a, rest) ∧ f a = b := by
  obtain ⟨a, mid, hp, hf⟩ := replay_bind h
  obtain ⟨hb, rfl⟩ := replay_done hf
  exact ⟨a, hp, Except.ok.inj hb⟩

end Replay

end Program

namespace System
variable {ι ρ : Type} [DecidableEq ι]

/-- What is committed at each turn of the client. -/
def seenBy (S : System D ι ρ) (i : ι) : List ι → List D.Store
  | [] => []
  | j :: js => if j = i then S.store :: (S.step j).seenBy i js else (S.step j).seenBy i js

theorem outcome_of_reads {S : System D ι ρ} {i : ι} (h : (S.procs i).rest.ReadsOnly)
    (hpending : (S.procs i).client.pending = []) (schedule : List ι) {r : Except D.Error ρ}
    (hr : (S.run schedule).outcome i = some r) :
    ∃ rest, (S.procs i).rest.replay (S.seenBy i schedule) = some (r, rest) := by
  induction schedule generalizing S with
  | nil =>
    unfold outcome at hr
    split at hr
    · rename_i r' hrest
      change (S.procs i).rest = .done r' at hrest
      rw [hrest]
      exact ⟨[], congrArg (Option.map (·, [])) hr⟩
    · cases hr
  | cons j js ih =>
    rw [run_cons] at hr
    by_cases hj : j = i
    · subst j
      have hself := S.step_self i
      unfold seenBy
      rw [if_pos rfl]
      generalize hp : S.procs i = p at h hpending hself ⊢
      obtain ⟨rest, c⟩ := p
      cases rest with
      | done r' =>
        have hdone := ih (S := S.step i) (by rw [hself]; trivial) (by rw [hself]; exact hpending)
          hr
        rw [hself] at hdone
        obtain ⟨rest, hrest⟩ := hdone
        obtain ⟨rfl, _⟩ := Prod.mk.inj (Option.some.inj hrest)
        exact ⟨_, rfl⟩
      | query q k =>
        have hnext := ih (S := S.step i) (by rw [hself]; exact h _) (by rw [hself]; exact hpending)
          hr
        rw [hself] at hnext
        simp only [Process.step] at hnext
        change c.pending = [] at hpending
        rw [hpending] at hnext
        exact hnext
      | execute w k => exact h.elim
      | commit ws k => exact h.elim
      | rollback k => exact h.elim
    · unfold seenBy
      rw [if_neg hj]
      have hother := S.step_other (i := j) (Ne.symm hj)
      have hnext := ih (S := S.step j) (by rw [hother]; exact h) (by rw [hother]; exact hpending)
        hr
      rwa [hother] at hnext

end System

end Transact

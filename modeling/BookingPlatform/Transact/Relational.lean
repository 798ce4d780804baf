import BookingPlatform.Transact.Program

/-!
# Two runs of one program

A relation on stores says that they agree on what a program looks at. If every command of
the program keeps the relation and is answered alike on both sides, its runs from related
sessions return the same and end in related sessions.
-/

namespace Transact

set_option autoImplicit false

variable {D : Database} {α β : Type}

namespace Session

/-- What is committed is related, and so is what the session itself sees. -/
def Related (rel : D.Store → D.Store → Prop) (σ τ : Session D) : Prop :=
  rel σ.committed τ.committed ∧ rel σ.working τ.working

variable {rel : D.Store → D.Store → Prop} {σ τ : Session D}

theorem Related.discard (h : σ.Related rel τ) : σ.discard.Related rel τ.discard := ⟨h.1, h.1⟩

theorem related_fresh {s t : D.Store} (h : rel s t) :
    (fresh s : Session D).Related rel (fresh t) := ⟨h, h⟩

end Session

/-- On related stores the statement raises the same, or goes through with the same result and
leaves related stores. -/
def Database.Respects (rel : D.Store → D.Store → Prop) (w : D.Write) : Prop :=
  ∀ s t, rel s t →
    (∃ e, D.apply w s = .error e ∧ D.apply w t = .error e) ∨
      ∃ r s' t', D.apply w s = .ok (r, s') ∧ D.apply w t = .ok (r, t') ∧ rel s' t'

/-- As for one statement. -/
theorem Database.respects_applyAll {rel : D.Store → D.Store → Prop} {ws : List D.Write}
    (hws : ∀ w ∈ ws, Database.Respects rel w) {s t : D.Store} (h : rel s t) :
    (∃ e, D.applyAll ws s = .error e ∧ D.applyAll ws t = .error e) ∨
      ∃ s' t', D.applyAll ws s = .ok s' ∧ D.applyAll ws t = .ok t' ∧ rel s' t' := by
  induction ws generalizing s t with
  | nil => exact .inr ⟨s, t, rfl, rfl, h⟩
  | cons w ws ih =>
    simp only [Database.applyAll]
    rcases hws w List.mem_cons_self s t h with ⟨e, hs, ht⟩ | ⟨r, s', t', hs, ht, h'⟩
    · rw [hs, ht]
      exact .inl ⟨e, rfl, rfl⟩
    · rw [hs, ht]
      exact ih (fun w hw => hws w (List.mem_cons_of_mem _ hw)) h'

namespace Program

/-- From related sessions the program returns the same and ends in related sessions. -/
def Local (rel : D.Store → D.Store → Prop) (p : Program D α) : Prop :=
  ∀ σ τ : Session D, σ.Related rel τ →
    (p.exec σ).1 = (p.exec τ).1 ∧ (p.exec σ).2.Related rel (p.exec τ).2

/-- The program returns `a` in some run from a session that is related to another. -/
def Returns (rel : D.Store → D.Store → Prop) (p : Program D α) (a : α) : Prop :=
  ∃ σ τ : Session D, σ.Related rel τ ∧ (p.exec σ).1 = .ok a

section Rules
variable {rel : D.Store → D.Store → Prop}

theorem local_done (r : Except D.Error α) : Local rel (.done r) := fun _ _ h => ⟨rfl, h⟩

theorem local_pure (a : α) : Local rel (pure a : Program D α) := local_done _

theorem local_throw (e : D.Error) : Local rel (throw e : Program D α) := local_done _

theorem local_ofExcept (r : Except D.Error α) : Local rel (ofExcept r) := local_done _

theorem local_bind {p : Program D α} {f : α → Program D β} (hp : Local rel p)
    (hf : ∀ a, Returns rel p a → Local rel (f a)) : Local rel (p >>= f) := by
  intro σ τ h
  obtain ⟨hsame, hrel⟩ := hp σ τ h
  rw [exec_bind, exec_bind]
  have hreturns : ∀ a, (p.exec σ).1 = .ok a → Returns rel p a := fun a ha => ⟨σ, τ, h, ha⟩
  cases hσ : p.exec σ with
  | mk r σ' =>
    cases hτ : p.exec τ with
    | mk r' τ' =>
      rw [hσ, hτ] at hsame hrel
      rw [hσ] at hreturns
      cases hsame
      cases r with
      | ok a => exact hf a (hreturns a rfl) σ' τ' hrel
      | error e => exact ⟨rfl, hrel⟩

theorem local_tryCatch {p : Program D α} {handler : D.Error → Program D α} (hp : Local rel p)
    (hhandler : ∀ e, Local rel (handler e)) : Local rel (tryCatch p handler) := by
  intro σ τ h
  obtain ⟨hsame, hrel⟩ := hp σ τ h
  rw [exec_tryCatch, exec_tryCatch]
  cases hσ : p.exec σ with
  | mk r σ' =>
    cases hτ : p.exec τ with
    | mk r' τ' =>
      rw [hσ, hτ] at hsame hrel
      cases hsame
      cases r with
      | ok a => exact ⟨rfl, hrel⟩
      | error e => exact hhandler e σ' τ' hrel

theorem local_map {p : Program D α} {f : α → β} (hp : Local rel p) : Local rel (f <$> p) :=
  local_bind hp fun _ _ => local_pure _

theorem local_select {q : D.Query} (h : ∀ s t, rel s t → D.answer q s = D.answer q t) :
    Local rel (select q) :=
  fun σ τ hrel => ⟨congrArg Except.ok (h σ.working τ.working hrel.2), hrel⟩

theorem local_send {w : D.Write} (h : Database.Respects rel w) : Local rel (send w) := by
  intro σ τ hrel
  rcases h σ.working τ.working hrel.2 with ⟨e, hs, ht⟩ | ⟨r, s', t', hs, ht, h'⟩
  · rw [exec_send_error hs, exec_send_error ht]
    exact ⟨rfl, hrel.discard⟩
  · rw [exec_send_ok hs, exec_send_ok ht]
    exact ⟨rfl, hrel.1, h'⟩

theorem local_commitAll {ws : List D.Write} (h : ∀ w ∈ ws, Database.Respects rel w) :
    Local rel (commitAll ws) := by
  intro σ τ hrel
  simp only [commitAll, exec]
  rcases Database.respects_applyAll h hrel.2 with ⟨e, hs, ht⟩ | ⟨s', t', hs, ht, h'⟩
  · rw [hs, ht]
    exact ⟨rfl, hrel.discard⟩
  · rw [hs, ht]
    exact ⟨rfl, h', h'⟩

theorem local_rollbackAll : Local rel (rollbackAll : Program D Unit) :=
  fun _ _ h => ⟨rfl, h.discard⟩

theorem local_refuseIf (c : Prop) [Decidable c] (e : D.Error) : Local rel (refuseIf c e) := by
  unfold refuseIf
  split <;> exact local_done _

theorem local_runIf {c : Prop} [Decidable c] {p : Program D Unit} (h : Local rel p) :
    Local rel (runIf c p) := by
  unfold runIf
  split
  · exact h
  · exact local_done _

end Rules

end Program

end Transact

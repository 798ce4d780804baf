import BookingPlatform.Transact.Interleaving

/-!
# Programs among others

What a program makes sure of, given what the commits of the others may do. Every
assertion along the way is one that the others keep, so a proof about one program alone
holds of it in every interleaving.
-/

namespace Transact

set_option autoImplicit false

variable {D : Database} {α β : Type}

/-- Whatever the others commit keeps `P`. -/
def Stable (R : D.Store → D.Store → Prop) (P : D.Store → Prop) : Prop :=
  ∀ s t, R s t → P s → P t

theorem Stable.and {R : D.Store → D.Store → Prop} {P P' : D.Store → Prop} (h : Stable R P)
    (h' : Stable R P') : Stable R fun s => P s ∧ P' s :=
  fun s t hst hs => ⟨h s t hst hs.1, h' s t hst hs.2⟩

theorem Stable.fact {R : D.Store → D.Store → Prop} {P : D.Store → Prop} {c : Prop}
    (h : Stable R P) : Stable R fun s => P s ∧ c := fun s t hst hs => ⟨h s t hst hs.1, hs.2⟩

namespace Program

/-- From a store with `P`, with `ws` pending, and among commits in `R`, the program makes
commits in `G` only and ends in `Q`. -/
def Within (R G : D.Store → D.Store → Prop) :
    Program D α → List D.Write → (D.Store → Prop) →
      (Except D.Error α → List D.Write → D.Store → Prop) → Prop
  | .done r, ws, P, Q => ∀ s, P s → Q r ws s
  | .query q k, ws, P, Q => ∀ a, ∃ P', Stable R P' ∧
    (∀ s, P s → D.answer q (D.view ws s) = a → P' s) ∧ (k (.ok a)).Within R G ws P' Q
  | .execute w k, ws, P, Q =>
    (∀ r, ∃ P', Stable R P' ∧ (∀ s t, P s → D.apply w (D.view ws s) = .ok (r, t) → P' s) ∧
      (k (.ok r)).Within R G (ws ++ [w]) P' Q) ∧
    ∀ e, ∃ P', Stable R P' ∧ (∀ s, P s → D.apply w (D.view ws s) = .error e → P' s) ∧
      (k (.error e)).Within R G [] P' Q
  | .commit us k, ws, P, Q =>
    (∃ P', Stable R P' ∧ (∀ s t, P s → D.applyAll (ws ++ us) s = .ok t → G s t ∧ P' t) ∧
      (k (.ok ())).Within R G [] P' Q) ∧
    ∀ e, ∃ P', Stable R P' ∧ (∀ s, P s → D.applyAll (ws ++ us) s = .error e → P' s) ∧
      (k (.error e)).Within R G [] P' Q
  | .rollback k, _, P, Q => k.Within R G [] P Q

section Rules
variable {R G : D.Store → D.Store → Prop} {ws : List D.Write} {P P' : D.Store → Prop}

theorem within_pre {p : Program D α} {Q : Except D.Error α → List D.Write → D.Store → Prop}
    (h : p.Within R G ws P Q) (hP : ∀ s, P' s → P s) : p.Within R G ws P' Q := by
  induction p generalizing ws with
  | done r => exact fun s hs => h s (hP s hs)
  | query q k _ =>
    intro a
    obtain ⟨S, hS, hstep, hk⟩ := h a
    exact ⟨S, hS, fun s hs => hstep s (hP s hs), hk⟩
  | execute w k _ =>
    refine ⟨fun r => ?_, fun e => ?_⟩
    · obtain ⟨S, hS, hstep, hk⟩ := h.1 r
      exact ⟨S, hS, fun s t hs => hstep s t (hP s hs), hk⟩
    · obtain ⟨S, hS, hstep, hk⟩ := h.2 e
      exact ⟨S, hS, fun s hs => hstep s (hP s hs), hk⟩
  | commit us k _ =>
    refine ⟨?_, fun e => ?_⟩
    · obtain ⟨S, hS, hstep, hk⟩ := h.1
      exact ⟨S, hS, fun s t hs => hstep s t (hP s hs), hk⟩
    · obtain ⟨S, hS, hstep, hk⟩ := h.2 e
      exact ⟨S, hS, fun s hs => hstep s (hP s hs), hk⟩
  | rollback k ih => exact ih h

/-- What cannot come about needs no care. -/
theorem within_false {p : Program D α} {Q : Except D.Error α → List D.Write → D.Store → Prop} :
    p.Within R G ws (fun _ => False) Q := by
  induction p generalizing ws with
  | done r => exact fun _ hs => hs.elim
  | query q k ih => exact fun _ => ⟨fun _ => False, fun _ _ _ hs => hs, fun _ hs _ => hs, ih _⟩
  | execute w k ih =>
    exact ⟨fun _ => ⟨fun _ => False, fun _ _ _ hs => hs, fun _ _ hs _ => hs, ih _⟩,
      fun _ => ⟨fun _ => False, fun _ _ _ hs => hs, fun _ hs _ => hs, ih _⟩⟩
  | commit us k ih =>
    exact ⟨⟨fun _ => False, fun _ _ _ hs => hs, fun _ _ hs _ => hs.elim, ih _⟩,
      fun _ => ⟨fun _ => False, fun _ _ _ hs => hs, fun _ hs _ => hs, ih _⟩⟩
  | rollback k ih => exact ih

/-- What the assertion says of more than the store can be used from there on. -/
theorem within_fact {c : Prop} {p : Program D α}
    {Q : Except D.Error α → List D.Write → D.Store → Prop} (h : c → p.Within R G ws P Q) :
    p.Within R G ws (fun s => P s ∧ c) Q := by
  by_cases hc : c
  · exact within_pre (h hc) fun s hs => hs.1
  · exact within_pre within_false fun s hs => hc hs.2

end Rules

/-- At most `n` commands are left, whatever comes back; a query always has an answer. -/
def EndsIn : Nat → Program D α → Prop
  | _, .done _ => True
  | 0, _ => False
  | n + 1, .query _ k => ∀ a, (k (.ok a)).EndsIn n
  | n + 1, .execute _ k => ∀ r, (k r).EndsIn n
  | n + 1, .commit _ k => ∀ r, (k r).EndsIn n
  | n + 1, .rollback k => k.EndsIn n

section EndsIn
variable {m n : Nat} {p : Program D α}

@[simp] theorem endsIn_done {r : Except D.Error α} : (done r).EndsIn n := by
  cases n <;> trivial

theorem EndsIn.mono (h : p.EndsIn m) (hmn : m ≤ n) : p.EndsIn n := by
  induction p generalizing m n with
  | done r => exact endsIn_done
  | query q k ih =>
    obtain ⟨m, rfl⟩ : ∃ m', m = m' + 1 := by cases m <;> simp_all [EndsIn]
    obtain ⟨n, rfl⟩ : ∃ n', n = n' + 1 := ⟨n - 1, by omega⟩
    exact fun a => ih _ (h a) (by omega)
  | execute w k ih =>
    obtain ⟨m, rfl⟩ : ∃ m', m = m' + 1 := by cases m <;> simp_all [EndsIn]
    obtain ⟨n, rfl⟩ : ∃ n', n = n' + 1 := ⟨n - 1, by omega⟩
    exact fun r => ih _ (h r) (by omega)
  | commit us k ih =>
    obtain ⟨m, rfl⟩ : ∃ m', m = m' + 1 := by cases m <;> simp_all [EndsIn]
    obtain ⟨n, rfl⟩ : ∃ n', n = n' + 1 := ⟨n - 1, by omega⟩
    exact fun r => ih _ (h r) (by omega)
  | rollback k ih =>
    obtain ⟨m, rfl⟩ : ∃ m', m = m' + 1 := by cases m <;> simp_all [EndsIn]
    obtain ⟨n, rfl⟩ : ∃ n', n = n' + 1 := ⟨n - 1, by omega⟩
    exact ih h (by omega)

theorem EndsIn.bind {f : α → Program D β} (h : p.EndsIn m) (hf : ∀ a, (f a).EndsIn n) :
    (p >>= f).EndsIn (m + n) := by
  change (p.bind f).EndsIn (m + n)
  induction p generalizing m with
  | done r =>
    cases r with
    | ok a => exact (hf a).mono (by omega)
    | error e => exact endsIn_done
  | query q k ih =>
    cases m with
    | zero => exact h.elim
    | succ m => exact (Nat.succ_add m n).symm ▸ fun a => ih _ (h a)
  | execute w k ih =>
    cases m with
    | zero => exact h.elim
    | succ m => exact (Nat.succ_add m n).symm ▸ fun r => ih _ (h r)
  | commit us k ih =>
    cases m with
    | zero => exact h.elim
    | succ m => exact (Nat.succ_add m n).symm ▸ fun r => ih _ (h r)
  | rollback k ih =>
    cases m with
    | zero => exact h.elim
    | succ m => exact (Nat.succ_add m n).symm ▸ (ih h : (k.bind f).EndsIn (m + n))

theorem EndsIn.tryCatch {f : D.Error → Program D α} (h : p.EndsIn m)
    (hf : ∀ e, (f e).EndsIn n) : (tryCatch p f).EndsIn (m + n) := by
  change (p.handle f).EndsIn (m + n)
  induction p generalizing m with
  | done r =>
    cases r with
    | ok a => exact endsIn_done
    | error e => exact (hf e).mono (by omega)
  | query q k ih =>
    cases m with
    | zero => exact h.elim
    | succ m => exact (Nat.succ_add m n).symm ▸ fun a => ih _ (h a)
  | execute w k ih =>
    cases m with
    | zero => exact h.elim
    | succ m => exact (Nat.succ_add m n).symm ▸ fun r => ih _ (h r)
  | commit us k ih =>
    cases m with
    | zero => exact h.elim
    | succ m => exact (Nat.succ_add m n).symm ▸ fun r => ih _ (h r)
  | rollback k ih =>
    cases m with
    | zero => exact h.elim
    | succ m => exact (Nat.succ_add m n).symm ▸ (ih h : (k.handle f).EndsIn (m + n))

theorem EndsIn.map {f : α → β} (h : p.EndsIn n) : (f <$> p).EndsIn n :=
  h.bind (n := 0) fun _ => endsIn_done

theorem endsIn_select (q : D.Query) : (select q).EndsIn 1 := fun _ => trivial

theorem endsIn_commitAll (us : List D.Write) : (commitAll us).EndsIn 1 := fun _ => trivial

theorem endsIn_refuseIf (c : Prop) [Decidable c] (e : D.Error) : (refuseIf c e).EndsIn 0 := by
  unfold refuseIf
  split <;> exact endsIn_done

end EndsIn

end Program

namespace System
variable {ι ρ : Type} [DecidableEq ι] {R G : ι → D.Store → D.Store → Prop}
  {Q : ι → Except D.Error ρ → List D.Write → D.Store → Prop}

/-- Every client is where its proof says: its assertion holds and the others keep it. -/
def Safe (R G : ι → D.Store → D.Store → Prop)
    (Q : ι → Except D.Error ρ → List D.Write → D.Store → Prop) (S : System D ι ρ) : Prop :=
  ∀ i, ∃ P, Stable (R i) P ∧ P S.store ∧
    (S.procs i).rest.Within (R i) (G i) (S.procs i).client.pending P (Q i)

/-- A step of one client is a commit in its guarantee, or leaves the store. -/
theorem Safe.step (hrely : ∀ i j s t, i ≠ j → G j s t → R i s t) {S : System D ι ρ}
    (h : S.Safe R G Q) (i : ι) :
    (S.step i).Safe R G Q ∧ ((S.step i).store = S.store ∨ G i S.store (S.step i).store) := by
  obtain ⟨P, hP, hs, hp⟩ := h i
  -- The client that moves, and what it does to the store.
  have hown : (∃ P', Stable (R i) P' ∧ P' (S.step i).store ∧
      ((S.step i).procs i).rest.Within (R i) (G i) ((S.step i).procs i).client.pending P' (Q i)) ∧
        ((S.step i).store = S.store ∨ G i S.store (S.step i).store) := by
    rw [step_self]
    change (∃ P', Stable (R i) P' ∧ P' ((S.procs i).step S.store).2 ∧ _) ∧
      (((S.procs i).step S.store).2 = S.store ∨ G i S.store ((S.procs i).step S.store).2)
    generalize S.procs i = p at hp
    obtain ⟨rest, c⟩ := p
    cases rest with
    | done r => exact ⟨⟨P, hP, hs, hp⟩, .inl rfl⟩
    | query q k =>
      obtain ⟨P', hP', hstep, hk⟩ := hp (D.answer q (D.view c.pending S.store))
      exact ⟨⟨P', hP', hstep _ hs rfl, hk⟩, .inl rfl⟩
    | execute w k =>
      simp only [Process.step]
      cases heq : D.apply w (D.view c.pending S.store) with
      | ok r =>
        obtain ⟨P', hP', hstep, hk⟩ := hp.1 r.1
        exact ⟨⟨P', hP', hstep _ _ hs heq, hk⟩, .inl rfl⟩
      | error e =>
        obtain ⟨P', hP', hstep, hk⟩ := hp.2 e
        exact ⟨⟨P', hP', hstep _ hs heq, hk⟩, .inl rfl⟩
    | commit us k =>
      simp only [Process.step]
      cases heq : D.applyAll (c.pending ++ us) S.store with
      | ok t =>
        obtain ⟨P', hP', hstep, hk⟩ := hp.1
        obtain ⟨hG, ht⟩ := hstep _ _ hs heq
        exact ⟨⟨P', hP', ht, hk⟩, .inr hG⟩
      | error e =>
        obtain ⟨P', hP', hstep, hk⟩ := hp.2 e
        exact ⟨⟨P', hP', hstep _ hs heq, hk⟩, .inl rfl⟩
    | rollback k => exact ⟨⟨P, hP, hs, hp⟩, .inl rfl⟩
  refine ⟨fun j => ?_, hown.2⟩
  by_cases hj : j = i
  · subst hj
    exact hown.1
  · obtain ⟨P', hP', hs', hp'⟩ := h j
    rw [step_other S hj]
    refine ⟨P', hP', ?_, hp'⟩
    rcases hown.2 with hsame | hG
    · rwa [hsame]
    · exact hP' _ _ (hrely j i _ _ hj hG) hs'

/-- Safety is kept by every schedule, and so is whatever every guarantee keeps. -/
theorem Safe.run (hrely : ∀ i j s t, i ≠ j → G j s t → R i s t) {I : D.Store → Prop}
    (hI : ∀ i s t, G i s t → I s → I t) {S : System D ι ρ} (h : S.Safe R G Q) (hS : I S.store)
    (schedule : List ι) : (S.run schedule).Safe R G Q ∧ I (S.run schedule).store := by
  induction schedule generalizing S with
  | nil => exact ⟨h, hS⟩
  | cons i is ih =>
    obtain ⟨hsafe, hstore⟩ := h.step hrely i
    refine ih hsafe ?_
    rcases hstore with hsame | hG
    · rwa [hsame]
    · exact hI i _ _ hG hS

omit [DecidableEq ι] in
theorem Safe.boot {s : D.Store} {programs : ι → Program D ρ} {P : ι → D.Store → Prop}
    (hP : ∀ i, Stable (R i) (P i)) (hs : ∀ i, P i s)
    (hprograms : ∀ i, (programs i).Within (R i) (G i) [] (P i) (Q i)) :
    (System.boot s programs).Safe R G Q := fun i => ⟨P i, hP i, hs i, hprograms i⟩

omit [DecidableEq ι] in
/-- A client that is through has what its proof promises, now and later. -/
theorem Safe.ended {S : System D ι ρ} (h : S.Safe R G Q) {i : ι} {r : Except D.Error ρ}
    (hr : S.outcome i = some r) : ∃ ws, Q i r ws S.store := by
  obtain ⟨P, _, hs, hp⟩ := h i
  unfold outcome at hr
  split at hr
  · rename_i r' hrest
    rw [hrest] at hp
    obtain rfl := Option.some.inj hr
    exact ⟨_, hp _ hs⟩
  · cases hr

/-- With as many turns as commands left, a client gets through. -/
theorem outcome_of_turns {S : System D ι ρ} {i : ι} {n : Nat} (h : (S.procs i).rest.EndsIn n)
    {schedule : List ι} (hturns : n ≤ schedule.count i) :
    ∃ r, (S.run schedule).outcome i = some r := by
  induction schedule generalizing S n with
  | nil =>
    obtain rfl : n = 0 := by simpa using hturns
    unfold outcome
    rw [run_nil]
    cases hrest : (S.procs i).rest with
    | done r => exact ⟨r, rfl⟩
    | _ =>
      rw [hrest] at h
      exact h.elim
  | cons j js ih =>
    rw [run_cons]
    by_cases hj : j = i
    · subst hj
      rw [List.count_cons_self] at hturns
      refine ih (n := n - 1) ?_ (by omega)
      rw [step_self]
      unfold Process.step
      generalize (S.procs j) = p at h
      obtain ⟨rest, c⟩ := p
      cases n with
      | zero =>
        cases rest with
        | done r => exact h
        | _ => exact h.elim
      | succ n =>
        cases rest with
        | done r => cases n <;> trivial
        | query q k => exact h _
        | execute w k =>
          simp only
          split <;> exact h _
        | commit us k =>
          simp only
          split <;> exact h _
        | rollback k => exact h
    · rw [List.count_cons_of_ne hj] at hturns
      refine ih ?_ hturns
      rw [step_other S (Ne.symm hj)]
      exact h

end System

end Transact

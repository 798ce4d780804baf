import BookingPlatform.Transact.Rules
import Mathlib.Logic.Function.Basic

/-!
# Interleaved clients

Clients take turns, one command each, over one committed store. A query sees what
is committed at that moment and the client's own open transaction; the writes of a
transaction become visible together, when it commits. A schedule is any list of
clients, so a statement about every schedule is about every interleaving.
-/

namespace Transact

set_option autoImplicit false

variable {D : Database} {ι ρ : Type}

/-- What is left of a program, and what its client has done so far. -/
structure Process (D : Database) (ρ : Type) where
  rest : Program D ρ
  client : Client D

namespace Process

def boot (p : Program D ρ) : Process D ρ := ⟨p, .start⟩

def step (p : Process D ρ) (s : D.Store) : Process D ρ × D.Store :=
  match p.rest with
  | .done _ => (p, s)
  | .query q k =>
    let a := D.answer q (D.view p.client.pending s)
    (⟨k (.ok a), p.client.learn q a⟩, s)
  | .execute w k =>
    match D.apply w (D.view p.client.pending s) with
    | .ok (r, _) => (⟨k (.ok r), p.client.wrote w⟩, s)
    | .error e => (⟨k (.error e), p.client.abort⟩, s)
  | .commit ws k =>
    match D.applyAll (p.client.pending ++ ws) s with
    | .ok t => (⟨k (.ok ()), p.client.commit ws⟩, t)
    | .error e => (⟨k (.error e), p.client.abort⟩, s)
  | .rollback k => (⟨k, p.client.abort⟩, s)

/-- The writes the next command would commit, when it is a commit. -/
def committing (p : Process D ρ) : Option (List D.Write) :=
  match p.rest with
  | .commit ws _ => some (p.client.pending ++ ws)
  | _ => none

theorem step_wp {O : Obligation D} {Q : Except D.Error ρ → Client D → Prop}
    {p : Process D ρ} (h : p.rest.wp O p.client Q) (s : D.Store) :
    (p.step s).1.rest.wp O (p.step s).1.client Q := by
  obtain ⟨rest, c⟩ := p
  cases rest with
  | done r => exact h
  | query q k => exact h s
  | execute w k =>
    have hs := h s
    simp only [step]
    split <;> rename_i heq <;> rw [heq] at hs <;> exact hs
  | commit ws k =>
    simp only [step]
    split
    · exact h.2.1
    · exact h.2.2 _
  | rollback k => exact h

theorem committing_obligation {O : Obligation D} {Q : Except D.Error ρ → Client D → Prop}
    {p : Process D ρ} (h : p.rest.wp O p.client Q) {W : List D.Write}
    (hW : p.committing = some W) : O p.client W := by
  obtain ⟨rest, c⟩ := p
  cases rest with
  | commit ws k =>
    obtain rfl := Option.some.inj hW
    exact h.1
  | _ => cases hW

/-- A step leaves the committed store alone, or it is a commit that went through. -/
theorem step_store (p : Process D ρ) (s : D.Store) :
    ((p.step s).2 = s ∧ (p.step s).1.client.committed = p.client.committed) ∨
      ∃ W, p.committing = some W ∧ D.applyAll W s = .ok (p.step s).2 ∧
        (p.step s).1.client.committed = p.client.committed ++ [W] := by
  obtain ⟨rest, c⟩ := p
  cases rest with
  | done r => exact .inl ⟨rfl, rfl⟩
  | query q k => exact .inl ⟨rfl, rfl⟩
  | execute w k =>
    simp only [step]
    split <;> exact .inl ⟨rfl, rfl⟩
  | commit ws k =>
    simp only [step]
    split
    · rename_i t heq
      exact .inr ⟨_, rfl, heq, rfl⟩
    · exact .inl ⟨rfl, rfl⟩
  | rollback k => exact .inl ⟨rfl, rfl⟩

/-- A client learns by queries only, and what it learns was so at that moment. -/
theorem step_log (p : Process D ρ) (s : D.Store) {e : Entry D}
    (he : e ∈ (p.step s).1.client.log) :
    e ∈ p.client.log ∨ (e.Current s ∧ (p.step s).2 = s) := by
  obtain ⟨rest, c⟩ := p
  cases rest with
  | done r => exact .inl he
  | query q k =>
    rcases List.mem_cons.mp he with rfl | he
    · exact .inr ⟨rfl, rfl⟩
    · exact .inl he
  | execute w k =>
    simp only [step] at he
    split at he <;> exact .inl he
  | commit ws k =>
    simp only [step] at he
    split at he <;> exact .inl he
  | rollback k => exact .inl he

/-- A step of a process nobody disturbs is a step of its solitary run. -/
theorem step_exec (p : Process D ρ) {s w : D.Store}
    (hw : D.applyAll p.client.pending s = .ok w) :
    ∃ w', D.applyAll (p.step s).1.client.pending (p.step s).2 = .ok w' ∧
      (p.step s).1.rest.exec ⟨(p.step s).2, w'⟩ = p.rest.exec ⟨s, w⟩ := by
  obtain ⟨rest, c⟩ := p
  have hview := Database.view_of_applyAll hw
  cases rest with
  | done r => exact ⟨w, hw, rfl⟩
  | query q k =>
    refine ⟨w, hw, ?_⟩
    simp only [step, hview, Program.exec]
  | execute u k =>
    cases heq : D.apply u w with
    | ok r =>
      simp only [step, hview, Program.exec, heq]
      exact ⟨r.2, Database.applyAll_snoc hw heq, rfl⟩
    | error e =>
      simp only [step, hview, Program.exec, heq]
      exact ⟨s, rfl, rfl⟩
  | commit ws k =>
    have hall : D.applyAll (c.pending ++ ws) s = D.applyAll ws w := by
      rw [Database.applyAll_append, hw]
      rfl
    cases heq : D.applyAll ws w with
    | ok t =>
      simp only [step, hall, Program.exec, heq]
      exact ⟨t, rfl, rfl⟩
    | error e =>
      simp only [step, hall, Program.exec, heq]
      exact ⟨s, rfl, rfl⟩
  | rollback k => exact ⟨s, rfl, rfl⟩

end Process

structure System (D : Database) (ι ρ : Type) where
  store : D.Store
  procs : ι → Process D ρ

namespace System

/-- Every client is about to start its program. -/
def boot (s : D.Store) (programs : ι → Program D ρ) : System D ι ρ :=
  ⟨s, fun i => .boot (programs i)⟩

/-- What client `i` has returned or raised, once it is through. -/
def outcome (S : System D ι ρ) (i : ι) : Option (Except D.Error ρ) :=
  match (S.procs i).rest with
  | .done r => some r
  | _ => none

variable [DecidableEq ι]

def step (S : System D ι ρ) (i : ι) : System D ι ρ :=
  ⟨((S.procs i).step S.store).2, Function.update S.procs i ((S.procs i).step S.store).1⟩

def run (S : System D ι ρ) (schedule : List ι) : System D ι ρ := schedule.foldl step S

@[simp] theorem run_nil (S : System D ι ρ) : S.run [] = S := rfl

@[simp] theorem run_cons (S : System D ι ρ) (i : ι) (is : List ι) :
    S.run (i :: is) = (S.step i).run is := rfl

theorem run_append (S : System D ι ρ) (is js : List ι) :
    S.run (is ++ js) = (S.run is).run js := List.foldl_append

@[simp] theorem step_self (S : System D ι ρ) (i : ι) :
    (S.step i).procs i = ((S.procs i).step S.store).1 := Function.update_self ..

theorem step_other (S : System D ι ρ) {i j : ι} (h : j ≠ i) :
    (S.step i).procs j = S.procs j := Function.update_of_ne h ..

/-- Who takes no turn in a schedule stays where they are. -/
theorem run_other (S : System D ι ρ) {schedule : List ι} {j : ι} (h : j ∉ schedule) :
    (S.run schedule).procs j = S.procs j := by
  induction schedule generalizing S with
  | nil => rfl
  | cons i is ih =>
    rw [List.mem_cons, not_or] at h
    rw [run_cons, ih (S.step i) h.2, step_other S h.1]

/-- In the run every commit is made in a store, and on a log, that `A` admits. -/
def Admits (A : ι → Client D → List D.Write → D.Store → Prop) :
    System D ι ρ → List ι → Prop
  | _, [] => True
  | S, i :: is =>
    (∀ W, (S.procs i).committing = some W → A i (S.procs i).client W S.store) ∧
      Admits A (S.step i) is

theorem Admits.left {A : ι → Client D → List D.Write → D.Store → Prop} {S : System D ι ρ}
    {is js : List ι} (h : S.Admits A (is ++ js)) : S.Admits A is := by
  induction is generalizing S with
  | nil => trivial
  | cons i is ih => exact ⟨h.1, ih h.2⟩

theorem Admits.right {A : ι → Client D → List D.Write → D.Store → Prop} {S : System D ι ρ}
    {is js : List ι} (h : S.Admits A (is ++ js)) : (S.run is).Admits A js := by
  induction is generalizing S with
  | nil => exact h
  | cons i is ih => exact ih h.2

theorem Admits.mono {A B : ι → Client D → List D.Write → D.Store → Prop} {S : System D ι ρ}
    {schedule : List ι} (h : S.Admits A schedule) (hAB : ∀ i c W s, A i c W s → B i c W s) :
    S.Admits B schedule := by
  induction schedule generalizing S with
  | nil => trivial
  | cons i is ih => exact ⟨fun W hW => hAB _ _ _ _ (h.1 W hW), ih h.2⟩

theorem Admits.always (S : System D ι ρ) (schedule : List ι) :
    S.Admits (fun _ _ _ _ => True) schedule := by
  induction schedule generalizing S with
  | nil => trivial
  | cons i is ih => exact ⟨fun _ _ => trivial, ih _⟩

/-- Whether a run admits all its commits can be computed. -/
instance Admits.decidable {A : ι → Client D → List D.Write → D.Store → Prop}
    [∀ i c W s, Decidable (A i c W s)] :
    (S : System D ι ρ) → (schedule : List ι) → Decidable (S.Admits A schedule)
  | _, [] => .isTrue trivial
  | S, i :: is =>
    have : Decidable (∀ W, (S.procs i).committing = some W → A i (S.procs i).client W S.store) :=
      match (S.procs i).committing with
      | none => .isTrue fun _ h => nomatch h
      | some W => decidable_of_iff (A i (S.procs i).client W S.store)
        ⟨fun h _ hW => Option.some.inj hW ▸ h, fun h => h W rfl⟩
    have := Admits.decidable (A := A) (S.step i) is
    inferInstanceAs (Decidable (_ ∧ _))

/-- Facts about the store, about what everybody has committed and about what
everybody has been told, carried through a run. `Fact` holds of an answer when it
is given; `Inv` and the facts survive every justified and admitted commit. -/
structure Invariant (O : ι → Obligation D) (A : ι → Client D → List D.Write → D.Store → Prop)
    (Inv : D.Store → (ι → List (List D.Write)) → Prop) (Fact : Entry D → D.Store → Prop) :
    Prop where
  told : ∀ {e : Entry D} {s C}, Inv s C → e.Current s → Fact e s
  commit : ∀ {i c W s t C}, Inv s C → C i = c.committed → (∀ e ∈ c.log, Fact e s) →
    O i c W → A i c W s → D.applyAll W s = .ok t →
      Inv t (Function.update C i (C i ++ [W])) ∧ ∀ e, Fact e s → Fact e t

structure Holds (O : ι → Obligation D) (Q : ι → Except D.Error ρ → Client D → Prop)
    (Inv : D.Store → (ι → List (List D.Write)) → Prop) (Fact : Entry D → D.Store → Prop)
    (S : System D ι ρ) : Prop where
  safe : ∀ i, (S.procs i).rest.wp (O i) (S.procs i).client (Q i)
  inv : Inv S.store fun i => (S.procs i).client.committed
  facts : ∀ i, ∀ e ∈ (S.procs i).client.log, Fact e S.store

variable {O : ι → Obligation D} {Q : ι → Except D.Error ρ → Client D → Prop}
  {A : ι → Client D → List D.Write → D.Store → Prop}
  {Inv : D.Store → (ι → List (List D.Write)) → Prop} {Fact : Entry D → D.Store → Prop}

omit [DecidableEq ι] in
/-- Programs that have just started satisfy everything their `wp` promises. -/
theorem Holds.boot {s : D.Store} {programs : ι → Program D ρ}
    (safe : ∀ i, (programs i).wp (O i) .start (Q i)) (inv : Inv s fun _ => []) :
    Holds O Q Inv Fact (System.boot s programs) :=
  ⟨safe, inv, fun i e he => absurd he (by simp [System.boot, Process.boot])⟩

theorem Holds.step {S : System D ι ρ} (rules : Invariant O A Inv Fact)
    (h : Holds O Q Inv Fact S) {i : ι}
    (adm : ∀ W, (S.procs i).committing = some W → A i (S.procs i).client W S.store) :
    Holds O Q Inv Fact (S.step i) := by
  have hsafe : ∀ j, ((S.step i).procs j).rest.wp (O j) ((S.step i).procs j).client (Q j) := by
    intro j
    by_cases hj : j = i
    · subst j
      rw [step_self]
      exact Process.step_wp (h.safe i) S.store
    · rw [step_other S hj]
      exact h.safe j
  rcases Process.step_store (S.procs i) S.store with ⟨hs, hC⟩ | ⟨W, hW, hall, hC⟩
  · have hstore : (S.step i).store = S.store := hs
    have hCs : (fun j => ((S.step i).procs j).client.committed) =
        fun j => (S.procs j).client.committed := by
      funext j
      by_cases hj : j = i
      · subst j
        rw [step_self, hC]
      · rw [step_other S hj]
    refine ⟨hsafe, ?_, ?_⟩
    · rw [hstore, hCs]
      exact h.inv
    · intro j e he
      rw [hstore]
      by_cases hj : j = i
      · subst j
        rw [step_self] at he
        rcases Process.step_log _ _ he with he | ⟨he, _⟩
        · exact h.facts i e he
        · exact rules.told h.inv he
      · rw [step_other S hj] at he
        exact h.facts j e he
  · have hO := Process.committing_obligation (h.safe i) hW
    obtain ⟨hinv, hfact⟩ := rules.commit h.inv rfl (h.facts i) hO (adm W hW) hall
    have hCs : (fun j => ((S.step i).procs j).client.committed) =
        Function.update (fun j => (S.procs j).client.committed) i
          ((S.procs i).client.committed ++ [W]) := by
      funext j
      by_cases hj : j = i
      · subst j
        rw [step_self, hC, Function.update_self]
      · rw [step_other S hj, Function.update_of_ne hj]
    refine ⟨hsafe, ?_, ?_⟩
    · rw [hCs]
      exact hinv
    · intro j e he
      by_cases hj : j = i
      · subst j
        rw [step_self] at he
        rcases Process.step_log _ _ he with he | ⟨he, hs⟩
        · exact hfact e (h.facts i e he)
        · have hstore : (S.step i).store = S.store := hs
          rw [hstore]
          exact rules.told h.inv he
      · rw [step_other S hj] at he
        exact hfact e (h.facts j e he)

theorem Holds.run {S : System D ι ρ} (rules : Invariant O A Inv Fact)
    (h : Holds O Q Inv Fact S) {schedule : List ι} (adm : S.Admits A schedule) :
    Holds O Q Inv Fact (S.run schedule) := by
  induction schedule generalizing S with
  | nil => exact h
  | cons i is ih => exact ih (h.step rules adm.1) adm.2

omit [DecidableEq ι] in
/-- What a client that is through has returned or raised is what its `wp` promised. -/
theorem Holds.ended {S : System D ι ρ} (h : Holds O Q Inv Fact S) {i : ι}
    {r : Except D.Error ρ} (hr : S.outcome i = some r) : Q i r (S.procs i).client := by
  have hsafe := h.safe i
  unfold outcome at hr
  split at hr
  · rename_i r' hrest
    rw [hrest] at hsafe
    obtain rfl := Option.some.inj hr
    exact hsafe
  · cases hr

/-- Whatever relates the stores around every commit relates those around a run. -/
theorem Holds.store_run {R : D.Store → D.Store → Prop} {S : System D ι ρ}
    (rules : Invariant O A Inv Fact) (h : Holds O Q Inv Fact S) {schedule : List ι}
    (adm : S.Admits A schedule) (refl : ∀ s, R s s) (trans : ∀ {s t u}, R s t → R t u → R s u)
    (commit : ∀ {i c W s t}, (∀ e ∈ c.log, Fact e s) → O i c W → A i c W s →
      D.applyAll W s = .ok t → R s t) : R S.store (S.run schedule).store := by
  induction schedule generalizing S with
  | nil => exact refl _
  | cons i is ih =>
    refine trans ?_ (ih (h.step rules adm.1) adm.2)
    rcases Process.step_store (S.procs i) S.store with ⟨hs, _⟩ | ⟨W, hW, hall, _⟩
    · have hstore : (S.step i).store = S.store := hs
      rw [hstore]
      exact refl _
    · exact commit (h.facts i) (Process.committing_obligation (h.safe i) hW) (adm.1 W hW) hall

/-- One more step of a client nobody disturbs, when the rest of its run is known. -/
theorem advance {S : System D ι ρ} {i : ι} {p : Program D ρ} {w : D.Store} {κ : Type}
    {child : κ → Program D ρ} (hp : (S.procs i).rest = p)
    (hw : D.applyAll (S.procs i).client.pending S.store = .ok w)
    (ih : ∀ r (T : System D ι ρ) (w : D.Store), (T.procs i).rest = child r →
      D.applyAll (T.procs i).client.pending T.store = .ok w →
        ∃ n, (T.run (List.replicate n i)).outcome i = some ((child r).exec ⟨T.store, w⟩).1 ∧
          (T.run (List.replicate n i)).store = ((child r).exec ⟨T.store, w⟩).2.committed)
    (hchild : ∃ r, ((Process.mk p (S.procs i).client).step S.store).1.rest = child r) :
    ∃ n, (S.run (List.replicate n i)).outcome i = some (p.exec ⟨S.store, w⟩).1 ∧
      (S.run (List.replicate n i)).store = (p.exec ⟨S.store, w⟩).2.committed := by
  subst hp
  obtain ⟨r, hr⟩ := hchild
  obtain ⟨w', hw', hexec⟩ := Process.step_exec (S.procs i) hw
  obtain ⟨n, h₁, h₂⟩ := ih r (S.step i) w' (by rw [step_self]; exact hr)
    (by rw [step_self]; exact hw')
  rw [← hr] at h₁ h₂
  refine ⟨n + 1, ?_, ?_⟩
  · rw [← hexec]
    exact h₁
  · rw [← hexec]
    exact h₂

/-- Left alone, a client ends as `exec` says, whatever the others are up to. -/
theorem run_alone {S : System D ι ρ} {i : ι} {w : D.Store}
    (hw : D.applyAll (S.procs i).client.pending S.store = .ok w) :
    ∃ n, (S.run (List.replicate n i)).outcome i =
        some ((S.procs i).rest.exec ⟨S.store, w⟩).1 ∧
      (S.run (List.replicate n i)).store =
        ((S.procs i).rest.exec ⟨S.store, w⟩).2.committed := by
  have go : ∀ (p : Program D ρ) (T : System D ι ρ) (w : D.Store), (T.procs i).rest = p →
      D.applyAll (T.procs i).client.pending T.store = .ok w →
        ∃ n, (T.run (List.replicate n i)).outcome i = some (p.exec ⟨T.store, w⟩).1 ∧
          (T.run (List.replicate n i)).store = (p.exec ⟨T.store, w⟩).2.committed := by
    intro p
    induction p with
    | done r =>
      intro T w hp _
      exact ⟨0, by simp [outcome, hp, Program.exec], rfl⟩
    | query q k ih => exact fun T w hp hw => advance hp hw (fun r => ih r) (by simp [Process.step])
    | execute u k ih =>
      refine fun T w hp hw => advance hp hw (fun r => ih r) ?_
      simp only [Process.step]
      split <;> exact ⟨_, rfl⟩
    | commit ws k ih =>
      refine fun T w hp hw => advance hp hw (fun r => ih r) ?_
      simp only [Process.step]
      split <;> exact ⟨_, rfl⟩
    | rollback k ih => exact fun T w hp hw => advance hp hw (fun _ : Unit => ih) ⟨(), rfl⟩
  exact go _ S w rfl hw

end System

end Transact

import Mathlib.Logic.Basic

/-!
# Programs over a transactional store

A database is a store together with the queries and the statements a client may
send to it. A program is a finite tree of such commands; `exec` runs it alone, in
one session whose uncommitted statements are visible to itself only. Nothing here
says what the tables are.
-/

namespace Transact

set_option autoImplicit false

/-- `apply` is one statement: it either takes effect and returns a result, or
raises and leaves the store as it was. -/
structure Database where
  Store : Type
  Query : Type
  Answer : Query → Type
  Write : Type
  Result : Write → Type
  Error : Type
  answer : (q : Query) → Store → Answer q
  apply : (w : Write) → Store → Except Error (Result w × Store)

namespace Database
variable (D : Database)

/-- The statements of one transaction, in order; the first that raises ends it. -/
def applyAll : List D.Write → D.Store → Except D.Error D.Store
  | [], s => .ok s
  | w :: ws, s =>
    match D.apply w s with
    | .ok (_, t) => applyAll ws t
    | .error e => .error e

/-- The store as the owner of the uncommitted statements `ws` sees it. -/
def view : List D.Write → D.Store → D.Store
  | [], s => s
  | w :: ws, s =>
    match D.apply w s with
    | .ok (_, t) => view ws t
    | .error _ => view ws s

variable {D}

@[simp] theorem applyAll_nil (s : D.Store) : D.applyAll [] s = .ok s := rfl

@[simp] theorem view_nil (s : D.Store) : D.view [] s = s := rfl

theorem applyAll_append (us ws : List D.Write) (s : D.Store) :
    D.applyAll (us ++ ws) s = D.applyAll us s >>= D.applyAll ws := by
  induction us generalizing s with
  | nil => rfl
  | cons u us ih =>
    simp only [List.cons_append, applyAll]
    cases D.apply u s with
    | error e => rfl
    | ok r => exact ih r.2

theorem applyAll_snoc {us : List D.Write} {w : D.Write} {s t u : D.Store} {r : D.Result w}
    (hs : D.applyAll us s = .ok t) (hw : D.apply w t = .ok (r, u)) :
    D.applyAll (us ++ [w]) s = .ok u := by
  rw [applyAll_append, hs]
  simp [applyAll, hw, bind, Except.bind]

/-- Statements that have gone through are seen by their owner as they are. -/
theorem view_of_applyAll {ws : List D.Write} {s t : D.Store}
    (h : D.applyAll ws s = .ok t) : D.view ws s = t := by
  induction ws generalizing s with
  | nil => exact Except.ok.inj h
  | cons w ws ih =>
    simp only [applyAll, view] at h ⊢
    split at h
    · exact ih h
    · cases h

end Database

variable {D : Database} {α β : Type}

/-- `commit staged` flushes what the session has staged and then commits; every
command hands its continuation what it returned or what it raised. -/
inductive Program (D : Database) (α : Type) where
  | done (r : Except D.Error α)
  | query (q : D.Query) (k : Except D.Error (D.Answer q) → Program D α)
  | execute (w : D.Write) (k : Except D.Error (D.Result w) → Program D α)
  | commit (staged : List D.Write) (k : Except D.Error Unit → Program D α)
  | rollback (k : Program D α)

namespace Program

def bind : Program D α → (α → Program D β) → Program D β
  | .done (.ok a), f => f a
  | .done (.error e), _ => .done (.error e)
  | .query q k, f => .query q fun a => (k a).bind f
  | .execute w k, f => .execute w fun r => (k r).bind f
  | .commit ws k, f => .commit ws fun r => (k r).bind f
  | .rollback k, f => .rollback (k.bind f)

def handle : Program D α → (D.Error → Program D α) → Program D α
  | .done (.ok a), _ => .done (.ok a)
  | .done (.error e), h => h e
  | .query q k, h => .query q fun a => (k a).handle h
  | .execute w k, h => .execute w fun r => (k r).handle h
  | .commit ws k, h => .commit ws fun r => (k r).handle h
  | .rollback k, h => .rollback (k.handle h)

instance : Monad (Program D) where
  pure a := .done (.ok a)
  bind := bind

instance : MonadExcept D.Error (Program D) where
  throw e := .done (.error e)
  tryCatch := handle

def ofExcept (r : Except D.Error α) : Program D α := .done r

/-- One SELECT. -/
def select (q : D.Query) : Program D (D.Answer q) := .query q .done

/-- One statement sent at once, inside the open transaction. -/
def send (w : D.Write) : Program D (D.Result w) := .execute w .done

def commitAll (staged : List D.Write) : Program D Unit := .commit staged .done

def rollbackAll : Program D Unit := .rollback (.done (.ok ()))

/-- `if c: raise e`. -/
def refuseIf (c : Prop) [Decidable c] (e : D.Error) : Program D Unit :=
  if c then .done (.error e) else .done (.ok ())

/-- `if c: p`. -/
def runIf (c : Prop) [Decidable c] (p : Program D Unit) : Program D Unit :=
  if c then p else .done (.ok ())

end Program

/-- `committed` is what everybody sees, `working` what the session itself sees. -/
structure Session (D : Database) where
  committed : D.Store
  working : D.Store

namespace Session

/-- A session with no open transaction. -/
def fresh (s : D.Store) : Session D := ⟨s, s⟩

@[simp] theorem fresh_committed (s : D.Store) : (fresh s).committed = s := rfl

@[simp] theorem fresh_working (s : D.Store) : (fresh s).working = s := rfl

/-- Closing a session, or rolling it back, discards what was not committed. -/
def discard (σ : Session D) : Session D := fresh σ.committed

@[simp] theorem discard_committed (σ : Session D) : σ.discard.committed = σ.committed := rfl

end Session

namespace Program

/-- The fault-free run of a program by the only client of the database. -/
def exec : Program D α → Session D → Except D.Error α × Session D
  | .done r, σ => (r, σ)
  | .query q k, σ => (k (.ok (D.answer q σ.working))).exec σ
  | .execute w k, σ =>
    match D.apply w σ.working with
    | .ok (r, s) => (k (.ok r)).exec { σ with working := s }
    | .error e => (k (.error e)).exec σ.discard
  | .commit ws k, σ =>
    match D.applyAll ws σ.working with
    | .ok s => (k (.ok ())).exec (.fresh s)
    | .error e => (k (.error e)).exec σ.discard
  | .rollback k, σ => k.exec σ.discard

@[simp] theorem exec_pure (a : α) (σ : Session D) :
    (pure a : Program D α).exec σ = (.ok a, σ) := rfl

@[simp] theorem exec_throw (e : D.Error) (σ : Session D) :
    (throw e : Program D α).exec σ = (.error e, σ) := rfl

@[simp] theorem exec_ofExcept (r : Except D.Error α) (σ : Session D) :
    (ofExcept r).exec σ = (r, σ) := rfl

@[simp] theorem exec_select (q : D.Query) (σ : Session D) :
    (select q).exec σ = (.ok (D.answer q σ.working), σ) := rfl

@[simp] theorem exec_refuseIf (c : Prop) [Decidable c] (e : D.Error) (σ : Session D) :
    (refuseIf c e).exec σ = (if c then .error e else .ok (), σ) := by
  unfold refuseIf
  split <;> rfl

theorem exec_bind (p : Program D α) (f : α → Program D β) (σ : Session D) :
    (p >>= f).exec σ =
      match p.exec σ with
      | (.ok a, τ) => (f a).exec τ
      | (.error e, τ) => (.error e, τ) := by
  change (p.bind f).exec σ = _
  induction p generalizing σ with
  | done r => cases r <;> rfl
  | query q k ih => exact ih _ σ
  | execute w k ih =>
    simp only [bind, exec]
    split <;> exact ih _ _
  | commit ws k ih =>
    simp only [bind, exec]
    split <;> exact ih _ _
  | rollback k ih => exact ih _

theorem exec_tryCatch (p : Program D α) (h : D.Error → Program D α) (σ : Session D) :
    (tryCatch p h).exec σ =
      match p.exec σ with
      | (.ok a, τ) => (.ok a, τ)
      | (.error e, τ) => (h e).exec τ := by
  change (p.handle h).exec σ = _
  induction p generalizing σ with
  | done r => cases r <;> rfl
  | query q k ih => exact ih _ σ
  | execute w k ih =>
    simp only [handle, exec]
    split <;> exact ih _ _
  | commit ws k ih =>
    simp only [handle, exec]
    split <;> exact ih _ _
  | rollback k ih => exact ih _

section Rules
variable {p : Program D α} {σ τ : Session D}

theorem exec_bind_ok {f : α → Program D β} {a : α} (h : p.exec σ = (.ok a, τ)) :
    (p >>= f).exec σ = (f a).exec τ := by
  rw [exec_bind, h]

theorem exec_bind_error {f : α → Program D β} {e : D.Error} (h : p.exec σ = (.error e, τ)) :
    (p >>= f).exec σ = (.error e, τ) := by
  rw [exec_bind, h]

/-- A run that succeeds has come through its first part. -/
theorem exec_bind_inv {f : α → Program D β} {b : β} (h : (p >>= f).exec σ = (.ok b, τ)) :
    ∃ a ρ, p.exec σ = (.ok a, ρ) ∧ (f a).exec ρ = (.ok b, τ) := by
  rw [exec_bind] at h
  cases hp : p.exec σ with
  | mk r ρ =>
    rw [hp] at h
    cases r with
    | ok a => exact ⟨a, ρ, rfl, h⟩
    | error e => cases h

theorem exec_assoc {γ : Type} {f : α → Program D β} {g : β → Program D γ} :
    (p >>= f >>= g).exec σ = (p >>= fun a => f a >>= g).exec σ := by
  simp only [exec_bind]
  cases p.exec σ with
  | mk r τ => cases r <;> rfl

theorem exec_refuse {c : Prop} [Decidable c] {e : D.Error} {p : Program D β} (hc : c) :
    (refuseIf c e >>= fun _ => p).exec σ = (.error e, σ) :=
  exec_bind_error (by rw [exec_refuseIf, if_pos hc])

theorem exec_pass {c : Prop} [Decidable c] {e : D.Error} {p : Program D β} (hc : ¬ c) :
    (refuseIf c e >>= fun _ => p).exec σ = p.exec σ :=
  exec_bind_ok (by rw [exec_refuseIf, if_neg hc])

end Rules

end Program

namespace Session

/-- Statements sent one by one: all go through, or the first that raises aborts. -/
def attempt (σ : Session D) (ws : List D.Write) : Except D.Error Unit × Session D :=
  match D.applyAll ws σ.working with
  | .ok s => (.ok (), { σ with working := s })
  | .error e => (.error e, σ.discard)

end Session

namespace Program

/-- The program does nothing but send these statements. -/
def Sends (p : Program D Unit) (ws : List D.Write) : Prop := ∀ σ, p.exec σ = σ.attempt ws

theorem Sends.nothing : Sends (pure () : Program D Unit) [] := fun _ => rfl

theorem exec_send_ok {w : D.Write} {σ : Session D} {r : D.Result w} {s : D.Store}
    (h : D.apply w σ.working = .ok (r, s)) :
    (send w).exec σ = (.ok r, { σ with working := s }) := by
  simp only [send, exec, h]

theorem exec_send_error {w : D.Write} {σ : Session D} {e : D.Error}
    (h : D.apply w σ.working = .error e) : (send w).exec σ = (.error e, σ.discard) := by
  simp only [send, exec, h]

theorem Sends.one (w : D.Write) : Sends (send w >>= fun _ => pure ()) [w] := by
  intro σ
  unfold Session.attempt Database.applyAll
  cases h : D.apply w σ.working with
  | ok r => exact exec_bind_ok (exec_send_ok h)
  | error e => exact exec_bind_error (exec_send_error h)

theorem Sends.bind {p q : Program D Unit} {us ws : List D.Write} (hp : Sends p us)
    (hq : Sends q ws) : Sends (p >>= fun _ => q) (us ++ ws) := by
  intro σ
  rw [exec_bind, hp σ]
  unfold Session.attempt
  rw [Database.applyAll_append]
  cases hus : D.applyAll us σ.working with
  | error e => rfl
  | ok s =>
    refine (hq _).trans ?_
    unfold Session.attempt
    simp only [Bind.bind, Except.bind]
    cases D.applyAll ws s <;> rfl

theorem Sends.runIf {p : Program D Unit} {ws : List D.Write} (hp : Sends p ws) (c : Prop)
    [Decidable c] : Sends (runIf c p) (if c then ws else []) := by
  unfold Program.runIf
  split
  · exact hp
  · exact .nothing

end Program

end Transact

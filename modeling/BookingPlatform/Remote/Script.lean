import Mathlib.Logic.Basic

/-!
# Scripts of remote commands

A server carries out one command at a time on a state it shares among all who call it.
A script is a finite tree of such calls; each hands its continuation what the server
replied or raised. A protocol is an automaton over the calls of one agent: which it may
make in a phase, and which phase the reply puts it in.
-/

namespace Remote

set_option autoImplicit false

/-- A `Moment` is everything outside the state that a reply may depend on. -/
structure Server where
  State : Type
  Moment : Type
  Command : Type
  Reply : Command → Type
  Error : Type
  perform : (c : Command) → Moment → State → Except Error (Reply c) × State

variable {S : Server} {α β : Type}

inductive Script (S : Server) (α : Type) where
  | done (r : Except S.Error α)
  | call (c : S.Command) (k : Except S.Error (S.Reply c) → Script S α)

namespace Script

def bind : Script S α → (α → Script S β) → Script S β
  | .done (.ok a), f => f a
  | .done (.error e), _ => .done (.error e)
  | .call c k, f => .call c fun r => (k r).bind f

def handle : Script S α → (S.Error → Script S α) → Script S α
  | .done (.ok a), _ => .done (.ok a)
  | .done (.error e), h => h e
  | .call c k, h => .call c fun r => (k r).handle h

instance : Monad (Script S) where
  pure a := .done (.ok a)
  bind := bind

instance : MonadExcept S.Error (Script S) where
  throw e := .done (.error e)
  tryCatch := handle

def ofExcept (r : Except S.Error α) : Script S α := .done r

def send (c : S.Command) : Script S (S.Reply c) := .call c .done

/-- The same calls, with what was raised handed on as a value. -/
def attempt : Script S α → Script S (Except S.Error α)
  | .done r => .done (.ok r)
  | .call c k => .call c fun r => (k r).attempt

end Script

namespace Script

/-- Whatever comes back, the script makes only calls of this kind. -/
def Calls (A : S.Command → Prop) : Script S α → Prop
  | .done _ => True
  | .call c k => A c ∧ ∀ r, (k r).Calls A

section Calls
variable {A : S.Command → Prop} {p : Script S α}

theorem calls_all (h : ∀ c, A c) (p : Script S α) : p.Calls A := by
  induction p with
  | done r => trivial
  | call c k ih => exact ⟨h c, ih⟩

theorem calls_send {c : S.Command} (h : A c) : (send c).Calls A := ⟨h, fun _ => trivial⟩

theorem calls_bind {f : α → Script S β} (h : p.Calls A) (hf : ∀ a, (f a).Calls A) :
    (p >>= f).Calls A := by
  change (p.bind f).Calls A
  induction p with
  | done r =>
    cases r with
    | ok a => exact hf a
    | error e => trivial
  | call c k ih => exact ⟨h.1, fun r => ih r (h.2 r)⟩

theorem calls_map {f : α → β} (h : p.Calls A) : (f <$> p).Calls A :=
  calls_bind h fun _ => trivial

theorem calls_tryCatch {f : S.Error → Script S α} (h : p.Calls A) (hf : ∀ e, (f e).Calls A) :
    (tryCatch p f).Calls A := by
  change (p.handle f).Calls A
  induction p with
  | done r =>
    cases r with
    | ok a => trivial
    | error e => exact hf e
  | call c k ih => exact ⟨h.1, fun r => ih r (h.2 r)⟩

theorem calls_attempt (h : p.Calls A) : p.attempt.Calls A := by
  induction p with
  | done r => trivial
  | call c k ih => exact ⟨h.1, fun r => ih r (h.2 r)⟩

end Calls

end Script

structure Protocol (S : Server) where
  Phase : Type
  Allows : Phase → S.Command → Prop
  next : Phase → (c : S.Command) → Except S.Error (S.Reply c) → Phase

namespace Script
variable {P : Protocol S}

/-- From the phase on, the script calls only what the protocol allows, and ends as `Q` says. -/
def Follows (P : Protocol S) (Q : Except S.Error α → P.Phase → Prop) :
    Script S α → P.Phase → Prop
  | .done r, q => Q r q
  | .call c k, q => P.Allows q c ∧
    ∀ m s, (k (S.perform c m s).1).Follows P Q (P.next q c (S.perform c m s).1)

section Rules
variable {q : P.Phase}

theorem follows_mono {p : Script S α} {Q R : Except S.Error α → P.Phase → Prop}
    (h : p.Follows P Q q) (hQR : ∀ r q, Q r q → R r q) : p.Follows P R q := by
  induction p generalizing q with
  | done r => exact hQR r q h
  | call c k ih => exact ⟨h.1, fun m s => ih _ (h.2 m s)⟩

theorem follows_bind {p : Script S α} {f : α → Script S β}
    {Q : Except S.Error β → P.Phase → Prop} {R : Except S.Error α → P.Phase → Prop}
    (h : p.Follows P R q) (hok : ∀ a q, R (.ok a) q → (f a).Follows P Q q)
    (herr : ∀ e q, R (.error e) q → Q (.error e) q) : (p >>= f).Follows P Q q := by
  change (p.bind f).Follows P Q q
  induction p generalizing q with
  | done r =>
    cases r with
    | ok a => exact hok a q h
    | error e => exact herr e q h
  | call c k ih => exact ⟨h.1, fun m s => ih _ (h.2 m s)⟩

theorem follows_map {p : Script S α} {f : α → β} {Q : Except S.Error β → P.Phase → Prop}
    (h : p.Follows P (fun r q => Q (f <$> r) q) q) : (f <$> p).Follows P Q q :=
  follows_bind h (fun _ _ ha => ha) fun _ _ he => he

theorem follows_tryCatch {p : Script S α} {f : S.Error → Script S α}
    {Q R : Except S.Error α → P.Phase → Prop} (h : p.Follows P R q)
    (hok : ∀ a q, R (.ok a) q → Q (.ok a) q)
    (herr : ∀ e q, R (.error e) q → (f e).Follows P Q q) : (tryCatch p f).Follows P Q q := by
  change (p.handle f).Follows P Q q
  induction p generalizing q with
  | done r =>
    cases r with
    | ok a => exact hok a q h
    | error e => exact herr e q h
  | call c k ih => exact ⟨h.1, fun m s => ih _ (h.2 m s)⟩

theorem follows_attempt {p : Script S α} {Q : Except S.Error (Except S.Error α) → P.Phase → Prop}
    {R : Except S.Error α → P.Phase → Prop} (h : p.Follows P R q)
    (hQ : ∀ r q, R r q → Q (.ok r) q) : p.attempt.Follows P Q q := by
  induction p generalizing q with
  | done r => exact hQ r q h
  | call c k ih => exact ⟨h.1, fun m s => ih _ (h.2 m s)⟩

/-- A single call, by what comes back. -/
theorem follows_send {c : S.Command} {Q : Except S.Error (S.Reply c) → P.Phase → Prop}
    (h : P.Allows q c)
    (hok : ∀ m s a, (S.perform c m s).1 = .ok a → Q (.ok a) (P.next q c (.ok a)))
    (herr : ∀ e, Q (.error e) (P.next q c (.error e))) : (send c).Follows P Q q := by
  refine ⟨h, fun m s => ?_⟩
  cases hreply : (S.perform c m s).1 with
  | ok a => exact hok m s a hreply
  | error e => exact herr e

end Rules

end Script

end Remote

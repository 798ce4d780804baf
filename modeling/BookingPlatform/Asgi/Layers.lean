import Mathlib.Data.List.Basic

/-!
# Applications and the layers around them

An application sends messages and ends, perhaps in an exception. A layer changes the headers
of the response on its way out, or answers an exception in the place of the application.
-/

namespace Asgi

set_option autoImplicit false

section Messages

abbrev Bytes := List UInt8

abbrev Headers := List (Bytes × Bytes)

structure Response where
  status : Nat
  headers : Headers
  body : Bytes
  deriving DecidableEq, Repr

inductive Message where
  | start (status : Nat) (headers : Option Headers)
  | body (content : Bytes) (moreBody : Bool)
  | other (type : String)
  deriving DecidableEq, Repr

def Response.messages (r : Response) : List Message :=
  [.start r.status (some r.headers), .body r.body false]

namespace Message

/-- Status and headers of the response that this message starts. -/
def response? : Message → Option (Nat × Headers)
  | .start status headers => some (status, headers.getD [])
  | _ => none

def mapHeaders (f : Headers → Headers) : Message → Message
  | .start status headers => .start status (some (f (headers.getD [])))
  | m => m

end Message

end Messages

section Runs
variable {ε : Type}

/-- What an application has sent at its end, and the exception it ends in. -/
structure Run (ε : Type) where
  sent : List Message
  raised : Option ε
  deriving DecidableEq

namespace Run

def answer (r : Response) : Run ε := ⟨r.messages, none⟩

def response? (run : Run ε) : Option (Nat × Headers) := run.sent.findSome? Message.response?

def Started (run : Run ε) : Prop := run.response?.isSome = true

instance (run : Run ε) : Decidable run.Started := inferInstanceAs (Decidable (_ = true))

def mapHeaders (f : Headers → Headers) (run : Run ε) : Run ε :=
  { run with sent := run.sent.map (Message.mapHeaders f) }

/-- The response to an exception is sent only where none has been started. -/
def respond (run : Run ε) (r : Response) (raised : Option ε) : Run ε :=
  ⟨run.sent ++ r.messages, raised⟩

end Run

end Runs

namespace Run
variable {ε : Type} {run : Run ε} {r : Response} {f : Headers → Headers}

theorem started_congr {other : Run ε} (h : run.sent = other.sent) :
    run.Started ↔ other.Started := by
  unfold Started response?
  rw [h]

@[simp] theorem raised_mapHeaders : (run.mapHeaders f).raised = run.raised := rfl

@[simp] theorem response?_answer : (answer r : Run ε).response? = some (r.status, r.headers) := rfl

theorem response?_mapHeaders :
    (run.mapHeaders f).response? = run.response?.map fun p => (p.1, f p.2) := by
  unfold response? mapHeaders
  rw [List.findSome?_map, List.map_findSome?]
  congr 1
  funext m
  cases m <;> rfl

@[simp] theorem started_mapHeaders : (run.mapHeaders f).Started ↔ run.Started := by
  unfold Started
  rw [response?_mapHeaders, Option.isSome_map]

theorem response?_eq_none (h : ¬ run.Started) : run.response? = none := by
  unfold Started at h
  rwa [Bool.not_eq_true, Option.isSome_eq_false_iff, Option.isNone_iff_eq_none] at h

theorem response?_respond (h : ¬ run.Started) (raised : Option ε) :
    (run.respond r raised).response? = some (r.status, r.headers) := by
  have hnone := response?_eq_none h
  unfold response? at hnone ⊢
  unfold respond
  rw [List.findSome?_append, hnone]
  rfl

theorem started_respond (h : ¬ run.Started) (raised : Option ε) :
    (run.respond r raised).Started := by
  unfold Started
  rw [response?_respond h]
  rfl

end Run

end Asgi

/-
Lawbook/Callback.lean

Callbacks: functions of the host that the library calls and does not trust.

A call may return, fail with an error, or crash.  An error has a summary and, beneath it, the
causes it wraps; a crash has a payload that may or may not be text.  Both are results here, so no
call can end the check that made it.
-/

namespace Lawbook

/-- An error with the causes it wraps, outermost first. -/
structure Fault where
  summary : String
  causes : List String
deriving DecidableEq, Repr

/-- The outermost text of an error. -/
def Fault.brief (f : Fault) : String :=
  f.summary

/-- The texts of an error and of its causes in a row. -/
def Fault.full (f : Fault) : String :=
  ": ".intercalate (f.summary :: f.causes)

/-- What a crash carries. -/
inductive Payload where
  | text (message : String)
  | other
deriving DecidableEq, Repr

/-- The description of a crash. -/
def Payload.describe : Payload → String
  | text message => message
  | other => "panicked with a non-string payload"

/-- The ways in which a call can end without a value. -/
inductive Mishap where
  | error (fault : Fault)
  | crash (payload : Payload)
deriving DecidableEq, Repr

/-- The short text of a mishap. -/
def Mishap.brief : Mishap → String
  | error fault => fault.brief
  | crash payload => payload.describe

/-- The full text of a mishap. -/
def Mishap.full : Mishap → String
  | error fault => fault.full
  | crash payload => payload.describe

/-- A call into host state `σ` for a value of type `α`. -/
abbrev Callback (σ α : Type) : Type :=
  ExceptT Mishap (StateM σ) α

namespace Callback

variable {σ τ α : Type}

/-- The call that crashes with a text. -/
def crash (message : String) : Callback σ α :=
  throw (.crash (.text message))

/-- The call that fails with an error. -/
def fail (fault : Fault) : Callback σ α :=
  throw (.error fault)

/-- A call that never fails, made of one that may: its errors become crashes with their short
text. -/
def unfailing (call : Callback σ α) : Callback σ α := fun s =>
  match call s with
  | (.error (.error fault), s') => (.error (.crash (.text fault.brief)), s')
  | r => r

/-- A call into a part of a larger state. -/
def within (get : τ → σ) (set : σ → τ → τ) (call : Callback σ α) : Callback τ α := fun t =>
  match call (get t) with
  | (r, s) => (r, set s t)

end Callback

/-- The `i`-th of the values handed to a callback.  Reaching beyond their number is a crash. -/
def argument {σ α : Type} (values : List α) (i : Nat) : Callback σ α :=
  match values[i]? with
  | some value => pure value
  | none =>
    Callback.crash s!"index out of bounds: the len is {values.length} but the index is {i}"

end Lawbook

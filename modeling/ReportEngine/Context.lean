import ReportEngine.Bindings

/-! What a render job knows besides the current row: parameters, aggregates, the page cursor, the time
of execution, and whether it has been cancelled. -/

namespace ReportEngine

/-- A cancellation signal, seen by whoever does work for a job. -/
structure CancelToken where
  /-- Whether the job has been cancelled. All tokens of a job share this. -/
  cancelled : Bool
  /-- Milliseconds after which the token expires on its own. -/
  allowance : Option Nat
deriving DecidableEq, Repr

namespace CancelToken

/-- No time passes while a token is observed, so only an allowance of nothing has run out. -/
def isCancelled (token : CancelToken) : Bool := token.cancelled || token.allowance == some 0

def cancel (token : CancelToken) : CancelToken := { token with cancelled := true }

/-- A token that also expires after the given time, or after an allowance it already has. -/
def withTimeout (token : CancelToken) (milliseconds : Nat) : CancelToken :=
  { token with allowance := some (token.allowance.elim milliseconds (min milliseconds)) }

end CancelToken

structure Context where
  name : String
  parameters : Bindings
  aggregates : Bindings
  pageNumber : Nat
  totalPages : Nat
  executionTime : DateTime
  cancelled : Bool

namespace Context

/-- Nothing is bound, and the job is on page 1 of 1. -/
def named (name : String) : Context where
  name := name
  parameters := .empty
  aggregates := .empty
  pageNumber := 1
  totalPages := 1
  executionTime := .first
  cancelled := false

def detached : Context := named ""

def withParameter (context : Context) (name : String) (value : Value) : Context :=
  { context with parameters := context.parameters.insert name value }

def setAggregate (context : Context) (name : String) (value : Value) : Context :=
  { context with aggregates := context.aggregates.insert name value }

def clearAggregates (context : Context) : Context := { context with aggregates := .empty }

def setPage (context : Context) (pageNumber totalPages : Nat) : Context :=
  { context with pageNumber := pageNumber, totalPages := totalPages }

def cancel (context : Context) : Context := { context with cancelled := true }

/-- Cancels the job if so told. -/
def cancelIf (context : Context) (cancelled : Bool) : Context :=
  { context with cancelled := context.cancelled || cancelled }

@[simp] theorem cancelIf_false (context : Context) : context.cancelIf false = context := by
  rw [cancelIf, Bool.or_false]

theorem cancelIf_cancelled_eq_false {context : Context} {cancelled : Bool} :
    (context.cancelIf cancelled).cancelled = false ↔ context.cancelled = false ∧ cancelled = false :=
  Bool.or_eq_false_iff

def token (context : Context) : CancelToken := ⟨context.cancelled, none⟩

end Context

end ReportEngine

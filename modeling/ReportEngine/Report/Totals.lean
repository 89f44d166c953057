import ReportEngine.EngineError
import ReportEngine.Report.Definition

/-! The pass over all rows that computes aggregates before any cell is evaluated. -/

namespace ReportEngine

namespace AggregateDef

def takeRow (aggregate : AggregateDef) (context : Context) (acc : Accumulator) (row : Row) :
    Except ExprError Accumulator :=
  (aggregate.expr.value context row.fields).bind acc.push

end AggregateDef

/-- An aggregate on its way over the rows, and what it has taken in, if it has not failed. -/
structure RunningTotal where
  aggregate : AggregateDef
  taken : Option Accumulator

namespace RunningTotal

def start (aggregate : AggregateDef) : RunningTotal := ⟨aggregate, some (.start aggregate.fn)⟩

/-- Takes in a row. An aggregate that fails on it is dropped. -/
def advance (total : RunningTotal) (context : Context) (row : Row) : RunningTotal :=
  { total with taken := total.taken.bind fun acc => (total.aggregate.takeRow context acc row).toOption }

def value? (total : RunningTotal) : Option Value := total.taken.bind fun acc => acc.finish.toOption

/-- Binds the aggregate to its value. One that failed is not bound. -/
def publish (context : Context) (total : RunningTotal) : Context :=
  match total.value? with
  | some value => context.setAggregate total.aggregate.name value
  | none => context

end RunningTotal

/-- Takes the rows from one index on into all aggregates, and stops at the first row before which the job is
found cancelled. -/
def takeRows (context : Context) (interrupted : Nat → Bool) (totals : List RunningTotal) (index : Nat) :
    List Row → Except EngineError (List RunningTotal)
  | [] => .ok totals
  | row :: rest =>
    if context.cancelled || interrupted index then .error .cancelled
    else takeRows context interrupted (totals.map (·.advance context row)) (index + 1) rest

/-- Replaces all aggregates of a context by those of a job. While they are computed none is bound, and
of two with one name the later is kept. -/
def computeTotals (aggregates : List AggregateDef) (context : Context) (interrupted : Nat → Bool)
    (rows : List Row) : Except EngineError Context :=
  let cleared := context.clearAggregates
  if aggregates.isEmpty then .ok cleared
  else
    (takeRows cleared interrupted (aggregates.map .start) 0 rows).map (·.foldl RunningTotal.publish cleared)

end ReportEngine

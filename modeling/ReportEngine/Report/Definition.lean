import ReportEngine.Aggregate
import ReportEngine.Config.Settings
import ReportEngine.Expr.Fold

/-! Report definitions, and jobs made from them by folding every tree once. -/

namespace ReportEngine

/-- Evaluated for every row. -/
structure CellDef where
  name : String
  expr : Expr

/-- Computed over all rows before any cell is. -/
structure AggregateDef where
  name : String
  fn : AggregateFn
  expr : Expr

structure ItemDef where
  name : String
  typeName : String
  properties : List (String × Expr)
  width : Nat
  height : Nat

structure ReportDefinition where
  name : String
  schema : Schema
  cells : List CellDef
  aggregates : List AggregateDef
  items : List ItemDef

namespace CellDef

def fold (cell : CellDef) : CellDef := { cell with expr := cell.expr.fold }

end CellDef

namespace AggregateDef

def fold (aggregate : AggregateDef) : AggregateDef := { aggregate with expr := aggregate.expr.fold }

end AggregateDef

namespace ItemDef

def fold (item : ItemDef) : ItemDef :=
  { item with properties := item.properties.map fun (name, expr) => (name, expr.fold) }

end ItemDef

namespace ReportDefinition

/-- The trees of cells, aggregates and item properties, in that order. -/
def trees (definition : ReportDefinition) : List Expr :=
  definition.cells.map CellDef.expr ++ definition.aggregates.map AggregateDef.expr ++
    definition.items.flatMap fun item => item.properties.map Prod.snd

end ReportDefinition

structure Job where
  name : String
  schema : Schema
  cells : List CellDef
  aggregates : List AggregateDef
  items : List ItemDef
  settings : RenderSettings
  stats : FoldStats

namespace Job

def prepare (definition : ReportDefinition) (settings : RenderSettings) : Job where
  name := definition.name
  schema := definition.schema
  cells := definition.cells.map CellDef.fold
  aggregates := definition.aggregates.map AggregateDef.fold
  items := definition.items.map ItemDef.fold
  settings := settings
  stats := definition.trees.foldl (fun stats expr => stats.add (.ofExpr expr)) .zero

def cell? (job : Job) (name : String) : Option Expr :=
  (job.cells.find? fun cell => cell.name == name).map CellDef.expr

end Job

end ReportEngine

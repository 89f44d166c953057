import ReportEngine.Item.Registry
import ReportEngine.Report.Definition

/-! Custom items driven over the rows. An item of a data region is drawn for every row, any other once
for the first row; each time it is given its properties and then asked to draw. The first failure ends
the sequence, and the item is released whatever happens. -/

namespace ReportEngine

inductive ItemFrame where
  | image (row : Nat) (surface : Surface)
  /-- The item failed, at a row unless it could not be created at all. -/
  | failed (row : Option Nat) (message : String)
deriving DecidableEq

structure ItemOutput where
  name : String
  frames : List ItemFrame
deriving DecidableEq

/-- What driving an item leads to: its output unless the job was cancelled meanwhile, the calls it
got, whether the job is cancelled now, and the state that the item was left in. -/
structure Drive (σ : Type) where
  output : Except EngineError ItemOutput
  calls : List Call
  cancelled : Bool
  /-- There is none if no item could be created. -/
  left : Option σ

namespace ItemDef

/-- The properties of an item on a row. One that fails shows the marker, and of two with one name the
later counts. -/
def evaluate (item : ItemDef) (context : Context) (row : Row) (marker : String) : Bindings :=
  .ofList (item.properties.map fun (name, expr) =>
    match expr.value context row.fields with
    | .ok value => (name, value)
    | .error _ => (name, .string marker))

end ItemDef

def callToken (cancelled : Bool) (settings : RenderSettings) : CancelToken :=
  let token : CancelToken := ⟨cancelled, none⟩
  match settings.extensionTimeout with
  | some milliseconds => token.withTimeout milliseconds
  | none => token

/-- The calls for one row, and what they lead to. -/
structure Turn (σ : Type) where
  guard : Guard σ
  result : Except ItemError Surface
  calls : List Call
  cancelled : Bool

variable {σ : Type}

/-- Gives an item its properties and, if it takes them, has it draw on a fresh surface. -/
def Guard.turn (guard : Guard σ) (item : ItemDef) (properties : Bindings) (cancelled : Bool)
    (settings : RenderSettings) : Turn σ :=
  let token := callToken cancelled settings
  let (configured, reply) := guard.setProperties properties token
  let cancelled := cancelled || reply.cancelsJob
  match reply.result with
  | .error error => ⟨configured, .error error, [.setProperties properties], cancelled⟩
  | .ok _ =>
    let (drawn, reply) := configured.drawImage (.transparent item.width item.height)
      { token with cancelled := cancelled }
    ⟨drawn, reply.result, [.setProperties properties, .drawImage], cancelled || reply.cancelsJob⟩

structure Turns (σ : Type) where
  guard : Guard σ
  frames : Except EngineError (List ItemFrame)
  calls : List Call
  cancelled : Bool

/-- Takes turns over rows until one of them fails or the job is cancelled. An item that reports its
own cancellation without the job being cancelled has failed. -/
def Guard.turns (item : ItemDef) (context : Context) (settings : RenderSettings) (guard : Guard σ)
    (cancelled : Bool) : List Row → Turns σ
  | [] => ⟨guard, .ok [], [], cancelled⟩
  | row :: rest =>
    if cancelled then ⟨guard, .error .cancelled, [], cancelled⟩
    else
      let properties := item.evaluate context row settings.errorMarker
      let turn := guard.turn item properties cancelled settings
      match turn.result with
      | .ok surface =>
        let later := turn.guard.turns item context settings turn.cancelled rest
        ⟨later.guard, later.frames.map (.image row.position surface :: ·), turn.calls ++ later.calls, later.cancelled⟩
      | .error error =>
        if error = .cancelled ∧ turn.cancelled then ⟨turn.guard, .error .cancelled, turn.calls, turn.cancelled⟩
        else
          let failure := EngineError.extensionFailure item.name error.message
          let frame := ItemFrame.failed row.position (failure.message?.getD "")
          ⟨turn.guard, .ok [frame], turn.calls, turn.cancelled⟩

namespace ItemDef

def targets (rows : List Row) (dataRegion : Bool) : List Row :=
  if dataRegion then rows else [rows.headD .empty]

/-- Creates an item, asks it what it is bound to, takes its turns, and releases it. -/
def drive (item : ItemDef) (context : Context) (rows : List Row) (registry : Registry σ)
    (settings : RenderSettings) : Drive σ :=
  match registry.create item.typeName with
  | .error error =>
    ⟨.ok ⟨item.name, [.failed none (error.message?.getD "")]⟩, [], context.cancelled, none⟩
  | .ok guard =>
    let (asked, dataRegion) := guard.askDataRegion
    let turns := asked.turns item context settings context.cancelled (targets rows dataRegion)
    ⟨turns.frames.map (ItemOutput.mk item.name), .isDataRegion :: turns.calls ++ [.release],
      turns.cancelled, some turns.guard.release.state⟩

end ItemDef

end ReportEngine

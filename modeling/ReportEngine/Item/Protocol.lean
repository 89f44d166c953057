import ReportEngine.Context
import ReportEngine.EngineError
import ReportEngine.Surface
import ReportEngine.Uuid

/-! How the engine talks to custom items. An item is a state and a way to answer each call; the engine
holds it through a guard, which knows the type the item was created as. -/

namespace ReportEngine

inductive ItemError where
  | failed (message : String)
  | invalidProperty (name message : String)
  | cancelled
deriving DecidableEq, Repr

namespace ItemError

def message : ItemError → String
  | failed message => message
  | invalidProperty name message => "Invalid property '" ++ name ++ "': " ++ message
  | cancelled => "Operation was cancelled"

/-- The failure as one of the engine, put down to an item. -/
def attributedTo (error : ItemError) (item : String) : EngineError :=
  match error with
  | cancelled => .cancelled
  | error => .extensionFailure item error.message

end ItemError

inductive Call where
  | isDataRegion
  | setProperties (properties : Bindings)
  | drawImage
  | drawDesignerImage
  | release
deriving DecidableEq

/-- The answer to a call that was handed a cancellation token. -/
structure Reply (α : Type) where
  /-- Whether the job was cancelled during the call, by the item through its token or by others. -/
  cancelsJob : Bool
  result : Except ItemError α

/-- How items with states of one type answer. Every call may change the state, also one that only asks. -/
structure ItemProtocol (σ : Type) where
  /-- Whether the item is bound to the rows of a data region. -/
  askDataRegion : σ → σ × Bool
  setProperties : σ → Bindings → CancelToken → σ × Reply Unit
  drawImage : σ → Surface → CancelToken → σ × Reply Surface
  drawDesignerImage : σ → Surface → σ × Except ItemError Surface
  markup : σ → String
  release : σ → σ

def ItemProtocol.isDataRegion {σ : Type} (protocol : ItemProtocol σ) (state : σ) : Bool := (protocol.askDataRegion state).2

structure Extension (σ : Type) where
  uuid : Uuid
  version : Version
  name : String
  description : String
  fresh : σ
  protocol : ItemProtocol σ

structure Guard (σ : Type) where
  typeName : String
  state : σ
  protocol : ItemProtocol σ

namespace Guard

variable {σ : Type}

def askDataRegion (guard : Guard σ) : Guard σ × Bool :=
  let (state, answer) := guard.protocol.askDataRegion guard.state
  ({ guard with state := state }, answer)

def setProperties (guard : Guard σ) (properties : Bindings) (token : CancelToken) :
    Guard σ × Reply Unit :=
  let (state, reply) := guard.protocol.setProperties guard.state properties token
  ({ guard with state := state }, reply)

def drawImage (guard : Guard σ) (surface : Surface) (token : CancelToken) :
    Guard σ × Reply Surface :=
  let (state, reply) := guard.protocol.drawImage guard.state surface token
  ({ guard with state := state }, reply)

/-- The placeholder a design tool shows, on a fresh surface. -/
def designerImage (guard : Guard σ) (width height : Nat) : Guard σ × Except EngineError Surface :=
  let (state, answer) := guard.protocol.drawDesignerImage guard.state (.transparent width height)
  ({ guard with state := state }, answer.mapError (·.attributedTo guard.typeName))

def markup (guard : Guard σ) : String := guard.protocol.markup guard.state

def release (guard : Guard σ) : Guard σ := { guard with state := guard.protocol.release guard.state }

end Guard

end ReportEngine

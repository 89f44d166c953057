import ReportEngine.Item.Protocol
import ReportEngine.Markup.Item

/-! Items that follow a script: what they paint, and at which calls they fail or cancel. -/

namespace ReportEngine

inductive PaintStep where
  | fill (color : Rgba)
  | set (x y : Nat) (color : Rgba)
  | rect (x y width height : Nat) (color : Rgba)
  /-- A bar for every character of a property's text, with a gap after it. -/
  | bars (property : String)
deriving DecidableEq, Repr

namespace PaintStep

def paint (surface : Surface) (properties : Bindings) : PaintStep → Surface
  | fill color => surface.fill color
  | set x y color => surface.set x y color
  | rect x y width height color => surface.fillRect x y width height color
  | bars property =>
    let text := ((properties.get? property).map Value.chars).getD []
    (List.range text.length).foldl
      (fun surface i => surface.fillRect (2 * i) 0 1 surface.height .black) surface

def paintAll (surface : Surface) (properties : Bindings) (steps : List PaintStep) : Surface :=
  steps.foldl (fun surface step => step.paint surface properties) surface

end PaintStep

/-- What an item does instead of succeeding quietly. -/
inductive Fault where
  | fail (message : String)
  | invalid (name message : String)
  | cancelled
  /-- Cancels the job, and reports that it was cancelled. -/
  | cancelJob
  /-- Cancels the job, and succeeds. -/
  | cancelJobQuietly
  /-- Reports that it was cancelled if its token says so. -/
  | poll
deriving DecidableEq, Repr

namespace Fault

/-- Obeys a fault with a token at hand. Without a fault the call succeeds. -/
def obey (fault : Option Fault) (token : CancelToken) : Reply Unit :=
  match fault with
  | none => ⟨false, .ok ()⟩
  | some (fail message) => ⟨false, .error (.failed message)⟩
  | some (invalid name message) => ⟨false, .error (.invalidProperty name message)⟩
  | some cancelled => ⟨false, .error .cancelled⟩
  | some cancelJob => ⟨true, .error .cancelled⟩
  | some cancelJobQuietly => ⟨true, .ok ()⟩
  | some poll => ⟨false, if token.isCancelled then .error .cancelled else .ok ()⟩

/-- Obeys a fault where there is no token to cancel or to ask. -/
def obeyAlone (fault : Option Fault) : Except ItemError Unit :=
  match fault with
  | some (fail message) => .error (.failed message)
  | some (invalid name message) => .error (.invalidProperty name message)
  | some cancelled => .error .cancelled
  | _ => .ok ()

end Fault

structure Script where
  dataRegion : Bool
  /-- Faults by the number of earlier `setProperties` calls. -/
  setFaults : List (Nat × Fault)
  /-- Faults of drawing, by the number of the `setProperties` call before it. -/
  drawFaults : List (Nat × Fault)
  designerFault : Option Fault
  paint : List PaintStep
  designerPaint : List PaintStep

structure ScriptState where
  sets : Nat
  properties : Bindings

namespace Script

def plain (paint : List PaintStep) : Script := ⟨false, [], [], none, paint, []⟩

/-- How items of a type answer that follow the script. -/
def protocol (script : Script) (typeName : String) : ItemProtocol ScriptState where
  askDataRegion := fun state => (state, script.dataRegion)
  setProperties := fun state properties token =>
    (⟨state.sets + 1, properties⟩, Fault.obey (script.setFaults.lookup state.sets) token)
  drawImage := fun state surface token =>
    let reply := Fault.obey (script.drawFaults.lookup (state.sets - 1)) token
    let painted := PaintStep.paintAll surface state.properties script.paint
    (state, ⟨reply.cancelsJob, reply.result.map fun _ => painted⟩)
  drawDesignerImage := fun state surface =>
    let painted := PaintStep.paintAll surface state.properties script.designerPaint
    (state, (Fault.obeyAlone script.designerFault).map fun _ => painted)
  markup := fun _ => (ItemMarkup.mk typeName .empty).write
  release := id

def extension (script : Script) (uuid : Uuid) (version : Version) (name description : String) :
    Extension ScriptState where
  uuid := uuid
  version := version
  name := name
  description := description
  fresh := ⟨0, .empty⟩
  protocol := script.protocol name

end Script

end ReportEngine

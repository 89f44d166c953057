import ReportEngine.Item.Registry

/-! Items created, used and released by hand, while registrations come and go. Each item created takes
the next slot, and is held there until it is released. -/

namespace ReportEngine

variable {σ : Type}

/-- A call, and the slot of the item that it went to. -/
structure SlotCall where
  slot : Nat
  typeName : String
  call : Call
deriving DecidableEq

structure Session (σ : Type) where
  registry : Registry σ
  /-- Items by slot. A slot stays empty once its item has been released. -/
  slots : List (Option (Guard σ))
  calls : List SlotCall
  /-- The slots of the items that have been released, and the states that they were left in. -/
  left : List (Nat × σ)

namespace Session

def start : Session σ := ⟨.empty, [], [], []⟩

def register (session : Session σ) (extension : Extension σ) : Session σ :=
  { session with registry := session.registry.register extension }

def unregister (session : Session σ) (name : String) : Session σ × Bool :=
  ({ session with registry := session.registry.unregister name }, session.registry.contains name)

/-- Answers the slot of the new item. A type that is not registered takes none. -/
def create (session : Session σ) (name : String) : Session σ × Except EngineError Nat :=
  match session.registry.create name with
  | .error error => (session, .error error)
  | .ok guard => ({ session with slots := session.slots ++ [some guard] }, .ok session.slots.length)

def held? (session : Session σ) (slot : Nat) : Option (Guard σ) := (session.slots[slot]?).join

private def log (session : Session σ) (slot : Nat) (guard : Guard σ) (call : Call) : List SlotCall :=
  session.calls ++ [⟨slot, guard.typeName, call⟩]

def release (session : Session σ) (slot : Nat) : Session σ × Bool :=
  match session.held? slot with
  | none => (session, false)
  | some guard =>
    ({ session with
      slots := session.slots.set slot none
      calls := session.log slot guard .release
      left := session.left ++ [(slot, guard.release.state)] }, true)

/-- Draws the placeholder of the item in a slot, and answers its type and picture. -/
def designerImage (session : Session σ) (slot width height : Nat) :
    Session σ × Option (Except EngineError (String × Surface)) :=
  match session.held? slot with
  | none => (session, none)
  | some guard =>
    let (after, answer) := guard.designerImage width height
    ({ session with
      slots := session.slots.set slot (some after)
      calls := session.log slot guard .drawDesignerImage },
      some (answer.map fun surface => (guard.typeName, surface)))

def close (session : Session σ) : Session σ :=
  (List.range session.slots.length).foldl (fun session slot => (session.release slot).1) session

inductive Step (σ : Type) where
  | register (extension : Extension σ)
  | unregister (name : String)
  | create (name : String)
  | designerImage (slot width height : Nat)
  | release (slot : Nat)

def step (session : Session σ) : Step σ → Session σ
  | .register extension => session.register extension
  | .unregister name => (session.unregister name).1
  | .create name => (session.create name).1
  | .designerImage slot width height => (session.designerImage slot width height).1
  | .release slot => (session.release slot).1

/-- Runs steps from a fresh session, and releases what is left. -/
def run (steps : List (Step σ)) : Session σ := (steps.foldl step start).close

section Operations

variable {session : Session σ} {slot : Nat} {guard : Guard σ} {name : String}

theorem create_of_missing (missing : session.registry.get? name = none) :
    session.create name = (session, .error (.extensionNotFound name)) := by
  simp only [create, Registry.create, missing]

theorem create_of_found {extension : Extension σ} (found : session.registry.get? name = some extension) :
    session.create name =
      ({ session with slots := session.slots ++ [some ⟨name, extension.fresh, extension.protocol⟩] },
        .ok session.slots.length) := by
  simp only [create, Registry.create, found]

theorem release_of_empty (empty : session.held? slot = none) : session.release slot = (session, false) := by
  simp only [release, empty]

theorem release_of_held (held : session.held? slot = some guard) :
    session.release slot =
      ({ session with
        slots := session.slots.set slot none
        calls := session.calls ++ [⟨slot, guard.typeName, .release⟩]
        left := session.left ++ [(slot, guard.protocol.release guard.state)] }, true) := by
  simp only [release, held, log, Guard.release]

theorem designerImage_of_empty (empty : session.held? slot = none) (width height : Nat) :
    session.designerImage slot width height = (session, none) := by
  simp only [designerImage, empty]

theorem designerImage_of_held (held : session.held? slot = some guard) (width height : Nat) :
    session.designerImage slot width height =
      ({ session with
        slots := session.slots.set slot (some (guard.designerImage width height).1)
        calls := session.calls ++ [⟨slot, guard.typeName, .drawDesignerImage⟩] },
        some ((guard.designerImage width height).2.map fun surface => (guard.typeName, surface))) := by
  simp only [designerImage, held, log]

/-- Only registering and unregistering changes what stands under a name. -/
@[simp] theorem registry_create (session : Session σ) (name : String) : (session.create name).1.registry = session.registry := by
  unfold create
  split
  next => rfl
  next => rfl

@[simp] theorem registry_release (session : Session σ) (slot : Nat) : (session.release slot).1.registry = session.registry := by
  unfold release
  split
  next => rfl
  next => rfl

@[simp] theorem registry_designerImage (session : Session σ) (slot width height : Nat) :
    (session.designerImage slot width height).1.registry = session.registry := by
  unfold designerImage
  split
  next => rfl
  next => rfl

@[simp] theorem length_release (session : Session σ) (slot : Nat) :
    (session.release slot).1.slots.length = session.slots.length := by
  unfold release
  split
  next => rfl
  next => exact List.length_set

@[simp] theorem length_designerImage (session : Session σ) (slot width height : Nat) :
    (session.designerImage slot width height).1.slots.length = session.slots.length := by
  unfold designerImage
  split
  next => rfl
  next => exact List.length_set

end Operations

end Session

end ReportEngine

import ReportEngine.Item.Session

/-! What becomes of the items of a session. Creating an item settles everything about it that registrations
could change: from then on its slot gets the calls that are meant for it and one release, and answers as the
extension that made it, until the release comes or the session ends. -/

namespace ReportEngine

variable {σ : Type}

namespace ItemProtocol

/-- The state of an item after it has drawn pictures of some sizes, one after the other. -/
def stateAfter (protocol : ItemProtocol σ) (state : σ) (sizes : List (Nat × Nat)) : σ :=
  sizes.foldl (fun state (width, height) => (protocol.drawDesignerImage state (.transparent width height)).1) state

end ItemProtocol

namespace Session

/-- The session after some steps, with its items still held. -/
def ofSteps (steps : List (Step σ)) : Session σ := steps.foldl step start

/-- What stands under a name after a step, given what stood there before. -/
def stand (name : String) (found : Option (Extension σ)) : Step σ → Option (Extension σ)
  | .register extension => if extension.name = name then some extension else found
  | .unregister other => if other = name then none else found
  | _ => found

/-- The extension that stands under a name after some steps: the last one registered under it, unless the
name has been unregistered since. -/
def standing? (name : String) (steps : List (Step σ)) : Option (Extension σ) := steps.foldl (stand name) none

/-- Whether a step releases what is in a slot. -/
def Step.releases (slot : Nat) : Step σ → Bool
  | .release other => other == slot
  | _ => false

/-- The size of the picture that a step asks of a slot. -/
def Step.picture? (slot : Nat) : Step σ → Option (Nat × Nat)
  | .designerImage other width height => if other = slot then some (width, height) else none
  | _ => none

def released (slot : Nat) (steps : List (Step σ)) : Bool := steps.any (Step.releases slot)

/-- The sizes of the pictures that some steps ask of a slot before one of them releases what is in it. -/
def pictures (slot : Nat) (steps : List (Step σ)) : List (Nat × Nat) :=
  (steps.takeWhile fun step => !step.releases slot).filterMap (Step.picture? slot)

theorem released_cons (slot : Nat) (step : Step σ) (rest : List (Step σ)) :
    released slot (step :: rest) = (step.releases slot || released slot rest) := List.any_cons

theorem pictures_of_releases {slot : Nat} {step : Step σ} (releases : step.releases slot = true) (rest : List (Step σ)) :
    pictures slot (step :: rest) = [] := by
  simp [pictures, releases]

theorem pictures_of_other {slot : Nat} {step : Step σ} (releases : step.releases slot = false) (rest : List (Step σ)) :
    pictures slot (step :: rest) = (step.picture? slot).toList ++ pictures slot rest := by
  cases asked : step.picture? slot <;> simp [pictures, releases, asked]

def callsTo (session : Session σ) (slot : Nat) : List SlotCall := session.calls.filter fun call => call.slot == slot

/-- The states that items were left in by releases of a slot. -/
def leftIn (session : Session σ) (slot : Nat) : List σ := (session.left.filter fun entry => entry.1 == slot).map Prod.snd

/-- The calls of an item that draws some pictures. -/
def drawings (slot : Nat) (name : String) (sizes : List (Nat × Nat)) : List SlotCall :=
  sizes.map fun _ => ⟨slot, name, .drawDesignerImage⟩

section Slots

variable {session : Session σ} {slot other : Nat} {guard : Guard σ} {step : Step σ}

private theorem lt_of_held (held : session.held? slot = some guard) : slot < session.slots.length := by
  apply Decidable.byContradiction
  intro beyond
  rw [held?, List.getElem?_eq_none (Nat.le_of_not_lt beyond)] at held
  cases held

theorem length_le_step (session : Session σ) (step : Step σ) :
    session.slots.length ≤ (session.step step).slots.length := by
  cases step with
  | register | unregister => exact Nat.le_refl _
  | create name =>
    cases found : session.registry.get? name with
    | none => simp [Session.step, create_of_missing found]
    | some extension => simp [Session.step, create_of_found found]
  | designerImage | release => simp [Session.step]

theorem length_le_foldl (steps : List (Step σ)) (session : Session σ) :
    session.slots.length ≤ (steps.foldl Session.step session).slots.length := by
  induction steps generalizing session with
  | nil => exact Nat.le_refl _
  | cons step rest ih => exact Nat.le_trans (length_le_step session step) (ih (session.step step))

/-- What a slot holds, the calls it got and what it left are the same before and after. -/
private structure Untouched (slot : Nat) (before after : Session σ) : Prop where
  held : after.held? slot = before.held? slot
  calls : after.callsTo slot = before.callsTo slot
  left : after.leftIn slot = before.leftIn slot

private theorem Untouched.refl (session : Session σ) : Untouched slot session session := ⟨rfl, rfl, rfl⟩

private theorem untouched_create (inside : slot < session.slots.length) (name : String) :
    Untouched slot session (session.create name).1 := by
  cases found : session.registry.get? name with
  | none =>
    rw [create_of_missing found]
    exact .refl session
  | some extension =>
    rw [create_of_found found]
    refine ⟨?_, rfl, rfl⟩
    simp only [held?]
    rw [List.getElem?_append_left inside]

/-- Another slot holds something else now, got a call, and may have left something. -/
private theorem untouched_of_other (differs : other ≠ slot) (content : Option (Guard σ)) (call : SlotCall)
    (called : call.slot = other) (states : List σ) :
    Untouched slot session { session with
      slots := session.slots.set other content
      calls := session.calls ++ [call]
      left := session.left ++ states.map (Prod.mk other) } := by
  refine ⟨?_, ?_, ?_⟩
  · simp only [held?, List.getElem?_set, differs, if_false]
  · simp [callsTo, called, differs]
  · simp [leftIn, differs]

private theorem untouched_release (session : Session σ) (differs : other ≠ slot) :
    Untouched slot session (session.release other).1 := by
  cases held : session.held? other with
  | none =>
    rw [release_of_empty held]
    exact .refl session
  | some guard =>
    rw [release_of_held held]
    exact untouched_of_other differs none _ rfl [guard.protocol.release guard.state]

private theorem untouched_designerImage (session : Session σ) (differs : other ≠ slot) (width height : Nat) :
    Untouched slot session (session.designerImage other width height).1 := by
  cases held : session.held? other with
  | none =>
    rw [designerImage_of_empty held]
    exact .refl session
  | some guard =>
    rw [designerImage_of_held held]
    have others : Untouched slot session _ := untouched_of_other differs (some (guard.designerImage width height).1)
      ⟨other, guard.typeName, .drawDesignerImage⟩ rfl []
    rw [List.map_nil, List.append_nil] at others
    exact others

/-- An empty slot stays empty, and nothing is called there. -/
private theorem untouched_of_empty (empty : session.held? slot = none) (inside : slot < session.slots.length) (step : Step σ) :
    Untouched slot session (session.step step) := by
  cases step with
  | register | unregister => exact ⟨rfl, rfl, rfl⟩
  | create name => exact untouched_create inside name
  | designerImage other width height =>
    by_cases same : other = slot
    · subst same
      rw [Session.step, designerImage_of_empty empty]
      exact .refl session
    · exact untouched_designerImage session same width height
  | release other =>
    by_cases same : other = slot
    · subst same
      rw [Session.step, release_of_empty empty]
      exact .refl session
    · exact untouched_release session same

private theorem untouched_foldl_of_empty (steps : List (Step σ)) {session : Session σ} (empty : session.held? slot = none)
    (inside : slot < session.slots.length) : Untouched slot session (steps.foldl Session.step session) := by
  induction steps generalizing session with
  | nil => exact .refl session
  | cons step rest ih =>
    have kept := untouched_of_empty empty inside step
    have later := ih (kept.held.trans empty) (Nat.lt_of_lt_of_le inside (length_le_step session step))
    exact ⟨later.held.trans kept.held, later.calls.trans kept.calls, later.left.trans kept.left⟩

private theorem callsTo_of_call (slots : List (Option (Guard σ))) (name : String) (call : Call) (left : List (Nat × σ)) :
    Session.callsTo { session with slots := slots, calls := session.calls ++ [⟨slot, name, call⟩], left := left } slot =
      session.callsTo slot ++ [⟨slot, name, call⟩] := by
  simp [callsTo]

private theorem held?_set (inside : slot < session.slots.length) (content : Option (Guard σ)) (calls : List SlotCall)
    (left : List (Nat × σ)) :
    Session.held? { session with slots := session.slots.set slot content, calls := calls, left := left } slot = content := by
  simp [held?, inside]

private theorem leftIn_of_release (slots : List (Option (Guard σ))) (calls : List SlotCall) (state : σ) :
    Session.leftIn { session with slots := slots, calls := calls, left := session.left ++ [(slot, state)] } slot =
      session.leftIn slot ++ [state] := by
  simp [leftIn]

/-- What some steps make of an item that was held before them. Only pictures and a release asked of its own
slot reach it, and a release ends it. -/
private structure Served (slot : Nat) (guard : Guard σ) (steps : List (Step σ)) (before after : Session σ) : Prop where
  held : after.held? slot =
    if released slot steps then none
    else some { guard with state := guard.protocol.stateAfter guard.state (pictures slot steps) }
  calls : after.callsTo slot = before.callsTo slot ++ drawings slot guard.typeName (pictures slot steps) ++
    if released slot steps then [⟨slot, guard.typeName, .release⟩] else []
  left : after.leftIn slot = before.leftIn slot ++
    if released slot steps then [guard.protocol.release (guard.protocol.stateAfter guard.state (pictures slot steps))] else []

/-- A step that leaves the item alone can be put in front. -/
private theorem Served.after {steps : List (Step σ)} {before between after : Session σ}
    (later : Served slot guard steps between after) (kept : Untouched slot before between)
    (keeps : step.releases slot = false) (quiet : step.picture? slot = none) :
    Served slot guard (step :: steps) before after := by
  have sameReleased : released slot (step :: steps) = released slot steps := by rw [released_cons, keeps, Bool.false_or]
  have samePictures : pictures slot (step :: steps) = pictures slot steps := by
    rw [pictures_of_other keeps, quiet]
    rfl
  refine ⟨?_, ?_, ?_⟩
  · rw [sameReleased, samePictures]
    exact later.held
  · rw [sameReleased, samePictures, ← kept.calls]
    exact later.calls
  · rw [sameReleased, samePictures, ← kept.left]
    exact later.left

/-- By the steps that are left: the item is served by the first of them, and by the others from there. -/
private theorem served_foldl (steps : List (Step σ)) {session : Session σ} {guard : Guard σ}
    (held : session.held? slot = some guard) : Served slot guard steps session (steps.foldl Session.step session) := by
  induction steps generalizing session guard with
  | nil => exact ⟨held, by simp [released, pictures, drawings], by simp [released]⟩
  | cons step rest ih =>
    have inside := lt_of_held held
    cases step with
    | register extension =>
      have kept : Untouched slot session (session.register extension) := ⟨rfl, rfl, rfl⟩
      apply (ih (kept.held.trans held)).after kept
      · rfl
      · rfl
    | unregister name =>
      have kept : Untouched slot session (session.unregister name).1 := ⟨rfl, rfl, rfl⟩
      apply (ih (kept.held.trans held)).after kept
      · rfl
      · rfl
    | create name =>
      have kept := untouched_create inside name
      apply (ih (kept.held.trans held)).after kept
      · rfl
      · rfl
    | designerImage other width height =>
      by_cases same : other = slot
      · subst same
        have drawn := held?_set inside (some (guard.designerImage width height).1)
          (session.calls ++ [⟨other, guard.typeName, .drawDesignerImage⟩]) session.left
        have later := ih drawn
        have keeps : (.designerImage other width height : Step σ).releases other = false := rfl
        have asked : (.designerImage other width height : Step σ).picture? other = some (width, height) := if_pos rfl
        rw [List.foldl_cons, Session.step, designerImage_of_held held]
        refine ⟨?_, ?_, ?_⟩
        · rw [later.held, released_cons, keeps, Bool.false_or, pictures_of_other keeps, asked]
          rfl
        · rw [later.calls, callsTo_of_call, released_cons, keeps, Bool.false_or, pictures_of_other keeps, asked]
          simp [drawings, Guard.designerImage]
        · rw [later.left, released_cons, keeps, Bool.false_or, pictures_of_other keeps, asked]
          rfl
      · have kept := untouched_designerImage session same width height
        apply (ih (kept.held.trans held)).after kept
        · rfl
        · exact if_neg same
    | release other =>
      by_cases same : other = slot
      · subst same
        have empty := held?_set inside none (session.calls ++ [⟨other, guard.typeName, .release⟩])
          (session.left ++ [(other, guard.protocol.release guard.state)])
        have still := untouched_foldl_of_empty rest empty (by simpa using inside)
        have releases : (.release other : Step σ).releases other = true := beq_self_eq_true other
        rw [List.foldl_cons, Session.step, release_of_held held]
        refine ⟨?_, ?_, ?_⟩
        · rw [still.held, empty, released_cons, releases, Bool.true_or, if_pos rfl]
        · rw [still.calls, callsTo_of_call, released_cons, releases, Bool.true_or, if_pos rfl, pictures_of_releases releases]
          simp [drawings]
        · rw [still.left, leftIn_of_release, released_cons, releases, Bool.true_or, if_pos rfl, pictures_of_releases releases]
          rfl
      · have kept := untouched_release session same
        apply (ih (kept.held.trans held)).after kept
        · exact beq_false_of_ne same
        · rfl

end Slots

section Runs

variable {before after steps more : List (Step σ)} {session : Session σ} {name : String} {slot : Nat}

theorem ofSteps_append (steps more : List (Step σ)) : ofSteps (steps ++ more) = more.foldl step (ofSteps steps) :=
  List.foldl_append

/-- Creations find what stands under their name. -/
theorem get?_ofSteps (steps : List (Step σ)) (name : String) : (ofSteps steps).registry.get? name = standing? name steps := by
  have found : ∀ session : Session σ, (steps.foldl step session).registry.get? name =
      steps.foldl (stand name) (session.registry.get? name) := by
    induction steps with
    | nil => exact fun _ => rfl
    | cons step rest ih =>
      intro session
      rw [List.foldl_cons, List.foldl_cons, ih]
      congr 1
      cases step with
      | register extension => exact session.registry.get?_register extension name
      | unregister other => exact session.registry.get?_unregister other name
      | create | designerImage | release => simp [Session.step, stand]
  exact found start

/-- One of the steps created an item of a type, in a slot. -/
def CreatedBy (steps : List (Step σ)) (slot : Nat) (name : String) : Prop :=
  ∃ before after extension, steps = before ++ .create name :: after ∧ standing? name before = some extension ∧
    slot = (ofSteps before).slots.length

theorem CreatedBy.append (created : CreatedBy steps slot name) (more : List (Step σ)) :
    CreatedBy (steps ++ more) slot name := by
  obtain ⟨before, after, extension, rfl, found, same⟩ := created
  exact ⟨before, after ++ more, extension, by simp, found, same⟩

theorem CreatedBy.lt (created : CreatedBy steps slot name) : slot < (ofSteps steps).slots.length := by
  obtain ⟨before, after, extension, rfl, found, rfl⟩ := created
  rw [← get?_ofSteps] at found
  rw [ofSteps_append, List.foldl_cons, Session.step, create_of_found found]
  refine Nat.lt_of_lt_of_le ?_ (length_le_foldl after _)
  simp

/-- Whatever is held, was called or was left came from one of the steps. -/
private structure Accounted (steps : List (Step σ)) (session : Session σ) : Prop where
  held : ∀ slot guard, session.held? slot = some guard → CreatedBy steps slot guard.typeName
  calls : ∀ call ∈ session.calls, CreatedBy steps call.slot call.typeName
  left : ∀ entry ∈ session.left, ∃ name, CreatedBy steps entry.1 name

private theorem Accounted.append (accounted : Accounted steps session) (more : List (Step σ)) :
    Accounted (steps ++ more) session :=
  ⟨fun slot guard held => (accounted.held slot guard held).append more,
    fun call member => (accounted.calls call member).append more,
    fun entry member => (accounted.left entry member).imp fun _ created => created.append more⟩

/-- An item that was held is called, and held on or not; then it may leave something. -/
private theorem Accounted.call {guard : Guard σ} (accounted : Accounted steps session) (held : session.held? slot = some guard)
    (content : Option (Guard σ)) (same : ∀ next, content = some next → next.typeName = guard.typeName) (call : Call)
    (states : List σ) :
    Accounted steps { session with
      slots := session.slots.set slot content
      calls := session.calls ++ [⟨slot, guard.typeName, call⟩]
      left := session.left ++ states.map (Prod.mk slot) } := by
  have own := accounted.held slot guard held
  refine ⟨?_, ?_, ?_⟩
  · intro other next heldNext
    by_cases same' : slot = other
    · subst same'
      rw [held?_set (lt_of_held held)] at heldNext
      rw [same next heldNext]
      exact own
    · simp only [held?, List.getElem?_set, same', if_false] at heldNext
      exact accounted.held other next heldNext
  · intro made member
    rcases List.mem_append.mp member with earlier | last
    · exact accounted.calls made earlier
    · rw [List.mem_singleton.mp last]
      exact own
  · intro entry member
    rcases List.mem_append.mp member with earlier | last
    · exact accounted.left entry earlier
    · obtain ⟨state, _, rfl⟩ := List.mem_map.mp last
      exact ⟨_, own⟩

private theorem Accounted.release (accounted : Accounted steps session) (slot : Nat) :
    Accounted steps (session.release slot).1 := by
  cases held : session.held? slot with
  | none =>
    rw [release_of_empty held]
    exact accounted
  | some guard =>
    rw [release_of_held held]
    exact accounted.call held none nofun .release [guard.protocol.release guard.state]

private theorem Accounted.step (accounted : Accounted steps (ofSteps steps)) (step : Step σ) :
    Accounted (steps ++ [step]) ((ofSteps steps).step step) := by
  cases step with
  | register extension => exact ⟨(accounted.append _).held, (accounted.append _).calls, (accounted.append _).left⟩
  | unregister name => exact ⟨(accounted.append _).held, (accounted.append _).calls, (accounted.append _).left⟩
  | designerImage slot width height =>
    cases held : (ofSteps steps).held? slot with
    | none =>
      rw [Session.step, designerImage_of_empty held]
      exact accounted.append _
    | some guard =>
      rw [Session.step, designerImage_of_held held]
      have called := (accounted.append [.designerImage slot width height]).call held (some (guard.designerImage width height).1)
        (fun next drawn => by cases drawn; rfl) .drawDesignerImage []
      rw [List.map_nil, List.append_nil] at called
      exact called
  | release slot => exact (accounted.append _).release slot
  | create name =>
    cases found : (ofSteps steps).registry.get? name with
    | none =>
      rw [Session.step, create_of_missing found]
      exact accounted.append _
    | some extension =>
      rw [Session.step, create_of_found found]
      refine ⟨?_, (accounted.append _).calls, (accounted.append _).left⟩
      intro slot guard held
      simp only [held?, List.getElem?_append] at held
      split at held
      next => exact (accounted.append _).held slot guard held
      next beyond =>
        rw [List.getElem?_singleton] at held
        split at held
        next first =>
          cases held
          have last : slot = (ofSteps steps).slots.length := by omega
          rw [get?_ofSteps] at found
          exact ⟨steps, [], extension, rfl, found, last⟩
        next => cases held

private theorem accounted_append (more : List (Step σ)) {steps : List (Step σ)} (accounted : Accounted steps (ofSteps steps)) :
    Accounted (steps ++ more) (ofSteps (steps ++ more)) := by
  induction more generalizing steps with
  | nil =>
    rw [List.append_nil]
    exact accounted
  | cons step rest ih =>
    have next := accounted.step step
    rw [← List.singleton_append, ← List.append_assoc]
    apply ih
    rw [ofSteps_append]
    exact next

private theorem accounted_ofSteps (steps : List (Step σ)) : Accounted steps (ofSteps steps) := by
  have nothing : Accounted [] (ofSteps ([] : List (Step σ))) := by
    refine ⟨?_, ?_, ?_⟩
    · intro slot guard held
      cases held
    · intro call member
      cases member
    · intro entry member
      cases member
  exact accounted_append steps nothing

private theorem accounted_close (accounted : Accounted steps session) : Accounted steps session.close := by
  unfold close
  generalize List.range session.slots.length = slots
  induction slots generalizing session with
  | nil => exact accounted
  | cons slot rest ih => exact ih (accounted.release slot)

theorem close_eq (session : Session σ) :
    session.close = ((List.range session.slots.length).map Step.release).foldl step session := by
  rw [close, List.foldl_map]
  rfl

/-- Closing a session releases every item, and asks for no picture. -/
private theorem pictures_append_releases (slot : Nat) (steps : List (Step σ)) (slots : List Nat) :
    pictures slot (steps ++ slots.map Step.release) = pictures slot steps := by
  induction steps with
  | nil =>
    rw [List.nil_append]
    apply List.filterMap_eq_nil_iff.mpr
    intro step member
    obtain ⟨other, _, rfl⟩ := List.mem_map.mp ((List.takeWhile_sublist _).subset member)
    rfl
  | cons step rest ih =>
    cases releases : step.releases slot with
    | true => rw [List.cons_append, pictures_of_releases releases, pictures_of_releases releases]
    | false => rw [List.cons_append, pictures_of_other releases, pictures_of_other releases, ih]

private theorem released_append_releases {slots : List Nat} (member : slot ∈ slots) (steps : List (Step σ)) :
    released slot (steps ++ slots.map Step.release) = true := by
  have last : (Step.release slot : Step σ) ∈ steps ++ slots.map Step.release :=
    List.mem_append_right _ (List.mem_map_of_mem member)
  exact List.any_eq_true.mpr ⟨_, last, beq_self_eq_true slot⟩

/-- The life of an item that was created in a slot, between the steps before its creation and some steps after. -/
structure Lifecycle (before : List (Step σ)) (name : String) (extension : Extension σ) (after : List (Step σ))
    (slot : Nat) : Prop where
  created : ((ofSteps before).create name).2 = .ok slot
  /-- Items created later are put in other slots. -/
  apart : slot < (ofSteps (before ++ .create name :: after)).slots.length
  /-- The item is the one its extension made, and has drawn what was asked of it. -/
  held : (ofSteps (before ++ .create name :: after)).held? slot =
    if released slot after then none
    else some ⟨name, extension.protocol.stateAfter extension.fresh (pictures slot after), extension.protocol⟩
  /-- It draws the next picture as its extension says. -/
  answers : ∀ width height, ((ofSteps (before ++ .create name :: after)).designerImage slot width height).2 =
    if released slot after then none
    else
      let state := extension.protocol.stateAfter extension.fresh (pictures slot after)
      let answer := (extension.protocol.drawDesignerImage state (.transparent width height)).2
      some ((answer.mapError (·.attributedTo name)).map fun surface => (name, surface))
  /-- So far it was asked for its pictures, and then released if a step has released it. -/
  calls : (ofSteps (before ++ .create name :: after)).callsTo slot =
    drawings slot name (pictures slot after) ++ if released slot after then [⟨slot, name, .release⟩] else []
  /-- In the end it has been released, once and after all other calls. -/
  ended : (run (before ++ .create name :: after)).callsTo slot =
    drawings slot name (pictures slot after) ++ [⟨slot, name, .release⟩]
  /-- The release reaches the item that has drawn what was asked of it, and no other does. -/
  left : (run (before ++ .create name :: after)).leftIn slot =
    [extension.protocol.release (extension.protocol.stateAfter extension.fresh (pictures slot after))]

/-- Creating an item starts its life: the steps that follow serve it, and so does closing the session, which
is a release of every slot. -/
theorem lifecycle_of_found {extension : Extension σ} (found : standing? name before = some extension)
    (after : List (Step σ)) : Lifecycle before name extension after (ofSteps before).slots.length := by
  have known := (get?_ofSteps before name).trans found
  let made : Session σ := { ofSteps before with
    slots := (ofSteps before).slots ++ [some ⟨name, extension.fresh, extension.protocol⟩] }
  have held : made.held? (ofSteps before).slots.length = some ⟨name, extension.fresh, extension.protocol⟩ := by
    simp [made, held?]
  have uncalled : made.callsTo (ofSteps before).slots.length = [] := by
    apply List.filter_eq_nil_iff.mpr
    intro call member called
    have earlier := ((accounted_ofSteps before).calls call member).lt
    rw [eq_of_beq called] at earlier
    exact absurd earlier (Nat.lt_irrefl _)
  have unleft : made.leftIn (ofSteps before).slots.length = [] := by
    apply List.map_eq_nil_iff.mpr
    apply List.filter_eq_nil_iff.mpr
    intro entry member left
    obtain ⟨_, created⟩ := (accounted_ofSteps before).left entry member
    have earlier := created.lt
    rw [eq_of_beq left] at earlier
    exact absurd earlier (Nat.lt_irrefl _)
  have reached : ofSteps (before ++ .create name :: after) = after.foldl step made := by
    rw [ofSteps_append, List.foldl_cons, Session.step, create_of_found known]
  have served := served_foldl after held
  have apart : (ofSteps before).slots.length < (after.foldl step made).slots.length := by
    apply Nat.lt_of_lt_of_le _ (length_le_foldl after made)
    simp [made]
  -- The session ends as if each of its slots were released.
  have closed := served_foldl (after ++ (List.range (after.foldl step made).slots.length).map Step.release) held
  have ended : run (before ++ .create name :: after) =
      (after ++ (List.range (after.foldl step made).slots.length).map Step.release).foldl step made := by
    rw [run, ← ofSteps, reached, close_eq, ← List.foldl_append]
  refine ⟨?_, ?_, ?_, ?_, ?_, ?_, ?_⟩
  · rw [create_of_found known]
  · rw [reached]
    exact apart
  · rw [reached]
    exact served.held
  · intro width height
    rw [reached]
    have content := served.held
    split at content
    next gone => rw [designerImage_of_empty content, if_pos gone]
    next kept =>
      rw [designerImage_of_held content, if_neg kept]
      rfl
  · rw [reached, served.calls, uncalled, List.nil_append]
  · rw [ended, closed.calls, uncalled, List.nil_append, pictures_append_releases,
      released_append_releases (List.mem_range.mpr apart), if_pos rfl]
  · rw [ended, closed.left, unleft, List.nil_append, pictures_append_releases,
      released_append_releases (List.mem_range.mpr apart), if_pos rfl]

/-- Every creation in a session either finds no extension, and then nothing comes of it, or starts the life of an
item. All calls of the session belong to such items. -/
theorem run_lifecycles (steps : List (Step σ)) :
    (∀ before name after, steps = before ++ .create name :: after →
      match standing? name before with
      | none => (ofSteps before).create name = (ofSteps before, .error (.extensionNotFound name))
      | some extension => Lifecycle before name extension after (ofSteps before).slots.length) ∧
    ∀ call ∈ (run steps).calls, CreatedBy steps call.slot call.typeName := by
  refine ⟨?_, (accounted_close (accounted_ofSteps steps)).calls⟩
  intro before name after _
  cases found : standing? name before with
  | none => exact create_of_missing ((get?_ofSteps before name).trans found)
  | some extension => exact lifecycle_of_found found after

/-- Items that count their pictures, from a number on, and take off what they counted when they are released. -/
def counting (first : Nat) : Extension Nat where
  uuid := .nil
  version := .release 0 1 0
  name := "Gauge"
  description := "Counts"
  fresh := first
  protocol :=
    { askDataRegion := fun state => (state, false)
      setProperties := fun state _ _ => (state, ⟨false, .ok ()⟩)
      drawImage := fun state surface _ => (state, ⟨false, .ok surface⟩)
      drawDesignerImage := fun state surface => (state + 1, .ok surface)
      markup := fun _ => ""
      release := fun state => state - first }

/-- An item outlives the registration it was created from, and that of another extension in its place. -/
def replacedGauge : List (Step Nat) :=
  [.register (counting 0), .create "Gauge", .register (counting 10), .designerImage 0 1 1, .unregister "Gauge",
    .create "Gauge", .designerImage 0 2 2]

theorem run_lifecycles_replacedGauge :
    (ofSteps replacedGauge).held? 0 = some ⟨"Gauge", 2, (counting 0).protocol⟩ ∧
      (run replacedGauge).callsTo 0 =
        [⟨0, "Gauge", .drawDesignerImage⟩, ⟨0, "Gauge", .drawDesignerImage⟩, ⟨0, "Gauge", .release⟩] ∧
      (run replacedGauge).leftIn 0 = [2] ∧
      ((ofSteps (replacedGauge.take 5)).create "Gauge").2 = .error (.extensionNotFound "Gauge") := by
  obtain ⟨created, _⟩ := run_lifecycles replacedGauge
  have life : Lifecycle [.register (counting 0)] "Gauge" (counting 0) (replacedGauge.drop 2) 0 :=
    created [.register (counting 0)] "Gauge" (replacedGauge.drop 2) rfl
  have refused : (ofSteps (replacedGauge.take 5)).create "Gauge" = _ := created (replacedGauge.take 5) "Gauge" _ rfl
  exact ⟨life.held, life.ended, life.left, congrArg Prod.snd refused⟩

end Runs

end Session

end ReportEngine

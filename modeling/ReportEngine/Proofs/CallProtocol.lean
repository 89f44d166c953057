import ReportEngine.Report.Frames

/-! The calls that a custom item gets while it is driven. What has been called is played back to the item itself,
which then answers as it did; so it can be said of every call what was known when it was made, and the list of the
calls is the one that an item would keep of them. -/

namespace ReportEngine

variable {σ α : Type}

def Reply.failure (reply : Reply α) : Option ItemError :=
  match reply.result with
  | .ok _ => none
  | .error error => some error

/-- An item and the state of its job between two calls. -/
structure Situation (σ : Type) where
  guard : Guard σ
  cancelled : Bool

namespace Situation

/-- The item in another state, and its job cancelled if it was or is now. -/
def answered (situation : Situation σ) (state : σ) (cancels : Bool) : Situation σ :=
  ⟨{ situation.guard with state := state }, situation.cancelled || cancels⟩

/-- Makes a call on the protocol of the item, and tells what went wrong. The two calls of a turn are handed a token,
which tells whether the job is cancelled and is good for the time that a call may take. What is drawn on is blank. -/
def make (item : ItemDef) (settings : RenderSettings) (situation : Situation σ) (call : Call) :
    Situation σ × Option ItemError :=
  let guard := situation.guard
  let token : CancelToken := ⟨situation.cancelled, settings.extensionTimeout⟩
  let blank := Surface.transparent item.width item.height
  match call with
  | .isDataRegion => (situation.answered (guard.protocol.askDataRegion guard.state).1 false, none)
  | .setProperties properties =>
    let (after, reply) := guard.protocol.setProperties guard.state properties token
    (situation.answered after reply.cancelsJob, reply.failure)
  | .drawImage =>
    let (after, reply) := guard.protocol.drawImage guard.state blank token
    (situation.answered after reply.cancelsJob, reply.failure)
  | .drawDesignerImage =>
    let (after, result) := guard.protocol.drawDesignerImage guard.state blank
    (situation.answered after false, Reply.failure ⟨false, result⟩)
  | .release => (situation.answered (guard.protocol.release guard.state) false, none)

def after (item : ItemDef) (settings : RenderSettings) (situation : Situation σ) (calls : List Call) : Situation σ :=
  calls.foldl (fun situation call => (situation.make item settings call).1) situation

def failure (item : ItemDef) (settings : RenderSettings) (situation : Situation σ) (call : Call) : Option ItemError :=
  (situation.make item settings call).2

end Situation

/-- Items that keep a list of the calls that reach them. -/
structure ItemProtocol.Records (protocol : ItemProtocol σ) (log : σ → List Call) : Prop where
  askDataRegion : ∀ state, log (protocol.askDataRegion state).1 = log state ++ [.isDataRegion]
  setProperties : ∀ state properties token,
    log (protocol.setProperties state properties token).1 = log state ++ [.setProperties properties]
  drawImage : ∀ state surface token, log (protocol.drawImage state surface token).1 = log state ++ [.drawImage]
  drawDesignerImage : ∀ state surface, log (protocol.drawDesignerImage state surface).1 = log state ++ [.drawDesignerImage]
  release : ∀ state, log (protocol.release state) = log state ++ [.release]

theorem callToken_eq (cancelled : Bool) (settings : RenderSettings) :
    callToken cancelled settings = ⟨cancelled, settings.extensionTimeout⟩ := by
  unfold callToken
  split
  next timed => rw [timed]; rfl
  next untimed => rw [untimed]

section Playback

variable {item : ItemDef} {settings : RenderSettings} {situation : Situation σ} {before after : List Call}

namespace Situation

theorem after_append : situation.after item settings (before ++ after) =
    (situation.after item settings before).after item settings after :=
  List.foldl_append

/-- The functions of a guard make the calls that they are named after. -/
theorem after_asked (situation : Situation σ) :
    situation.after item settings [.isDataRegion] = ⟨situation.guard.askDataRegion.1, situation.cancelled⟩ := by
  change situation.answered _ false = _
  rw [answered, Bool.or_false]
  rfl

theorem make_setProperties (situation : Situation σ) (properties : Bindings) :
    situation.make item settings (.setProperties properties) =
      let (guard, reply) := situation.guard.setProperties properties (callToken situation.cancelled settings)
      (⟨guard, situation.cancelled || reply.cancelsJob⟩, reply.failure) := by
  rw [callToken_eq]
  rfl

theorem make_drawImage (situation : Situation σ) :
    situation.make item settings .drawImage =
      let (guard, reply) :=
        situation.guard.drawImage (.transparent item.width item.height) (callToken situation.cancelled settings)
      (⟨guard, situation.cancelled || reply.cancelsJob⟩, reply.failure) := by
  rw [callToken_eq]
  rfl

theorem after_released (situation : Situation σ) :
    situation.after item settings [.release] = ⟨situation.guard.release, situation.cancelled⟩ := by
  change situation.answered _ false = _
  rw [answered, Bool.or_false]
  rfl

theorem make_protocol (call : Call) : (situation.make item settings call).1.guard.protocol = situation.guard.protocol := by
  cases call with
  | isDataRegion => rfl
  | setProperties properties => rfl
  | drawImage => rfl
  | drawDesignerImage => rfl
  | release => rfl

/-- An item that keeps a list has the calls on it that were played: by induction on the calls. -/
theorem after_recorded {log : σ → List Call} (records : situation.guard.protocol.Records log) (calls : List Call) :
    log (situation.after item settings calls).guard.state = log situation.guard.state ++ calls := by
  induction calls generalizing situation with
  | nil => exact (List.append_nil _).symm
  | cons call rest ih =>
    have one : log (situation.make item settings call).1.guard.state = log situation.guard.state ++ [call] := by
      cases call with
      | isDataRegion => exact records.askDataRegion _
      | setProperties properties => exact records.setProperties _ properties _
      | drawImage => exact records.drawImage _ _ _
      | drawDesignerImage => exact records.drawDesignerImage _ _
      | release => exact records.release _
    have kept : (situation.make item settings call).1.guard.protocol = situation.guard.protocol := make_protocol call
    have later := ih (kept ▸ records)
    rw [one, List.append_assoc] at later
    exact later

end Situation

end Playback

namespace ItemDef

def configure (item : ItemDef) (context : Context) (settings : RenderSettings) (row : Row) : Call :=
  .setProperties (item.evaluate context row settings.errorMarker)

/-- The calls for one target. -/
def turnCalls (item : ItemDef) (context : Context) (settings : RenderSettings) (row : Row) : List Call :=
  [item.configure context settings row, .drawImage]

/-- What a property shows on a row: the value of its last definition, or the marker if that fails. -/
def shown? (item : ItemDef) (context : Context) (row : Row) (marker name : String) : Option Value :=
  (item.properties.reverse.find? (·.1 == name)).map fun (_, expr) =>
    match expr.value context row.fields with
    | .ok value => value
    | .error _ => .string marker

end ItemDef

/-- The calls of some turns in a proper order. They are those of the targets, one after the other, as far as
they go. None follows a failure, no turn begins after the job was cancelled, and nothing else ends them. -/
structure ProperTurns (item : ItemDef) (context : Context) (settings : RenderSettings) (start : Situation σ)
    (targets : List Row) (calls : List Call) : Prop where
  inOrder : calls <+: targets.flatMap (item.turnCalls context settings)
  endsAtFailure : ∀ before call after, calls = before ++ call :: after →
    (start.after item settings before).failure item settings call ≠ none → after = []
  uncancelled : ∀ before properties after, calls = before ++ .setProperties properties :: after →
    (start.after item settings before).cancelled = false
  goesOn : calls = targets.flatMap (item.turnCalls context settings) ∨
    (∃ before call, calls = before ++ [call] ∧ (start.after item settings before).failure item settings call ≠ none) ∨
    ∃ done next rest, targets = done ++ next :: rest ∧ calls = done.flatMap (item.turnCalls context settings) ∧
      (start.after item settings calls).cancelled = true

section Turns

variable {item : ItemDef} {context : Context} {settings : RenderSettings} {start : Situation σ} {row : Row}
  {targets : List Row} {calls : List Call}

namespace ProperTurns

theorem nil : ProperTurns item context settings start [] [] where
  inOrder := List.prefix_rfl
  endsAtFailure before call after same := absurd same (by simp)
  uncancelled before properties after same := absurd same (by simp)
  goesOn := .inl rfl

theorem cancelled (stopped : start.cancelled = true) : ProperTurns item context settings start (row :: targets) [] where
  inOrder := List.nil_prefix
  endsAtFailure before call after same := absurd same (by simp)
  uncancelled before properties after same := absurd same (by simp)
  goesOn := .inr (.inr ⟨[], row, targets, rfl, rfl, stopped⟩)

/-- The item did not take its properties. -/
theorem refused (running : start.cancelled = false)
    (failed : start.failure item settings (item.configure context settings row) ≠ none) :
    ProperTurns item context settings start (row :: targets) [item.configure context settings row] where
  inOrder := List.cons_prefix_cons.mpr ⟨rfl, List.nil_prefix⟩
  endsAtFailure before call after same _ := by
    cases before with
    | nil => exact (List.cons.inj same).2.symm
    | cons first before => exact absurd (List.cons.inj same).2 (by simp)
  uncancelled before properties after same := by
    cases before with
    | nil => exact running
    | cons first before => exact absurd (List.cons.inj same).2 (by simp)
  goesOn := .inr (.inl ⟨[], _, rfl, failed⟩)

/-- The item took its properties, and what follows depends on its drawing. -/
theorem turn (running : start.cancelled = false)
    (taken : start.failure item settings (item.configure context settings row) = none)
    (drawn : (start.after item settings [item.configure context settings row]).failure
      item settings .drawImage = none)
    (later : ProperTurns item context settings (start.after item settings (item.turnCalls context settings row)) targets calls) :
    ProperTurns item context settings start (row :: targets) (item.turnCalls context settings row ++ calls) where
  inOrder := (List.prefix_append_right_inj _).mpr later.inOrder
  endsAtFailure before call after same failed := by
    match before with
    | [] =>
      cases same
      exact absurd taken failed
    | [first] =>
      cases same
      exact absurd drawn failed
    | first :: second :: before =>
      cases same
      exact later.endsAtFailure before call after rfl failed
  uncancelled before properties after same := by
    match before with
    | [] => exact running
    | [first] => cases same
    | first :: second :: before =>
      cases same
      exact later.uncancelled before properties after rfl
  goesOn := by
    rcases later.goesOn with whole | ⟨before, call, same, failed⟩ | ⟨done, next, rest, same, made, stopped⟩
    · exact .inl (by rw [whole, List.flatMap_cons])
    · refine .inr (.inl ⟨item.turnCalls context settings row ++ before, call, ?_, failed⟩)
      rw [same, List.append_assoc]
    · refine .inr (.inr ⟨row :: done, next, rest, ?_, ?_, stopped⟩)
      · rw [same, List.cons_append]
      · rw [made, List.flatMap_cons]

theorem failed (running : start.cancelled = false)
    (taken : start.failure item settings (item.configure context settings row) = none)
    (failed : (start.after item settings [item.configure context settings row]).failure
      item settings .drawImage ≠ none) :
    ProperTurns item context settings start (row :: targets) (item.turnCalls context settings row) where
  inOrder := List.prefix_append _ _
  endsAtFailure before call after same refused := by
    match before with
    | [] =>
      cases same
      exact absurd taken refused
    | [first] =>
      cases same
      rfl
    | first :: second :: before => exact absurd (List.cons.inj (List.cons.inj same).2).2 (by simp)
  uncancelled before properties after same := by
    match before with
    | [] => exact running
    | [first] => cases same
    | first :: second :: before => exact absurd (List.cons.inj (List.cons.inj same).2).2 (by simp)
  goesOn := .inr (.inl ⟨[_], _, rfl, failed⟩)

theorem only_turns (proper : ProperTurns item context settings start targets calls) :
    ∀ call ∈ calls, call ≠ .isDataRegion ∧ call ≠ .release := by
  intro call member
  obtain ⟨row, _, ofTurn⟩ := List.mem_flatMap.mp (proper.inOrder.subset member)
  simp only [ItemDef.turnCalls, ItemDef.configure, List.mem_cons, List.not_mem_nil, or_false] at ofTurn
  rcases ofTurn with rfl | rfl
  · exact ⟨nofun, nofun⟩
  · exact ⟨nofun, nofun⟩

end ProperTurns

/-- The two calls of a turn are handed one token. -/
theorem callToken_cancelled (before now : Bool) :
    { callToken before settings with cancelled := now } = callToken now settings := by
  rw [callToken_eq, callToken_eq]

theorem Guard.turn_cases (guard : Guard σ) (item : ItemDef) (properties : Bindings) (cancelled : Bool) (settings : RenderSettings) :
    let start : Situation σ := ⟨guard, cancelled⟩
    let turn := guard.turn item properties cancelled settings
    start.after item settings turn.calls = ⟨turn.guard, turn.cancelled⟩ ∧
      ((∃ error, start.failure item settings (.setProperties properties) = some error ∧ turn.calls = [.setProperties properties] ∧
          turn.result = .error error) ∨
        (start.failure item settings (.setProperties properties) = none ∧ turn.calls = [.setProperties properties, .drawImage] ∧
          (start.after item settings [.setProperties properties]).failure item settings .drawImage =
            Reply.failure ⟨turn.cancelled, turn.result⟩)) := by
  intro start turn
  cases configured : guard.setProperties properties (callToken cancelled settings) with
  | mk between reply =>
    have made : start.make item settings (.setProperties properties) = (⟨between, cancelled || reply.cancelsJob⟩, reply.failure) := by
      simp only [Situation.make_setProperties, start, configured]
    obtain ⟨cancels, result⟩ := reply
    cases result with
    | error error =>
      have turned : turn = ⟨between, .error error, [.setProperties properties], cancelled || cancels⟩ := by
        simp only [turn, Guard.turn, configured]
      rw [turned]
      refine ⟨congrArg Prod.fst made, .inl ⟨error, ?_, rfl, rfl⟩⟩
      exact congrArg Prod.snd made
    | ok _ =>
      cases drew : between.drawImage (.transparent item.width item.height) (callToken (cancelled || cancels) settings) with
      | mk drawn reply =>
        have turned : turn = ⟨drawn, reply.result, [.setProperties properties, .drawImage], (cancelled || cancels) || reply.cancelsJob⟩ := by
          simp only [turn, Guard.turn, configured, callToken_cancelled, drew]
        have madeToo : Situation.make item settings ⟨between, cancelled || cancels⟩ .drawImage =
            (⟨drawn, (cancelled || cancels) || reply.cancelsJob⟩, reply.failure) := by
          simp only [Situation.make_drawImage, drew]
        have situation : start.after item settings [.setProperties properties] = ⟨between, cancelled || cancels⟩ :=
          congrArg Prod.fst made
        rw [turned, situation]
        refine ⟨?_, .inr ⟨congrArg Prod.snd made, rfl, congrArg Prod.snd madeToo⟩⟩
        change ((start.make item settings (.setProperties properties)).1.make item settings .drawImage).1 = _
        rw [made, madeToo]

/-- The turns over some targets make the calls that they list, and no other. -/
theorem Guard.after_turns (guard : Guard σ) (item : ItemDef) (context : Context) (settings : RenderSettings) (cancelled : Bool)
    (targets : List Row) :
    let start : Situation σ := ⟨guard, cancelled⟩
    let turns := guard.turns item context settings cancelled targets
    start.after item settings turns.calls = ⟨turns.guard, turns.cancelled⟩ := by
  induction targets generalizing guard cancelled with
  | nil => rfl
  | cons row rest ih =>
    rw [Guard.turns]
    by_cases stopped : cancelled = true
    · rw [if_pos stopped]
      rfl
    · rw [if_neg stopped]
      have situation := (guard.turn_cases item (item.evaluate context row settings.errorMarker) cancelled settings).1
      simp only at situation ⊢
      split
      next => rw [Situation.after_append, situation]; exact ih _ _
      next =>
        split
        next => exact situation
        next => exact situation

/-- Whatever an item answers, its turns are proper: by induction on the targets, one turn at a time. -/
theorem Guard.turns_proper (guard : Guard σ) (item : ItemDef) (context : Context) (settings : RenderSettings) (cancelled : Bool)
    (targets : List Row) :
    ProperTurns item context settings (⟨guard, cancelled⟩ : Situation σ) targets
      (guard.turns item context settings cancelled targets).calls := by
  induction targets generalizing guard cancelled with
  | nil => exact .nil
  | cons row rest ih =>
    rw [Guard.turns]
    by_cases stopped : cancelled = true
    · rw [if_pos stopped]
      exact .cancelled stopped
    · rw [if_neg stopped]
      have running : cancelled = false := Bool.not_eq_true _ ▸ stopped
      obtain ⟨situation, outcome⟩ := guard.turn_cases item (item.evaluate context row settings.errorMarker) cancelled settings
      cases turned : guard.turn item (item.evaluate context row settings.errorMarker) cancelled settings with
      | mk after result calls nowCancelled =>
        simp only [turned] at situation outcome ⊢
        rcases outcome with ⟨error, refused, rfl, rfl⟩ | ⟨taken, rfl, drawn⟩
        · have proper : ProperTurns item context settings (⟨guard, cancelled⟩ : Situation σ) (row :: rest)
              [item.configure context settings row] := .refused running (refused ▸ nofun)
          simp only
          split
          next => exact proper
          next => exact proper
        · cases result with
          | ok surface =>
            have later := ih after nowCancelled
            rw [← situation] at later
            exact .turn running taken drawn later
          | error error =>
            have proper : ProperTurns item context settings (⟨guard, cancelled⟩ : Situation σ) (row :: rest)
                (item.turnCalls context settings row) := .failed running taken (drawn ▸ nofun)
            simp only
            split
            next => exact proper
            next => exact proper

end Turns

/-- Of several values bound to a name the last counts. -/
theorem Bindings.get?_ofList (pairs : List (String × Value)) (name : String) :
    (Bindings.ofList pairs).get? name = (pairs.reverse.find? (·.1 == name)).map Prod.snd := by
  have bound : ∀ held : Bindings, (pairs.foldl (fun held (pair : String × Value) => held.insert pair.1 pair.2) held).get? name =
      ((pairs.reverse.find? (·.1 == name)).map Prod.snd).or (held.get? name) := by
    induction pairs with
    | nil => exact fun _ => rfl
    | cons pair rest ih =>
      intro held
      rw [List.foldl_cons, ih, List.reverse_cons, List.find?_append, Bindings.get?_insert]
      cases rest.reverse.find? (·.1 == name) with
      | some found => rfl
      | none =>
        by_cases same : name = pair.1
        · simp [same]
        · simp [same, Ne.symm same]
  have whole := bound .empty
  rw [Bindings.get?_empty, Option.or_none] at whole
  exact whole

theorem ItemDef.get?_evaluate (item : ItemDef) (context : Context) (row : Row) (marker name : String) :
    (item.evaluate context row marker).get? name = item.shown? context row marker name := by
  rw [ItemDef.evaluate, Bindings.get?_ofList, ItemDef.shown?, ← List.map_reverse, List.find?_map, Option.map_map]
  congr 1
  · funext property
    simp only [Function.comp_apply]
    cases property.2.value context row.fields with
    | ok value => rfl
    | error error => rfl
  · congr 1
    funext property
    simp only [Function.comp_apply]
    cases property.2.value context row.fields with
    | ok value => rfl
    | error error => rfl

namespace ItemDef

theorem drive_of_refused (item : ItemDef) (context : Context) (rows : List Row) {registry : Registry σ} (settings : RenderSettings)
    {error : EngineError} (refused : registry.create item.typeName = .error error) :
    item.drive context rows registry settings =
      ⟨.ok ⟨item.name, [.failed none (error.message?.getD "")]⟩, [], context.cancelled, none⟩ := by
  simp only [drive, refused]

theorem drive_of_created (item : ItemDef) (context : Context) (rows : List Row) {registry : Registry σ} (settings : RenderSettings)
    {guard : Guard σ} (created : registry.create item.typeName = .ok guard) :
    let turns := guard.askDataRegion.1.turns item context settings context.cancelled
      (targets rows (guard.protocol.isDataRegion guard.state))
    item.drive context rows registry settings =
      ⟨turns.frames.map (ItemOutput.mk item.name), .isDataRegion :: turns.calls ++ [.release], turns.cancelled,
        some turns.guard.release.state⟩ := by
  simp only [drive, created]
  rfl

/-- A driven item is left as the calls that are listed leave it, and so is its job. -/
theorem drive_left (item : ItemDef) (context : Context) (rows : List Row) {registry : Registry σ} (settings : RenderSettings)
    {guard : Guard σ} (created : registry.create item.typeName = .ok guard) :
    let drive := item.drive context rows registry settings
    let played := (⟨guard, context.cancelled⟩ : Situation σ).after item settings drive.calls
    drive.left = some played.guard.state ∧ drive.cancelled = played.cancelled := by
  let start : Situation σ := ⟨guard, context.cancelled⟩
  let turns := guard.askDataRegion.1.turns item context settings context.cancelled
    (targets rows (guard.protocol.isDataRegion guard.state))
  have played : start.after item settings (.isDataRegion :: turns.calls ++ [.release]) =
      ⟨turns.guard.release, turns.cancelled⟩ := by
    calc start.after item settings ([.isDataRegion] ++ turns.calls ++ [.release])
      _ = ((start.after item settings [.isDataRegion]).after item settings turns.calls).after item settings [.release] := by
        rw [Situation.after_append, Situation.after_append]
      _ = (⟨turns.guard, turns.cancelled⟩ : Situation σ).after item settings [.release] := by
        rw [Situation.after_asked, Guard.after_turns]
      _ = ⟨turns.guard.release, turns.cancelled⟩ := Situation.after_released _
  simp only [item.drive_of_created context rows settings created]
  rw [played]
  exact ⟨rfl, rfl⟩

/-- Items of a data region that keep a list of their calls, and do not draw twice. -/
def recorder : Extension (List Call) where
  uuid := .nil
  version := .release 0 1 0
  name := "Recorder"
  description := "Keeps its calls"
  fresh := []
  protocol :=
    { askDataRegion := fun calls => (calls ++ [.isDataRegion], true)
      setProperties := fun calls properties _ => (calls ++ [.setProperties properties], ⟨false, .ok ()⟩)
      drawImage := fun calls surface _ =>
        (calls ++ [.drawImage], ⟨false, if .drawImage ∈ calls then .error (.failed "full") else .ok surface⟩)
      drawDesignerImage := fun calls surface => (calls ++ [.drawDesignerImage], .ok surface)
      markup := fun _ => ""
      release := fun calls => calls ++ [.release] }

end ItemDef

end ReportEngine

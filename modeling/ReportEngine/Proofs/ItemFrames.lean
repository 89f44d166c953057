import ReportEngine.Proofs.CallProtocol

/-! What driving a custom item leaves in the output. The calls that were made are played back to the item, so that
each image is the one drawn for its target, and a cancelled answer is told from a failure by the job's state then. -/

namespace ReportEngine

variable {σ : Type}

namespace Situation

/-- What the item draws on a fresh surface when it is asked to, unless that fails. -/
def picture? (item : ItemDef) (settings : RenderSettings) (situation : Situation σ) : Option Surface :=
  let guard := situation.guard
  let (_, reply) := guard.protocol.drawImage guard.state (.transparent item.width item.height)
    ⟨situation.cancelled, settings.extensionTimeout⟩
  reply.result.toOption

/-- None of some calls, made one after the other, fails. -/
def Smooth (item : ItemDef) (settings : RenderSettings) (situation : Situation σ) (calls : List Call) : Prop :=
  ∀ before call after, calls = before ++ call :: after →
    (situation.after item settings before).failure item settings call = none

/-- The last of some calls fails. -/
def EndsFailing (item : ItemDef) (settings : RenderSettings) (situation : Situation σ) (calls : List Call)
    (error : ItemError) : Prop :=
  ∃ before call, calls = before ++ [call] ∧ (situation.after item settings before).failure item settings call = some error

variable {item : ItemDef} {settings : RenderSettings} {situation : Situation σ} {before after calls : List Call}

theorem answered_keeps_cancelled (state : σ) (cancels : Bool) (cancelled : situation.cancelled = true) :
    (situation.answered state cancels).cancelled = true :=
  Bool.or_eq_true_iff.mpr (.inl cancelled)

theorem make_keeps_cancelled (call : Call) (cancelled : situation.cancelled = true) :
    (situation.make item settings call).1.cancelled = true := by
  cases call with
  | isDataRegion => exact answered_keeps_cancelled _ _ cancelled
  | setProperties properties => exact answered_keeps_cancelled _ _ cancelled
  | drawImage => exact answered_keeps_cancelled _ _ cancelled
  | drawDesignerImage => exact answered_keeps_cancelled _ _ cancelled
  | release => exact answered_keeps_cancelled _ _ cancelled

/-- No call takes a cancellation back. -/
theorem after_keeps_cancelled (calls : List Call) (cancelled : situation.cancelled = true) :
    (situation.after item settings calls).cancelled = true := by
  induction calls generalizing situation with
  | nil => exact cancelled
  | cons call rest ih => exact ih (make_keeps_cancelled call cancelled)

theorem Smooth.not_endsFailing (smooth : situation.Smooth item settings calls) {error : ItemError} :
    ¬ situation.EndsFailing item settings calls error := by
  rintro ⟨before, call, same, failed⟩
  rw [smooth before call [] same] at failed
  cases failed

theorem EndsFailing.after_append {error : ItemError}
    (failing : (situation.after item settings before).EndsFailing item settings after error) :
    situation.EndsFailing item settings (before ++ after) error := by
  obtain ⟨between, call, same, failed⟩ := failing
  refine ⟨before ++ between, call, ?_, ?_⟩
  · rw [same, List.append_assoc]
  · rw [Situation.after_append]
    exact failed

theorem EndsFailing.unique {first second : ItemError} (one : situation.EndsFailing item settings calls first)
    (other : situation.EndsFailing item settings calls second) : first = second := by
  obtain ⟨before, call, same, failed⟩ := one
  obtain ⟨before', call', same', failed'⟩ := other
  obtain ⟨rfl, last⟩ := List.append_inj' (same.symm.trans same') rfl
  cases last
  exact Option.some.inj (failed.symm.trans failed')

end Situation

/-- Targets that were processed without failure, one after the other, and the image that each left. -/
inductive Processed (item : ItemDef) (context : Context) (settings : RenderSettings) :
    Situation σ → List Row → List ItemFrame → Prop where
  | nil {start} : Processed item context settings start [] []
  | cons {start row rows surface images} (running : start.cancelled = false)
      (taken : start.failure item settings (item.configure context settings row) = none)
      (drawn : (start.after item settings [item.configure context settings row]).picture? item settings = some surface)
      (later : Processed item context settings (start.after item settings (item.turnCalls context settings row)) rows images) :
      Processed item context settings start (row :: rows) (.image row.position surface :: images)

/-- The calls for a target up to the one that failed. -/
inductive FailsOn (item : ItemDef) (context : Context) (settings : RenderSettings) (start : Situation σ) (row : Row) :
    List Call → ItemError → Prop where
  | configuring {error} (running : start.cancelled = false)
      (refused : start.failure item settings (item.configure context settings row) = some error) :
      FailsOn item context settings start row [item.configure context settings row] error
  | drawing {error} (running : start.cancelled = false)
      (taken : start.failure item settings (item.configure context settings row) = none)
      (failed : (start.after item settings [item.configure context settings row]).failure item settings .drawImage = some error) :
      FailsOn item context settings start row (item.turnCalls context settings row) error

/-- How the turns over some targets end: the calls made, and what comes of them. -/
inductive Ending (item : ItemDef) (context : Context) (settings : RenderSettings) (start : Situation σ) (targets : List Row) :
    List Call → Except EngineError (List ItemFrame) → Prop where
  /-- Every target was processed. -/
  | finished {images} (processed : Processed item context settings start targets images) :
      Ending item context settings start targets (targets.flatMap (item.turnCalls context settings)) (.ok images)
  /-- The job was found cancelled when a target was about to start. -/
  | stopped (done : List Row) (next : Row) (rest : List Row) {images} (split : targets = done ++ next :: rest)
      (processed : Processed item context settings start done images)
      (cancelled : (start.after item settings (done.flatMap (item.turnCalls context settings))).cancelled = true) :
      Ending item context settings start targets (done.flatMap (item.turnCalls context settings)) (.error .cancelled)
  /-- A call answered that it was cancelled, and so was the job. -/
  | abandoned (done : List Row) (next : Row) (rest : List Row) {images tried} (split : targets = done ++ next :: rest)
      (processed : Processed item context settings start done images)
      (failing : FailsOn item context settings (start.after item settings (done.flatMap (item.turnCalls context settings)))
        next tried .cancelled)
      (cancelled : (start.after item settings
        (done.flatMap (item.turnCalls context settings) ++ tried)).cancelled = true) :
      Ending item context settings start targets (done.flatMap (item.turnCalls context settings) ++ tried) (.error .cancelled)
  /-- A call failed, or answered that it was cancelled although the job was not. -/
  | failed (done : List Row) (next : Row) (rest : List Row) {images tried error} (split : targets = done ++ next :: rest)
      (processed : Processed item context settings start done images)
      (failing : FailsOn item context settings (start.after item settings (done.flatMap (item.turnCalls context settings)))
        next tried error)
      (proper : error = .cancelled → (start.after item settings
        (done.flatMap (item.turnCalls context settings) ++ tried)).cancelled = false) :
      Ending item context settings start targets (done.flatMap (item.turnCalls context settings) ++ tried)
        (.ok (images ++ [.failed next.position ("Custom report item '" ++ item.name ++ "' failed: " ++ error.message)]))

section Turns

variable {item : ItemDef} {context : Context} {settings : RenderSettings} {start : Situation σ} {row : Row}
  {targets : List Row} {calls tried : List Call} {images : List ItemFrame}
  {frames : Except EngineError (List ItemFrame)} {error : ItemError} {surface : Surface}

/-- A guard has the item itself draw. -/
theorem Situation.picture?_eq_some : start.picture? item settings = some surface ↔
    (start.guard.drawImage (.transparent item.width item.height) (callToken start.cancelled settings)).2.result =
      .ok surface := by
  rw [callToken_eq]
  exact toOption_eq_some

theorem Situation.failure_of_picture? (drawn : start.picture? item settings = some surface) :
    start.failure item settings .drawImage = none := by
  rw [Situation.picture?_eq_some] at drawn
  simp only [Situation.failure, Situation.make_drawImage, Reply.failure, drawn]

theorem Processed.smooth (processed : Processed item context settings start targets images) :
    start.Smooth item settings (targets.flatMap (item.turnCalls context settings)) := by
  induction processed with
  | nil => exact fun before call after same => absurd same (by simp)
  | cons running taken drawn later ih =>
    intro before call after same
    match before with
    | [] =>
      cases same
      exact taken
    | [first] =>
      cases same
      exact Situation.failure_of_picture? drawn
    | first :: second :: before =>
      have one := List.cons.inj same
      have two := List.cons.inj one.2
      rw [← one.1, ← two.1]
      exact ih before call after two.2

theorem FailsOn.endsFailing (failing : FailsOn item context settings start row tried error) :
    start.EndsFailing item settings tried error := by
  cases failing with
  | configuring running refused => exact ⟨[], _, rfl, refused⟩
  | drawing running taken failed => exact ⟨[_], _, rfl, failed⟩

theorem length_turnCalls (targets : List Row) :
    (targets.flatMap (item.turnCalls context settings)).length = 2 * targets.length := by
  induction targets with
  | nil => rfl
  | cons row rest ih =>
    rw [List.flatMap_cons, List.length_append, ih, List.length_cons]
    simp only [ItemDef.turnCalls, List.length_cons, List.length_nil]
    omega

namespace Ending

/-- A target was processed, and what follows it ends in some way. -/
theorem turn (running : start.cancelled = false)
    (taken : start.failure item settings (item.configure context settings row) = none)
    (drawn : (start.after item settings [item.configure context settings row]).picture? item settings = some surface)
    (later : Ending item context settings (start.after item settings (item.turnCalls context settings row)) targets calls frames) :
    Ending item context settings start (row :: targets) (item.turnCalls context settings row ++ calls)
      (frames.map (.image row.position surface :: ·)) := by
  cases later with
  | finished processed => exact .finished (.cons running taken drawn processed)
  | stopped done next rest split processed cancelled =>
    rw [← List.flatMap_cons]
    refine .stopped (row :: done) next rest (congrArg (row :: ·) split) (.cons running taken drawn processed) ?_
    rw [List.flatMap_cons, Situation.after_append]
    exact cancelled
  | abandoned done next rest split processed failing cancelled =>
    rw [← List.append_assoc, ← List.flatMap_cons]
    refine .abandoned (row :: done) next rest (congrArg (row :: ·) split) (.cons running taken drawn processed) ?_ ?_
    · rw [List.flatMap_cons, Situation.after_append]
      exact failing
    · rw [List.flatMap_cons, List.append_assoc, Situation.after_append]
      exact cancelled
  | failed done next rest split processed failing proper =>
    rw [← List.append_assoc, ← List.flatMap_cons]
    refine .failed (row :: done) next rest (congrArg (row :: ·) split) (.cons running taken drawn processed) ?_ ?_
    · rw [List.flatMap_cons, Situation.after_append]
      exact failing
    · rw [List.flatMap_cons, List.append_assoc, Situation.after_append]
      exact proper

theorem of_failsOn (targets : List Row) (failing : FailsOn item context settings start row tried error) :
    Ending item context settings start (row :: targets) tried
      (if error = .cancelled ∧ (start.after item settings tried).cancelled = true then .error .cancelled
      else .ok [.failed row.position ("Custom report item '" ++ item.name ++ "' failed: " ++ error.message)]) := by
  by_cases given : error = .cancelled ∧ (start.after item settings tried).cancelled = true
  · rw [if_pos given]
    obtain ⟨rfl, cancelled⟩ := given
    exact .abandoned [] row targets rfl .nil failing cancelled
  · rw [if_neg given]
    exact .failed [] row targets rfl .nil failing fun same => Bool.not_eq_true _ ▸ fun cancelled => given ⟨same, cancelled⟩

/-- Only cancellation keeps an item from leaving frames, and then the job is cancelled. -/
theorem error_cancelled (ending : Ending item context settings start targets calls frames) {problem : EngineError}
    (same : frames = .error problem) : problem = .cancelled ∧ (start.after item settings calls).cancelled = true := by
  cases ending with
  | finished processed => cases same
  | stopped done next rest split processed cancelled =>
    cases same
    exact ⟨rfl, cancelled⟩
  | abandoned done next rest split processed failing cancelled =>
    cases same
    exact ⟨rfl, cancelled⟩
  | failed done next rest split processed failing proper => cases same

/-- Two ways to be cancelled: while a target is about to start, none of the calls before it having failed, and by a
call that answers so. -/
theorem eq_cancelled_iff (ending : Ending item context settings start targets calls frames) :
    frames = .error .cancelled ↔ (start.after item settings calls).cancelled = true ∧
      (start.Smooth item settings calls ∧
          (∃ done next rest, targets = done ++ next :: rest ∧ calls = done.flatMap (item.turnCalls context settings)) ∨
        start.EndsFailing item settings calls .cancelled) := by
  cases ending with
  | finished processed =>
    refine ⟨nofun, ?_⟩
    -- No target was about to start: every target got its two calls, so fewer targets make fewer calls.
    rintro ⟨_, ⟨_, done, next, rest, split, made⟩ | failing⟩
    · have count := congrArg List.length made
      rw [length_turnCalls, length_turnCalls, split, List.length_append, List.length_cons] at count
      omega
    · exact absurd failing processed.smooth.not_endsFailing
  | stopped done next rest split processed cancelled =>
    exact ⟨fun _ => ⟨cancelled, .inl ⟨processed.smooth, done, next, rest, split, rfl⟩⟩, fun _ => rfl⟩
  | abandoned done next rest split processed failing cancelled =>
    exact ⟨fun _ => ⟨cancelled, .inr failing.endsFailing.after_append⟩, fun _ => rfl⟩
  | failed done next rest split processed failing proper =>
    refine ⟨nofun, ?_⟩
    have ends := failing.endsFailing.after_append
    rintro ⟨cancelled, ⟨smooth, _⟩ | answered⟩
    · exact absurd ends smooth.not_endsFailing
    · rw [proper (ends.unique answered)] at cancelled
      cases cancelled

/-- If the job is not cancelled, there is an image of every target processed, and a last frame for a failure. -/
theorem frames_eq (ending : Ending item context settings start targets calls frames) (left : frames ≠ .error .cancelled) :
    ∃ done images, Processed item context settings start done images ∧
      (targets = done ∧ start.Smooth item settings calls ∧ frames = .ok images ∨
        ∃ next rest tried error, targets = done ++ next :: rest ∧
          calls = done.flatMap (item.turnCalls context settings) ++ tried ∧
          FailsOn item context settings (start.after item settings (done.flatMap (item.turnCalls context settings)))
            next tried error ∧
          frames = .ok (images ++
            [.failed next.position ("Custom report item '" ++ item.name ++ "' failed: " ++ error.message)])) := by
  cases ending with
  | finished processed => exact ⟨targets, _, processed, .inl ⟨rfl, processed.smooth, rfl⟩⟩
  | stopped done next rest split processed cancelled => exact absurd rfl left
  | abandoned done next rest split processed failing cancelled => exact absurd rfl left
  | failed done next rest split processed failing proper =>
    exact ⟨done, _, processed, .inr ⟨next, rest, _, _, split, rfl, failing, rfl⟩⟩

end Ending

namespace Guard

theorem turn_picture (guard : Guard σ) (item : ItemDef) (properties : Bindings) (cancelled : Bool)
    (settings : RenderSettings) (drew : (guard.turn item properties cancelled settings).result = .ok surface) :
    ((⟨guard, cancelled⟩ : Situation σ).after item settings [.setProperties properties]).picture? item settings =
      some surface := by
  cases configured : guard.setProperties properties (callToken cancelled settings) with
  | mk between reply =>
    obtain ⟨cancels, result⟩ := reply
    simp only [turn, configured, callToken_cancelled] at drew
    cases result with
    | error error => cases drew
    | ok _ =>
      change (Situation.make item settings ⟨guard, cancelled⟩ (.setProperties properties)).1.picture? item settings = _
      simp only [Situation.make_setProperties, configured]
      exact Situation.picture?_eq_some.mpr drew

/-- The turn for a target of a job that is not cancelled. -/
def turnFor (item : ItemDef) (context : Context) (settings : RenderSettings) (guard : Guard σ) (row : Row) : Turn σ :=
  guard.turn item (item.evaluate context row settings.errorMarker) false settings

/-- A turn fails at one of its calls, or the target is processed. -/
theorem turnFor_cases (guard : Guard σ) (item : ItemDef) (context : Context) (settings : RenderSettings) (row : Row) :
    let start : Situation σ := ⟨guard, false⟩
    let turn := guard.turnFor item context settings row
    start.after item settings turn.calls = ⟨turn.guard, turn.cancelled⟩ ∧
      ((∃ error, turn.result = .error error ∧ FailsOn item context settings start row turn.calls error) ∨
        ∃ surface, turn.result = .ok surface ∧ turn.calls = item.turnCalls context settings row ∧
          start.failure item settings (item.configure context settings row) = none ∧
          (start.after item settings [item.configure context settings row]).picture? item settings = some surface) := by
  intro start turn
  obtain ⟨situation, outcome⟩ := guard.turn_cases item (item.evaluate context row settings.errorMarker) false settings
  refine ⟨situation, ?_⟩
  rcases outcome with ⟨error, refused, made, answer⟩ | ⟨taken, made, drawn⟩
  · refine .inl ⟨error, answer, ?_⟩
    rw [show turn.calls = [item.configure context settings row] from made]
    exact .configuring rfl refused
  · cases answer : turn.result with
    | error error =>
      refine .inl ⟨error, rfl, ?_⟩
      rw [show turn.calls = item.turnCalls context settings row from made]
      refine .drawing rfl taken (drawn.trans ?_)
      exact congrArg (fun result => Reply.failure ⟨turn.cancelled, result⟩) answer
    | ok surface => exact .inr ⟨surface, rfl, made, taken, guard.turn_picture item _ false settings answer⟩

theorem turns_of_failed (guard : Guard σ) (targets : List Row)
    (failed : (guard.turnFor item context settings row).result = .error error) :
    let turn := guard.turnFor item context settings row
    guard.turns item context settings false (row :: targets) =
      ⟨turn.guard, if error = .cancelled ∧ turn.cancelled = true then .error .cancelled
        else .ok [.failed row.position ("Custom report item '" ++ item.name ++ "' failed: " ++ error.message)],
        turn.calls, turn.cancelled⟩ := by
  rw [turnFor] at failed
  rw [turns, if_neg Bool.false_ne_true]
  simp only [failed]
  split
  next given => rw [turnFor, if_pos given]
  next given => rw [turnFor, if_neg given]; rfl

theorem turns_of_drawn (guard : Guard σ) (targets : List Row)
    (drawn : (guard.turnFor item context settings row).result = .ok surface) :
    let turn := guard.turnFor item context settings row
    let later := turn.guard.turns item context settings turn.cancelled targets
    guard.turns item context settings false (row :: targets) =
      ⟨later.guard, later.frames.map (.image row.position surface :: ·), turn.calls ++ later.calls, later.cancelled⟩ := by
  rw [turnFor] at drawn
  rw [turns, if_neg Bool.false_ne_true]
  simp only [drawn, turnFor]

/-- Whatever an item answers, its turns end in one of the four ways: by induction on the targets. -/
theorem turns_ending (guard : Guard σ) (item : ItemDef) (context : Context) (settings : RenderSettings)
    (cancelled : Bool) (targets : List Row) :
    let turns := guard.turns item context settings cancelled targets
    Ending item context settings (⟨guard, cancelled⟩ : Situation σ) targets turns.calls turns.frames := by
  induction targets generalizing guard cancelled with
  | nil => exact .finished .nil
  | cons row rest ih =>
    cases cancelled with
    | true =>
      rw [turns, if_pos rfl]
      exact .stopped [] row rest rfl .nil rfl
    | false =>
      obtain ⟨situation, outcome⟩ := guard.turnFor_cases item context settings row
      rcases outcome with ⟨error, answer, failing⟩ | ⟨surface, answer, made, taken, drawn⟩
      · have ending := Ending.of_failsOn rest failing
        rw [situation] at ending
        rw [guard.turns_of_failed rest answer]
        exact ending
      · have later := ih (guard.turnFor item context settings row).guard (guard.turnFor item context settings row).cancelled
        rw [← situation, made] at later
        rw [guard.turns_of_drawn rest answer, made]
        exact .turn rfl taken drawn later

end Guard

end Turns

namespace ItemDef

/-- An item that could be created is driven to one of the four ends, and hands on whether the job is cancelled by then. -/
theorem drive_ending {item : ItemDef} (context : Context) (rows : List Row) {registry : Registry σ}
    (settings : RenderSettings) {guard : Guard σ} (created : registry.create item.typeName = .ok guard) :
    let drive := item.drive context rows registry settings
    let asked := (⟨guard, context.cancelled⟩ : Situation σ).after item settings [.isDataRegion]
    ∃ calls frames,
      Ending item context settings asked (targets rows (guard.protocol.isDataRegion guard.state)) calls frames ∧
      drive.output = frames.map (ItemOutput.mk item.name) ∧ drive.calls = .isDataRegion :: calls ++ [.release] ∧
      drive.cancelled = (asked.after item settings calls).cancelled := by
  have ending := guard.askDataRegion.1.turns_ending item context settings context.cancelled
    (targets rows (guard.protocol.isDataRegion guard.state))
  simp only [item.drive_of_created context rows settings created, Situation.after_asked]
  exact ⟨_, _, ending, rfl, rfl, by rw [Guard.after_turns]⟩

end ItemDef

end ReportEngine

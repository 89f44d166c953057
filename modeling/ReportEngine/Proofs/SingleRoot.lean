import ReportEngine.Proofs.ElementNesting

/-! What a text must be to be read as an item: one element with layout around it. Where the builder stands outside all
elements it takes nothing but layout and that element, and it is never asked to close an element that it has not opened. -/

namespace ReportEngine

namespace Markup

/-- What may stand outside the element of an item: blank text, comments, instructions and declarations. -/
def Event.isLayout : Event → Bool
  | .text content | .cdata content => content.all Text.isBlank
  | .other => true
  | .start _ | .empty _ | .finish => false

/-- Nothing but the end tag of the innermost open element is read as an end tag. -/
theorem step_unmatched {opened : List (List Char)} {rest : List Char}
    (unmatched : ∀ content after, spanTag? none rest = some (content, after) → opened.head? ≠ some (endName content)) :
    step opened ('<' :: '/' :: rest) = .malformed := by
  have reached : step opened ('<' :: '/' :: rest) = endTag opened rest := rfl
  rw [reached]
  unfold endTag
  split
  next content after name outer found =>
    rw [if_neg]
    rintro rfl
    exact unmatched content after found rfl
  next => rfl

end Markup

namespace ItemMarkup

open Markup

namespace Builder

variable {builder next final : Builder} {opened inner left : List (List Char)} {event : Event} {events : List Event}

section Outside

/-- Closing the outermost element ends the item, whatever has been learned of it. -/
theorem closeElement_root {tag : String} (path : builder.path = [tag]) (closes : builder.closeElement = .ok next) :
    next.path = [] ∧ next.closed = true ∧ next.typeName = builder.typeName := by
  obtain ⟨_, text, typeName, properties, name, value, closed⟩ := builder
  subst path
  cases closes
  exact ⟨rfl, rfl, rfl⟩

/-- Layout, or the element of the item if there has been none. -/
theorem take_outside (outside : builder.path = []) (took : builder.take event = .ok next) :
    (event.isLayout = true ∧ next.path = [] ∧ next.closed = builder.closed ∧ next.typeName = builder.typeName) ∨
      builder.closed = false ∧ ((∃ root, event = .start root ∧ tagOf root = itemTag ∧ next.path = [itemTag] ∧
          next.closed = false ∧ next.typeName = builder.typeName) ∨
        ∃ root, event = .empty root ∧ next.path = [] ∧ next.closed = true ∧ next.typeName = builder.typeName) := by
  cases event with
  | start root =>
    obtain ⟨unclosed, named, path, still, typeName, _⟩ := openElement_eq_ok took
    rw [outside, named outside] at path
    exact .inr ⟨unclosed, .inl ⟨root, rfl, named outside, path, still, typeName⟩⟩
  | empty root =>
    obtain ⟨within, opens, closes⟩ := bind_eq_ok.mp took
    obtain ⟨unclosed, named, path, still, typeName, _⟩ := openElement_eq_ok opens
    rw [outside] at path
    obtain ⟨nothing, closed, kept⟩ := closeElement_root path closes
    exact .inr ⟨unclosed, .inr ⟨root, rfl, nothing, closed, kept.trans typeName⟩⟩
  | finish =>
    obtain ⟨tag, path, _⟩ := closeElement_eq_ok took
    cases outside.symm.trans path
  | text content | cdata content =>
    have blank : content.all Text.isBlank = true := by
      by_contra stray
      have stray : content.all Text.isBlank = false := Bool.not_eq_true _ ▸ stray
      rw [take, addText, outside, stray] at took
      cases took
    cases addText_eq_ok took
    exact .inl ⟨blank, outside, rfl, rfl⟩
  | other =>
    cases took
    exact .inl ⟨rfl, outside, rfl, rfl⟩

/-- After the element of the item there is layout only. -/
theorem run_after (outside : builder.path = []) (closed : builder.closed = true) (ran : builder.run events = .ok final) :
    (∀ event ∈ events, event.isLayout = true) ∧ final.typeName = builder.typeName := by
  induction events generalizing builder with
  | nil =>
    cases ran
    exact ⟨nofun, rfl⟩
  | cons event events ih =>
    obtain ⟨next, took, ran⟩ := run_cons_eq_ok.mp ran
    rcases take_outside outside took with ⟨layout, path, same, typeName⟩ | ⟨unclosed, _⟩
    · obtain ⟨layouts, kept⟩ := ih path (same.trans closed) ran
      exact ⟨List.forall_mem_cons.mpr ⟨layout, layouts⟩, kept.trans typeName⟩
    · cases closed.symm.trans unclosed

/-- Before the element of the item there is layout only. The element is no empty one if the item is to have a type. -/
theorem run_before (walk : Walk [] events left) (outside : builder.path = []) (unclosed : builder.closed = false)
    (untyped : builder.typeName = none) (ran : builder.run events = .ok final) (closed : final.closed = true)
    (typed : final.typeName ≠ none) :
    ∃ before root further, ∃ inside : Builder, events = before ++ .start root :: further ∧ (∀ event ∈ before, event.isLayout = true) ∧
      tagOf root = itemTag ∧ Walk [root] further left ∧ inside.path = [itemTag] ∧ inside.typeName = none ∧
      inside.run further = .ok final := by
  induction events generalizing builder with
  | nil =>
    cases ran
    cases unclosed.symm.trans closed
  | cons event events ih =>
    obtain ⟨next, took, ranLater⟩ := run_cons_eq_ok.mp ran
    cases walk with
    | next moves later =>
      rcases take_outside outside took with
        ⟨layout, path, same, typeName⟩ | ⟨_, ⟨root, rfl, named, path, _, typeName⟩ | ⟨root, rfl, path, ended, typeName⟩⟩
      · have stays : Walk [] events left := by
          cases moves with
          | start => cases layout
          | empty | text | cdata | other => exact later
        obtain ⟨before, root, further, inside, rfl, layouts, found⟩ :=
          ih stays path (same.trans unclosed) (typeName.trans untyped) ranLater
        exact ⟨event :: before, root, further, inside, rfl, List.forall_mem_cons.mpr ⟨layout, layouts⟩, found⟩
      · cases moves
        exact ⟨[], root, events, next, rfl, nofun, named, later, path, typeName.trans untyped, ranLater⟩
      · obtain ⟨_, kept⟩ := run_after path ended ranLater
        rw [kept, typeName, untyped] at typed
        exact absurd rfl typed

end Outside

section Inside

/-- The type name is what it was unless a type of the item is closed. -/
theorem run_untyped (untyped : typeNesting ∉ nestings builder.path events) (ran : builder.run events = .ok final) :
    final.typeName = builder.typeName := by
  induction events generalizing builder with
  | nil =>
    cases ran
    rfl
  | cons event events ih =>
    obtain ⟨next, took, ran⟩ := run_cons_eq_ok.mp ran
    obtain ⟨path, _, changes⟩ := take_eq_ok took
    rw [nestings, List.mem_append, Option.mem_toList, not_or, ← path] at untyped
    rw [ih untyped.2 ran, changes.typeName untyped.1]

/-- The events of an item that has been gathered whole. -/
theorem exists_root (walk : Walk [] events []) (ran : start.run events = .ok final) (closed : final.closed = true)
    (typed : final.typeName ≠ none) :
    ∃ before root inside after, events = before ++ .start root :: (inside ++ .finish :: after) ∧ tagOf root = itemTag ∧
      Walk [] inside [] ∧ typeNesting ∈ nestings [itemTag] inside ∧
      ∀ event ∈ before ++ after, event.isLayout = true := by
  obtain ⟨before, root, further, first, rfl, layoutBefore, named, rooted, path, untyped, ran⟩ :=
    run_before walk rfl rfl rfl ran closed typed
  have around : Walk ([] ++ [root]) further [] := rooted
  obtain ⟨inside, after, rfl, nested⟩ := around.closes
  obtain ⟨last, ranInside, ran⟩ := run_append_eq_ok.mp ran
  obtain ⟨outer, closes, ran⟩ := run_cons_eq_ok.mp ran
  have lastPath : last.path = [itemTag] := run_path nested path ranInside
  obtain ⟨outside, ended, kept⟩ := closeElement_root lastPath closes
  obtain ⟨layoutAfter, keptAfter⟩ := run_after outside ended ran
  refine ⟨before, root, inside, after, rfl, named, nested, ?_, List.forall_mem_append.mpr ⟨layoutBefore, layoutAfter⟩⟩
  by_contra missing
  rw [← path] at missing
  rw [keptAfter, kept, run_untyped missing ranInside, untyped] at typed
  exact typed rfl

end Inside

section Balance

theorem openElement_balanced {tag : String} : builder.openElement tag ≠ .error .unbalancedEnd := by
  intro failed
  unfold openElement at failed
  split at failed
  next => cases failed
  next => split at failed <;> cases failed

theorem closeElement_balanced (inside : builder.path ≠ []) : builder.closeElement ≠ .error .unbalancedEnd := by
  intro failed
  obtain ⟨path, text, typeName, properties, name, value, closed⟩ := builder
  match path with
  | [] => exact inside rfl
  | [tag] => cases failed
  | tag :: parent :: outer =>
    simp only [closeElement] at failed
    split at failed
    next => cases failed
    split at failed
    next => cases failed
    split at failed
    next => cases failed
    split at failed
    next => split at failed <;> cases failed
    next => cases failed

theorem addText_balanced {content : List Char} : builder.addText content ≠ .error .unbalancedEnd := by
  intro failed
  unfold addText at failed
  split at failed <;> cases failed

/-- Where the tags nest, there is an element to close for every end tag. -/
theorem take_balanced (rooted : Rooted opened builder) (moves : event.Moves opened inner) :
    builder.take event ≠ .error .unbalancedEnd := by
  intro failed
  cases moves with
  | start => exact openElement_balanced failed
  | @empty name =>
    cases opens : builder.openElement (tagOf name) with
    | error error =>
      rw [take, opens] at failed
      cases failed
      exact openElement_balanced opens
    | ok next =>
      obtain ⟨_, _, path, _⟩ := openElement_eq_ok opens
      rw [take, opens] at failed
      exact closeElement_balanced (path ▸ List.cons_ne_nil _ _) failed
  | finish => exact closeElement_balanced (rooted.path ▸ List.cons_ne_nil _ _) failed
  | text | cdata => exact addText_balanced failed
  | other => cases failed

theorem run_balanced (rooted : Rooted opened builder) (walk : Walk opened events left) :
    builder.run events ≠ .error .unbalancedEnd := by
  intro failed
  induction walk generalizing builder with
  | stop => cases failed
  | @next _ _ _ event events moves _ ih =>
    cases took : builder.take event with
    | error error =>
      rw [run, List.foldlM_cons, took] at failed
      cases failed
      exact take_balanced rooted moves took
    | ok next =>
      rw [run, List.foldlM_cons, took] at failed
      exact ih (rooted.take moves took) failed

end Balance

theorem finish_known {item : ItemMarkup} (finished : builder.finish = .ok item) :
    builder.closed = true ∧ builder.typeName = some item.typeName := by
  unfold finish at finished
  split at finished
  next => cases finished
  next closed =>
    split at finished
    next => cases finished
    next typed =>
      cases finished
      exact ⟨by simpa using closed, typed⟩

theorem finish_balanced : builder.finish ≠ .error .unbalancedEnd := by
  intro failed
  unfold finish at failed
  split at failed
  next => cases failed
  next => split at failed <;> cases failed

end Builder

section Documents

open Builder

variable {text : String} {item : ItemMarkup}

/-- A text is at its end when the element of the item is closed. -/
private theorem walk_of_read (accepted : read text = .ok item) :
    Walk [] (readFrom [] (withoutMark text.toList)).events [] := by
  obtain ⟨_, final, ran, finished⟩ := read_eq_ok.mp accepted
  obtain ⟨closed, _⟩ := finish_known finished
  obtain ⟨left, walk⟩ := exists_walk [] (withoutMark text.toList)
  have rooted : Rooted left final := Rooted.start.run walk ran
  have outside : final.path = [] := by
    by_contra inside
    cases closed.symm.trans (rooted.unclosed inside)
  have nothing : left = [] := List.map_eq_nil_iff.mp (rooted.path.symm.trans outside)
  rwa [nothing] at walk

private theorem ofReading_balanced {reading : Reading} {left : List (List Char)} (walk : Walk [] reading.events left) :
    ofReading reading ≠ .error .unbalancedEnd := by
  intro failed
  have balanced : Builder.start.run reading.events ≠ .error .unbalancedEnd := run_balanced .start walk
  unfold ofReading at failed
  unfold Builder.run at balanced
  cases ran : reading.events.foldlM Builder.take .start with
  | error error =>
    rw [ran] at failed balanced
    cases failed
    exact balanced rfl
  | ok final =>
    rw [ran] at failed
    have whole : (if reading.complete = true then final.finish else .error .malformed) = .error .unbalancedEnd := failed
    split at whole
    next => exact finish_balanced whole
    next => cases whole

/-- Only a whole element is read as an item. Off such a text the reader takes layout, the start of an element that is
named as an item, what is in it, its end, and layout again; all that is opened in it is closed in it, and a type stands
directly in an item. It is never the builder that finds an end tag to be unbalanced, for the reader takes none off the
text but that of the innermost open element. -/
theorem read_single_root (text : String) :
    (∀ item, read text = .ok item → ∃ before root inside after,
        Markup.read text.toList = ⟨before ++ .start root :: (inside ++ .finish :: after), true⟩ ∧
        tagOf root = itemTag ∧ Walk [] inside [] ∧ typeNesting ∈ nestings [itemTag] inside ∧
        ∀ event ∈ before ++ after, event.isLayout = true) ∧
      read text ≠ .error .unbalancedEnd ∧
      ∀ events opened rest, Reads [] (withoutMark text.toList) events opened ('<' :: '/' :: rest) →
        (∀ content after, spanTag? none rest = some (content, after) → opened.head? ≠ some (endName content)) →
        Markup.read text.toList = ⟨events, false⟩ := by
  refine ⟨fun item accepted => ?_, ?_, fun events opened rest reads unmatched => ?_⟩
  · obtain ⟨complete, final, ran, finished⟩ := read_eq_ok.mp accepted
    obtain ⟨closed, typed⟩ := finish_known finished
    obtain ⟨before, root, inside, after, shape, found⟩ :=
      exists_root (walk_of_read accepted) ran closed (typed ▸ Option.some_ne_none _)
    refine ⟨before, root, inside, after, ?_, found⟩
    rw [read_eq, ← shape, ← complete]
  · obtain ⟨left, walk⟩ := exists_walk [] (withoutMark text.toList)
    rw [read, read_eq]
    exact ofReading_balanced walk
  · rw [read_eq, reads.readFrom_eq, readFrom_of_malformed (step_unmatched unmatched), List.append_nil]

/-- An item with layout on both sides. -/
def commented : String := "<!--a--><CustomReportItem><Type>Map</Type></CustomReportItem>\n"

/-- An item is read, and reading stops where a type ends that has not begun. -/
theorem read_single_root_commented :
    read commented = .ok ⟨"Map", .empty⟩ ∧
      (∃ before root inside after,
        Markup.read commented.toList = ⟨before ++ .start root :: (inside ++ .finish :: after), true⟩ ∧
        tagOf root = itemTag ∧ Walk [] inside [] ∧ typeNesting ∈ nestings [itemTag] inside ∧
        ∀ event ∈ before ++ after, event.isLayout = true) ∧
      read commented ≠ .error .unbalancedEnd ∧
      Markup.read "<CustomReportItem></Type>".toList = ⟨[.start itemTag.toList], false⟩ := by
  have reads : Reads [] (withoutMark commented.toList) [.other, .start itemTag.toList, .start "Type".toList,
      .text "Map".toList, .finish, .finish, .text ['\n']] [] [] := by
    iterate 7 refine .next rfl ?_
    exact .stop
  have accepted : read commented = .ok ⟨"Map", .empty⟩ := (read_eq_ok_of_reads reads).mpr ⟨_, rfl, rfl⟩
  have opens : Reads [] (withoutMark "<CustomReportItem></Type>".toList) [.start itemTag.toList] [itemTag.toList]
      ('<' :: '/' :: "Type>".toList) := .next rfl .stop
  obtain ⟨whole, balanced, _⟩ := read_single_root commented
  obtain ⟨_, _, stops⟩ := read_single_root "<CustomReportItem></Type>"
  refine ⟨accepted, whole _ accepted, balanced, stops _ _ _ opens ?_⟩
  rintro _ _ ⟨⟩
  decide

end Documents

end ItemMarkup

end ReportEngine

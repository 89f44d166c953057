import ReportEngine.Proofs.ItemBuilder

/-! What a builder makes of an element depends on its name and on the name of the element directly around
it, on nothing farther out. Only two nestings say something about the item. -/

namespace ReportEngine.ItemMarkup.Builder

open Markup

/-- The innermost of some open elements, after the one around it. -/
def innermost : List String → Option (String × String)
  | tag :: parent :: _ => some (parent, tag)
  | _ => none

def pathAfter (path : List String) : Event → List String
  | .start name => tagOf name :: path
  | .finish => path.tail
  | .empty _ | .text _ | .cdata _ | .other => path

/-- The element that an event ends, after the one directly around it. -/
def ended (path : List String) : Event → Option (String × String)
  | .empty name => innermost (tagOf name :: path)
  | .finish => innermost path
  | .start _ | .text _ | .cdata _ | .other => none

/-- The elements that end among some events, each after the one directly around it. -/
def nestings (path : List String) : List Event → List (String × String)
  | [] => []
  | event :: events => (ended path event).toList ++ nestings (pathAfter path event) events

def typeNesting : String × String := (itemTag, "Type")

def propertyNesting : String × String := ("CustomProperties", "CustomProperty")

/-- What closing an element, or reading on to another place, may change, given what has been closed. -/
structure Changes (closing : Option (String × String)) (builder next : Builder) : Prop where
  typeName : closing ≠ some typeNesting → next.typeName = builder.typeName
  properties : closing ≠ some propertyNesting → next.properties = builder.properties
  filled : builder.properties ≠ .empty ∨ closing = some propertyNesting → next.properties ≠ .empty

section Steps

variable {builder next : Builder} {tag : String} {event : Event}

theorem openElement_eq_ok (opens : builder.openElement tag = .ok next) :
    builder.closed = false ∧ (builder.path = [] → tag = itemTag) ∧ next.path = tag :: builder.path ∧
      next.closed = false ∧ next.typeName = builder.typeName ∧ next.properties = builder.properties := by
  unfold openElement at opens
  split at opens
  next => cases opens
  next unclosed =>
    have unclosed : builder.closed = false := Bool.not_eq_true _ ▸ unclosed
    split at opens
    next => cases opens
    next root =>
      cases opens
      refine ⟨unclosed, ?_, rfl, unclosed, rfl, rfl⟩
      intro outside
      simpa [outside] using root

theorem openElement_of_inside (unclosed : builder.closed = false) (inside : builder.path ≠ []) :
    ∃ next, builder.openElement tag = .ok next := by
  simp [openElement, unclosed, inside]

theorem set_ne_empty (properties : Properties) (name value : String) : properties.set name value ≠ .empty := by
  intro same
  have entries : Properties.setEntry name value properties.entries = [] := congrArg Properties.entries same
  unfold Properties.setEntry at entries
  split at entries
  next => cases entries
  next => split at entries <;> cases entries

/-- Neither the type name nor the properties change unless something that means one of them is closed. -/
theorem Changes.of_same {closing : Option (String × String)} (typeName : next.typeName = builder.typeName)
    (properties : next.properties = builder.properties) (other : closing ≠ some propertyNesting) : Changes closing builder next where
  typeName _ := typeName
  properties _ := properties
  filled := by
    rintro (filled | same)
    · rw [properties]
      exact filled
    · exact absurd same other

theorem closeElement_eq_ok (closes : builder.closeElement = .ok next) :
    ∃ tag, builder.path = tag :: next.path ∧ (builder.closed = false → next.path ≠ [] → next.closed = false) ∧
      Changes (innermost builder.path) builder next := by
  obtain ⟨path, text, typeName, properties, name, value, closed⟩ := builder
  match path with
  | [] => cases closes
  | [tag] =>
    cases closes
    exact ⟨tag, rfl, fun _ inside => absurd rfl inside, .of_same rfl rfl nofun⟩
  | tag :: parent :: outer =>
    simp only [closeElement] at closes
    split at closes
    next same =>
      obtain ⟨rfl, rfl⟩ := same
      cases closes
      refine ⟨_, rfl, fun unclosed _ => unclosed, fun other => absurd rfl other, fun _ => rfl, ?_⟩
      rintro (filled | other)
      · exact filled
      · simp [innermost, propertyNesting, itemTag] at other
    split at closes
    next same =>
      obtain ⟨rfl, rfl⟩ := same
      cases closes
      exact ⟨_, rfl, fun unclosed _ => unclosed, .of_same rfl rfl (by simp [innermost, propertyNesting])⟩
    split at closes
    next same =>
      obtain ⟨rfl, rfl⟩ := same
      cases closes
      exact ⟨_, rfl, fun unclosed _ => unclosed, .of_same rfl rfl (by simp [innermost, propertyNesting])⟩
    split at closes
    next same =>
      obtain ⟨rfl, rfl⟩ := same
      split at closes
      next => cases closes
      next =>
        cases closes
        exact ⟨_, rfl, fun unclosed _ => unclosed, fun _ => rfl, fun other => absurd rfl other, fun _ => set_ne_empty _ _ _⟩
    next other =>
      cases closes
      refine ⟨_, rfl, fun unclosed _ => unclosed, .of_same rfl rfl ?_⟩
      intro same
      cases same
      exact other ⟨rfl, rfl⟩

theorem closeElement_of_inside {parent : String} {outer : List String} (path : builder.path = tag :: parent :: outer)
    (other : innermost builder.path ≠ some propertyNesting) : ∃ next, builder.closeElement = .ok next := by
  obtain ⟨_, text, typeName, properties, name, value, closed⟩ := builder
  subst path
  simp only [closeElement]
  split
  next => exact ⟨_, rfl⟩
  split
  next => exact ⟨_, rfl⟩
  split
  next => exact ⟨_, rfl⟩
  split
  next same =>
    obtain ⟨rfl, rfl⟩ := same
    exact absurd rfl other
  next => exact ⟨_, rfl⟩

theorem addText_eq_ok {content : List Char} (added : builder.addText content = .ok next) :
    next = { builder with text := builder.text ++ content } := by
  unfold addText at added
  split at added
  next => cases added
  next =>
    cases added
    rfl

/-- What one event does: it moves along the path, and changes at most what the element means that it ends. -/
theorem take_eq_ok (took : builder.take event = .ok next) :
    next.path = pathAfter builder.path event ∧ (builder.closed = false → next.path ≠ [] → next.closed = false) ∧
      Changes (ended builder.path event) builder next := by
  cases event with
  | start name =>
    obtain ⟨_, _, path, closed, typeName, properties⟩ := openElement_eq_ok took
    exact ⟨path, fun _ _ => closed, .of_same typeName properties nofun⟩
  | empty name =>
    obtain ⟨inner, opens, closes⟩ := bind_eq_ok.mp took
    obtain ⟨_, _, path, unclosed, typeName, properties⟩ := openElement_eq_ok opens
    obtain ⟨tag, outer, closed, changes⟩ := closeElement_eq_ok closes
    rw [path] at outer changes
    refine ⟨(List.cons.inj outer).2.symm, fun _ inside => closed unclosed inside, ?_, ?_, ?_⟩
    · intro other
      rw [changes.typeName other, typeName]
    · intro other
      rw [changes.properties other, properties]
    · rw [← properties]
      exact changes.filled
  | finish =>
    obtain ⟨tag, path, closed, changes⟩ := closeElement_eq_ok took
    refine ⟨?_, closed, changes⟩
    rw [pathAfter, path, List.tail_cons]
  | text content | cdata content =>
    cases addText_eq_ok took
    exact ⟨rfl, fun unclosed _ => unclosed, .of_same rfl rfl nofun⟩
  | other =>
    cases took
    exact ⟨rfl, fun unclosed _ => unclosed, .of_same rfl rfl nofun⟩

/-- Inside an element nothing goes wrong except with a property that has no name. -/
theorem take_of_inside (unclosed : builder.closed = false) (inside : builder.path ≠ []) (still : pathAfter builder.path event ≠ [])
    (other : ended builder.path event ≠ some propertyNesting) : ∃ next, builder.take event = .ok next := by
  cases event with
  | start name => exact openElement_of_inside unclosed inside
  | empty name =>
    obtain ⟨inner, opens⟩ := openElement_of_inside unclosed inside
    obtain ⟨_, _, path, _⟩ := openElement_eq_ok opens
    obtain ⟨parent, outer, around⟩ := List.exists_cons_of_ne_nil inside
    rw [around] at path
    have other : innermost inner.path ≠ some propertyNesting := by
      rw [path, ← around]
      exact other
    obtain ⟨next, closes⟩ := closeElement_of_inside path other
    exact ⟨next, bind_eq_ok.mpr ⟨inner, opens, closes⟩⟩
  | finish =>
    obtain ⟨tag, rest, path⟩ := List.exists_cons_of_ne_nil inside
    rw [pathAfter, path, List.tail_cons] at still
    obtain ⟨parent, outer, rfl⟩ := List.exists_cons_of_ne_nil still
    exact closeElement_of_inside path other
  | text content | cdata content => simp [take, addText, inside]
  | other => exact ⟨builder, rfl⟩

end Steps

section Runs

variable {builder next final : Builder} {opened inner left : List (List Char)} {event : Event} {events : List Event} {base : List String}

theorem pathAfter_of_moves (moves : event.Moves opened inner) :
    pathAfter (opened.map tagOf ++ base) event = inner.map tagOf ++ base := by
  cases moves with
  | start | empty | finish | text | cdata | other => rfl

theorem run_path (walk : Walk opened events left) (path : builder.path = opened.map tagOf ++ base)
    (ran : builder.run events = .ok final) : final.path = left.map tagOf ++ base := by
  induction walk generalizing builder with
  | stop =>
    cases ran
    exact path
  | next moves _ ih =>
    obtain ⟨next, took, ran⟩ := run_cons_eq_ok.mp ran
    have further := (take_eq_ok took).1
    rw [path, pathAfter_of_moves moves] at further
    exact ih further ran

/-- Elements that say nothing about the item leave what is known of it. -/
theorem run_of_inside (walk : Walk opened events left) (path : builder.path = opened.map tagOf ++ base) (inside : base ≠ [])
    (unclosed : builder.closed = false) (noType : typeNesting ∉ nestings builder.path events)
    (noProperty : propertyNesting ∉ nestings builder.path events) :
    ∃ final, builder.run events = .ok final ∧ final.typeName = builder.typeName ∧ final.properties = builder.properties ∧
      final.closed = false := by
  induction walk generalizing builder with
  | stop => exact ⟨builder, rfl, rfl, rfl, unclosed⟩
  | @next opened inner left event events moves _ ih =>
    simp only [nestings, List.mem_append, Option.mem_toList, not_or] at noType noProperty
    have further : pathAfter (opened.map tagOf ++ base) event = inner.map tagOf ++ base := pathAfter_of_moves moves
    rw [← path] at further
    have within (names : List (List Char)) : names.map tagOf ++ base ≠ [] := List.append_ne_nil_of_right_ne_nil _ inside
    obtain ⟨next, took⟩ := take_of_inside unclosed (path ▸ within opened) (further ▸ within inner) noProperty.1
    obtain ⟨nextPath, nextClosed, changes⟩ := take_eq_ok took
    rw [← nextPath] at further noType noProperty
    obtain ⟨final, ran, typeName, properties, finalClosed⟩ :=
      ih further (nextClosed unclosed (further ▸ within inner)) noType.2 noProperty.2
    refine ⟨final, run_cons_eq_ok.mpr ⟨next, took, ran⟩, ?_, ?_, finalClosed⟩
    · rw [typeName, changes.typeName noType.1]
    · rw [properties, changes.properties noProperty.1]

theorem run_filled (ran : builder.run events = .ok final)
    (filled : builder.properties ≠ .empty ∨ propertyNesting ∈ nestings builder.path events) : final.properties ≠ .empty := by
  induction events generalizing builder with
  | nil =>
    cases ran
    exact filled.resolve_right List.not_mem_nil
  | cons event events ih =>
    obtain ⟨next, took, ran⟩ := run_cons_eq_ok.mp ran
    obtain ⟨path, _, changes⟩ := take_eq_ok took
    apply ih ran
    rw [nestings, List.mem_append, Option.mem_toList, ← or_assoc, ← path] at filled
    exact filled.imp_left changes.filled

/-- Where a builder stands among open elements, of which the outermost is that of the item. -/
structure Rooted (opened : List (List Char)) (builder : Builder) : Prop where
  path : builder.path = opened.map tagOf
  root : ∀ root ∈ builder.path.getLast?, root = itemTag
  unclosed : builder.path ≠ [] → builder.closed = false

theorem Rooted.start : Rooted [] Builder.start where
  path := rfl
  root := by
    intro root last
    cases last
  unclosed inside := absurd rfl inside

theorem Rooted.take (rooted : Rooted opened builder) (moves : event.Moves opened inner) (took : builder.take event = .ok next) :
    Rooted inner next := by
  obtain ⟨path, closed, _⟩ := take_eq_ok took
  have names : next.path = inner.map tagOf := by
    have moved : pathAfter (opened.map tagOf ++ []) event = inner.map tagOf ++ [] := pathAfter_of_moves moves
    rw [List.append_nil, List.append_nil] at moved
    rw [path, rooted.path, moved]
  refine ⟨names, ?_, ?_⟩
  · rw [path]
    cases moves with
    | start =>
      obtain ⟨_, outside, _⟩ := openElement_eq_ok took
      intro root last
      by_cases first : builder.path = []
      · rw [pathAfter, first] at last
        cases last
        exact outside first
      · obtain ⟨parent, outer, around⟩ := List.exists_cons_of_ne_nil first
        apply rooted.root
        rwa [pathAfter, around, List.getLast?_cons_cons, ← around] at last
    | finish =>
      intro root last
      apply rooted.root
      rw [pathAfter, List.getLast?_tail] at last
      split at last
      next => cases last
      next => exact last
    | empty | text | cdata | other => exact rooted.root
  · intro inside
    cases moves with
    | start =>
      obtain ⟨_, _, _, unclosed, _⟩ := openElement_eq_ok took
      exact unclosed
    | finish =>
      refine closed (rooted.unclosed ?_) inside
      intro nothing
      rw [path, pathAfter, nothing] at inside
      exact inside rfl
    | empty | text | cdata | other =>
      refine closed (rooted.unclosed ?_) inside
      rwa [path] at inside

theorem Rooted.run (rooted : Rooted opened builder) (walk : Walk opened events left) (ran : builder.run events = .ok final) :
    Rooted left final := by
  induction walk generalizing builder with
  | stop =>
    cases ran
    exact rooted
  | next moves _ ih =>
    obtain ⟨next, took, ran⟩ := run_cons_eq_ok.mp ran
    exact ih (rooted.take moves took) ran

theorem Rooted.at_root {name : List Char} (rooted : Rooted [name] builder) : builder.path = [itemTag] ∧ builder.closed = false := by
  have path : builder.path = [tagOf name] := rooted.path
  have named : tagOf name = itemTag := by
    apply rooted.root
    rw [path]
    rfl
  rw [named] at path
  exact ⟨path, rooted.unclosed (path ▸ List.cons_ne_nil _ _)⟩

end Runs

end ReportEngine.ItemMarkup.Builder

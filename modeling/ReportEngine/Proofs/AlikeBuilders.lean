import ReportEngine.Proofs.ElementNesting

/-! Builders that differ only in what they will not use go on alike. The text in front of the next tag is
dropped, and the name and value of a property are set anew when its element begins. -/

namespace ReportEngine.ItemMarkup.Builder

open Markup

/-- Two builders are at the same place and have gathered the same, the type name only if it is `typed`. -/
structure Alike (typed : Prop) (first second : Builder) : Prop where
  path : second.path = first.path
  closed : second.closed = first.closed
  properties : second.properties = first.properties
  typeName : typed → second.typeName = first.typeName
  text : 2 ≤ first.path.length → second.text = first.text
  entry : "CustomProperty" ∈ first.path → second.name = first.name ∧ second.value = first.value

namespace Alike

variable {typed : Prop} {first second next : Builder} {tag : String} {event : Event} {events : List Event} {item : ItemMarkup}

theorem mono {known : Prop} (alike : Alike typed first second) (less : known → typed) : Alike known first second :=
  { alike with typeName := fun holds => alike.typeName (less holds) }

theorem openElement (alike : Alike typed first second) (opens : first.openElement tag = .ok next) :
    ∃ other, second.openElement tag = .ok other ∧ Alike typed next other := by
  unfold Builder.openElement at opens ⊢
  rw [alike.closed, alike.path]
  split at opens
  next => cases opens
  next unclosed =>
    rw [if_neg unclosed]
    split at opens
    next => cases opens
    next root =>
      rw [if_neg root]
      cases opens
      refine ⟨_, rfl, ?_⟩
      refine ⟨rfl, rfl, alike.properties, alike.typeName, fun _ => rfl, ?_⟩
      intro member
      by_cases fresh : tag = "CustomProperty"
      · simp [fresh]
      · simp only [List.mem_cons, Ne.symm fresh, false_or] at member
        simpa [fresh] using alike.entry member

theorem closeElement (alike : Alike typed first second) (closes : first.closeElement = .ok next) :
    ∃ other, second.closeElement = .ok other ∧ Alike (typed ∨ innermost first.path = some typeNesting) next other := by
  obtain ⟨_, text, typeName, _, name, value, _⟩ := first
  obtain ⟨path, text', typeName', properties, name', value', closed⟩ := second
  obtain ⟨rfl, rfl, rfl, sameTypeName, sameText, sameEntry⟩ := alike
  match path with
  | [] => cases closes
  | [tag] =>
    cases closes
    exact ⟨_, rfl, rfl, rfl, rfl, fun known => sameTypeName (known.resolve_right nofun), nofun, nofun⟩
  | tag :: parent :: outer =>
    obtain rfl : text' = text := sameText (by simp)
    have entry : "CustomProperty" ∈ parent :: outer → name' = name ∧ value' = value :=
      fun member => sameEntry (List.mem_cons_of_mem _ member)
    simp only [Builder.closeElement] at closes ⊢
    split at closes
    next same =>
      cases closes
      rw [if_pos same]
      exact ⟨_, rfl, rfl, rfl, rfl, fun _ => rfl, fun _ => rfl, entry⟩
    next notType =>
      have kept : typed ∨ innermost (tag :: parent :: outer) = some typeNesting → typeName' = typeName := by
        rintro (known | same)
        · exact sameTypeName known
        · cases same
          exact absurd ⟨rfl, rfl⟩ notType
      rw [if_neg notType]
      split at closes
      next same =>
        cases closes
        rw [if_pos same]
        exact ⟨_, rfl, rfl, rfl, rfl, kept, fun _ => rfl, fun member => ⟨rfl, (entry member).2⟩⟩
      next notName =>
        rw [if_neg notName]
        split at closes
        next same =>
          cases closes
          rw [if_pos same]
          exact ⟨_, rfl, rfl, rfl, rfl, kept, fun _ => rfl, fun member => ⟨(entry member).1, rfl⟩⟩
        next notValue =>
          rw [if_neg notValue]
          split at closes
          next same =>
            obtain ⟨rfl, rfl⟩ := same
            obtain ⟨rfl, rfl⟩ := sameEntry List.mem_cons_self
            rw [if_pos ⟨rfl, rfl⟩]
            cases name' with
            | none => cases closes
            | some name =>
              cases closes
              exact ⟨_, rfl, rfl, rfl, rfl, kept, fun _ => rfl, fun _ => ⟨rfl, rfl⟩⟩
          next notProperty =>
            cases closes
            rw [if_neg notProperty]
            exact ⟨_, rfl, rfl, rfl, rfl, kept, fun _ => rfl, entry⟩

theorem addText {content : List Char} (alike : Alike typed first second) (added : first.addText content = .ok next) :
    ∃ other, second.addText content = .ok other ∧ Alike typed next other := by
  unfold Builder.addText at added ⊢
  rw [alike.path]
  split at added
  next => cases added
  next blank =>
    cases added
    rw [if_neg blank]
    refine ⟨_, rfl, rfl, alike.closed, alike.properties, alike.typeName, ?_, alike.entry⟩
    intro deep
    exact congrArg (· ++ content) (alike.text deep)

theorem take (alike : Alike typed first second) (took : first.take event = .ok next) :
    ∃ other, second.take event = .ok other ∧ Alike (typed ∨ ended first.path event = some typeNesting) next other := by
  cases event with
  | start name =>
    obtain ⟨other, opens, alike⟩ := alike.openElement took
    exact ⟨other, opens, alike.mono fun known => known.resolve_right nofun⟩
  | empty name =>
    obtain ⟨inner, opens, closes⟩ := bind_eq_ok.mp took
    obtain ⟨_, _, path, _⟩ := openElement_eq_ok opens
    obtain ⟨between, opensToo, alike⟩ := alike.openElement opens
    obtain ⟨other, closesToo, alike⟩ := alike.closeElement closes
    rw [path] at alike
    exact ⟨other, bind_eq_ok.mpr ⟨between, opensToo, closesToo⟩, alike⟩
  | finish => exact alike.closeElement took
  | text content | cdata content =>
    obtain ⟨other, addedToo, alike⟩ := alike.addText took
    exact ⟨other, addedToo, alike.mono fun known => known.resolve_right nofun⟩
  | other =>
    cases took
    exact ⟨second, rfl, alike.mono fun known => known.resolve_right nofun⟩

theorem run (alike : Alike typed first second) (ran : first.run events = .ok next) :
    ∃ other, second.run events = .ok other ∧ Alike (typed ∨ typeNesting ∈ nestings first.path events) next other := by
  induction events generalizing typed first second with
  | nil =>
    cases ran
    exact ⟨second, rfl, alike.mono fun known => known.resolve_right List.not_mem_nil⟩
  | cons event events ih =>
    obtain ⟨between, took, ran⟩ := run_cons_eq_ok.mp ran
    obtain ⟨path, _⟩ := take_eq_ok took
    obtain ⟨betweenToo, tookToo, alike⟩ := alike.take took
    obtain ⟨other, ranToo, alike⟩ := ih alike ran
    refine ⟨other, run_cons_eq_ok.mpr ⟨betweenToo, tookToo, ranToo⟩, alike.mono ?_⟩
    rw [nestings, List.mem_append, Option.mem_toList, path, or_assoc]
    exact id

theorem finish (alike : Alike True first second) (finished : first.finish = .ok item) : second.finish = .ok item := by
  rw [Builder.finish, alike.closed, alike.typeName trivial, alike.properties]
  exact finished

end Alike

/-- After an element that says nothing about the item, a builder is as it was. -/
theorem alike_of_inside {builder : Builder} {events : List Event} (walk : Walk [] events []) (path : builder.path = [itemTag])
    (unclosed : builder.closed = false) (noType : typeNesting ∉ nestings [itemTag] events)
    (noProperty : propertyNesting ∉ nestings [itemTag] events) :
    ∃ final, builder.run events = .ok final ∧ Alike True builder final := by
  rw [← path] at noType noProperty
  obtain ⟨final, ran, typeName, properties, finalUnclosed⟩ :=
    run_of_inside walk path (List.cons_ne_nil _ _) unclosed noType noProperty
  have finalPath : final.path = [itemTag] := run_path walk path ran
  refine ⟨final, ran, finalPath.trans path.symm, finalUnclosed.trans unclosed.symm, properties, fun _ => typeName, ?_, ?_⟩
  · intro deep
    rw [path] at deep
    exact absurd deep (by decide)
  · intro member
    rw [path] at member
    exact absurd member (by decide)

end ReportEngine.ItemMarkup.Builder

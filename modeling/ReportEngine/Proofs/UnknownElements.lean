import ReportEngine.Proofs.AlikeBuilders
import ReportEngine.Proofs.MarkupRoundTrip

/-! An element put between the children of an item. It is without effect, whatever the rest of the item is,
exactly if nothing in it stands where a type or a property of the item would stand. Being inside an unknown
element does not matter. -/

namespace ReportEngine.ItemMarkup

open Markup Builder

/-- A document up to a place where one element is open. -/
def InsideItem (front : String) : Prop := ∃ events name, Reads [] (withoutMark front.toList) events [name] []

section Insertion

variable {front back element : String} {before events : List Event} {name : List Char} {item : ItemMarkup}

theorem withoutMark_front (reads : Reads [] (withoutMark front.toList) before [name] []) (rest : String) :
    withoutMark (front ++ rest).toList = withoutMark front.toList ++ rest.toList := by
  rw [String.toList_append]
  apply withoutMark_append
  intro nothing
  rw [nothing] at reads
  cases reads with
  | next taken _ => cases taken

theorem reads_insert (inFront : Reads [] (withoutMark front.toList) before [name] []) (isElement : IsElement element.toList events) :
    Reads [] (withoutMark (front ++ element ++ back).toList) (before ++ events) [name] back.toList := by
  obtain ⟨read, same, again⟩ := inFront.local
  rw [List.append_nil] at same
  rw [String.append_assoc, withoutMark_front inFront, String.toList_append]
  have here := again [] (element.toList ++ back.toList) (isElement.atTag _)
  rw [← same] at here
  exact here.trans (isElement.reads _ _)

theorem read_insert (inside : InsideItem front) (isElement : IsElement element.toList events)
    (noType : typeNesting ∉ nestings [itemTag] events) (noProperty : propertyNesting ∉ nestings [itemTag] events)
    (accepted : read (front ++ back) = .ok item) : read (front ++ element ++ back) = .ok item := by
  obtain ⟨before, name, inFront⟩ := inside
  obtain ⟨complete, builder, ran, finished⟩ := read_eq_ok.mp accepted
  rw [withoutMark_front inFront] at complete ran
  obtain ⟨completeBack, joined⟩ := inFront.joined complete
  obtain ⟨here, ranFront, ranBack⟩ := run_append_eq_ok.mp (run_of_joined joined ran)
  obtain ⟨path, unclosed⟩ := (Rooted.start.run inFront.walk ranFront).at_root
  have walk : Walk [] events [] := (isElement.reads [] []).walk
  obtain ⟨there, ranElement, alike⟩ := alike_of_inside walk path unclosed noType noProperty
  obtain ⟨last, ranAgain, alike⟩ := alike.run ranBack
  refine read_eq_ok.mpr ?_
  rw [(reads_insert inFront isElement).readFrom_eq]
  refine ⟨completeBack, last, ?_, (alike.mono fun _ => .inl trivial).finish finished⟩
  refine run_append_eq_ok.mpr ⟨there, ?_, ranAgain⟩
  exact run_append_eq_ok.mpr ⟨here, ranFront, ranElement⟩

end Insertion

section Fragments

variable {typeName element : String} {events : List Event} {item : ItemMarkup} {rest : List Char}

/-- An item that has a type and no properties, up to a place between its two children. -/
def fragmentFront (typeName : String) : String := "<" ++ itemTag ++ ">" ++ ItemMarkup.element "Type" typeName

def fragmentBack : String := "<CustomProperties/></" ++ itemTag ++ ">"

def fragmentEnd : List Event := [.empty "CustomProperties".toList, .finish]

/-- What is gathered up to that place. -/
def gathered (typeName : String) : Builder := ⟨[itemTag], ['\n'], some typeName, .empty, none, none, false⟩

theorem reaches_fragment (ends : AtTag rest) :
    Progress.Reaches ⟨[], .start, withoutMark ((fragmentFront typeName).toList ++ rest)⟩
      ⟨[itemTag.toList], gathered typeName, rest⟩ := by
  have written : (fragmentFront typeName).toList ++ rest =
      '<' :: (itemTag.toList ++ '>' :: ((ItemMarkup.element "Type" typeName).toList ++ rest)) := by
    have opening : "<".toList = ['<'] := rfl
    have ending : ">".toList = ['>'] := rfl
    unfold fragmentFront
    simp only [append_toList_append, opening, ending, List.singleton_append]
  have unmarked (text : List Char) : withoutMark ('<' :: text) = '<' :: text := rfl
  have opens : Builder.start.openElement itemTag = .ok ⟨[itemTag], [], none, .empty, none, none, false⟩ := rfl
  rw [written, unmarked]
  refine (Progress.Reaches.start (.of_all rfl rfl) opens).trans ?_
  refine (reaches_type typeName _).trans ?_
  exact reaches_tag [] (List.cons_ne_nil _ _) rfl ends

theorem insideItem_fragmentFront : InsideItem (fragmentFront typeName) := by
  obtain ⟨events, reads, _⟩ := (@reaches_fragment typeName [] nofun).exists_events
  rw [List.append_nil] at reads
  exact ⟨events, itemTag.toList, reads⟩

theorem reads_fragmentBack : Reads [itemTag.toList] fragmentBack.toList fragmentEnd [] [] :=
  .next rfl (.next (IsPlain.step_finish (.of_all rfl rfl)) .stop)

theorem finish_eq_ok {builder : Builder} (path : builder.path = [itemTag]) :
    (∃ last, builder.run fragmentEnd = .ok last ∧ last.finish = .ok item) ↔
      builder.closed = false ∧ builder.typeName = some item.typeName ∧ builder.properties = item.properties := by
  obtain ⟨_, text, typeName, properties, name, value, closed⟩ := builder
  subst path
  cases closed with
  | true =>
    constructor
    · rintro ⟨_, ran, _⟩
      cases ran
    · rintro ⟨unclosed, _⟩
      cases unclosed
  | false =>
    have closes : Builder.run ⟨[itemTag], text, typeName, properties, name, value, false⟩ fragmentEnd =
        .ok ⟨[], [], typeName, properties, name, value, true⟩ := rfl
    rw [closes]
    constructor
    · rintro ⟨_, same, finished⟩
      cases same
      cases typeName with
      | none => cases finished
      | some typeName =>
        cases finished
        exact ⟨rfl, rfl, rfl⟩
    · rintro ⟨_, rfl, rfl⟩
      exact ⟨_, rfl, rfl⟩

/-- An item of a type and one more element is read as what the builder makes of that element. -/
theorem read_fragment (isElement : IsElement element.toList events) :
    read (fragmentFront typeName ++ element ++ fragmentBack) = .ok item ↔
      ∃ builder, (gathered typeName).run events = .ok builder ∧ builder.closed = false ∧
        builder.typeName = some item.typeName ∧ builder.properties = item.properties := by
  obtain ⟨before, inFront, ranFront⟩ := (@reaches_fragment typeName [] nofun).exists_events
  rw [List.append_nil] at inFront
  have reads := (reads_insert inFront isElement).trans reads_fragmentBack
  have walk : Walk [] events [] := (isElement.reads [] []).walk
  rw [read_eq_ok_of_reads reads]
  constructor
  · rintro ⟨last, ran, finished⟩
    obtain ⟨builder, ran, ranBack⟩ := run_append_eq_ok.mp ran
    obtain ⟨here, ranHere, ranElement⟩ := run_append_eq_ok.mp ran
    cases ranFront.symm.trans ranHere
    have path : builder.path = [itemTag] := run_path walk rfl ranElement
    exact ⟨builder, ranElement, (finish_eq_ok path).mp ⟨last, ranBack, finished⟩⟩
  · rintro ⟨builder, ranElement, known⟩
    have path : builder.path = [itemTag] := run_path walk rfl ranElement
    obtain ⟨last, ranBack, finished⟩ := (finish_eq_ok path).mpr known
    refine ⟨last, run_append_eq_ok.mpr ⟨builder, ?_, ranBack⟩, finished⟩
    exact run_append_eq_ok.mpr ⟨_, ranFront, ranElement⟩

theorem read_fragment_nil : read (fragmentFront typeName ++ fragmentBack) = .ok ⟨typeName, .empty⟩ := by
  obtain ⟨last, ran, finished⟩ := (@finish_eq_ok ⟨typeName, .empty⟩ (gathered typeName) rfl).mpr ⟨rfl, rfl, rfl⟩
  have ends : Progress.Reaches ⟨[itemTag.toList], gathered typeName, fragmentBack.toList⟩ ⟨[], last, []⟩ :=
    ⟨fragmentEnd, reads_fragmentBack, ran⟩
  have reached := (@reaches_fragment typeName fragmentBack.toList (atTag_tag _)).trans ends
  rw [← String.toList_append] at reached
  exact reached.read_eq finished

end Fragments

section Effect

variable {element : String} {events : List Event}

/-- An element with a type of the item in it replaces whatever type the item had before. -/
theorem run_typed {builder final other : Builder} {typeName : Option String} (typed : typeNesting ∈ nestings builder.path events)
    (ran : builder.run events = .ok final)
    (ranToo : { builder with typeName := typeName }.run events = .ok other) : other.typeName = final.typeName := by
  have alike : Alike False builder { builder with typeName := typeName } :=
    ⟨rfl, rfl, rfl, nofun, fun _ => rfl, fun _ => ⟨rfl, rfl⟩⟩
  obtain ⟨last, ranLast, alike⟩ := alike.run ran
  cases ranToo.symm.trans ranLast
  exact alike.typeName (.inr typed)

theorem read_insert_iff (isElement : IsElement element.toList events) :
    (∀ front back item, InsideItem front → read (front ++ back) = .ok item → read (front ++ element ++ back) = .ok item) ↔
      typeNesting ∉ nestings [itemTag] events ∧ propertyNesting ∉ nestings [itemTag] events := by
  constructor
  · intro unaffected
    have kept (typeName : String) : ∃ builder, (gathered typeName).run events = .ok builder ∧
        builder.closed = false ∧ builder.typeName = some typeName ∧ builder.properties = .empty :=
      (read_fragment isElement).mp (unaffected _ _ _ insideItem_fragmentFront read_fragment_nil)
    obtain ⟨builder, ran, _, typeName, properties⟩ := kept "a"
    obtain ⟨other, ranOther, _, otherName, _⟩ := kept "b"
    constructor
    · intro typed
      have same := run_typed typed ran ranOther
      rw [typeName, otherName] at same
      exact absurd same (by decide)
    · intro filled
      exact run_filled ran (.inr filled) properties
  · rintro ⟨noType, noProperty⟩ front back item inside accepted
    exact read_insert inside isElement noType noProperty accepted

/-- An element of a kind that items are written with by other programs. -/
def style : String := "<Style><Color>Red</Color></Style>"

def styleEvents : List Event := [.start "Style".toList, .start "Color".toList, .text "Red".toList, .finish, .finish]

theorem isElement_style : IsElement style.toList styleEvents := .whole rfl (.next rfl (.next rfl (.next rfl .stop))) rfl

theorem read_insert_style :
    IsElement style.toList styleEvents ∧
      typeNesting ∉ nestings [itemTag] styleEvents ∧ propertyNesting ∉ nestings [itemTag] styleEvents ∧
      InsideItem (fragmentFront "Map") ∧ read (fragmentFront "Map" ++ fragmentBack) = .ok ⟨"Map", .empty⟩ ∧
      read (fragmentFront "Map" ++ style ++ fragmentBack) = .ok ⟨"Map", .empty⟩ := by
  have unaffected := (read_insert_iff isElement_style).mpr ⟨by decide, by decide⟩
  refine ⟨isElement_style, by decide, by decide, insideItem_fragmentFront, read_fragment_nil, ?_⟩
  exact unaffected _ _ _ insideItem_fragmentFront read_fragment_nil

/-- An element that no item has, around a property that is not one of the item. -/
def grouping : String :=
  "<Detail><CustomProperties><CustomProperty><Name>a</Name></CustomProperty></CustomProperties></Detail>"

def groupingEvents : List Event :=
  [.start "Detail".toList, .start "CustomProperties".toList, .start "CustomProperty".toList, .start "Name".toList,
    .text "a".toList, .finish, .finish, .finish, .finish]

theorem isElement_grouping : IsElement grouping.toList groupingEvents :=
  .whole rfl (.next rfl (.next rfl (.next rfl (.next rfl (.next rfl (.next rfl (.next rfl .stop))))))) rfl

theorem read_insert_grouping :
    IsElement grouping.toList groupingEvents ∧ InsideItem (fragmentFront "Map") ∧
      read (fragmentFront "Map" ++ fragmentBack) = .ok ⟨"Map", .empty⟩ ∧
      read (fragmentFront "Map" ++ grouping ++ fragmentBack) = .ok ⟨"Map", .ofList [("a", "")]⟩ := by
  refine ⟨isElement_grouping, insideItem_fragmentFront, read_fragment_nil, ?_⟩
  refine (read_fragment isElement_grouping).mpr ⟨?_, ?_, ?_, ?_, ?_⟩
  · exact ⟨[itemTag], [], some "Map", .ofList [("a", "")], none, none, false⟩
  all_goals rfl

end Effect

end ReportEngine.ItemMarkup

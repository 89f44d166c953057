import ReportEngine.Markup.Error
import ReportEngine.Markup.Event
import ReportEngine.Markup.Properties

/-! Custom items as a report definition holds them: a type name and properties. An element says something of
the item by its name and that of the element around it, wherever the two are. All others are passed over. -/

namespace ReportEngine

structure ItemMarkup where
  typeName : String
  properties : Properties
deriving DecidableEq, Repr

namespace ItemMarkup

open Markup

def element (tag : String) (content : String) : String :=
  "<" ++ tag ++ ">" ++ String.ofList (escape content.toList) ++ "</" ++ tag ++ ">\n"

def writeProperty (property : Property) : String :=
  "    <CustomProperty>\n      " ++ element "Name" property.name ++ "      " ++
    element "Value" property.value ++ "    </CustomProperty>\n"

def write (item : ItemMarkup) : String :=
  "<" ++ itemTag ++ ">\n  " ++ element "Type" item.typeName ++ "  <CustomProperties>\n" ++
    String.join (item.properties.entries.map writeProperty) ++ "  </CustomProperties>\n</" ++
    itemTag ++ ">"

structure Builder where
  path : List String
  text : List Char
  typeName : Option String
  properties : Properties
  name : Option String
  value : Option String
  closed : Bool

namespace Builder

def start : Builder := ⟨[], [], none, .empty, none, none, false⟩

def openElement (builder : Builder) (tag : String) : Except MarkupError Builder :=
  if builder.closed then .error (.trailingElement tag)
  else if builder.path.isEmpty && tag != itemTag then .error (.unexpectedRoot tag)
  else
    let fresh := tag == "CustomProperty"
    .ok { builder with
      path := tag :: builder.path
      text := []
      name := if fresh then none else builder.name
      value := if fresh then none else builder.value }

/-- Closes the innermost element. What it means depends on the element around it. -/
def closeElement (builder : Builder) : Except MarkupError Builder :=
  match builder.path with
  | [] => .error .unbalancedEnd
  | tag :: path =>
    let text := String.ofList builder.text
    let left := { builder with path := path, text := [] }
    match path with
    | [] => .ok { left with closed := true }
    | parent :: _ =>
      if parent = itemTag ∧ tag = "Type" then .ok { left with typeName := some text }
      else if parent = "CustomProperty" ∧ tag = "Name" then .ok { left with name := some text }
      else if parent = "CustomProperty" ∧ tag = "Value" then .ok { left with value := some text }
      else if parent = "CustomProperties" ∧ tag = "CustomProperty" then
        match left.name with
        | none => .error .namelessProperty
        | some name =>
          .ok { left with
            properties := left.properties.set name (left.value.getD "")
            name := none
            value := none }
      else .ok left

def addText (builder : Builder) (text : List Char) : Except MarkupError Builder :=
  if builder.path.isEmpty && !text.all Text.isBlank then .error .textOutside
  else .ok { builder with text := builder.text ++ text }

def tagOf (name : List Char) : String := String.ofList (localName name)

def take (builder : Builder) : Event → Except MarkupError Builder
  | .start name => builder.openElement (tagOf name)
  | .empty name => (builder.openElement (tagOf name)).bind closeElement
  | .finish => builder.closeElement
  | .text content | .cdata content => builder.addText content
  | .other => .ok builder

def finish (builder : Builder) : Except MarkupError ItemMarkup :=
  if !builder.closed then .error .unterminated
  else
    match builder.typeName with
    | none => .error .missingType
    | some typeName => .ok ⟨typeName, builder.properties⟩

end Builder

/-- Gathers an item from events. An error among them comes before malformed text after them. -/
def ofReading (reading : Reading) : Except MarkupError ItemMarkup := do
  let builder ← reading.events.foldlM Builder.take .start
  if reading.complete then builder.finish else .error .malformed

def read (text : String) : Except MarkupError ItemMarkup := ofReading (Markup.read text.toList)

end ItemMarkup

def Markup.unescape (text : String) : Except MarkupError String :=
  match unescape? text.toList with
  | some meaning => .ok (String.ofList meaning)
  | none => .error .malformed

end ReportEngine

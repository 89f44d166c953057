import ReportEngine.Text.Digits
import ReportEngine.Text.Hex

/-! Characters with a meaning in markup, and the references that stand for them in text. -/

namespace ReportEngine.Markup

/-- The predefined reference to a character that markup gives a meaning to. -/
def reference? (c : Char) : Option (List Char) :=
  if c = '<' then some "&lt;".toList
  else if c = '>' then some "&gt;".toList
  else if c = '&' then some "&amp;".toList
  else if c = '\x27' then some "&apos;".toList
  else if c = '\x22' then some "&quot;".toList
  else none

/-- Writes a text so that none of it is taken for markup. -/
def escape (text : List Char) : List Char :=
  text.flatMap fun c => (reference? c).getD [c]

private def readDecimal? (text : List Char) : Option Nat :=
  if text.isEmpty || !text.all Char.isDigit then none else some (Text.natOfDigits text)

/-- A character by its code point, which must be one of a character and not zero. -/
private def ofCodePoint? (code : Nat) : Option Char :=
  if code = 0 ∨ ¬ code.isValidChar then none else some (Char.ofNat code)

/-- What a reference stands for, given what is between its `&` and `;`. -/
def resolve? (name : List Char) : Option Char :=
  match name with
  | '#' :: 'x' :: digits => (Text.readHex? digits).bind ofCodePoint?
  | '#' :: digits => (readDecimal? digits).bind ofCodePoint?
  | _ =>
    if name = "lt".toList then some '<'
    else if name = "gt".toList then some '>'
    else if name = "amp".toList then some '&'
    else if name = "apos".toList then some '\x27'
    else if name = "quot".toList then some '\x22'
    else none

/-- Replaces references in a text. `pending` holds, last character first, what was read of a
reference that is still open. -/
def unescapeFrom (pending : Option (List Char)) : List Char → Option (List Char)
  | [] => if pending.isSome then none else some []
  | c :: rest =>
    match pending with
    | none => if c = '&' then unescapeFrom (some []) rest else (unescapeFrom none rest).map (c :: ·)
    | some name =>
      if c = ';' then
        match resolve? name.reverse with
        | some meaning => (unescapeFrom none rest).map (meaning :: ·)
        | none => none
      else if c = '&' then none
      else unescapeFrom (some (c :: name)) rest

/-- Replaces every reference in a text. Fails at one that is unknown or not closed. -/
def unescape? (text : List Char) : Option (List Char) := unescapeFrom none text

end ReportEngine.Markup

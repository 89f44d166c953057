import ReportEngine.Text.Digits
import ReportEngine.Toml.Scalar

/-! Writing documents line by line. A text is quoted in the plainest way that its characters allow, and
escaped only where there is no other. -/

namespace ReportEngine.Toml

/-- The four ways to quote a text. Those over several lines stand in three quotes on either side. -/
inductive Quoting where
  | basic
  | literal
  | basicLines
  | literalLines
deriving DecidableEq, Repr

/-- Whether a character can stand in a text over several lines only as an escape. -/
def needsCode (c : Char) : Bool := isForbidden c && c != '\n'

/-- Whether three of a quote stand next to one another. -/
def hasTriple (quote : Char) : List Char → Bool
  | [] => false
  | c :: rest => [quote, quote, quote].isPrefixOf (c :: rest) || hasTriple quote rest

def hexChar (n : Nat) : Char := (Nat.digitChar (n % 16)).toUpper

/-- A character other than a double quote, between double quotes. Line breaks stand as they are in a text
over several lines. -/
def escapeChar (overLines : Bool) (c : Char) : List Char :=
  if c = '\\' then ['\\', '\\']
  else if c = '\x08' then ['\\', 'b']
  else if c = '\t' then ['\\', 't']
  else if c = '\n' then if overLines then ['\n'] else ['\\', 'n']
  else if c = '\x0C' then ['\\', 'f']
  else if c = '\r' then ['\\', 'r']
  else if isForbidden c then ['\\', 'u', '0', '0', hexChar (c.toNat / 16), hexChar c.toNat]
  else [c]

/-- The characters between double quotes, after a run of double quotes that stand as they are. Over several
lines there may be two of them in a row, else none. -/
def escape (overLines : Bool) (run : Nat) : List Char → List Char
  | [] => []
  | c :: rest =>
    if c = '\x22' then
      if overLines && run < 2 then '\x22' :: escape overLines (run + 1) rest
      else '\\' :: '\x22' :: escape overLines 0 rest
    else escapeChar overLines c ++ escape overLines 0 rest

namespace Quoting

/-- The first way that takes the text without escapes. -/
def ofText (text : List Char) : Quoting :=
  let coded := text.any needsCode
  let escaped := text.contains '\\'
  let broken := text.contains '\n'
  if !coded && !escaped && !text.contains '\x22' && !broken then basic
  else if !coded && !text.contains '\x27' && !broken then literal
  else if !coded && !escaped && !hasTriple '\x22' text then basicLines
  else if !coded && !hasTriple '\x27' text then literalLines
  else if broken then basicLines
  else basic

/-- A text with line breaks begins on a line of its own. -/
def opening (text : List Char) : List Char := if text.contains '\n' then ['\n'] else []

def write (quoting : Quoting) (text : List Char) : List Char :=
  match quoting with
  | basic => '\x22' :: (escape false 0 text ++ ['\x22'])
  | literal => '\x27' :: (text ++ ['\x27'])
  | basicLines =>
    '\x22' :: '\x22' :: '\x22' :: (opening text ++ (escape true 0 text ++ ['\x22', '\x22', '\x22']))
  | literalLines => '\x27' :: '\x27' :: '\x27' :: (opening text ++ (text ++ ['\x27', '\x27', '\x27']))

end Quoting

/-- A value that is written on one line, or over several if it is a text with line breaks. -/
inductive Scalar where
  | string (text : String)
  | natural (n : Nat)
  | emptyArray
deriving DecidableEq, Repr

namespace Scalar

def node : Scalar → Node
  | string text => .string text
  | natural n => .integer n
  | emptyArray => .array []

def write : Scalar → List Char
  | string text => (Quoting.ofText text.toList).write text.toList
  | natural n => Text.digitsOfNat n
  | emptyArray => ['[', ']']

end Scalar

inductive Line where
  | header (key : String)
  | arrayHeader (key : String)
  | assign (key : String) (value : Scalar)
  | blank
deriving DecidableEq, Repr

namespace Line

def statement? : Line → Option Statement
  | header key => some (.header [key])
  | arrayHeader key => some (.arrayHeader [key])
  | assign key value => some (.assign [key] value.node)
  | blank => none

def write : Line → List Char
  | header key => '[' :: (key.toList ++ [']', '\n'])
  | arrayHeader key => '[' :: '[' :: (key.toList ++ [']', ']', '\n'])
  | assign key value => key.toList ++ (' ' :: '=' :: ' ' :: (value.write ++ ['\n']))
  | blank => ['\n']

end Line

def writeLines (lines : List Line) : List Char := lines.flatMap Line.write

end ReportEngine.Toml

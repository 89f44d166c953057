import ReportEngine.Toml.Scalar
import ReportEngine.Toml.Table

/-! Reading documents: first into statements, line by line, and from them into one table. -/

namespace ReportEngine.Toml

def isSpace (c : Char) : Bool := c == ' ' || c == '\t'

def skipSpaces (text : List Char) : List Char := text.dropWhile isSpace

def skipComment? (text : List Char) : Option (List Char) :=
  match text with
  | '#' :: rest =>
    let line := rest.takeWhile (· != '\n')
    let comment := if line.getLast? = some '\r' then line.dropLast else line
    if comment.any isForbidden then none else some (rest.drop comment.length)
  | _ => some text

/-- Drops what may follow a statement on its line, and the line break. -/
def endLine? (text : List Char) : Option (List Char) :=
  (skipComment? (skipSpaces text)).bind fun
    | [] => some []
    | '\n' :: rest => some rest
    | '\r' :: '\n' :: rest => some rest
    | _ => none

/-- Drops spaces, line breaks and comments, as may stand between the elements of an array. -/
def skipLines? : Nat → List Char → Option (List Char)
  | 0, text => some text
  | fuel + 1, text =>
    match skipSpaces text with
    | '\n' :: rest => skipLines? fuel rest
    | '\r' :: '\n' :: rest => skipLines? fuel rest
    | '#' :: rest => (skipComment? ('#' :: rest)).bind (skipLines? fuel)
    | rest => some rest

def isBareChar (c : Char) : Bool := c.isAlphanum || c == '_' || c == '-'

def readSimpleKey? (text : List Char) : Option (String × List Char) :=
  match text with
  | '\x22' :: rest => (readBasic? rest).map fun (key, rest) => (String.ofList key, rest)
  | '\x27' :: rest => (readLiteral? rest).map fun (key, rest) => (String.ofList key, rest)
  | _ =>
    let key := text.takeWhile isBareChar
    if key.isEmpty then none else some (String.ofList key, text.dropWhile isBareChar)

/-- Reads keys with points between them, and the spaces after them. -/
def readKey? : Nat → List Char → Option (List String × List Char)
  | 0, _ => none
  | fuel + 1, text =>
    (readSimpleKey? (skipSpaces text)).bind fun (key, rest) =>
      match skipSpaces rest with
      | '.' :: rest => (readKey? fuel rest).map fun (path, rest) => (key :: path, rest)
      | rest => some ([key], rest)

/-- How deep arrays and tables in braces may stand in one another. -/
def maxDepth : Nat := 80

mutual

/-- Reads a value in which arrays and tables in braces stand in one another at most so many levels
deep. -/
def readValue? (levels : Nat) : Nat → List Char → Option (Node × List Char)
  | 0, _ => none
  | fuel + 1, text =>
    match text with
    | '[' :: rest =>
      if levels = 0 then none
      else (readItems? (levels - 1) fuel rest).map fun (items, rest) => (.array items, rest)
    | '\x7b' :: rest =>
      if levels = 0 then none
      else (readPairs? (levels - 1) fuel rest).bind fun (pairs, rest) => (inlineTable pairs).map (·, rest)
    | '\x22' :: _ | '\x27' :: _ =>
      (readQuoted? text).map fun (content, rest) => (.string (String.ofList content), rest)
    | _ =>
      let (scalar, rest) := spanScalar text
      (readScalar? scalar).map (·, rest)

def readItems? (levels : Nat) : Nat → List Char → Option (List Node × List Char)
  | 0, _ => none
  | fuel + 1, text =>
    (skipLines? text.length text).bind fun
      | ']' :: rest => some ([], rest)
      | rest =>
        (readValue? levels fuel rest).bind fun (item, rest) =>
          (skipLines? rest.length rest).bind fun
            | ',' :: rest => (readItems? levels fuel rest).map fun (items, rest) => (item :: items, rest)
            | ']' :: rest => some ([item], rest)
            | _ => none

/-- Reads the assignments of a table in braces, from after its brace or a comma. -/
def readPairs? (levels : Nat) : Nat → List Char → Option (List (List String × Node) × List Char)
  | 0, _ => none
  | fuel + 1, text =>
    (skipLines? text.length text).bind fun
      | '\x7d' :: rest => some ([], rest)
      | rest =>
        (readPair? levels fuel rest).bind fun (pair, rest) =>
          (skipLines? rest.length rest).bind fun
            | ',' :: rest => (readPairs? levels fuel rest).map fun (pairs, rest) => (pair :: pairs, rest)
            | '\x7d' :: rest => some ([pair], rest)
            | _ => none

/-- Reads a key, an equals sign and a value in braces. Line breaks and comments may stand on either side
of the equals sign, but not between the parts of the key. -/
def readPair? (levels : Nat) : Nat → List Char → Option ((List String × Node) × List Char)
  | 0, _ => none
  | fuel + 1, text =>
    (readKey? text.length text).bind fun (path, rest) =>
      (skipLines? rest.length rest).bind fun
        | '=' :: rest =>
          (skipLines? rest.length rest).bind fun rest =>
            (readValue? levels fuel rest).map fun (value, rest) => ((path, value), rest)
        | _ => none

end

/-- Reads a key, an equals sign and a value that begins on the same line. -/
def readAssignment? (text : List Char) : Option (Statement × List Char) :=
  (readKey? text.length text).bind fun
    | (path, '=' :: rest) =>
      (readValue? maxDepth (2 * rest.length + 1) (skipSpaces rest)).map fun (value, rest) =>
        (.assign path value, rest)
    | _ => none

def readHeader? (closing text : List Char) : Option (List String × List Char) :=
  (readKey? text.length text).bind fun (path, rest) =>
    if closing.isPrefixOf rest then some (path, rest.drop closing.length) else none

/-- Reads a statement without what follows it on its line. -/
def readStatement? (text : List Char) : Option (Statement × List Char) :=
  match text with
  | '[' :: '[' :: rest =>
    (readHeader? "]]".toList rest).map fun (path, rest) => (.arrayHeader path, rest)
  | '[' :: rest => (readHeader? "]".toList rest).map fun (path, rest) => (.header path, rest)
  | _ => readAssignment? text

def readLinesOf? : Nat → List Char → Option (List Statement)
  | 0, text => if text.isEmpty then some [] else none
  | lines + 1, text =>
    match skipSpaces text with
    | [] => some []
    | first :: rest =>
      if first = '\n' ∨ first = '\r' ∨ first = '#' then
        (endLine? (first :: rest)).bind (readLinesOf? lines)
      else
        (readStatement? (first :: rest)).bind fun (statement, rest) =>
          (endLine? rest).bind fun rest => (readLinesOf? lines rest).map (statement :: ·)

/-- Reads the statements of a document. One byte order mark may stand in front of it. -/
def readStatements? (text : List Char) : Option (List Statement) :=
  match text with
  | '\uFEFF' :: rest => readLinesOf? rest.length rest
  | _ => readLinesOf? text.length text

def read? (text : List Char) : Option Entries := (readStatements? text).bind document

end ReportEngine.Toml

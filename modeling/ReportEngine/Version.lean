import ReportEngine.Text.Digits

/-! Semantic versions, and the requirements extensions place on the version of the engine. -/

namespace ReportEngine

/-- A version. `preRelease` and `build` are empty where the version has none. -/
structure Version where
  major : Nat
  minor : Nat
  patch : Nat
  preRelease : List Char
  build : List Char
deriving DecidableEq, Repr

namespace Version

open Text

def release (major minor patch : Nat) : Version := ⟨major, minor, patch, [], []⟩

def text (version : Version) : String :=
  let labelled := fun (mark : Char) (label : List Char) => if label.isEmpty then [] else mark :: label
  String.ofList (digitsOfNat version.major ++ '.' :: digitsOfNat version.minor ++
    '.' :: digitsOfNat version.patch ++ labelled '-' version.preRelease ++ labelled '+' version.build)

private def readNumber? (text : List Char) : Option (Nat × List Char) :=
  let (digits, rest) := spanDigits text
  if digits.isEmpty || (digits.length > 1 && digits.head? == some '0') then none
  else some (natOfDigits digits, rest)

private def isLabelChar (c : Char) : Bool := c.isAlphanum || c == '-'

/-- Labels are identifiers between points. Those of a pre-release that are numbers have no leading
zero. -/
private def isLabel (strict : Bool) (text : List Char) : Bool :=
  (text.splitOn '.').all fun identifier =>
    !identifier.isEmpty && identifier.all isLabelChar &&
      !(strict && identifier.length > 1 && identifier.all Char.isDigit && identifier.head? == some '0')

private def skip? (expected : Char) : List Char → Option (List Char)
  | [] => none
  | c :: rest => if c == expected then some rest else none

def read? (text : List Char) : Option Version := do
  let (major, rest) ← readNumber? text
  let (minor, rest) ← readNumber? (← skip? '.' rest)
  let (patch, rest) ← readNumber? (← skip? '.' rest)
  let beforeBuild := rest.takeWhile (· != '+')
  let build := (rest.dropWhile (· != '+')).drop 1
  if rest.contains '+' && !isLabel false build then none
  else
    match beforeBuild with
    | [] => some ⟨major, minor, patch, [], build⟩
    | '-' :: label => if isLabel true label then some ⟨major, minor, patch, label, build⟩ else none
    | _ => none

end Version

/-- One condition on a version. Parts that are left out match anything. -/
inductive Comparator where
  /-- Compatible changes only: the first part that is not zero stays. -/
  | caret (major minor : Nat)
  | atLeast (major minor : Nat)
  | below (major : Nat)
deriving DecidableEq, Repr

namespace Comparator

open Text

def text : Comparator → List Char
  | caret major minor => '^' :: digitsOfNat major ++ '.' :: digitsOfNat minor
  | atLeast major minor => '>' :: '=' :: digitsOfNat major ++ '.' :: digitsOfNat minor
  | below major => '<' :: digitsOfNat major

def admits : Comparator → Version → Bool
  | caret major minor, version =>
    version.major == major && (if 0 < major then minor ≤ version.minor else version.minor == minor)
  | atLeast major minor, version =>
    major < version.major || (version.major == major && minor ≤ version.minor)
  | below major, version => version.major < major

end Comparator

/-- Conditions that must all hold. Without any, every release is admitted. -/
structure Requirement where
  comparators : List Comparator
deriving DecidableEq, Repr

namespace Requirement

def text (requirement : Requirement) : String :=
  if requirement.comparators.isEmpty then "*"
  else String.intercalate ", " (requirement.comparators.map fun c => String.ofList c.text)

/-- A pre-release is admitted only where a condition names one, which none of these does. -/
def admits (requirement : Requirement) (version : Version) : Bool :=
  version.preRelease.isEmpty && requirement.comparators.all (·.admits version)

end Requirement

end ReportEngine

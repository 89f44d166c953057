/-! What is wrong with the markup of a custom item. -/

namespace ReportEngine

def itemTag : String := "CustomReportItem"

inductive MarkupError where
  | malformed
  | trailingElement (tag : String)
  | unexpectedRoot (tag : String)
  | unbalancedEnd
  | namelessProperty
  | textOutside
  | unterminated
  | missingType
deriving DecidableEq, Repr

namespace MarkupError

/-- The rule that was broken. Malformed markup has no wording of its own. -/
def detail? : MarkupError → Option String
  | malformed => none
  | trailingElement tag => some ("trailing element `<" ++ tag ++ ">`")
  | unexpectedRoot tag => some ("expected `<" ++ itemTag ++ ">`, found `<" ++ tag ++ ">`")
  | unbalancedEnd => some "unbalanced end tag"
  | namelessProperty => some "`<CustomProperty>` without `<Name>`"
  | textOutside => some ("text outside `<" ++ itemTag ++ ">`")
  | unterminated => some ("unterminated `<" ++ itemTag ++ ">`")
  | missingType => some "missing `<Type>`"

end MarkupError

end ReportEngine

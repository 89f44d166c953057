import ReportEngine.Error
import ReportEngine.Markup.Error
import ReportEngine.Version

/-! What can go wrong around the expressions: extensions, configuration, markup and cancellation. -/

namespace ReportEngine

inductive EngineError where
  | expression (error : ExprError)
  | extensionFailure (item message : String)
  | manifest (file : String)
  | markup (error : MarkupError)
  | unknown (detail : String)
  | extensionNotFound (name : String)
  | extensionLoad (file name : String)
  | incompatible (file name : String) (version : Version) (requirement : Requirement)
  | cancelled
deriving DecidableEq

namespace EngineError

def message? : EngineError → Option String
  | expression error => some error.message
  | extensionFailure item message =>
    some ("Custom report item '" ++ item ++ "' failed: " ++ message)
  | manifest _ => none
  | markup error =>
    error.detail?.map fun detail => "Malformed custom report item markup: " ++ detail
  | unknown detail => some ("An unknown error occurred: " ++ detail)
  | extensionNotFound name => some ("Extension with name '" ++ name ++ "' not found")
  | extensionLoad _ _ => none
  | incompatible file name version requirement =>
    some ("Compatibility check failed for extension '" ++ name ++ "' from file '" ++ file ++
      "'. Required: " ++ requirement.text ++ ", found: " ++ version.text)
  | cancelled => some "Render job was cancelled"

end EngineError

end ReportEngine

import ReportEngine.Item.Library
import ReportEngine.Item.Script

/-! The libraries known by path. Their items paint a single black pixel. -/

namespace ReportEngine.Known

private def hex (digits : String) : Uuid := (Uuid.read? digits.toList).getD .nil

private def item (uuid : String) (version : Version) (name : String) : Extension ScriptState :=
  (Script.plain [.set 0 0 .black]).extension (hex uuid) version name "Test item"

def gauge : Extension ScriptState :=
  item "3f2b8c1e-6a47-4d0e-9c55-1b7e2f0a9d31" (.release 0 3 1) "Gauge"

def sparkline : Extension ScriptState :=
  item "8d0c4e2a-91f3-4b6d-a7e8-52c9f1b3e604" (.release 1 0 0) "Sparkline"

/-- Claims an identifier that it was not asked for. -/
def impostor : Extension ScriptState :=
  { gauge with uuid := hex "00000000-0000-0000-0000-000000000bad" }

private def anyVersion : Requirement := ⟨[]⟩

def libraries : Libraries ScriptState := fun path =>
  if path = "./libplugin_good.so" then some (.ofExtensions ⟨[.caret 0 1]⟩ [gauge, sparkline])
  else if path = "./libplugin_newer.so" then
    some (.ofExtensions ⟨[.atLeast 2 0, .below 3]⟩ [gauge])
  else if path = "./libplugin_liar.so" then
    some ⟨some anyVersion, some fun uuid =>
      if uuid = gauge.uuid then .ok impostor else .error (.extensionNotFound uuid.text)⟩
  else if path = "./libplugin_noloader.so" then some ⟨some anyVersion, none⟩
  else if path = "./libplugin_nocompat.so" then some ⟨none, some fun _ => .ok gauge⟩
  else none

end ReportEngine.Known

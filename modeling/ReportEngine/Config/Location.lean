/-! Where the configuration is looked for. -/

namespace ReportEngine

/-- The variables of the environment that have a say in it. -/
structure Environment where
  configPath : Option String
  configHome : Option String
  home : Option String
deriving DecidableEq, Repr

namespace Environment

def join (path part : String) : String :=
  if path.isEmpty || path.toList.getLast? == some '/' then path ++ part else path ++ "/" ++ part

/-- A path that is set explicitly, or a fixed place below the directory for configurations. -/
def defaultPath (environment : Environment) : String :=
  match environment.configPath with
  | some path => path
  | none =>
    let directory :=
      match environment.configHome, environment.home with
      | some configHome, _ => configHome
      | none, some home => join home ".config"
      | none, none => ""
    join (join directory "rdl") "meta.toml"

end Environment

end ReportEngine

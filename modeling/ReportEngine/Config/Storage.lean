import ReportEngine.Config.Document

/-! Configurations in files. What a file system answers is left open. -/

namespace ReportEngine

/-- What is asked of a file system in the state that it is in. When it refuses, it gives a reason. -/
structure FileSystem (δ : Type) where
  read : String → δ → Except String String
  /-- Makes the directories that lead to a path and do not exist. -/
  makeParents : String → δ → Except String δ
  /-- Puts a text into a file, in place of any that it holds. -/
  write : String → String → δ → Except String δ

inductive StorageError where
  | refused (reason : String)
  | engine (error : EngineError)
deriving DecidableEq

namespace Configuration

variable {δ : Type}

def load (files : FileSystem δ) (path : String) (state : δ) : Except StorageError Configuration := do
  let text ← (files.read path state).mapError .refused
  (read text path).mapError .engine

def save (configuration : Configuration) (files : FileSystem δ) (path : String) (state : δ) :
    Except StorageError δ := do
  let ready ← (files.makeParents path state).mapError .refused
  (files.write path configuration.write ready).mapError .refused

end Configuration

end ReportEngine

import StrokeFont.File
import StrokeFont.Settings.Basic
import StrokeFont.Text.Quoted
import StrokeFont.Toml.Document

namespace StrokeFont.Settings

inductive LoadError where
  | missing (path : File.Path)
  | folder (path : File.Path)
  | nameTooLong (path : File.Path)
  | notText
  | document (cause : Toml.Error)
  | settings (cause : Fault)

def LoadError.message? : LoadError → Option String
  | missing path => some s!"render config not found: {path.toString}"
  | folder path => some s!"[Errno 21] Is a directory: {Text.quoted path.toString}"
  | nameTooLong path => some s!"[Errno 36] File name too long: {Text.quoted path.toString}"
  | notText => none
  | document cause => cause.message?
  | settings cause => some cause.message

def ofDocument (document : List (String × Value)) : Except Fault Settings :=
  ofValue ((Keyed.find? "render" document).getD (.table []))

def load (path : File.Path) : File.Entry → Except LoadError Settings
  | .missing | .vacant | .blocked | .unnameable => .error (.missing path)
  | .folder => .error (.folder path)
  | .nameTooLong => .error (.nameTooLong path)
  | .file content =>
      match String.fromUTF8? content with
      | none => .error .notText
      | some text => do
          let document ← (Toml.parse text).mapError .document
          (ofDocument document).mapError .settings

end StrokeFont.Settings

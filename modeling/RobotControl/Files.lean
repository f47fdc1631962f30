/-!
Files.

What needs files gets a `FileReader` and asks it for paths. Reading may happen in any monad, so the
same definitions serve a real file system and a table of texts.
-/

namespace RobotControl

/-- What a path leads to. -/
inductive FileContent where
  | text (content : String)
  | missing
  /-- Something is there, but it is not a text. -/
  | unreadable
deriving DecidableEq

/-- A way to read files. -/
abbrev FileReader (m : Type → Type) := String → m FileContent

end RobotControl

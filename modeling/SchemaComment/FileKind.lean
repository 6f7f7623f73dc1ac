/-
  KINDS OF FILES.

  A schema comment goes into the class that stands for the table and into the files around it.  Each
  kind of file may have a position of its own, under its own configuration key.
-/
import SchemaComment.Text.Basic

namespace SchemaComment

/-- The kinds of files that carry schema comments. -/
inductive FileKind where
  /-- The class that stands for the table. -/
  | model
  /-- A test of the class. -/
  | test
  /-- Its fixtures. -/
  | fixture
  /-- The definition of its factory. -/
  | factory
  /-- Its serializer. -/
  | serializer
  /-- Its controller. -/
  | controller
  /-- A view helper. -/
  | helper
  /-- The routes. -/
  | routes
  /-- Its registration for administration. -/
  | admin
  /-- A file matched by patterns of the user's own. -/
  | additional
deriving DecidableEq, Repr, Inhabited

namespace FileKind

/-- All kinds, in the order of their configuration keys. -/
def all : List FileKind :=
  [.model, .test, .fixture, .factory, .serializer, .controller, .helper, .routes, .admin, .additional]

theorem mem_all (k : FileKind) : k ∈ all := by cases k <;> decide

/-- The name of a kind on the command line. -/
def name : FileKind → String
  | .model => "class"
  | .test => "test"
  | .fixture => "fixture"
  | .factory => "factory"
  | .serializer => "serializer"
  | .controller => "controller"
  | .helper => "helper"
  | .routes => "routes"
  | .admin => "admin"
  | .additional => "additional"

/-- The kind of a name, which is written in lower case. -/
def ofName? (s : String) : Option FileKind := all.find? fun k => k.name == s

/-- The configuration key of the position for this kind. -/
def positionKey : FileKind → String
  | .model => "position_in_class"
  | .test => "position_in_test"
  | .fixture => "position_in_fixture"
  | .factory => "position_in_factory"
  | .serializer => "position_in_serializer"
  | .controller => "position_in_controller"
  | .helper => "position_in_helper"
  | .routes => "position_in_routes"
  | .admin => "position_in_admin"
  | .additional => "position_in_additional_file_patterns"

/-- A kind is found under its name. -/
theorem ofName?_name (k : FileKind) : ofName? k.name = some k := by cases k <;> decide

end FileKind
end SchemaComment

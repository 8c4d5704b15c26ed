/-!
Display text of structured values: records with named fields, lists and keyed maps.
Every diagnostic text of the library is put together from these four forms, so the spacing and
the brackets are decided here once.
-/
namespace TaskMemory.Text

/-- The text of a record that shows all of its fields. -/
def record (name : String) (fields : List (String × String)) : String :=
  name ++ " \x7b " ++ ", ".intercalate (fields.map fun f => f.1 ++ ": " ++ f.2) ++ " \x7d"

/-- The text of a record that keeps some fields to itself: the shown ones are followed by two
dots. -/
def openRecord (name : String) (fields : List (String × String)) : String :=
  name ++ " \x7b " ++ ", ".intercalate (fields.map (fun f => f.1 ++ ": " ++ f.2) ++ [".."]) ++
    " \x7d"

def list (items : List String) : String := "[" ++ ", ".intercalate items ++ "]"

/-- A text between double quotes. It is only used on names, which hold nothing that would need
an escape. -/
def quoted (s : String) : String := "\"" ++ s ++ "\""

/-- The text of a map in one line, entries in the given order. -/
def map (entries : List (String × String)) : String :=
  "\x7b" ++ ", ".intercalate (entries.map fun e => e.1 ++ ": " ++ e.2) ++ "\x7d"

/-- The text of a map with one entry a line, each indented by four blanks and closed by a comma.
An empty map stays on one line. -/
def mapLines (entries : List (String × String)) : String :=
  match entries with
  | [] => "\x7b\x7d"
  | _ => "\x7b\n" ++ String.join (entries.map fun e => "    " ++ e.1 ++ ": " ++ e.2 ++ ",\n") ++
      "\x7d"

def bool : Bool → String
  | true => "true"
  | false => "false"

end TaskMemory.Text

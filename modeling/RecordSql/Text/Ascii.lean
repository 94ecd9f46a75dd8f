/-!
# Letter case

Keywords are compared without regard to case, and case is that of the twenty-six ASCII letters
alone: no word the library looks for contains a letter that another script folds to.
-/

namespace RecordSql.Text

/-- The characters with ASCII letters in lower case. -/
def lower (cs : List Char) : List Char := cs.map Char.toLower

/-- The characters with ASCII letters in upper case. -/
def upper (cs : List Char) : List Char := cs.map Char.toUpper

/-- A string with ASCII letters in lower case. -/
def lowerCase (s : String) : String := String.ofList (lower s.toList)

/-- A string with ASCII letters in upper case. -/
def upperCase (s : String) : String := String.ofList (upper s.toList)

end RecordSql.Text

import RecordSql.Json.Basic

/-!
# Printing JSON

Values are printed without any space. In strings only what must be escaped is: the quote, the
backslash and the controls below U+0020, five of which have a letter of their own.
-/

namespace RecordSql.Json

/-- A character below U+0020 that has no letter, by its number in four digits. -/
def controlEscape (c : Char) : List Char :=
  let digits := Nat.toDigits 16 c.toNat
  ['\\', 'u'] ++ List.replicate (4 - digits.length) '0' ++ digits

/-- A character inside a JSON string. -/
def escapeChar (c : Char) : List Char :=
  if c = '"' then ['\\', '"']
  else if c = '\\' then ['\\', '\\']
  else if c = '\x08' then ['\\', 'b']
  else if c = '\t' then ['\\', 't']
  else if c = '\n' then ['\\', 'n']
  else if c = '\x0c' then ['\\', 'f']
  else if c = '\r' then ['\\', 'r']
  else if c.toNat < 0x20 then controlEscape c
  else [c]

/-- A string as a JSON string. -/
def quoted (s : String) : List Char := '"' :: s.toList.flatMap escapeChar ++ ['"']

mutual

/-- The characters of the compact text of a value. -/
def chars : Json → List Char
  | .null => ['n', 'u', 'l', 'l']
  | .bool true => ['t', 'r', 'u', 'e']
  | .bool false => ['f', 'a', 'l', 's', 'e']
  | .number n => n.text.toList
  | .string s => quoted s
  | .array items => '[' :: itemChars items ++ [']']
  | .object members => '{' :: memberChars members ++ ['}']

/-- The items of an array, with commas between them. -/
def itemChars : List Json → List Char
  | [] => []
  | [value] => chars value
  | value :: rest => chars value ++ ',' :: itemChars rest

/-- The members of an object, with commas between them. -/
def memberChars : List (String × Json) → List Char
  | [] => []
  | [(name, value)] => quoted name ++ ':' :: chars value
  | (name, value) :: rest => quoted name ++ ':' :: chars value ++ ',' :: memberChars rest

end

/-- The compact text of a value. -/
def text (value : Json) : String := String.ofList (chars value)

end RecordSql.Json

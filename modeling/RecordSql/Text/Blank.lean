/-!
# Blank characters

What counts as blank space around a value, and the trimming that goes by it. Every reader of the
library that forgives surrounding space forgives exactly this set:

* a character is **blank** when it has the Unicode property `White_Space`;
* **trimming** drops the blanks at both ends and nothing between them.
-/

namespace RecordSql.Text

/-- The characters with the Unicode property `White_Space`, in code point order. -/
def blanks : List Char :=
  ['\t', '\n', '\x0b', '\x0c', '\r', ' ', '\x85', '\xa0', '\u1680',
   '\u2000', '\u2001', '\u2002', '\u2003', '\u2004', '\u2005', '\u2006', '\u2007', '\u2008',
   '\u2009', '\u200a', '\u2028', '\u2029', '\u202f', '\u205f', '\u3000']

/-- Whether a character is blank. -/
def isBlank (c : Char) : Bool := blanks.contains c

/-- The text without its leading blanks. -/
def trimStart (cs : List Char) : List Char := cs.dropWhile isBlank

/-- The text without its trailing blanks. -/
def trimEnd (cs : List Char) : List Char := (cs.reverse.dropWhile isBlank).reverse

/-- The text without the blanks at either end. -/
def trim (cs : List Char) : List Char := trimEnd (trimStart cs)

/-- A string without the blanks at either end. -/
def strip (s : String) : String := String.ofList (trim s.toList)

end RecordSql.Text

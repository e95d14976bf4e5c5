set_option autoImplicit false

namespace ScopedQuery.Text

def backtick : Char := '\x60'

def doubleQuote : Char := '\x22'

def singleQuote : Char := '\x27'

def backslash : Char := '\x5c'

def isWordChar (c : Char) : Bool := c.isAlphanum || c == '_'

def isDigits (cs : List Char) : Bool := !cs.isEmpty && cs.all Char.isDigit

def lowerAscii (cs : List Char) : List Char := cs.map Char.toLower

/-- Simple case folding onto the ASCII letters: two letters from outside ASCII fold into it, the
long s and the Kelvin sign. -/
def foldLetter (c : Char) : Char :=
  if c == '\u017f' then 's' else if c == '\u212a' then 'k' else c.toLower

/-- Lower case as far as an ASCII keyword can tell: the Kelvin sign is the one character outside
ASCII whose lower case is an ASCII letter. -/
def lowerLetter (c : Char) : Char := if c == '\u212a' then 'k' else c.toLower

def equalAscii (a b : List Char) : Bool := lowerAscii a == lowerAscii b

def afterFolded? (fold : Char → Char) : List Char → List Char → Option (List Char)
  | [], cs => some cs
  | _ :: _, [] => none
  | w :: ws, c :: cs => if fold c == w then afterFolded? fold ws cs else none

def after? (head cs : List Char) : Option (List Char) := afterFolded? id head cs

def doubling (c : Char) (cs : List Char) : List Char :=
  cs.flatMap fun x => if x == c then [c, c] else [x]

end ScopedQuery.Text

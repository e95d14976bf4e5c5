set_option autoImplicit false

namespace ScopedQuery.Text

/-- The twenty-five characters with the Unicode property White_Space. -/
def isBlank (c : Char) : Bool :=
  let n := c.toNat
  (9 ≤ n && n ≤ 13) || n == 0x20 || n == 0x85 || n == 0xA0 || n == 0x1680 ||
    (0x2000 ≤ n && n ≤ 0x200A) || n == 0x2028 || n == 0x2029 || n == 0x202F || n == 0x205F ||
    n == 0x3000

/-- The four blanks that separate the parts of a function call. -/
def isLayout (c : Char) : Bool :=
  c == ' ' || c == '\t' || c == '\r' || c == '\n'

def trimLeft (cs : List Char) : List Char := cs.dropWhile isBlank

def trimRight (cs : List Char) : List Char := (cs.reverse.dropWhile isBlank).reverse

def trim (cs : List Char) : List Char := trimRight (trimLeft cs)

def isBlankText (cs : List Char) : Bool := cs.all isBlank

def endsWord : List Char → Bool
  | [] => true
  | c :: _ => isBlank c

def words : List Char → List (List Char)
  | [] => []
  | c :: r =>
    if isBlank c then words r
    else if endsWord r then [c] :: words r
    else match words r with
      | w :: ws => (c :: w) :: ws
      | [] => [[c]]

theorem length_dropWhile_le (p : Char → Bool) (cs : List Char) :
    (cs.dropWhile p).length ≤ cs.length :=
  (List.dropWhile_sublist p).length_le

theorem length_trimLeft_le (cs : List Char) : (trimLeft cs).length ≤ cs.length :=
  length_dropWhile_le _ cs

theorem length_trimRight_le (cs : List Char) : (trimRight cs).length ≤ cs.length := by
  simpa [trimRight] using length_dropWhile_le isBlank cs.reverse

theorem length_trim_le (cs : List Char) : (trim cs).length ≤ cs.length :=
  Nat.le_trans (length_trimRight_le _) (length_trimLeft_le cs)

end ScopedQuery.Text

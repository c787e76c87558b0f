/-!
# Blank characters and trimming

The blank characters are the twenty-five with the Unicode property
White_Space.  `trim` takes them off both ends of a text and `trimEnd`
off the end alone; neither looks at a blank inside the text.
-/

namespace PooledRouting.Text

/-- The characters with the Unicode property White_Space. -/
def isBlank (c : Char) : Bool :=
  let n := c.toNat
  (9 ≤ n && n ≤ 13) || n == 0x20 || n == 0x85 || n == 0xA0 ||
    n == 0x1680 || (0x2000 ≤ n && n ≤ 0x200A) || n == 0x2028 ||
    n == 0x2029 || n == 0x202F || n == 0x205F || n == 0x3000

/-- The text without its leading blanks. -/
def trimStart (cs : List Char) : List Char :=
  cs.dropWhile isBlank

/-- The text without its trailing blanks. -/
def trimEnd (cs : List Char) : List Char :=
  (cs.reverse.dropWhile isBlank).reverse

/-- The text without the blanks at either end. -/
def trim (cs : List Char) : List Char :=
  trimEnd (trimStart cs)

end PooledRouting.Text

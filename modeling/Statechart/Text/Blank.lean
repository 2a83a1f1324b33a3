/-!
# `Statechart.Text.Blank`: white space

The characters with the white space property.
-/

set_option autoImplicit false

namespace Statechart

/-- Whether a character is white space. -/
def isWhite (c : Char) : Bool :=
  let n := c.toNat
  (0x9 ≤ n && n ≤ 0xd) || n = 0x20 || n = 0x85 || n = 0xa0 || n = 0x1680
    || (0x2000 ≤ n && n ≤ 0x200a) || n = 0x2028 || n = 0x2029 || n = 0x202f || n = 0x205f
    || n = 0x3000

/-- A text without the white space in front. -/
def skipWhite (text : List Char) : List Char :=
  text.dropWhile isWhite

end Statechart

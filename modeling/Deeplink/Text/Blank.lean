import Deeplink.Text

/-!
# Blanks

- `CodePoint.isWhiteSpace`: the property White_Space.
- `CodePoint.isSeparating`: white space and the four information separators.
-/

namespace Deeplink.CodePoint

/-- The code points with the property White_Space. -/
def isWhiteSpace (c : CodePoint) : Bool :=
  let n := c.toNat
  (0x9 ≤ n && n ≤ 0xD) || n = 0x20 || n = 0x85 || n = 0xA0 || n = 0x1680
    || (0x2000 ≤ n && n ≤ 0x200A) || n = 0x2028 || n = 0x2029 || n = 0x202F || n = 0x205F
    || n = 0x3000

/-- White space, and the information separators `U+001C` to `U+001F`. -/
def isSeparating (c : CodePoint) : Bool :=
  c.isWhiteSpace || (0x1C ≤ c.toNat && c.toNat ≤ 0x1F)

end Deeplink.CodePoint

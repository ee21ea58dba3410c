/-!
# Blanks and control characters

Names are compared, and numbers read, after the blanks around them are gone. A blank is a
character with the Unicode property White_Space; a control character is one of category Cc.
-/

namespace Strongbox.Text

/-- The Unicode property White_Space. -/
def isBlank (c : Char) : Bool :=
  let n := c.toNat
  (9 ≤ n && n ≤ 13) || n == 0x20 || n == 0x85 || n == 0xA0 || n == 0x1680
    || (0x2000 ≤ n && n ≤ 0x200A) || n == 0x2028 || n == 0x2029 || n == 0x202F
    || n == 0x205F || n == 0x3000

/-- The Unicode category Cc: the C0 controls, DEL and the C1 controls. -/
def isControl (c : Char) : Bool :=
  let n := c.toNat
  n < 0x20 || (0x7F ≤ n && n ≤ 0x9F)

/-- The characters after the leading blanks. -/
def dropBlanks (chars : List Char) : List Char := chars.dropWhile isBlank

/-- The characters without the blanks at either end. -/
def trimChars (chars : List Char) : List Char :=
  (dropBlanks (dropBlanks chars).reverse).reverse

/-- The text without the blanks at either end. -/
def trim (text : String) : String := String.ofList (trimChars text.toList)

/-- The lower-case form of the ASCII letters; every other character stays. -/
def foldCase (text : String) : List Char := text.toList.map Char.toLower

/-- Equality of texts in which the case of ASCII letters does not count. -/
def sameIgnoringCase (a b : String) : Bool := foldCase a == foldCase b

end Strongbox.Text

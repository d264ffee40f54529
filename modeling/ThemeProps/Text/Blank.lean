/-
  Blank characters: the spaces, line breaks and separators that count as white
  space in templates, and trimming a text of them.

  * `isBlank` takes the Unicode white space together with the four information
    separators U+001C to U+001F;
  * `trim` drops the blanks at both ends of a text.
-/
import ThemeProps.Text.Basic

namespace ThemeProps.Text

/-- The ranges of the blank characters. -/
def blankRanges : List (Nat × Nat) :=
  [(0x9, 0xD), (0x1C, 0x20), (0x85, 0x85), (0xA0, 0xA0), (0x1680, 0x1680), (0x2000, 0x200A),
   (0x2028, 0x2029), (0x202F, 0x202F), (0x205F, 0x205F), (0x3000, 0x3000)]

/-- The character is a space, a line break or a separator. -/
def isBlank (c : Char) : Bool := inRanges blankRanges c

/-- The text after its leading blanks. -/
def trimStart (s : Text) : Text := s.dropWhile isBlank

/-- The text before its trailing blanks. -/
def trimEnd (s : Text) : Text := (s.reverse.dropWhile isBlank).reverse

/-- The text between its leading and its trailing blanks. -/
def trim (s : Text) : Text := trimEnd (trimStart s)

end ThemeProps.Text

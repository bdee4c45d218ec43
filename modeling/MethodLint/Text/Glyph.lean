import MethodLint.Text.Blank
import MethodLint.Text.Extending
import MethodLint.Text.Unassigned

/-!
# Characters with a glyph of their own

A character can be shown in a line of text if it has a glyph that stands by
itself.  Blanks other than the space have none, nor have controls, format
characters, fillers and other ignorable characters, characters for private
use, and code points without a character.  Extending characters join the one
before them, but for the two halfwidth sound marks, which take a place of
their own.
-/

namespace MethodLint
namespace Text

def controls : Ranges :=
  [(0x0, 0x1F), (0x7F, 0x9F)]

def formats : Ranges :=
  [(0xAD, 0xAD), (0x600, 0x605), (0x61C, 0x61C), (0x6DD, 0x6DD), (0x70F, 0x70F),
    (0x890, 0x891), (0x8E2, 0x8E2), (0x180E, 0x180E), (0x200B, 0x200F),
    (0x202A, 0x202E), (0x2060, 0x2064), (0x2066, 0x206F), (0xFEFF, 0xFEFF),
    (0xFFF9, 0xFFFB), (0x110BD, 0x110BD), (0x110CD, 0x110CD),
    (0x13430, 0x1343F), (0x1BCA0, 0x1BCA3), (0x1D173, 0x1D17A),
    (0xE0001, 0xE0001), (0xE0020, 0xE007F)]

def privates : Ranges :=
  [(0xE000, 0xF8FF), (0xF0000, 0xFFFFD), (0x100000, 0x10FFFD)]

/-- Characters that show nothing where they are not supported. -/
def ignorable : Ranges :=
  [(0xAD, 0xAD), (0x34F, 0x34F), (0x61C, 0x61C), (0x115F, 0x1160),
    (0x17B4, 0x17B5), (0x180B, 0x180F), (0x200B, 0x200F), (0x202A, 0x202E),
    (0x2060, 0x206F), (0x3164, 0x3164), (0xFE00, 0xFE0F), (0xFEFF, 0xFEFF),
    (0xFFA0, 0xFFA0), (0xFFF0, 0xFFF8), (0x1BCA0, 0x1BCA3), (0x1D173, 0x1D17A),
    (0xE0000, 0xE0FFF)]

def soundMarks : Ranges :=
  [(0xFF9E, 0xFF9F)]

/-- The character has a glyph that stands by itself, or is the space. -/
def hasGlyph (c : Char) : Bool :=
  c == ' ' ||
    !(isBlank c || controls.has c || formats.has c || privates.has c ||
      ignorable.has c || unassigned.has c ||
      (extending.has c && !soundMarks.has c))

end Text
end MethodLint

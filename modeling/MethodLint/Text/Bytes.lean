/-!
# Texts as bytes

Offsets and columns count the bytes of a text in UTF-8.  A line ends after a
line feed; no other character ends one.
-/

namespace MethodLint
namespace Text

def bytes (text : String) : List UInt8 :=
  text.toByteArray.data.toList

/-- The byte that ends a line. -/
def lineFeed : UInt8 :=
  10

def lineFeeds (bs : List UInt8) : Nat :=
  bs.count lineFeed

/-- The number of bytes after the last line feed, or of all if there is none. -/
def tailLength (bs : List UInt8) : Nat :=
  (bs.reverse.takeWhile fun b => b ≠ lineFeed).length

def byteLength : List Char → Nat
  | [] => 0
  | c :: rest => c.utf8Size + byteLength rest

end Text
end MethodLint

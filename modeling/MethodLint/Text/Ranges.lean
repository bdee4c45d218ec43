/-!
# Ranges of code points

A property of characters is given by the ranges of code points that have it.
-/

namespace MethodLint
namespace Text

/-- Ranges of code points, both ends included. -/
abbrev Ranges : Type :=
  List (Nat × Nat)

namespace Ranges

def has (ranges : Ranges) (c : Char) : Bool :=
  ranges.any fun (first, last) => first ≤ c.toNat && c.toNat ≤ last

end Ranges

end Text
end MethodLint

/-!
# Templates with numbered placeholders

A placeholder is a numeral between braces.  Filling a template goes argument
by argument: argument `i` takes the place of every placeholder `i` of the text
so far.  A placeholder that one argument brings in is therefore filled by a
later argument, and never by an earlier one.

**Algorithm.**  `replace` works from left to right and does not look again at
what it has put in; the number of characters still to be skipped after a hit
is carried along, so that the recursion is on the text.
-/

namespace MethodLint
namespace Template

/--
Replace the occurrences of `target` in the text by `filling`, from left to
right and without overlap, after leaving out the first `skip` characters.
-/
def replaceAfter (target filling : List Char) : Nat → List Char → List Char
  | _, [] => []
  | skip + 1, _ :: rest =>
      replaceAfter target filling skip rest
  | 0, c :: rest =>
      if target.isPrefixOf (c :: rest) then
        filling ++ replaceAfter target filling (target.length - 1) rest
      else
        c :: replaceAfter target filling 0 rest

/-- Replace every occurrence of `target`, from left to right. -/
def replace (target filling text : List Char) : List Char :=
  replaceAfter target filling 0 text

/-- The placeholder of argument `index`: its decimal numeral between braces. -/
def placeholder (index : Nat) : List Char :=
  '\x7b' :: (Nat.toDigits 10 index ++ ['\x7d'])

/-- Fill in the arguments one after another; the first has the number `index`. -/
def fillFrom : Nat → List (List Char) → List Char → List Char
  | _, [], text => text
  | index, argument :: rest, text =>
      fillFrom (index + 1) rest (replace (placeholder index) argument text)

/-- The template with all its arguments filled in. -/
def fill (template : String) (arguments : List String) : String :=
  String.ofList
    (fillFrom 0 (arguments.map String.toList) template.toList)

end Template
end MethodLint

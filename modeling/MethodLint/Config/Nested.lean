import MethodLint.Config.Numeral

/-!
# Values of any kind

A severity may be given by any value, and is looked at only when the whole
value has been read.  Lists and objects are read down to a number of levels.

**Algorithm.**  The reader of one level is made from the reader of the level
below it.  Within a list or an object, each item takes at least one character,
so the number of characters bounds the number of items.
-/

namespace MethodLint
namespace Config

/-- A value that is neither a list nor an object, at the front of a text. -/
def scalar : Reader Value
  | [] => .error (.here .endInValue [])
  | c :: rest =>
      if c = 'n' then
        (word ['u', 'l', 'l'] rest).map fun s => (.null, s)
      else if c = 't' then
        (word ['r', 'u', 'e'] rest).map fun s => (.bool true, s)
      else if c = 'f' then
        (word ['a', 'l', 's', 'e'] rest).map fun s => (.bool false, s)
      else if c = '"' then
        (quotedText rest).map fun (text, s) => (.text text, s)
      else if c = '-' || c.isDigit then
        number (c :: rest)
      else
        .error (.ahead .valueExpected (c :: rest))

/-- A key, which is a quoted text. -/
def key : Reader String
  | '"' :: rest => quotedText rest
  | s => .error (.ahead .keyExpected s)

/--
The next key of an object, if one comes before its end.  Every key but the
first follows a comma.
-/
def nextKey (first : Bool) (s : List Char) :
    Except Fault (Option String × List Char) :=
  match skipGap s with
  | [] => .error (.here .endInObject [])
  | c :: rest =>
      if c = '\x7d' then
        .ok (none, c :: rest)
      else if first then
        (key (c :: rest)).map fun (text, s) => (some text, s)
      else if c = ',' then
        match skipGap rest with
        | [] => .error (.here .endInValue [])
        | d :: rest =>
            if d = '\x7d' then
              .error (.ahead .commaTrailing (d :: rest))
            else
              (key (d :: rest)).map fun (text, s) => (some text, s)
      else
        .error (.ahead .commaOrBraceExpected (c :: rest))

/-- The rest after the colon between a key and its value. -/
def colon (s : List Char) : Except Fault (List Char) :=
  match skipGap s with
  | [] => .error (.here .endInObject [])
  | c :: rest =>
      if c = ':' then
        .ok rest
      else
        .error (.ahead .colonExpected (c :: rest))

/--
Whether another element of a list comes before its end, and where it begins.
Every element but the first follows a comma.
-/
def nextElement (first : Bool) (s : List Char) :
    Except Fault (Bool × List Char) :=
  match skipGap s with
  | [] => .error (.here .endInList [])
  | c :: rest =>
      if c = ']' then
        .ok (false, c :: rest)
      else if first then
        .ok (true, c :: rest)
      else if c = ',' then
        match skipGap rest with
        | [] => .error (.here .endInValue [])
        | d :: rest =>
            if d = ']' then
              .error (.ahead .commaTrailing (d :: rest))
            else
              .ok (true, d :: rest)
      else
        .error (.ahead .commaOrBracketExpected (c :: rest))

/-- The end of a list or an object: whether it is there, and what is unread. -/
abbrev Closing : Type :=
  List Char → Option Fault × List Char

def closeObject : Closing := fun s =>
  match skipGap s with
  | [] => (some (.here .endInObject []), [])
  | c :: rest =>
      if c = '\x7d' then
        (none, rest)
      else if c = ',' then
        (some (.ahead .commaTrailing (c :: rest)), c :: rest)
      else
        (some (.ahead .textTrailing (c :: rest)), c :: rest)

/-- The end of a list.  A comma is taken before what follows it is judged. -/
def closeList : Closing := fun s =>
  match skipGap s with
  | [] => (some (.here .endInList []), [])
  | c :: rest =>
      if c = ']' then
        (none, rest)
      else if c = ',' then
        match skipGap rest with
        | [] => (some (.here .textTrailing []), [])
        | d :: rest =>
            if d = ']' then
              (some (.ahead .commaTrailing (d :: rest)), d :: rest)
            else
              (some (.ahead .textTrailing (d :: rest)), d :: rest)
      else
        (some (.ahead .textTrailing (c :: rest)), c :: rest)

def close (closing : Closing) (s : List Char) : Except Fault (List Char) :=
  match closing s with
  | (none, rest) => .ok rest
  | (some fault, _) => .error fault

/-- The rest after the elements of a list, of which there are at most `fuel`. -/
def elements (item : Reader Value) :
    Nat → Bool → List Char → Except Fault (List Char)
  | 0, _, _ => .error (.here .endInList [])
  | fuel + 1, first, s =>
      match nextElement first s with
      | .error fault => .error fault
      | .ok (false, rest) => .ok rest
      | .ok (true, rest) =>
          match item rest with
          | .error fault => .error fault
          | .ok (_, rest) => elements item fuel false rest

/-- A member after its key: a colon and a value. -/
def member (item : Reader Value) : Reader Value := fun s =>
  match colon s with
  | .error fault => .error fault
  | .ok rest => item rest

/-- The rest after the members of an object, of which there are at most `fuel`. -/
def members (item : Reader Value) :
    Nat → Bool → List Char → Except Fault (List Char)
  | 0, _, _ => .error (.here .endInObject [])
  | fuel + 1, first, s =>
      match nextKey first s with
      | .error fault => .error fault
      | .ok (none, rest) => .ok rest
      | .ok (some _, rest) =>
          match member item rest with
          | .error fault => .error fault
          | .ok (_, rest) => members item fuel false rest

/-- The items of a list and its end, read after its opening bracket. -/
def listRest (item : Reader Value) (s : List Char) :
    Except Fault (List Char) :=
  match elements item (s.length + 1) true s with
  | .error fault => .error fault
  | .ok rest => close closeList rest

/-- The members of an object and its end, read after its opening brace. -/
def objectRest (item : Reader Value) (s : List Char) :
    Except Fault (List Char) :=
  match members item (s.length + 1) true s with
  | .error fault => .error fault
  | .ok rest => close closeObject rest

/-- A value whose lists and objects hold items of the level below, if any. -/
def valueOver (below : Option (Reader Value)) : Reader Value := fun s =>
  match skipGap s with
  | [] => .error (.here .endInValue [])
  | c :: rest =>
      if c = '[' then
        match below with
        | none => .error (.ahead .nestingTooDeep (c :: rest))
        | some item => (listRest item rest).map fun s => (.list, s)
      else if c = '\x7b' then
        match below with
        | none => .error (.ahead .nestingTooDeep (c :: rest))
        | some item => (objectRest item rest).map fun s => (.object, s)
      else
        scalar (c :: rest)

/-- A value with lists and objects down to the given number of levels. -/
def value : Nat → Reader Value
  | 0 => valueOver none
  | levels + 1 => valueOver (some (value levels))

end Config
end MethodLint

import MethodLint.Config.Fault

/-!
# Words and quoted texts

A reader takes the characters that are still unread, and gives a value with
what is left, or a fault.  It looks at no more than it needs: what follows a
word or a closing quote is the business of the next reader.
-/

namespace MethodLint
namespace Config

/-- A step of reading: what was read, and the rest. -/
abbrev Reader (α : Type) : Type :=
  List Char → Except Fault (α × List Char)

/-- The characters that may stand between the parts of a settings text. -/
def isGap (c : Char) : Bool :=
  c == ' ' || c == '\t' || c == '\n' || c == '\r'

/-- The text from its first character that is no gap. -/
def skipGap (s : List Char) : List Char :=
  s.dropWhile isGap

/-- The rest after the given letters, which must come next. -/
def word : List Char → List Char → Except Fault (List Char)
  | [], rest => .ok rest
  | _ :: _, [] => .error (.here .endInValue [])
  | letter :: letters, c :: rest =>
      if c = letter then
        word letters rest
      else
        .error (.ahead .wordMisspelled (c :: rest))

def hexValue? (c : Char) : Option Nat :=
  if '0' ≤ c && c ≤ '9' then
    some (c.toNat - '0'.toNat)
  else if 'a' ≤ c && c ≤ 'f' then
    some (c.toNat - 'a'.toNat + 10)
  else if 'A' ≤ c && c ≤ 'F' then
    some (c.toNat - 'A'.toNat + 10)
  else
    none

/-- The number written by four hexadecimal digits. -/
def hexNumber? (a b c d : Char) : Option Nat := do
  let a ← hexValue? a
  let b ← hexValue? b
  let c ← hexValue? c
  let d ← hexValue? d
  return ((a * 16 + b) * 16 + c) * 16 + d

/-- The fault of a text that does not go on with four hexadecimal digits. -/
def hexFault (s : List Char) : Fault :=
  if Text.byteLength s < 4 then
    .here .endInText []
  else
    ⟨.escapeUnknown, Text.byteLength s - 4⟩

def hexQuad : Reader Nat
  | a :: b :: c :: d :: rest =>
      match hexNumber? a b c d with
      | some n => .ok (n, rest)
      | none => .error (hexFault (a :: b :: c :: d :: rest))
  | s => .error (hexFault s)

/-- The rest after a character that has to follow the first half of a pair. -/
def pairMark (mark : Char) : List Char → Except Fault (List Char)
  | [] => .error (.here .endInText [])
  | c :: rest =>
      if c = mark then
        .ok rest
      else
        .error (.ahead .surrogateCutOff (c :: rest))

/-- The two characters that introduce the second half of a pair. -/
def pairMarks (s : List Char) : Except Fault (List Char) :=
  match pairMark '\\' s with
  | .error fault => .error fault
  | .ok rest => pairMark 'u' rest

/-- The second half of a surrogate pair, with its own escape. -/
def lowSurrogate (s : List Char) : Except Fault (Nat × List Char) :=
  match pairMarks s with
  | .error fault => .error fault
  | .ok rest =>
      match hexQuad rest with
      | .error fault => .error fault
      | .ok (low, rest) =>
          if 0xDC00 ≤ low && low ≤ 0xDFFF then
            .ok (low, rest)
          else
            .error (.here .surrogateAlone rest)

/-- The character that the two halves of a surrogate pair stand for. -/
def pairChar (high low : Nat) : Char :=
  .ofNat (0x10000 + (high - 0xD800) * 0x400 + (low - 0xDC00))

/-- The character of a numbered escape, read after its letter. -/
def numberedEscape (s : List Char) : Except Fault (Char × List Char) :=
  match hexQuad s with
  | .error fault => .error fault
  | .ok (unit, rest) =>
      if 0xDC00 ≤ unit && unit ≤ 0xDFFF then
        .error (.here .surrogateAlone rest)
      else if 0xD800 ≤ unit && unit ≤ 0xDBFF then
        match lowSurrogate rest with
        | .error fault => .error fault
        | .ok (low, rest) => .ok (pairChar unit low, rest)
      else
        .ok (.ofNat unit, rest)

/-- The character that a one-letter escape stands for. -/
def shortEscape? : Char → Option Char
  | '"' => some '"'
  | '\\' => some '\\'
  | '/' => some '/'
  | 'b' => some '\x08'
  | 'f' => some '\x0c'
  | 'n' => some '\n'
  | 'r' => some '\r'
  | 't' => some '\t'
  | _ => none

/-- The character of an escape, read after its backslash. -/
def escape : Reader Char
  | [] => .error (.here .endInText [])
  | c :: rest =>
      if c = 'u' then
        numberedEscape rest
      else
        match shortEscape? c with
        | some meant => .ok (meant, rest)
        | none => .error (.ahead .escapeUnknown (c :: rest))

theorem hexQuad_length {s rest : List Char} {n : Nat}
    (h : hexQuad s = .ok (n, rest)) : rest.length < s.length := by
  unfold hexQuad at h
  split at h
  · split at h
    · simp only [Except.ok.injEq, Prod.mk.injEq] at h
      obtain ⟨_, rfl⟩ := h
      simp only [List.length_cons]
      omega
    · simp at h
  · simp at h

theorem pairMark_length {mark : Char} {s rest : List Char}
    (h : pairMark mark s = .ok rest) : rest.length < s.length := by
  unfold pairMark at h
  split at h
  · simp at h
  · split at h
    · simp only [Except.ok.injEq] at h
      subst h
      simp
    · simp at h

theorem pairMarks_length {s rest : List Char}
    (h : pairMarks s = .ok rest) : rest.length < s.length := by
  unfold pairMarks at h
  split at h
  · simp at h
  · next between hbetween =>
      have hfirst := pairMark_length hbetween
      have hsecond := pairMark_length h
      omega

theorem lowSurrogate_length {s rest : List Char} {low : Nat}
    (h : lowSurrogate s = .ok (low, rest)) : rest.length < s.length := by
  unfold lowSurrogate at h
  split at h
  · simp at h
  · next afterMarks hmarks =>
      have hm := pairMarks_length hmarks
      split at h
      · simp at h
      · next n afterQuad hquad =>
          have hq := hexQuad_length hquad
          split at h
          · simp only [Except.ok.injEq, Prod.mk.injEq] at h
            obtain ⟨_, rfl⟩ := h
            omega
          · simp at h

theorem numberedEscape_length {s rest : List Char} {c : Char}
    (h : numberedEscape s = .ok (c, rest)) : rest.length < s.length := by
  unfold numberedEscape at h
  split at h
  · simp at h
  · next unit afterQuad hquad =>
      have hq := hexQuad_length hquad
      split at h
      · simp at h
      · split at h
        · split at h
          · simp at h
          · next low afterPair hpair =>
              have hp := lowSurrogate_length hpair
              simp only [Except.ok.injEq, Prod.mk.injEq] at h
              obtain ⟨_, rfl⟩ := h
              omega
        · simp only [Except.ok.injEq, Prod.mk.injEq] at h
          obtain ⟨_, rfl⟩ := h
          exact hq

theorem escape_length {s rest : List Char} {c : Char}
    (h : escape s = .ok (c, rest)) : rest.length < s.length := by
  unfold escape at h
  split at h
  · simp at h
  · split at h
    · have := numberedEscape_length h
      simp only [List.length_cons]
      omega
    · split at h
      · simp only [Except.ok.injEq, Prod.mk.injEq] at h
        obtain ⟨_, rfl⟩ := h
        simp
      · simp at h

/-- The characters of a quoted text, read after its opening quote. -/
def quotedChars (s : List Char) : Except Fault (List Char × List Char) :=
  match s with
  | [] => .error (.here .endInText [])
  | c :: tail =>
      if c = '"' then
        .ok ([], tail)
      else if c = '\\' then
        match _h : escape tail with
        | .error fault => .error fault
        | .ok (meant, rest) =>
            match quotedChars rest with
            | .error fault => .error fault
            | .ok (cs, rest) => .ok (meant :: cs, rest)
      else if c.toNat < 0x20 then
        .error (.here .controlCharacter tail)
      else
        match quotedChars tail with
        | .error fault => .error fault
        | .ok (cs, rest) => .ok (c :: cs, rest)
termination_by s.length
decreasing_by
  · have := escape_length _h
    simp only [List.length_cons]
    omega
  · simp

def quotedText (s : List Char) : Except Fault (String × List Char) :=
  match quotedChars s with
  | .error fault => .error fault
  | .ok (cs, rest) => .ok (String.ofList cs, rest)

end Config
end MethodLint

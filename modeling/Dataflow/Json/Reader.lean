import Dataflow.Json.Basic
import Dataflow.Text.Read

/-!
# Reading JSON texts

Two kinds of document are read: an object whose members are all strings, and a choice, which is the
name of a constant, alone or as the only member of an object with the value `null`. Blanks may stand
between the marks, and nothing but blanks may follow the document.
-/

namespace Dataflow.Json

open Text (Read hexNumber?)

/-- Blanks between marks. -/
def isSpace (c : Char) : Bool := c == ' ' || c == '\t' || c == '\n' || c == '\r'

/-- The text from the first character on that is no blank. -/
def skipSpace (cs : List Char) : List Char := cs.dropWhile isSpace

/-- Skip blanks and then the mark `c`. -/
def mark? (c : Char) (cs : List Char) : Option (List Char) := Text.mark? c (skipSpace cs)

/-- The first half of a code point above the basic plane. -/
def isLeading (n : Nat) : Bool := 0xd800 ≤ n && n < 0xdc00

/-- The second half of a code point above the basic plane. -/
def isTrailing (n : Nat) : Bool := 0xdc00 ≤ n && n < 0xe000

/-- The character behind a backslash, numbered ones apart. -/
def plainEscape? : Char → Option Char
  | '"' => some '"'
  | '\\' => some '\\'
  | '/' => some '/'
  | 'b' => some '\x08'
  | 'f' => some '\x0c'
  | 'n' => some '\n'
  | 'r' => some '\r'
  | 't' => some '\t'
  | _ => none

/-- The characters up to the closing quote. Controls have to be escaped, and the halves of a code
point above the basic plane have to come as a pair. -/
def stringBody : Read (List Char)
  | [] => none
  | '"' :: rest => some ([], rest)
  | '\\' :: 'u' :: a :: b :: c :: d :: rest =>
    match hexNumber? [a, b, c, d] with
    | none => none
    | some high =>
      if isTrailing high then none
      else if isLeading high then
        match rest with
        | '\\' :: 'u' :: e :: f :: g :: h :: rest' =>
          match hexNumber? [e, f, g, h] with
          | none => none
          | some low =>
            if isTrailing low then do
              let point := 0x10000 + (high - 0xd800) * 0x400 + (low - 0xdc00)
              let (body, left) ← stringBody rest'
              return (Char.ofNat point :: body, left)
            else none
        | _ => none
      else do
        let (body, left) ← stringBody rest
        return (Char.ofNat high :: body, left)
  | '\\' :: e :: rest => do
    let c ← plainEscape? e
    let (body, left) ← stringBody rest
    return (c :: body, left)
  | c :: rest =>
    if c < ' ' ∨ c = '\\' then none
    else do
      let (body, left) ← stringBody rest
      return (c :: body, left)

/-- A string, behind any blanks. -/
def string? : Read String := fun cs => do
  let (body, left) ← stringBody (← mark? '"' cs)
  return (String.ofList body, left)

/-- A member whose value is a string. -/
def textMember? : Read (String × String) := fun cs => do
  let (key, cs) ← string? cs
  let (value, cs) ← string? (← mark? ':' cs)
  return ((key, value), cs)

/-- The further members of an object, up to its closing brace. A member takes up some of the text,
so that `fuel` of at least its length is never used up. -/
def moreMembers? : Nat → Read (List (String × String))
  | 0, _ => none
  | fuel + 1, cs =>
    match mark? '\x7d' cs with
    | some left => some ([], left)
    | none => do
      let (member, cs) ← textMember? (← mark? ',' cs)
      let (members, left) ← moreMembers? fuel cs
      return (member :: members, left)

/-- The members of an object of strings, in the order of the text. -/
def textMembers? (s : String) : Option (List (String × String)) := do
  let cs ← mark? '\x7b' s.toList
  let (members, left) ←
    match mark? '\x7d' cs with
    | some left => some ([], left)
    | none => do
      let (member, cs) ← textMember? cs
      let (members, left) ← moreMembers? (cs.length + 1) cs
      some (member :: members, left)
  if (skipSpace left).isEmpty then some members else none

/-- The name of a constant that a text chooses. -/
def choice? (s : String) : Option String := do
  let (name, left) ←
    match mark? '\x7b' s.toList with
    | none => string? s.toList
    | some cs => do
      let (name, cs) ← string? cs
      match skipSpace (← mark? ':' cs) with
      | 'n' :: 'u' :: 'l' :: 'l' :: left => (mark? '\x7d' left).map fun left => (name, left)
      | _ => none
  if (skipSpace left).isEmpty then some name else none

end Dataflow.Json

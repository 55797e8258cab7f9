import Dataflow.Binary64.Reader
import Dataflow.Text.Read
import Dataflow.Toml.Value

/-!
# The small parts of documents

Blanks, comments and line ends, keys, strings and numbers, each read off the front of a text.
-/

namespace Dataflow.Toml

open Text (Read mark? repeated hexValue? hexNumber?)

/-! ## Blanks, comments and line ends -/

/-- The blanks within a line. -/
def isSpace (c : Char) : Bool := c == ' ' || c == '\t'

/-- The characters of comments and of text that stands for itself: no controls but the tab. -/
def isVisible (c : Char) : Bool := c == '\t' || (' ' ≤ c && c ≠ '\x7f')

/-- The text behind any blanks. -/
def skipSpace (cs : List Char) : List Char := cs.dropWhile isSpace

/-- The text behind a line break. -/
def lineBreak? : List Char → Option (List Char)
  | '\n' :: rest => some rest
  | '\r' :: '\n' :: rest => some rest
  | _ => none

/-- The text behind an optional comment. -/
def skipComment : List Char → List Char
  | '#' :: rest => rest.dropWhile isVisible
  | cs => cs

/-- The text behind the end of a line: blanks, an optional comment, and a line break unless the
document ends. -/
def lineEnd? (cs : List Char) : Option (List Char) :=
  match skipComment (skipSpace cs) with
  | [] => some []
  | rest => lineBreak? rest

/-- The text behind any blanks, line breaks and comments, each of which ends with its line. -/
def skipVoid? (inComment : Bool) : List Char → Option (List Char)
  | [] => if inComment then none else some []
  | '\n' :: rest => skipVoid? false rest
  | '\r' :: '\n' :: rest => skipVoid? false rest
  | c :: rest =>
    if inComment then (if isVisible c then skipVoid? true rest else none)
    else if isSpace c then skipVoid? false rest
    else if c = '#' then skipVoid? true rest
    else some (c :: rest)

/-! ## Strings -/

/-- The character behind a backslash, numbered ones apart. -/
def plainEscape? : Char → Option Char
  | 'b' => some '\x08'
  | 't' => some '\t'
  | 'n' => some '\n'
  | 'f' => some '\x0c'
  | 'r' => some '\r'
  | '"' => some '"'
  | '\\' => some '\\'
  | _ => none

/-- The character whose number is given by exactly `count` hexadecimal digits. -/
def numberedChar? (count : Nat) : Read Char := fun cs => do
  let digits := cs.take count
  let n ← hexNumber? digits
  if digits.length = count ∧ n.isValidChar then some (Char.ofNat n, cs.drop count) else none

/-- What a backslash and the characters behind it stand for. -/
def escape? : Read Char
  | '\\' :: 'u' :: rest => numberedChar? 4 rest
  | '\\' :: 'U' :: rest => numberedChar? 8 rest
  | '\\' :: e :: rest => (plainEscape? e).map fun c => (c, rest)
  | _ => none

/-- A character that stands for itself. -/
def visible? (excluded : Char) : Read Char
  | c :: rest => if isVisible c ∧ c ≠ excluded then some (c, rest) else none
  | [] => none

/-- A character between double quotes. -/
def basicChar? : Read Char
  | '\\' :: rest => escape? ('\\' :: rest)
  | cs => visible? '"' cs

/-- A string between double quotes, on one line. -/
def basicString? : Read String := fun cs => do
  let (body, cs) := repeated basicChar? (← mark? '"' cs)
  return (String.ofList body, ← mark? '"' cs)

/-- A string between single quotes, on one line. Nothing in it is escaped. -/
def literalString? : Read String := fun cs => do
  let (body, cs) := repeated (visible? '\'') (← mark? '\'' cs)
  return (String.ofList body, ← mark? '\'' cs)

/-- Whether three of the quotes stand at the front. -/
def atDelimiter (quote : Char) (cs : List Char) : Bool := cs.take 3 == [quote, quote, quote]

/-- The text behind a line break that directly follows the opening quotes. -/
def skipFirstBreak (cs : List Char) : List Char := (lineBreak? cs).getD cs

/-- The text behind any blanks and line breaks. -/
def skipGap : List Char → List Char
  | '\n' :: rest => skipGap rest
  | '\r' :: '\n' :: rest => skipGap rest
  | c :: rest => if isSpace c then skipGap rest else c :: rest
  | [] => []

/-- One item of a string over several lines between double quotes: a line break, a backslash that
joins two lines, an escaped character, a quote that does not end the string, or a character. -/
def longBasicItem? : Read (List Char) := fun cs =>
  match lineBreak? cs with
  | some rest => some (['\n'], rest)
  | none =>
    match cs with
    | '\\' :: rest =>
      match lineBreak? (skipSpace rest) with
      | some next => some ([], skipGap next)
      | none => (escape? cs).map fun (c, left) => ([c], left)
    | '"' :: rest => if atDelimiter '"' cs then none else some (['"'], rest)
    | _ => (visible? '"' cs).map fun (c, left) => ([c], left)

/-- One item of a string over several lines between single quotes. -/
def longLiteralItem? : Read (List Char) := fun cs =>
  match lineBreak? cs with
  | some rest => some (['\n'], rest)
  | none =>
    match cs with
    | '\'' :: rest => if atDelimiter '\'' cs then none else some (['\''], rest)
    | _ => (visible? '\'' cs).map fun (c, left) => ([c], left)

/-- The end of a string over several lines: three quotes, with up to two more in front of them that
belong to the string. -/
def longEnd? (quote : Char) : Read (List Char) := fun cs =>
  let count := (cs.takeWhile (· == quote)).length
  let own := min count 5 - 3
  if 3 ≤ count then some (List.replicate own quote, cs.drop (own + 3)) else none

/-- A string over several lines, behind its opening quotes. -/
def longString? (quote : Char) (item : Read (List Char)) : Read String := fun cs => do
  let (pieces, cs) := repeated item (skipFirstBreak cs)
  let (own, cs) ← longEnd? quote cs
  return (String.ofList (pieces.flatten ++ own), cs)

/-- A string of any form. -/
def string? : Read String := fun cs =>
  if atDelimiter '"' cs then longString? '"' longBasicItem? (cs.drop 3)
  else if atDelimiter '\'' cs then longString? '\'' longLiteralItem? (cs.drop 3)
  else match cs with
    | '"' :: _ => basicString? cs
    | _ => literalString? cs

/-! ## Keys -/

/-- The characters of keys without quotes. -/
def isBare (c : Char) : Bool :=
  ('a' ≤ c && c ≤ 'z') || ('A' ≤ c && c ≤ 'Z') || ('0' ≤ c && c ≤ '9') || c == '_' || c == '-'

/-- A key without dots. -/
def simpleKey? : Read String := fun cs =>
  match cs with
  | '"' :: _ => basicString? cs
  | '\'' :: _ => literalString? cs
  | _ =>
    match cs.span isBare with
    | ([], _) => none
    | (name, rest) => some (String.ofList name, rest)

/-- A further part of a key, behind its dot. -/
def nextKey? : Read String := fun cs => do
  let (name, cs) ← simpleKey? (skipSpace (← mark? '.' cs))
  return (name, skipSpace cs)

/-- How deep keys and values may be nested: both stay below this number. -/
def nestingLimit : Nat := 80

/-- A key with its parts: all but the last, and the last. Blanks may stand around the parts. -/
def key? : Read (List String × String) := fun cs => do
  let (name, cs) ← simpleKey? (skipSpace cs)
  let (more, cs) := repeated nextKey? (skipSpace cs)
  let parts := name :: more
  if parts.length < nestingLimit then some ((parts.dropLast, parts.getLastD name), cs) else none

/-! ## Numbers -/

/-- Further digits of a number. An underscore may stand between two digits. -/
def moreDigits (isDigit : Char → Bool) : List Char → List Char × List Char
  | '_' :: d :: rest =>
    if isDigit d then
      let (ds, left) := moreDigits isDigit rest
      (d :: ds, left)
    else ([], '_' :: d :: rest)
  | d :: rest =>
    if isDigit d then
      let (ds, left) := moreDigits isDigit rest
      (d :: ds, left)
    else ([], d :: rest)
  | [] => ([], [])

/-- The digits of a number, at least one. -/
def digits? (isDigit : Char → Bool) : Read (List Char)
  | d :: rest =>
    if isDigit d then
      let (ds, left) := moreDigits isDigit rest
      some (d :: ds, left)
    else none
  | [] => none

/-- Whether a character is a decimal digit. -/
def isDecimal (c : Char) : Bool := (Numeral.digit? c).isSome

/-- An optional sign. -/
def sign : List Char → List Char × List Char
  | '+' :: rest => (['+'], rest)
  | '-' :: rest => (['-'], rest)
  | cs => ([], cs)

/-- A decimal numeral. None but zero itself starts with a zero. -/
def decimal? : Read (List Char) := fun cs =>
  let (sign, body) := sign cs
  match body with
  | '0' :: rest => some (sign ++ ['0'], rest)
  | _ => (digits? isDecimal body).map fun (ds, left) => (sign ++ ds, left)

/-- The exponent of a number. -/
def exponent? : Read (List Char)
  | 'e' :: rest | 'E' :: rest =>
    let (sign, body) := sign rest
    (digits? isDecimal body).map fun (ds, left) => ('e' :: sign ++ ds, left)
  | _ => none

/-- The fraction of a number. -/
def fractionPart? : Read (List Char)
  | '.' :: rest => (digits? isDecimal rest).map fun (ds, left) => ('.' :: ds, left)
  | _ => none

/-- The parts of a number that make it no integer: a fraction, an exponent, or both. -/
def floatTail? : Read (List Char) := fun cs =>
  match fractionPart? cs with
  | some (fraction, rest) =>
    match exponent? rest with
    | some (exponent, left) => some (fraction ++ exponent, left)
    | none => some (fraction, rest)
  | none => exponent? cs

/-- A floating-point number by its name. -/
def namedFloat? : Read Binary64 := fun cs =>
  let (sign, body) := sign cs
  let negative := sign = ['-']
  match body with
  | 'i' :: 'n' :: 'f' :: rest => some (.infinity negative, rest)
  | 'n' :: 'a' :: 'n' :: rest => some (.nan negative, rest)
  | _ => none

/-- A floating-point number. A decimal that is too large is refused. -/
def float? : Read Binary64 := fun cs => do
  let (whole, rest) ← decimal? cs
  let (tail, left) ← floatTail? rest
  match Binary64.read (whole ++ tail) with
  | .ok x => if x = .infinity false then none else some (x, left)
  | .error _ => none

/-- An integer in a base that the letter behind a zero tells. -/
def basedInteger? : Read Int := fun cs => do
  let (base, body) ← match cs with
    | '0' :: 'x' :: rest => some (16, rest)
    | '0' :: 'o' :: rest => some (8, rest)
    | '0' :: 'b' :: rest => some (2, rest)
    | _ => none
  let value? (c : Char) : Option Nat := (hexValue? c).filter (· < base)
  let (ds, left) ← digits? (fun c => (value? c).isSome) body
  let n := ds.foldl (fun acc c => acc * base + (value? c).getD 0) 0
  if n ≤ IntKind.i64.greatest then some (Int.ofNat n, left) else none

/-- An integer of 64 bits. -/
def integer? : Read Int := fun cs =>
  match cs with
  | '0' :: 'x' :: _ | '0' :: 'o' :: _ | '0' :: 'b' :: _ => basedInteger? cs
  | _ => do
    let (ds, left) ← decimal? cs
    match Numeral.read .i64 ds with
    | .ok n => some (n, left)
    | .error _ => none

/-- A value that starts like a number: a moment, else a floating-point number, else an integer. -/
def number? : Read Leaf := fun cs =>
  match moment? cs with
  | some (m, left) => some (.moment m, left)
  | none =>
    match float? cs with
    | some (x, left) => some (.float x, left)
    | none =>
      match namedFloat? cs with
      | some (x, left) => some (.float x, left)
      | none => (integer? cs).map fun (n, left) => (.integer n, left)

/-- A truth value. -/
def boolean? : Read Bool
  | 't' :: 'r' :: 'u' :: 'e' :: rest => some (true, rest)
  | 'f' :: 'a' :: 'l' :: 's' :: 'e' :: rest => some (false, rest)
  | _ => none

/-- A value without parts. -/
def leaf? : Read Leaf := fun cs =>
  match cs with
  | '"' :: _ | '\'' :: _ => (string? cs).map fun (s, left) => (.text s, left)
  | 't' :: _ | 'f' :: _ => (boolean? cs).map fun (b, left) => (.boolean b, left)
  | _ => number? cs

end Dataflow.Toml

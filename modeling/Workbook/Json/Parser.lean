/-
Reading JSON text.  A reader is the rest of the text with the offset of its first
byte, so that a fault can say where it was met.

Decimals are read the quick way: the digits that fit into 64 bits are scaled by
one power of ten, which can be off by one unit in the last place.
-/
import Workbook.Json
import Workbook.Keyed
import Workbook.Number.Reading
import Workbook.Number.Word

namespace Workbook
namespace Json

/-- What is wrong with a text. -/
inductive Cause
  | endInList
  | endInObject
  | endInString
  | endInValue
  | expectedColon
  | expectedListEnd
  | expectedObjectEnd
  | expectedWord
  | expectedValue
  | badEscape
  | badNumber
  | numberTooLarge
  | controlCharacter
  | keyNotString
  | loneSurrogate
  | trailingComma
  | trailingText
  | endInEscape
  | tooDeep
  deriving DecidableEq, Repr

def Cause.message : Cause → String
  | .endInList => "EOF while parsing a list"
  | .endInObject => "EOF while parsing an object"
  | .endInString => "EOF while parsing a string"
  | .endInValue => "EOF while parsing a value"
  | .expectedColon => "expected \x60:\x60"
  | .expectedListEnd => "expected \x60,\x60 or \x60]\x60"
  | .expectedObjectEnd => "expected \x60,\x60 or \x60\x7d\x60"
  | .expectedWord => "expected ident"
  | .expectedValue => "expected value"
  | .badEscape => "invalid escape"
  | .badNumber => "invalid number"
  | .numberTooLarge => "number out of range"
  | .controlCharacter =>
    "control character (\\u0000-\\u001F) found while parsing a string"
  | .keyNotString => "key must be a string"
  | .loneSurrogate => "lone leading surrogate in hex escape"
  | .trailingComma => "trailing comma"
  | .trailingText => "trailing characters"
  | .endInEscape => "unexpected end of hex escape"
  | .tooDeep => "recursion limit exceeded"

/-- A cause and the byte offset at which it was met. -/
structure Fault where
  cause : Cause
  offset : Nat
  deriving DecidableEq, Repr

/-- The line of a byte offset and the bytes before it in that line. -/
def position (text : String) (offset : Nat) : Nat × Nat :=
  (text.toUTF8.toList.take offset).foldl
    (fun (line, column) (b : UInt8) => if b = 10 then (line + 1, 0) else (line, column + 1))
    ((1, 0) : Nat × Nat)

/-- The fault as a message about the text. -/
def Fault.message (text : String) (f : Fault) : String :=
  let (line, column) := position text f.offset
  s!"{f.cause.message} at line {line} column {column}"

/-- What is left of a text, and the byte offset of its start. -/
structure Reader where
  rest : List Char
  offset : Nat

namespace Reader

def start (text : String) : Reader :=
  ⟨text.toList, 0⟩

/-- A fault at the reader's place. -/
def fail {α : Type} (r : Reader) (cause : Cause) : Except Fault (α × Reader) :=
  .error ⟨cause, r.offset⟩

/-- A fault that counts the next byte as read, if there is one. -/
def failAhead {α : Type} (r : Reader) (cause : Cause) : Except Fault (α × Reader) :=
  .error ⟨cause, if r.rest.isEmpty then r.offset else r.offset + 1⟩

/-- The reader after its first characters, which are ASCII. -/
def drop (r : Reader) (n : Nat) : Reader :=
  ⟨r.rest.drop n, r.offset + n⟩

/-- Passes spaces, tabs and line ends. -/
def skipBlank (r : Reader) : Reader :=
  r.drop (r.rest.takeWhile fun c => c = ' ' ∨ c = '\n' ∨ c = '\t' ∨ c = '\r').length

end Reader

/-- How strictly values are read.  Values that nobody looks at may nest freely,
and their numbers and surrogates are not checked. -/
structure Policy where
  checked : Bool

namespace Parser

open Reader

/-! ## Words and strings -/

/-- The rest of a word whose first letter has been seen. -/
def word {α : Type} (value : α) : List Char → Reader → Except Fault (α × Reader)
  | [], r => .ok (value, r)
  | w :: ws, r =>
    match r.rest with
    | [] => r.fail .endInValue
    | c :: _ => if c = w then word value ws (r.drop 1) else .error ⟨.expectedWord, r.offset + 1⟩

/-- Four hexadecimal digits.  When they are not there, the fault lies four bytes
on, or at the end of the text if that comes first. -/
def hexFour (r : Reader) : Except Fault (Nat × Reader) :=
  let four := r.rest.take 4
  match four.map (Number.digitValue? 16) with
  | [some a, some b, some c, some d] => .ok (((a * 16 + b) * 16 + c) * 16 + d, r.drop 4)
  | _ =>
    let bytes := (String.ofList four).utf8ByteSize
    if bytes < 4 then .error ⟨.endInString, r.offset + bytes⟩
    else .error ⟨.badEscape, r.offset + 4⟩

/-- The character after a first surrogate: a second one must follow at once. -/
def secondSurrogate (first : Nat) (r : Reader) : Except Fault (Char × Reader) :=
  match r.rest with
  | [] => r.fail .endInString
  | '\\' :: tail =>
    match tail with
    | [] => (r.drop 1).fail .endInString
    | 'u' :: _ => do
      let (second, r) ← hexFour (r.drop 2)
      if 0xDC00 ≤ second ∧ second ≤ 0xDFFF then
        .ok (Char.ofNat ((first - 0xD800) * 0x400 + (second - 0xDC00) + 0x10000), r)
      else r.fail .loneSurrogate
    | _ => .error ⟨.endInEscape, r.offset + 2⟩
  | _ => .error ⟨.endInEscape, r.offset + 1⟩

/-- The character of an escape, whose backslash has been read. -/
def escape (p : Policy) (r : Reader) : Except Fault (Char × Reader) :=
  match r.rest with
  | [] => r.fail .endInString
  | '"' :: _ => .ok ('"', r.drop 1)
  | '\\' :: _ => .ok ('\\', r.drop 1)
  | '/' :: _ => .ok ('/', r.drop 1)
  | 'b' :: _ => .ok ('\x08', r.drop 1)
  | 'f' :: _ => .ok ('\x0c', r.drop 1)
  | 'n' :: _ => .ok ('\n', r.drop 1)
  | 'r' :: _ => .ok ('\r', r.drop 1)
  | 't' :: _ => .ok ('\t', r.drop 1)
  | 'u' :: _ => do
    let (n, r) ← hexFour (r.drop 1)
    if !p.checked then .ok (Char.ofNat n, r)
    else if 0xDC00 ≤ n ∧ n ≤ 0xDFFF then r.fail .loneSurrogate
    else if 0xD800 ≤ n ∧ n ≤ 0xDBFF then secondSurrogate n r
    else .ok (Char.ofNat n, r)
  | _ => .error ⟨.badEscape, r.offset + 1⟩

/-- The rest of a string whose opening quote has been read; `fuel` is at least
the length of what is left. -/
def stringBody (p : Policy) : Nat → List Char → Reader → Except Fault (String × Reader)
  | 0, _, r => r.fail .endInString
  | fuel + 1, out, r =>
    match r.rest with
    | [] => r.fail .endInString
    | '"' :: _ => .ok (String.ofList out.reverse, r.drop 1)
    | '\\' :: _ => do
      let (c, r) ← escape p (r.drop 1)
      stringBody p fuel (c :: out) r
    | c :: tail =>
      if c.toNat < 32 then .error ⟨.controlCharacter, r.offset + 1⟩
      else stringBody p fuel (c :: out) ⟨tail, r.offset + c.utf8Size⟩

def string (p : Policy) (r : Reader) : Except Fault (String × Reader) :=
  stringBody p (r.rest.length + 1) [] r

/-! ## Numbers -/

/-- The digits at the reader's place, and the reader after them. -/
def digits (r : Reader) : List Char × Reader :=
  let ds := r.rest.takeWhile Char.isDigit
  (ds, r.drop ds.length)

/-- Adds digits to a number as long as it fits into 64 bits; also the digits
that are left over. -/
def absorb (n : Nat) : List Char → Nat × List Char
  | [] => (n, [])
  | d :: ds =>
    let m := 10 * n + (d.toNat - 48)
    if m < UInt64.size then absorb m ds else (n, d :: ds)

/-- `significand * 10 ^ exponent` in at most two scalings by a power of ten;
none if it is too large. -/
def scale (significand : Nat) (exponent : Int) : Option Float :=
  let f := Float.ofNat significand
  let ten (n : Nat) : Float := Float.ofScientific 1 false n
  if 308 < exponent then (if significand = 0 then some f else none)
  else if 0 ≤ exponent then
    let g := f * ten exponent.toNat
    if g.isInf then none else some g
  else if -308 ≤ exponent then some (f / ten (-exponent).toNat)
  else if -616 ≤ exponent then some (f / ten 308 / ten (-exponent - 308).toNat)
  else some 0

/-- The number with the given parts. -/
def fromParts (p : Policy) (negative : Bool) (significand : Nat) (exponent : Int) (r : Reader) :
    Except Fault (Json × Reader) :=
  match scale significand exponent with
  | some x => .ok (.float (if negative then -x else x), r)
  | none => if p.checked then r.fail .numberTooLarge else .ok (.null, r)

/-- The largest exponent that is still counted. -/
def maxExponent : Nat := 0x7fffffff

/-- The exponent, read until it is no longer counted: its value and the digits
left over. -/
def absorbExponent (n : Nat) : List Char → Nat × List Char
  | [] => (n, [])
  | d :: ds =>
    let m := 10 * n + (d.toNat - 48)
    if m ≤ maxExponent then absorbExponent m ds else (n, d :: ds)

/-- The part after `e`. -/
def exponent (p : Policy) (negative : Bool) (significand : Nat) (start : Int) (r : Reader) :
    Except Fault (Json × Reader) :=
  let (down, r) := match r.rest with
    | '+' :: _ => (false, r.drop 1)
    | '-' :: _ => (true, r.drop 1)
    | _ => (false, r)
  let (ds, after) := digits r
  if ds.isEmpty then
    (if r.rest.isEmpty then r.fail .endInValue else .error ⟨.badNumber, r.offset + 1⟩)
  else
    let (n, left) := absorbExponent 0 ds
    if left.isEmpty then
      fromParts p negative significand (if down then start - n else start + n) after
    else if significand ≠ 0 ∧ !down then
      (if p.checked then
        .error ⟨.numberTooLarge, r.offset + (ds.length - left.length) + 1⟩
      else .ok (.null, after))
    else .ok (.float (if negative then -0.0 else 0.0), after)

/-- The part after the point. -/
def fraction (p : Policy) (negative : Bool) (significand : Nat) (start : Int) (r : Reader) :
    Except Fault (Json × Reader) :=
  let (ds, r) := digits r
  if ds.isEmpty then
    r.failAhead (if r.rest.isEmpty then .endInValue else .badNumber)
  else
    let (n, left) := absorb significand ds
    let start := start - (ds.length - left.length : Nat)
    match r.rest with
    | 'e' :: _ | 'E' :: _ => exponent p negative n start (r.drop 1)
    | _ => fromParts p negative n start r

/-- A number whose sign has been read. -/
def number (p : Policy) (negative : Bool) (r : Reader) : Except Fault (Json × Reader) :=
  match r.rest with
  | [] => r.fail .endInValue
  | c :: tail =>
    if !c.isDigit then .error ⟨.badNumber, r.offset + 1⟩
    else if c = '0' ∧ tail.head?.any Char.isDigit then (r.drop 1).failAhead .badNumber
    else
      let (ds, r) := digits r
      let (n, left) := absorb 0 ds
      match r.rest with
      | '.' :: _ => fraction p negative n left.length (r.drop 1)
      | 'e' :: _ | 'E' :: _ => exponent p negative n left.length (r.drop 1)
      | _ =>
        if !left.isEmpty then fromParts p negative n left.length r
        else if !negative then .ok (.integer n, r)
        else if n = 0 ∨ !Number.fitsWord (-n) then .ok (.float (-(Float.ofNat n)), r)
        else .ok (.integer (-n), r)

/-! ## Values -/

/-- The items of a list, up to its closing bracket.  A comma stands between two
of them and not after the last. -/
def items (value : Reader → Except Fault (Json × Reader)) :
    Nat → List Json → Reader → Except Fault (List Json × Reader)
  | 0, _, r => r.failAhead .endInList
  | fuel + 1, out, r => do
    let r := r.skipBlank
    match r.rest with
    | [] => r.failAhead .endInList
    | ']' :: _ => .ok (out.reverse, r.drop 1)
    | c :: _ =>
      if out.isEmpty then
        let (v, r) ← value r
        items value fuel (v :: out) r
      else if c = ',' then
        let r := (r.drop 1).skipBlank
        match r.rest with
        | [] => r.failAhead .endInValue
        | ']' :: _ => r.failAhead .trailingComma
        | _ =>
          let (v, r) ← value r
          items value fuel (v :: out) r
      else r.failAhead .expectedListEnd

/-- One entry of an object, whose key starts at the reader's place.  How its value
is read may depend on the key. -/
def entry (p : Policy) (value : String → Reader → Except Fault (Json × Reader)) (r : Reader) :
    Except Fault ((String × Json) × Reader) := do
  let (key, r) ← string p (r.drop 1)
  let r := r.skipBlank
  match r.rest with
  | [] => r.failAhead .endInObject
  | ':' :: _ =>
    let (v, r) ← value key (r.drop 1)
    .ok ((key, v), r)
  | _ => r.failAhead .expectedColon

/-- The entries of an object, up to its closing brace. -/
def entries (p : Policy) (value : String → Reader → Except Fault (Json × Reader)) :
    Nat → List (String × Json) → Reader → Except Fault (List (String × Json) × Reader)
  | 0, _, r => r.failAhead .endInObject
  | fuel + 1, out, r => do
    let r := r.skipBlank
    match r.rest with
    | [] => r.failAhead .endInObject
    | '\x7d' :: _ => .ok (out.reverse, r.drop 1)
    | c :: _ =>
      if out.isEmpty then
        if c = '"' then
          let (e, r) ← entry p value r
          entries p value fuel (e :: out) r
        else r.failAhead .keyNotString
      else if c = ',' then
        let r := (r.drop 1).skipBlank
        match r.rest with
        | [] => r.failAhead .endInValue
        | '"' :: _ =>
          let (e, r) ← entry p value r
          entries p value fuel (e :: out) r
        | '\x7d' :: _ => r.failAhead .trailingComma
        | _ => r.failAhead .keyNotString
      else r.failAhead .expectedObjectEnd

/-- A value, with the number of lists and objects that it may be nested in, less
one. -/
def value (p : Policy) : Nat → Reader → Except Fault (Json × Reader)
  | 0, r => r.skipBlank.failAhead .tooDeep
  | depth + 1, r =>
    let r := r.skipBlank
    match r.rest with
    | [] => r.failAhead .endInValue
    | 'n' :: _ => word .null "ull".toList (r.drop 1)
    | 't' :: _ => word (.bool true) "rue".toList (r.drop 1)
    | 'f' :: _ => word (.bool false) "alse".toList (r.drop 1)
    | '-' :: _ => number p true (r.drop 1)
    | '"' :: _ => do
      let (s, r) ← string p (r.drop 1)
      .ok (.string s, r)
    | '[' :: _ =>
      if depth = 0 then r.failAhead .tooDeep
      else do
        let (vs, r) ← items (value p depth) (r.rest.length + 1) [] (r.drop 1)
        .ok (.array vs, r)
    | '\x7b' :: _ =>
      if depth = 0 then r.failAhead .tooDeep
      else do
        let (es, r) ← entries p (fun _ => value p depth) (r.rest.length + 1) [] (r.drop 1)
        .ok (.object (Keyed.merged es), r)
    | c :: _ => if c.isDigit then number p false r else r.failAhead .expectedValue

/-- Nothing but blanks may follow. -/
def finish {α : Type} : α × Reader → Except Fault α
  | (v, r) =>
    let r := r.skipBlank
    if r.rest.isEmpty then .ok v else .error ⟨.trailingText, r.offset + 1⟩

end Parser

/-- How deep lists and objects may be nested, plus one. -/
def maxDepth : Nat := 128

/-- The value that a text writes. -/
def parse (text : String) : Except Fault Json := do
  Parser.finish (← Parser.value ⟨true⟩ maxDepth (Reader.start text))

end Json
end Workbook

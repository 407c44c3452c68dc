import Mustache.Packages.Yaml.Text
import Mustache.Text.Utf8

/-! Tokens of YAML, and how those are read that are neither signs nor texts: names of
anchors, tags and directives. -/

namespace Mustache.Data.Yaml

/-- A line in front of a document: the version of the format, what the handle of a tag
stands for, or a line without any influence. -/
inductive Directive
  | version (major : Nat)
  | handle (name : String) (start : String)
  | other
deriving DecidableEq, Repr

/-- A token. Collections in block style have no signs at their ends; the tokens that
stand there follow from the columns. A text that goes wrong ends with a failure. -/
inductive Token
  | directive (d : Directive)
  | documentStart
  | documentEnd
  | blockSequence
  | blockMapping
  | blockEnd
  | flowSequence
  | flowSequenceEnd
  | flowMapping
  | flowMappingEnd
  | entry
  | comma
  | key
  | value
  | alias (name : String)
  | anchor (name : String)
  | tag (handle : Option String) (suffix : String)
  | scalar (isPlain : Bool) (text : String)
  | failure (cause : ReadFailure)
deriving DecidableEq, Repr

/-- The characters of names. -/
def isNameChar (c : Char) : Bool := c.isAlphanum || c == '-' || c == '_'

/-- The signs that may follow the name of an anchor or an alias. -/
def nameEnds : String := "?:,]\x7d%@`"

def anchorName (c : Cursor) : Reading String :=
  let name := c.rest.takeWhile isNameChar
  let behind := c.advance name.length
  let ends := blankFirst behind.rest || behind.rest.head?.any fun a => nameEnds.contains a
  if name.isEmpty || !ends then .error .malformed else .ok (String.ofList name, behind)

/-- The characters of addresses, apart from the percent sign. -/
def isAddressChar (c : Char) : Bool := c.isAlphanum || "-;/?:@&=+$,_.!~*'()[]".contains c

/-- The bytes that a run of percent signs with two hexadecimal digits each denotes, and
the rest of the text. -/
def percentBytes : List Char → Option (List UInt8 × List Char)
  | '%' :: a :: b :: rest =>
    match Json.hexNumber? [a, b], percentBytes rest with
    | some n, some (bytes, behind) => some (UInt8.ofNat n :: bytes, behind)
    | _, _ => none
  | '%' :: _ => none
  | text => some ([], text)

def address : Nat → List Char → Option (List Char × List Char)
  | 0, _ => none
  | fuel + 1, text =>
    match text.span isAddressChar with
    | (run, '%' :: rest) =>
      (percentBytes ('%' :: rest)).bind fun (bytes, behind) =>
        (Text.Utf8.decode? bytes).bind fun decoded =>
          (address fuel behind).map fun (more, last) => (run ++ decoded ++ more, last)
    | (run, rest) => some (run, rest)

def addressAt (c : Cursor) : Reading String :=
  match address (c.rest.length + 1) c.rest with
  | some (found, rest) =>
    if found.isEmpty then .error .malformed
    else .ok (String.ofList found, c.advance (c.rest.length - rest.length))
  | none => .error .malformed

/-- The handle of a tag: an exclamation mark, which may be followed by a name and a
second one. -/
def tagHandle (c : Cursor) : Reading String :=
  match c.rest with
  | '!' :: ' ' :: _ => .ok ("!", c.advance 1)
  | '!' :: rest =>
    let name := rest.takeWhile isNameChar
    if (rest.drop name.length).head? = some '!' then
      .ok (String.ofList ('!' :: name ++ ['!']), c.advance (name.length + 2))
    else .error .malformed
  | _ => .error .malformed

/-- A tag: an address in angle brackets, a handle with a suffix, or a lone mark. -/
def tagParts (c : Cursor) : Reading (Option String × String) :=
  match c.rest with
  | '!' :: '<' :: _ =>
    match addressAt (c.advance 2) with
    | .ok (suffix, behind) =>
      if behind.rest.head? = some '>' then .ok ((none, suffix), behind.advance 1)
      else .error .malformed
    | .error e => .error e
  | _ :: rest =>
    if blankFirst rest then .ok ((none, "!"), c.advance 1)
    else
      let named := (rest.takeWhile fun a => !(a == ' ' || isBreak a)).contains '!'
      match if named then tagHandle c else .ok ("!", c.advance 1) with
      | .ok (handle, behind) =>
        (addressAt behind).map fun (suffix, last) => ((some handle, suffix), last)
      | .error e => .error e
  | [] => .error .malformed

/-- A tag, which nothing but a space or a line end may follow. -/
def tagAt (c : Cursor) : Reading Token :=
  match tagParts c with
  | .ok ((handle, suffix), behind) =>
    if gapFirst behind.rest then .ok (.tag handle suffix, behind) else .error .malformed
  | .error e => .error e

def versionNumber (c : Cursor) : Reading Nat :=
  let digits := c.rest.takeWhile Char.isDigit
  if digits.isEmpty then .error .malformed
  else .ok (Number.decimalNumber digits, c.advance digits.length)

def versionDirective (c : Cursor) : Reading Directive :=
  match versionNumber (c.skipWhile (· == ' ')) with
  | .ok (major, behind) =>
    if behind.rest.head? = some '.' then
      match versionNumber (behind.advance 1) with
      | .ok (_, last) =>
        if gapFirst last.rest then .ok (.version major, last) else .error .malformed
      | .error e => .error e
    else .error .malformed
  | .error e => .error e

def handleDirective (c : Cursor) : Reading Directive :=
  match tagHandle (c.skipWhile (· == ' ')) with
  | .ok (name, behind) =>
    if behind.rest.head? = some ' ' then
      match addressAt (behind.skipWhile (· == ' ')) with
      | .ok (start, last) =>
        if gapFirst last.rest then .ok (.handle name start, last) else .error .malformed
      | .error e => .error e
    else .error .malformed
  | .error e => .error e

def directiveAt (c : Cursor) : Reading Token :=
  let name := c.rest.takeWhile isNameChar
  let behind := c.advance name.length
  if name.isEmpty || !gapFirst behind.rest then .error .malformed
  else
    let found := match String.ofList name with
      | "YAML" => versionDirective behind
      | "TAG" => handleDirective behind
      | _ => .ok (.other, behind.skipWhile fun a => !isBreak a)
    match found with
    | .error e => .error e
    | .ok (directive, last) =>
      match behindSigns last with
      | some next => .ok (.directive directive, next)
      | none => .error .malformed

end Mustache.Data.Yaml

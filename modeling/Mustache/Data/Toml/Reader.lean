import Mustache.Data.Toml.Date
import Mustache.Data.Toml.Scalar
import Mustache.Data.Toml.Scope
import Mustache.Text.LineEnd

/-! TOML files: values, which may hold values, and statements, one to a line. The
recursion is bounded by the length of the text. -/

namespace Mustache.Data.Toml

/-- The text behind a comment, if there is one. Control characters are refused. -/
def skipComment (text : List Char) : Except ReadFailure (List Char) :=
  match text with
  | '#' :: rest =>
    let comment := rest.takeWhile (· != '\n')
    if comment.any fun c => isControl c && c != '\t' then .error .malformed
    else .ok (rest.drop comment.length)
  | _ => .ok text

def skipLines : Nat → List Char → Except ReadFailure (List Char)
  | 0, text => .ok text
  | fuel + 1, text =>
    match text.dropWhile fun c => isSpace c || c == '\n' with
    | '#' :: rest =>
      match skipComment ('#' :: rest) with
      | .error e => .error e
      | .ok behind => skipLines fuel behind
    | rest => .ok rest

structure Inline where
  entries : Entries
  marks : Marks

mutual

/-- A value at the start of a text, within which `levels` of nesting are left. An array
counts for two levels, an inline table for three. -/
def value (levels : Nat) : Nat → List Char → Reading Document
  | 0, _ => .error .malformed
  | fuel + 1, text =>
    match string? text with
    | some found => found.map fun (s, rest) => (.text s, rest)
    | none =>
      match Json.word? "true" text, Json.word? "false" text with
      | some rest, _ => .ok (.bool true, rest)
      | _, some rest => .ok (.bool false, rest)
      | none, none =>
        match text with
        | '[' :: rest => if levels < 2 then .error .tooDeep else items (levels - 2) fuel [] rest
        | '\x7b' :: rest =>
          match skipSpaces rest with
          | '\x7d' :: behind => .ok (.table [], behind)
          | inner =>
            if levels < 3 then .error .tooDeep else members (levels - 3) fuel ⟨[], []⟩ inner
        | _ => (date? text).getD (number text)

def items (levels : Nat) : Nat → List Document → List Char → Reading Document
  | 0, _, _ => .error .malformed
  | fuel + 1, done, text =>
    match skipLines (text.length + 1) text with
    | .error e => .error e
    | .ok (']' :: rest) => .ok (.list done.reverse, rest)
    | .ok start =>
      match value levels fuel start with
      | .error e => .error e
      | .ok (item, behind) =>
        match skipLines (behind.length + 1) behind with
        | .error e => .error e
        | .ok (']' :: rest) => .ok (.list (item :: done).reverse, rest)
        | .ok (',' :: rest) => items levels fuel (item :: done) rest
        | .ok _ => .error .malformed

def members (levels : Nat) : Nat → Inline → List Char → Reading Document
  | 0, _, _ => .error .malformed
  | fuel + 1, done, text =>
    match assignment levels fuel text with
    | .error e => .error e
    | .ok ((path, item), behind) =>
      if isClosed done.marks path then .error .malformed
      else match nest false (addKey (path.getLast?.getD "") item) path.dropLast done.entries with
        | none => .error .malformed
        | some entries =>
          match skipSpaces behind with
          | '\x7d' :: rest => .ok (.table entries, rest)
          | ',' :: rest =>
            members levels fuel ⟨entries, closeIfNested path item done.marks⟩ (skipSpaces rest)
          | _ => .error .malformed

def assignment (levels : Nat) : Nat → List Char → Reading (List String × Document)
  | 0, _ => .error .malformed
  | fuel + 1, text =>
    match key (text.length + 1) [] text with
    | .error e => .error e
    | .ok (path, '=' :: rest) =>
      (value levels fuel (skipSpaces rest)).map fun (item, behind) => ((path, item), behind)
    | .ok _ => .error .malformed

end

/-- A malformed text unless something was found. -/
def orMalformed {α : Type} : Option α → Except ReadFailure α
  | some a => .ok a
  | none => .error .malformed

/-- The header of a table or of an item of an array of tables, behind its brackets. -/
def header (closing : String) (start : List String → Option Scope) (text : List Char) :
    Except ReadFailure (Scope × List Char) := do
  let inner := skipSpaces text
  let (path, behind) ← key (inner.length + 1) [] inner
  let scope ← orMalformed (start path)
  let rest ← orMalformed (Json.word? closing behind)
  return (scope, rest)

def statement (levels : Nat) (scope : Scope) (text : List Char) :
    Except ReadFailure (Scope × List Char) :=
  match text with
  | '[' :: '[' :: rest => header "]]" scope.openItem rest
  | '[' :: rest => header "]" scope.openTable rest
  | '#' :: _ => .ok (scope, text)
  | _ => do
    let ((path, item), behind) ← assignment levels (2 * text.length + 2) text
    let scope ← orMalformed (scope.assign path item)
    return (scope, behind)

/-- The tables of a file from the start of a statement on. Each statement ends its line. -/
def statements (levels : Nat) : Nat → Scope → List Char → Except ReadFailure Entries
  | 0, _, _ => .error .malformed
  | fuel + 1, scope, text =>
    match skipSpaces text with
    | [] => .ok scope.entries
    | '\n' :: rest => statements levels fuel scope rest
    | start =>
      match statement levels scope start with
      | .error e => .error e
      | .ok (scope, behind) =>
        match skipComment (skipSpaces behind) with
        | .error e => .error e
        | .ok [] => .ok scope.entries
        | .ok ('\n' :: rest) => statements levels fuel scope rest
        | .ok _ => .error .malformed

/-- The top-level table of a whole file, whose values may nest `levels` deep. -/
def parse (levels : Nat) (text : List Char) : Except ReadFailure Entries :=
  let text := Text.joinLineEnds text
  statements levels (text.length + 1) .empty text

end Mustache.Data.Toml

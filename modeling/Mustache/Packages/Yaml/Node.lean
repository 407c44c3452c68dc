import Mustache.Packages.Yaml.Scalar
import Mustache.Packages.Yaml.Stream

/-! Nodes: what the tokens of a text say before it is known what data it holds. Each
node has a kind, which its tag declares or which follows from how it is written, and an
alias stands for the node with its anchor. -/

namespace Mustache.Data.Yaml

/-- A node. An alias within the collection that it names stands for that collection. A
mapping is spoilt if it takes in the entries of something else than mappings. -/
inductive Node
  | scalar (kind : Kind) (text : String)
  | sequence (kind : Kind) (items : List Node)
  | mapping (kind : Kind) (entries : List (Node × Node))
  | enclosing
  | spoilt
deriving Inhabited

namespace Node

def missing : Node := .scalar .null ""

end Node

abbrev Handles := List (String × String)

def standardHandles : Handles := [("!", "!"), ("!!", standardTag)]

/-- The tokens that follow, and the nodes with anchors; one that has not ended yet is
not known. -/
structure Ahead where
  tokens : List Token
  anchors : List (String × Option Node)

namespace Ahead

def tail (a : Ahead) : Ahead := { a with tokens := a.tokens.tail }

def fault (a : Ahead) : ReadFailure :=
  match a.tokens with
  | .failure cause :: _ => cause
  | _ => .malformed

def startsWith (tokens : List Token) (a : Ahead) : Bool := a.tokens.head?.any tokens.contains

end Ahead

/-- A part of the tokens that has been read, and what follows it. -/
abbrev Composed (α : Type) := Except ReadFailure (α × Ahead)

structure Properties where
  anchor : Option String
  tag : Option (Option String × String)

def properties (a : Ahead) : Properties × Ahead :=
  match a.tokens with
  | .anchor name :: .tag handle suffix :: rest =>
    (⟨some name, some (handle, suffix)⟩, { a with tokens := rest })
  | .tag handle suffix :: .anchor name :: rest =>
    (⟨some name, some (handle, suffix)⟩, { a with tokens := rest })
  | .anchor name :: rest => (⟨some name, none⟩, { a with tokens := rest })
  | .tag handle suffix :: rest => (⟨none, some (handle, suffix)⟩, { a with tokens := rest })
  | _ => (⟨none, none⟩, a)

/-- The tag that says nothing about a node, as if it were plain. -/
def plainTag : String := "!"

def Properties.wholeTag? (handles : Handles) (p : Properties) : Option (Option String) :=
  match p.tag with
  | none => some none
  | some (none, suffix) => some (some suffix)
  | some (some handle, suffix) => (handles.lookup handle).map fun start => some (start ++ suffix)

def scalarKind (tag : Option String) (isPlain : Bool) (text : String) : Kind :=
  match tag with
  | none => if isPlain then .ofPlain text else .text
  | some tag => if tag == plainTag then .ofPlain text else .ofTag tag

/-- The kind of a collection that is of `own` kind if nothing else is declared. -/
def collectionKind (tag : Option String) (own : Kind) : Kind :=
  match tag with
  | none => own
  | some tag => if tag == plainTag then own else .ofTag tag

/-- Where a node stands: in a collection in block style or not, and whether a sequence
may begin there without columns of its own. -/
structure Site where
  inBlock : Bool
  indentless : Bool

def Site.flow : Site := ⟨false, false⟩

def Site.entry : Site := ⟨true, false⟩

def Site.member : Site := ⟨true, true⟩

/-- The tokens behind an entry of a sequence in block style whose node is left out. -/
def afterEntry (indentless : Bool) : List Token :=
  if indentless then [.entry, .key, .value, .blockEnd] else [.entry, .blockEnd]

/-- The tokens behind a key or a value in block style that is left out. -/
def afterMember : List Token := [.key, .value, .blockEnd]

mutual

/-- A node at a site. Below it `levels` collections may stand within each other. -/
def node (handles : Handles) (levels : Nat) : Nat → Site → Ahead → Composed Node
  | 0, _, _ => .error .tooDeep
  | fuel + 1, site, a =>
    match a.tokens with
    | .alias name :: _ =>
      match a.anchors.lookup name with
      | none => .error .malformed
      | some found => .ok (found.getD .enclosing, a.tail)
    | _ =>
      let (given, behind) := properties a
      match given.wholeTag? handles with
      | none => .error behind.fault
      | some tag =>
        match given.anchor with
        | none => content handles levels fuel site given tag behind
        | some name =>
          if (a.anchors.lookup name).isSome then .error behind.fault
          else
            let inner := { behind with anchors := (name, none) :: behind.anchors }
            (content handles levels fuel site given tag inner).map fun (found, last) =>
              (found, { last with anchors := (name, some found) :: last.anchors })

/-- What follows the properties of a node. A node with properties may be left out. -/
def content (handles : Handles) (levels : Nat) :
    Nat → Site → Properties → Option String → Ahead → Composed Node
  | 0, _, _, _, _ => .error .tooDeep
  | fuel + 1, site, given, tag, a =>
    let sequence := fun (found : List Node × Ahead) =>
      (Node.sequence (collectionKind tag .sequence) found.1, found.2)
    let mapping := fun (found : List (Node × Node) × Ahead) =>
      (Node.mapping (collectionKind tag .mapping) found.1, found.2)
    match levels, a.tokens with
    | _, .scalar isPlain text :: _ => .ok (.scalar (scalarKind tag isPlain text) text, a.tail)
    | 0, _ => .error .tooDeep
    | levels + 1, .flowSequence :: _ =>
      (flowItems handles levels fuel true [] a.tail).map sequence
    | levels + 1, .flowMapping :: _ =>
      (flowMembers handles levels fuel true [] a.tail).map mapping
    | levels + 1, tokens =>
      match tokens, site.inBlock, site.indentless with
      | .entry :: _, _, true => (entries handles levels fuel true [] a).map sequence
      | .blockSequence :: _, true, _ =>
        (entries handles levels fuel false [] a.tail).map sequence
      | .blockMapping :: _, true, _ => (members handles levels fuel [] a.tail).map mapping
      | _, _, _ =>
        if given.anchor.isSome || given.tag.isSome then
          .ok (.scalar (scalarKind tag true "") "", a)
        else .error a.fault

/-- The entries of a sequence in block style; `done` holds those so far in reverse. -/
def entries (handles : Handles) (levels : Nat) :
    Nat → Bool → List Node → Ahead → Composed (List Node)
  | 0, _, _, _ => .error .tooDeep
  | fuel + 1, indentless, done, a =>
    match a.tokens with
    | .entry :: _ =>
      if a.tail.startsWith (afterEntry indentless) then
        entries handles levels fuel indentless (.missing :: done) a.tail
      else match node handles levels fuel .entry a.tail with
        | .error e => .error e
        | .ok (item, last) => entries handles levels fuel indentless (item :: done) last
    | .blockEnd :: _ => .ok (done.reverse, if indentless then a else a.tail)
    | _ => if indentless then .ok (done.reverse, a) else .error a.fault

/-- A key or a value in block style behind its sign. -/
def part (handles : Handles) (levels : Nat) : Nat → Ahead → Composed Node
  | 0, _ => .error .tooDeep
  | fuel + 1, a =>
    if a.startsWith afterMember then .ok (.missing, a) else node handles levels fuel .member a

def members (handles : Handles) (levels : Nat) :
    Nat → List (Node × Node) → Ahead → Composed (List (Node × Node))
  | 0, _, _ => .error .tooDeep
  | fuel + 1, done, a =>
    match a.tokens with
    | .key :: _ =>
      match part handles levels fuel a.tail with
      | .error e => .error e
      | .ok (key, behind) =>
        let found := if behind.startsWith [.value] then part handles levels fuel behind.tail
          else .ok (.missing, behind)
        match found with
        | .error e => .error e
        | .ok (value, last) => members handles levels fuel ((key, value) :: done) last
    | .blockEnd :: _ => .ok (done.reverse, a.tail)
    | _ => .error a.fault

def flowMember (handles : Handles) (levels : Nat) :
    Nat → Token → Ahead → Composed (Node × Node)
  | 0, _, _ => .error .tooDeep
  | fuel + 1, closing, a =>
    let key : Composed Node := if a.startsWith [.value, .comma, closing] then .ok (.missing, a)
      else node handles levels fuel .flow a
    match key with
    | .error e => .error e
    | .ok (key, behind) =>
      let value : Composed Node :=
        if !behind.startsWith [.value] then .ok (.missing, behind)
        else if behind.tail.startsWith [.comma, closing] then .ok (.missing, behind.tail)
        else node handles levels fuel .flow behind.tail
      value.map fun (value, last) => ((key, value), last)

/-- The items of a sequence in flow style up to its bracket. A member among them is a
mapping of its own. -/
def flowItems (handles : Handles) (levels : Nat) :
    Nat → Bool → List Node → Ahead → Composed (List Node)
  | 0, _, _, _ => .error .tooDeep
  | fuel + 1, isFirst, done, a =>
    if a.startsWith [.flowSequenceEnd] then .ok (done.reverse, a.tail)
    else if !isFirst && !a.startsWith [.comma] then .error a.fault
    else
      let a := if isFirst then a else a.tail
      if a.startsWith [.flowSequenceEnd] then .ok (done.reverse, a.tail)
      else
        let item : Composed Node := if a.startsWith [.key] then
            (flowMember handles levels fuel .flowSequenceEnd a.tail).map fun (member, last) =>
              (Node.mapping .mapping [member], last)
          else node handles levels fuel .flow a
        match item with
        | .error e => .error e
        | .ok (item, last) => flowItems handles levels fuel false (item :: done) last

def flowMembers (handles : Handles) (levels : Nat) :
    Nat → Bool → List (Node × Node) → Ahead → Composed (List (Node × Node))
  | 0, _, _, _ => .error .tooDeep
  | fuel + 1, isFirst, done, a =>
    if a.startsWith [.flowMappingEnd] then .ok (done.reverse, a.tail)
    else if !isFirst && !a.startsWith [.comma] then .error a.fault
    else
      let a := if isFirst then a else a.tail
      if a.startsWith [.flowMappingEnd] then .ok (done.reverse, a.tail)
      else
        let member : Composed (Node × Node) := if a.startsWith [.key] then
            flowMember handles levels fuel .flowMappingEnd a.tail
          else (node handles levels fuel .flow a).map fun (key, last) => ((key, .missing), last)
        match member with
        | .error e => .error e
        | .ok (member, last) => flowMembers handles levels fuel false (member :: done) last

end

/-- The version of the format that can be read. -/
def majorVersion : Nat := 1

def directives (versioned : Bool) (handles : Handles) :
    List Token → Except ReadFailure (Handles × List Token)
  | .directive (.version major) :: rest =>
    if versioned || major != majorVersion then .error .malformed
    else directives true handles rest
  | .directive (.handle name start) :: rest =>
    if (handles.lookup name).isSome then .error .malformed
    else directives versioned (handles ++ [(name, start)]) rest
  | .directive .other :: rest => directives versioned handles rest
  | tokens => .ok (handles ++ standardHandles, tokens)

/-- The node at the top of a document. Every step takes a token or goes one level down
to the next one, so twice the number of tokens bounds the recursion. -/
def topNode (handles : Handles) (tokens : List Token) : Composed Node :=
  node handles maxNesting (4 * tokens.length + 4) .entry ⟨tokens, []⟩

def finish (found : Composed Node) : Except ReadFailure (Option Node) :=
  match found with
  | .error e => .error e
  | .ok (top, last) =>
    match last.tokens.dropWhile (· == .documentEnd) with
    | [] => .ok (some top)
    | tokens => .error (Ahead.fault ⟨tokens, []⟩)

/-- The tokens that may stand behind the mark of an empty document. -/
def endsDocument : List Token → Bool
  | [] | .documentEnd :: _ | .documentStart :: _ | .directive _ :: _ => true
  | _ => false

/-- The node of a text that holds one document, or none. Directives need the mark of a
document behind them. -/
def document (tokens : List Token) : Except ReadFailure (Option Node) :=
  match tokens with
  | [] => .ok none
  | .directive _ :: _ | .documentStart :: _ =>
    match directives false [] tokens with
    | .error e => .error e
    | .ok (handles, .documentStart :: rest) =>
      if endsDocument rest then finish (.ok (.missing, ⟨rest, []⟩))
      else finish (topNode handles rest)
    | .ok (_, rest) => .error (Ahead.fault ⟨rest, []⟩)
  | _ => finish (topNode standardHandles tokens)

end Mustache.Data.Yaml

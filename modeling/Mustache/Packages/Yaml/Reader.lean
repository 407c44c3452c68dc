import Mustache.Packages.Yaml.Node

/-! The objects that nodes hold. Mappings take in the entries of others under the key `<<`;
their own entries take precedence. Of several faults the one nearest to the top counts,
and of those the first. -/

namespace Mustache.Data.Yaml

/-! ### Entries of other mappings -/

namespace Node

/-- The key under which a mapping takes in the entries of others. -/
def isMergeKey : Node → Bool
  | .scalar .merge _ => true
  | _ => false

def entries? : Node → Option (List (Node × Node))
  | .mapping _ entries => some entries
  | _ => none

/-- The entries that the node under such a key brings in: those of a mapping, or of a
list of mappings, from the last to the first. -/
def broughtIn : Node → Option (List (Node × Node))
  | .mapping _ entries => some entries
  | .enclosing => some []
  | .sequence _ items => (items.mapM entries?).map fun found => found.reverse.flatten
  | _ => none

def joined (kind : Kind) (entries : List (Node × Node)) : Node :=
  let (merges, own) := entries.partition fun entry => entry.1.isMergeKey
  match merges.mapM fun entry => entry.2.broughtIn with
  | some found => Node.mapping kind (found.flatten ++ own)
  | none => Node.spoilt

mutual

def merged : Node → Node
  | .sequence kind items => .sequence kind (mergedItems items)
  | .mapping kind entries => joined kind (mergedEntries entries)
  | n => n

def mergedItems : List Node → List Node
  | [] => []
  | n :: rest => merged n :: mergedItems rest

def mergedEntries : List (Node × Node) → List (Node × Node)
  | [] => []
  | (key, value) :: rest => (merged key, merged value) :: mergedEntries rest

end

mutual

def holdsItself : Node → Bool
  | .enclosing => true
  | .sequence _ items => itemsHold items
  | .mapping _ entries => entriesHold entries
  | _ => false

def itemsHold : List Node → Bool
  | [] => false
  | n :: rest => holdsItself n || itemsHold rest

def entriesHold : List (Node × Node) → Bool
  | [] => false
  | (key, value) :: rest => holdsItself key || holdsItself value || entriesHold rest

end

end Node

/-! ### Data -/

/-- What was built, or a fault and how far below the top it lies. -/
abbrev Built (α : Type) := Except (Nat × ReadFailure) α

/-- Two parts, of which the first was read first. -/
def Built.both {α β : Type} (first : Built α) (second : Built β) : Built (α × β) :=
  match first, second with
  | .ok a, .ok b => .ok (a, b)
  | .error e, .ok _ => .error e
  | .ok _, .error e => .error e
  | .error e, .error f => if f.1 < e.1 then .error f else .error e

def isKey : Object → Bool
  | .sequence .. | .mapping .. => false
  | _ => true

/-- Two values are the same key. Unlike elsewhere the float that is no number is a key
like others. -/
def sameKey (a b : Object) : Bool :=
  match a, b with
  | .float x, .float y => (x.isNaN && y.isNaN) || a.sameKey b
  | _, _ => a.sameKey b

def entriesOf (entries : List (Object × Object)) : List (Object × Object) :=
  Keyed.ofList sameKey entries

/-- A collection in place of which a value of another kind is declared. The kinds of
collections are looked at after the values around them. -/
def misplaced {α : Type} (depth : Nat) (kind : Kind) : Built α :=
  .error (if kind = .sequence || kind = .mapping then depth + 1 else depth, .malformed)

mutual

/-- The text that stands for a mapping where a scalar is declared: that of its value
under the key `=`. -/
def scalarText? : Node → Option String
  | .scalar _ text => some text
  | .mapping _ entries => entriesText? entries
  | _ => none

def entriesText? : List (Node × Node) → Option String
  | [] => none
  | (.scalar .value _, value) :: _ => scalarText? value
  | _ :: rest => entriesText? rest

end

def scalarObject (depth : Nat) (kind : Kind) (text : Option String) : Built Object :=
  match kind, text with
  | .sequence, _ | .mapping, _ | _, none => misplaced depth kind
  | kind, some text => (kind.valueOf text).mapError fun e => (depth, e)

/-- The key that a node is once its value is known. A collection is no key, which shows
before any fault within it. -/
def asKey (depth : Nat) (key : Node) (built : Built Object) : Built Object :=
  match key, built with
  | .scalar .value text, _ => .ok (.text text)
  | .enclosing, _ => .error (depth, .malformed)
  | _, .ok d => if isKey d then .ok d else .error (depth, .malformed)
  | _, .error e => .error (if e.1 ≤ depth then e else (depth, .malformed))

mutual

def build (depth : Nat) : Node → Built Object
  | .scalar kind text => scalarObject depth kind (some text)
  | .sequence .sequence items => (buildItems (depth + 1) items).map (.sequence .list)
  | .sequence kind _ => misplaced depth kind
  | .mapping .mapping entries =>
    (buildEntries (depth + 1) entries).map fun found => .mapping .plain (entriesOf found)
  | .mapping kind entries => scalarObject depth kind (entriesText? entries)
  | .enclosing => .ok .none
  | .spoilt => .error (depth + 1, .malformed)

def buildItems (depth : Nat) : List Node → Built (List Object)
  | [] => .ok []
  | n :: rest =>
    (Built.both (build depth n) (buildItems depth rest)).map fun (d, more) => d :: more

def buildEntries (depth : Nat) : List (Node × Node) → Built (List (Object × Object))
  | [] => .ok []
  | (key, value) :: rest =>
    let entry := Built.both (asKey depth key (build depth key)) (build depth value)
    (Built.both entry (buildEntries depth rest)).map fun (d, more) => d :: more

end

/-- The data of the node at the top of a document. Those that hold themselves have no
end. -/
def Node.object (top : Node) : Except ReadFailure Object :=
  let whole := top.merged
  match build 0 whole with
  | .error (_, e) => .error e
  | .ok d => if whole.holdsItself then .error .tooDeep else .ok d

def parse (text : List Char) : Except ReadFailure Object :=
  if !text.all isAllowed then .error .malformed
  else
    let text := match text with
      | '\ufeff' :: rest => rest
      | _ => text
    match document (tokens text) with
    | .error e => .error e
    | .ok none => .ok .none
    | .ok (some top) => top.object

end Mustache.Data.Yaml

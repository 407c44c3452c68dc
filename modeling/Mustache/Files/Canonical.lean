import Mustache.Host

/-! Canonical places. A path is made canonical by following every link on its way; what
is missing on the way is taken as it is written. A link that leads back to itself ends
the resolution: the rest of the path is then taken as it is written, double dots
included, and starts at the root if it starts with a slash. The result counts as a loop
if it leads nowhere because of one. -/

namespace Mustache.Files

/-- Links met so far: where each leads, or `none` while it is being followed. -/
abbrev Met := List (Place × Option Place)

/-- A resolved way: the place, whether every link on it could be followed, and the
links met. -/
structure Resolved where
  place : Place
  complete : Bool
  met : Met
deriving DecidableEq, Repr

/-- Names applied to a place without regard to links. -/
def applyNames (place : Place) (names : List String) : Place :=
  names.foldl (fun place name =>
    if isIdle name then place else if name = ".." then place.dropLast else place ++ [name]) place

/-- The unresolved rest of a path as it is seen from a place. If it starts with a slash,
which shows as an empty name in front of others, it starts at the root. -/
def applyRest (place : Place) (rest : List String) : Place :=
  match rest with
  | "" :: _ :: _ => applyNames [] rest
  | _ => applyNames place rest

def placeIsTooLong (place : Place) : Bool := maxPathBytes < (Path.mk .slash place).text.utf8ByteSize

namespace FileTree

/-- Resolves names from a place. The links that are being followed within each other are
all different; no more than `levels` more of them can be followed. -/
def resolveFrom (tree : FileTree) (host : Host) (levels : Nat) (place : Place) (met : Met) :
    List String → Except PathFault Resolved
  | [] => .ok ⟨place, true, met⟩
  | name :: rest =>
    if isIdle name then resolveFrom tree host levels place met rest
    else if name = ".." then resolveFrom tree host levels place.dropLast met rest
    else if !host.spells name then .error .unspellable
    else if hasNul name then .error .nulCharacter
    else
      let next := place ++ [name]
      match tree.entry? next with
      | some (.link target) =>
        match (met.find? fun entry => entry.1 = next).map Prod.snd with
        | some (some known) => resolveFrom tree host levels known met rest
        | some none => .ok ⟨applyRest next rest, false, met⟩
        | none =>
          match levels with
          | 0 => .error .linksTooDeep
          | levels + 1 =>
            match resolveFrom tree host levels (if isRooted target then [] else place)
              ((next, none) :: met) (splitSlashes target) with
            | .error fault => .error fault
            | .ok inner =>
              if inner.complete then
                resolveFrom tree host (levels + 1) inner.place
                  ((next, some inner.place) :: inner.met) rest
              else .ok ⟨applyRest inner.place rest, false, inner.met⟩
      | _ => resolveFrom tree host levels next met rest
termination_by names => (levels, names.length)

/-- The canonical place of a path that starts at `start` unless it is absolute. -/
def canonical (tree : FileTree) (host : Host) (start : Place) (p : Path) :
    Except PathFault Place :=
  match tree.resolveFrom host host.linkLevels (if p.isAbsolute then [] else start) [] p.parts with
  | .error fault => .error fault
  | .ok found =>
    if !found.place.all host.spells then .error .unspellable
    else if found.place.any hasNul then .error .nulCharacter
    else if placeIsTooLong found.place then .ok found.place
    else match tree.locateFrom false maxLinks [] found.place with
      | .error .linkLoop => .error .linkLoop
      | _ => .ok found.place

/-- Whether a regular file stands at a place. Names and paths that are too long are a
fault, and so is what the host refuses. -/
def isFile (tree : FileTree) (host : Host) (place : Place) : Except PathFault Bool :=
  if placeIsTooLong place then .error .nameTooLong
  else match host.asked place with
    | some fault => .error (.access fault)
    | none =>
      match tree.locateFrom false maxLinks [] place with
      | .ok found => .ok ((tree.entry? found) matches some (.file _))
      | .error .nameTooLong => .error .nameTooLong
      | .error _ => .ok false

end FileTree

end Mustache.Files

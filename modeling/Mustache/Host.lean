import Mustache.Files.Tree

/-! The host of a run: what its outcome depends on beside the program and the input. How deep
a function may still call itself differs from one call to the next, with the calls that are
open already; the host says how much is left where the function is called. -/

namespace Mustache

open Files

/-- What the machine and the system of files allow. Of a place that cannot be looked at the
tree of files tells nothing. -/
structure Host where
  /-- The names that can be written in the encoding of names of files. -/
  spells : String → Bool
  /-- What comes of asking what stands at a place, if that is refused. -/
  asked : Place → Option AccessFault
  /-- What comes of opening or reading the file at a place, if that is refused. -/
  opened : Place → Option AccessFault
  /-- The number of bytes for which there is memory. -/
  memory : Nat
  /-- The number of links that can be followed within each other. -/
  linkLevels : Nat
  /-- The number of lists and tables within each other that can be read from a variable. -/
  listLevels : Nat
  /-- The number of levels within each other that can be read from a settings file. -/
  textLevels : Nat
  /-- The number of tables within each other that can be merged. -/
  tableLevels : Nat

namespace Host

/-- The largest byte string that can be addressed: sizes are signed numbers of 64 bits, of
which the head of a byte string takes 33 bytes. -/
def largestBytes : Nat := 9223372036854775807 - 33

/-- The usual host: names may have any characters, nothing is refused, and functions can call
each other about a thousand times within each other. How many calls are open where a function
is called differs a little from one call to the next; the numbers are those of the calls that
the commands make. -/
def usual : Host where
  spells _ := true
  asked _ := none
  opened _ := none
  memory := 1099511627776
  linkLevels := 950
  listLevels := 985
  textLevels := 983
  tableLevels := 980

end Host

end Mustache

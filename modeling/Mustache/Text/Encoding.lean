import Mustache.Text.Utf8

/-! Text encodings of template sources. An encoding is named in a setting; in a name
only ASCII letters, digits and points count, without regard to case, and all else
separates words. -/

namespace Mustache.Text

inductive ByteOrder
  | little | big
deriving DecidableEq, Repr

/-- The encodings. The order is left out where a byte order mark decides; such a mark
is dropped, and without one the order is little endian. -/
inductive Encoding
  | ascii | latin1 | utf8 | utf8Marked
  | utf16 (order : Option ByteOrder) | utf32 (order : Option ByteOrder)
deriving DecidableEq, Repr

namespace Encoding

def names : List (String × Encoding) :=
  [("ascii", .ascii), ("latin_1", .latin1), ("iso8859_1", .latin1), ("utf_8", .utf8),
    ("utf_8_sig", .utf8Marked), ("utf_16", .utf16 none), ("utf_16_le", .utf16 (some .little)),
    ("utf_16_be", .utf16 (some .big)), ("utf_32", .utf32 none),
    ("utf_32_le", .utf32 (some .little)), ("utf_32_be", .utf32 (some .big))]

/-- Other names for them. -/
def aliases : List (String × Encoding) :=
  [("utf8", .utf8), ("u8", .utf8), ("utf", .utf8), ("utf8_ucs2", .utf8), ("utf8_ucs4", .utf8),
    ("cp65001", .utf8),
    ("latin1", .latin1), ("latin", .latin1), ("l1", .latin1), ("iso_8859_1", .latin1),
    ("iso_8859_1_1987", .latin1), ("iso8859_1", .latin1), ("iso8859", .latin1), ("8859", .latin1),
    ("cp819", .latin1), ("ibm819", .latin1), ("csisolatin1", .latin1), ("iso_ir_100", .latin1),
    ("us_ascii", .ascii), ("us", .ascii), ("646", .ascii), ("iso646_us", .ascii),
    ("iso_646.irv_1991", .ascii), ("iso_ir_6", .ascii), ("cp367", .ascii), ("ibm367", .ascii),
    ("csascii", .ascii), ("ansi_x3.4_1968", .ascii), ("ansi_x3_4_1968", .ascii),
    ("ansi_x3.4_1986", .ascii),
    ("utf16", .utf16 none), ("u16", .utf16 none), ("utf_16le", .utf16 (some .little)),
    ("unicodelittleunmarked", .utf16 (some .little)), ("utf_16be", .utf16 (some .big)),
    ("unicodebigunmarked", .utf16 (some .big)),
    ("utf32", .utf32 none), ("u32", .utf32 none), ("utf_32le", .utf32 (some .little)),
    ("utf_32be", .utf32 (some .big))]

def plainName (name : String) : String :=
  let spaced := name.map fun c => if c.isAlphanum || c == '.' then c.toLower else ' '
  "_".intercalate ((spaced.splitOn " ").filter fun word => !word.isEmpty)

/-- The encoding that a name stands for. In one of the other names there may be points in
place of underscores. -/
def ofName? (name : String) : Option Encoding :=
  let plain := plainName name
  let underscored := plain.map fun c => if c == '.' then '_' else c
  (aliases.lookup plain <|> aliases.lookup underscored) <|> names.lookup plain

def number (order : ByteOrder) (bytes : List UInt8) : Nat :=
  let ordered := match order with
    | .little => bytes.reverse
    | .big => bytes
  ordered.foldl (fun n b => 256 * n + b.toNat) 0

/-- The 16-bit units of a byte string behind `done`, which is in reverse; `none` if a
byte is left over. -/
def units16 (order : ByteOrder) (done : List Nat) : List UInt8 → Option (List Nat)
  | [] => some done.reverse
  | a :: b :: rest => units16 order (number order [a, b] :: done) rest
  | [_] => none

/-- The 32-bit units of a byte string behind `done`. -/
def units32 (order : ByteOrder) (done : List Nat) : List UInt8 → Option (List Nat)
  | [] => some done.reverse
  | a :: b :: c :: d :: rest => units32 order (number order [a, b, c, d] :: done) rest
  | _ => none

/-- The characters of 16-bit units behind `done`; surrogates have to come in pairs. -/
def ofUnits16 (done : List Char) : List Nat → Option (List Char)
  | [] => some done.reverse
  | u :: rest =>
    if u < 0xD800 || 0xDFFF < u then ofUnits16 (Char.ofNat u :: done) rest
    else if u < 0xDC00 then
      match rest with
      | v :: rest =>
        if 0xDC00 ≤ v && v ≤ 0xDFFF then
          ofUnits16 (Char.ofNat (0x10000 + (u - 0xD800) * 1024 + (v - 0xDC00)) :: done) rest
        else none
      | [] => none
    else none

def ofUnits32 (units : List Nat) : Option (List Char) :=
  if units.all fun u => decide u.isValidChar then some (units.map Char.ofNat) else none

/-- The byte order that a mark at the start announces, and the bytes behind the mark. -/
def splitMark16 : List UInt8 → ByteOrder × List UInt8
  | 0xFF :: 0xFE :: rest => (.little, rest)
  | 0xFE :: 0xFF :: rest => (.big, rest)
  | bytes => (.little, bytes)

def splitMark32 : List UInt8 → ByteOrder × List UInt8
  | 0xFF :: 0xFE :: 0 :: 0 :: rest => (.little, rest)
  | 0 :: 0 :: 0xFE :: 0xFF :: rest => (.big, rest)
  | bytes => (.little, bytes)

def dropMark8 : List UInt8 → List UInt8
  | 0xEF :: 0xBB :: 0xBF :: rest => rest
  | bytes => bytes

/-- The text that bytes encode, or `none` if they are malformed. -/
def decode? (encoding : Encoding) (bytes : List UInt8) : Option (List Char) :=
  match encoding with
  | .ascii => if bytes.all (· < 128) then some (bytes.map fun b => Char.ofNat b.toNat) else none
  | .latin1 => some (bytes.map fun b => Char.ofNat b.toNat)
  | .utf8 => Utf8.decode? bytes
  | .utf8Marked => Utf8.decode? (dropMark8 bytes)
  | .utf16 order =>
    let (order, bytes) := match order with
      | some order => (order, bytes)
      | none => splitMark16 bytes
    (units16 order [] bytes).bind (ofUnits16 [])
  | .utf32 order =>
    let (order, bytes) := match order with
      | some order => (order, bytes)
      | none => splitMark32 bytes
    (units32 order [] bytes).bind ofUnits32

end Encoding

end Mustache.Text

import Mustache.Files.Tree
import Mustache.Position
import Mustache.Template.Defect

/-! Errors of loading, compiling and rendering templates. An error names its trouble,
the template in which it arose as far as that is known, and for malformed sources the
offset and position. What else ends a run are exceptions of the caller's own code, such
as a lambda or an output sink, which pass through unless a sink raises one that says that
writing failed, and what the host cannot do. -/

namespace Mustache

/-- The closed set of kinds by which callers can tell template errors apart. -/
inductive ErrorKind
  | sourceNotFound | sourceReadFailure | oversizedSource | outOfMemory
  | expectedOpenDelimiter | expectedCloseDelimiter | expectedEndSection
  | unexpectedEndSection | unexpectedNewline | unexpectedEOF | nestingTooDeep
  | invalidBindingShape | renderIOFailure
deriving DecidableEq, Repr

def ErrorKind.name : ErrorKind → String
  | .sourceNotFound => "source_not_found"
  | .sourceReadFailure => "source_read_failure"
  | .oversizedSource => "oversized_source"
  | .outOfMemory => "out_of_memory"
  | .expectedOpenDelimiter => "expected_open_delimiter"
  | .expectedCloseDelimiter => "expected_close_delimiter"
  | .expectedEndSection => "expected_end_section"
  | .unexpectedEndSection => "unexpected_end_section"
  | .unexpectedNewline => "unexpected_newline"
  | .unexpectedEOF => "unexpected_eof"
  | .nestingTooDeep => "nesting_too_deep"
  | .invalidBindingShape => "invalid_binding_shape"
  | .renderIOFailure => "render_io_failure"

/-- Whether a fault says that input or output failed, that a value is unusable, or
something else. -/
inductive FaultFamily
  | inputOutput | value | other
deriving DecidableEq, Repr, Inhabited

/-- An exception raised by the caller's code. -/
structure Fault where
  family : FaultFamily
  name : String
  message : String
deriving DecidableEq, Repr, Inhabited

/-- The fault of a sink that cannot take more text. -/
def Fault.stopsWriting (f : Fault) : Bool := f.family != .other

/-- Why a source cannot be read: its file cannot be opened, its bytes are no text in its
encoding, or nothing is known of the encoding. -/
inductive SourceFault
  | unopened (fault : Files.PathFault)
  | malformed
  | unknownEncoding
deriving DecidableEq, Repr

/-- What went wrong. -/
inductive Trouble
  | notFound
  | unreadable (cause : Option SourceFault)
  | oversized (limit : Nat)
  | outOfMemory
  | shape
  | sink (cause : Option Fault)
  | defect (d : Template.Defect)
deriving DecidableEq, Repr

namespace Trouble

def kind : Trouble → ErrorKind
  | .notFound => .sourceNotFound
  | .unreadable _ => .sourceReadFailure
  | .oversized _ => .oversizedSource
  | .outOfMemory => .outOfMemory
  | .shape => .invalidBindingShape
  | .sink _ => .renderIOFailure
  | .defect .expectedOpen => .expectedOpenDelimiter
  | .defect .expectedClose => .expectedCloseDelimiter
  | .defect (.expectedEnd _) => .expectedEndSection
  | .defect .strayEnd => .unexpectedEndSection
  | .defect .lineFeedInTag => .unexpectedNewline
  | .defect .endOfSource => .unexpectedEOF
  | .defect (.nestingTooDeep _) => .nestingTooDeep

def summary (t : Trouble) : String :=
  match t.kind with
  | .sourceNotFound => "template not found"
  | .sourceReadFailure => "could not read template source"
  | .oversizedSource => "template source exceeds maximum size"
  | .outOfMemory => "out of memory"
  | .invalidBindingShape => "context must be record-shaped"
  | .renderIOFailure => "failed to write output"
  | .expectedOpenDelimiter => "expected open curly brace"
  | .expectedCloseDelimiter => "expected close curly brace"
  | .expectedEndSection => "expected end of a section"
  | .unexpectedEndSection => "unexpected end of a section"
  | .unexpectedNewline => "unexpected newline"
  | .unexpectedEOF => "unexpected end of file"
  | .nestingTooDeep => "nesting too deep"

/-- The template source is malformed, or nests too deep. -/
def isSyntactic : Trouble → Bool
  | .defect _ => true
  | _ => false

end Trouble

/-- An error of loading, compiling or rendering a template. -/
structure TemplateError where
  trouble : Trouble
  detail : Option String := none
  identifier : Option String := none
  offset : Option Nat := none
  position : Position := .unknown
deriving DecidableEq, Repr

namespace TemplateError

def kind (e : TemplateError) : ErrorKind := e.trouble.kind

def message (e : TemplateError) : String := e.detail.getD e.trouble.summary

def located (e : TemplateError) : String := "[" ++ e.position.text ++ "] " ++ e.message

/-- The report of an error, a line with its position and its message. -/
def report (e : TemplateError) : String := e.located ++ "\n"

/-- An error that names no template yet arose in `identifier`. -/
def inTemplate (identifier : String) (e : TemplateError) : TemplateError :=
  { e with identifier := some (e.identifier.getD identifier) }

/-- A malformed source, not yet located. -/
def ofSyntax (e : Template.SyntaxError) : TemplateError :=
  { trouble := .defect e.defect, offset := some e.offset }

def ofSyntaxIn (source : List Char) (e : Template.SyntaxError) : TemplateError :=
  { ofSyntax e with position := (LineIndex.ofSource source).position e.offset }

end TemplateError

/-- Why a source that is there does not become bytes: it is a text that has no encoding, or
its bytes are more than can be addressed or than there is memory for. -/
inductive BytesFault
  | unencodable | tooMany | outOfMemory
deriving DecidableEq, Repr

/-- What ends a run early: a template error, an exception of the caller's code that is none,
a path that cannot be looked up, or a source that does not become bytes. -/
inductive Failure
  | template (e : TemplateError)
  | raised (f : Fault)
  | path (f : Files.PathFault)
  | bytes (f : BytesFault)
deriving DecidableEq, Repr

/-- The exception that a path is which cannot be looked up. -/
def Fault.ofPath (fault : Files.PathFault) : Fault :=
  let (family, name) : FaultFamily × String := match fault with
    | .nulCharacter => (.value, "ValueError")
    | .unspellable => (.value, "UnicodeEncodeError")
    | .linkLoop => (.other, "RuntimeError")
    | .linksTooDeep => (.other, "RecursionError")
    | _ => (.inputOutput, "OSError")
  ⟨family, name, fault.message⟩

/-- The exception that a source is which does not become bytes. -/
def Fault.ofBytes : BytesFault → Fault
  | .unencodable => ⟨.value, "UnicodeEncodeError", "surrogates not allowed"⟩
  | .tooMany => ⟨.other, "OverflowError", "cannot fit 'int' into an index-sized integer"⟩
  | .outOfMemory => ⟨.other, "MemoryError", ""⟩

/-- The exception that a failure is, unless it is a template error. -/
def Failure.fault? : Failure → Option Fault
  | .template _ => none
  | .raised f => some f
  | .path f => some (.ofPath f)
  | .bytes f => some (.ofBytes f)

/-- What becomes of what a sink raises. A fault that says that writing failed becomes a
template error; anything else stays what it is. -/
def Failure.ofWriting (failure : Failure) : Failure :=
  match failure.fault? with
  | some f => if f.stopsWriting then .template { trouble := .sink (some f) } else failure
  | none => failure

end Mustache

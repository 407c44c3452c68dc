import Mustache.Fields

/-! Documents: trees of plain data whose tables have text keys, as settings files and
data files hold them. -/

namespace Mustache.Data

/-- Why a text is not read. It breaks the grammar of its format; a number, a date or a
character in it is beyond what is represented; or too many collections stand within
each other. The others arise from scalars that are declared to be of a kind: the word
is no truth value, there is no digit, or the text is no date. -/
inductive ReadFailure
  | malformed
  | outOfRange
  | characterTooLarge
  | tooDeep
  | notATruthValue
  | noDigits
  | notADate
deriving DecidableEq, Repr

/-- Points in time, by what is known of them: the day, the time of day, or both. -/
inductive DateKind
  | day | hour | moment
deriving DecidableEq, Repr

/-- Plain data. A point in time is held as its text. -/
inductive Document
  | null
  | bool (b : Bool)
  | int (i : Int)
  | float (x : Float)
  | text (s : String)
  | date (kind : DateKind) (text : String)
  | list (items : List Document)
  | table (entries : List (String × Document))
deriving Inhabited

end Mustache.Data

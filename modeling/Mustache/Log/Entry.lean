import Mustache.Data.Document
import Mustache.Session

/-! Log entries, and those that the events of an engine make. -/

namespace Mustache.Log

open Data

structure Entry where
  level : String
  event : String
  fields : List (String × Document)

def Entry.ofEvent : Event → Entry
  | .cacheHit identifier => ⟨"debug", "template_cache_hit", [("identifier", .text identifier)]⟩
  | .compiled identifier nodes =>
    ⟨"debug", "template_compiled", [("identifier", .text identifier), ("nodes", .int nodes)]⟩
  | .compileFailed identifier kind position =>
    ⟨"info", "template_compile_failed",
      [("identifier", .text identifier), ("kind", .text kind.name), ("line", .int position.line),
        ("column", .int position.column)]⟩
  | .renderStarted identifier => ⟨"debug", "render_started", [("identifier", .text identifier)]⟩
  | .renderFailed identifier kind message =>
    ⟨"info", "render_failed",
      [("identifier", .text identifier), ("kind", .text kind.name), ("error", .text message)]⟩

end Mustache.Log

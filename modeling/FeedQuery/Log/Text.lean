import FeedQuery.Log
import FeedQuery.Message.Codec
import FeedQuery.Text.Lines

/-!
Logs as texts: one message a line, in JSON. Blank lines are passed over but counted.
-/
namespace FeedQuery.Log

/-- Reads lines from a line number on; the first line that is no message is the error. -/
def readLines : Nat → List String → Except StoreError (List Message)
  | _, [] => .ok []
  | n, line :: lines =>
    if Text.trim line = "" then readLines (n + 1) lines
    else do
      let m ← (Message.ofText (Text.trim line)).mapError (.decode n)
      return m :: (← readLines (n + 1) lines)

/-- Reads a whole log. Lines count from one. -/
def ofText (text : String) : Except StoreError Log := (readLines 1 (Text.lines text)).map Log.mk

end FeedQuery.Log

/-
  **SHORTENED TEXTS**: task reports (`internal/worker/handler.go`), tool results
  (`internal/ai/tools`) and conversation titles (`internal/ai/chat_handler.go`).

  A text that comes in is valid UTF-8, a `String`.  It is cut by BYTES, so what
  goes out is a `ByteArray`.
-/
import AiScheduler.Handler.Events

namespace AiScheduler.Texts

open Events

/-- `strings.TrimSpace`. -/
def trim (s : String) : String := String.ofList (Cron.trimSpace s.toList)

/-- `s[:n]` and a suffix, if `s` has more than `n` bytes. -/
def cut (s : String) (n : Nat) (suffix : String) : ByteArray :=
  if s.utf8ByteSize > n then s.toByteArray.extract 0 n ++ suffix.toByteArray else s.toByteArray

def trimExecutionMessage (value : String) : ByteArray := cut (trim value) 1024 ""

def truncateStr (s : String) (maxLen : Nat) : ByteArray := cut s maxLen "..."

/-- The line `firstLine` cuts. -/
def oneLine (s : String) : String := trim (replaceString (replaceString s "\n" " ") "\r" "")

def firstLine (s : String) (maxLen : Nat) : ByteArray := cut (oneLine s) maxLen "..."

end AiScheduler.Texts

/-
  **THE CHAT AGENT**: the events of a streamed model reply
  (`runStreamWithClient` of `internal/ai/adapter/adapter.go`) and the loop that
  feeds tool results back to the model (`Run` of `internal/ai/agent/engine.go`).
-/
import AiScheduler.Lib.Table
import AiScheduler.Model.Types

namespace AiScheduler.Agent

open Lib

/-! ## A streamed reply. -/

/-- `ToolCall`, or a fragment of one in a chunk. -/
structure ToolCall where
  index : Int := 0
  id : String := ""
  type : String := ""
  name : String := ""
  arguments : String := ""
  deriving DecidableEq

/-- What the adapter sends to the agent. -/
structure StreamEvent where
  deltaContent : String := ""
  reasoningContent : String := ""
  toolCalls : List ToolCall := []
  finishReason : String := ""
  error : Option String := none

/-- A choice of a chunk: its delta and its finish reason. -/
structure Choice where
  toolCalls : List ToolCall := []
  reasoningContent : String := ""
  content : String := ""
  finishReason : String := ""
  deriving DecidableEq

/-- `map[int]*ToolCall`. -/
abbrev Calls := Table (Prod.fst : Int × ToolCall → Int)

/-- What is accumulated across chunks. -/
structure Accum where
  calls : Calls := .empty
  reasoning : String := ""

/-- A further fragment of a call. -/
def ToolCall.extend (existing tc : ToolCall) : ToolCall :=
  { existing with
    arguments := existing.arguments ++ tc.arguments
    name := if tc.name ≠ "" then tc.name else existing.name
    id := if tc.id ≠ "" then tc.id else existing.id }

/-- One pass of the loop over `delta.ToolCalls`. -/
def addFragment (accum : Calls) (tc : ToolCall) : Calls :=
  match accum.get? tc.index with
  | some (_, existing) => accum.upsert (tc.index, existing.extend tc)
  | none => accum.upsert (tc.index, { tc with index := 0 })

/-- The calls of the last event: `for i := 0; i < len(accum); i++`. -/
def collect (accum : Calls) : List ToolCall :=
  (List.range accum.rows.length).filterMap (fun i : Nat => (accum.get? i).map Prod.snd)

/-- The fragments and the reasoning of a choice, added. -/
def Accum.add (a : Accum) (choice : Choice) : Accum where
  calls := choice.toolCalls.foldl addFragment a.calls
  reasoning := a.reasoning ++ choice.reasoningContent

/-- The event of a finish reason. -/
def Accum.finish (a : Accum) (finishReason : String) : StreamEvent where
  finishReason := finishReason
  toolCalls := collect a.calls
  reasoningContent := a.reasoning

/-- The events a chunk sends. -/
def onChoice (a : Accum) (choice : Choice) : List StreamEvent :=
  (if choice.content ≠ "" then [{ deltaContent := choice.content }] else [])
    ++ if choice.finishReason ≠ "" then [(a.add choice).finish choice.finishReason] else []

/-- The choice a line of the response carries; other lines are skipped. -/
def choiceOf (unmarshal : String → Option (List Choice)) (line : String) : Option Choice :=
  if line = "" ∨ line = "data: [DONE]" ∨ ¬ "data: ".toList.isPrefixOf line.toList then none
  else (unmarshal (String.ofList (line.toList.drop 6))).bind List.head?

/-- A line: the events sent, and what is accumulated after it. -/
def onLine (unmarshal : String → Option (List Choice)) (a : Accum) (line : String) :
    List StreamEvent × Accum :=
  match choiceOf unmarshal line with
  | none => ([], a)
  | some choice => (onChoice a choice, a.add choice)

/-- The scan of the response: every line with `ctx.Err()` before it, and
`scanner.Err()` at the end. -/
def scan (unmarshal : String → Option (List Choice)) (scanErr : Option String) :
    Accum → List (Option String × String) → List StreamEvent
  | _, [] => (scanErr.map (fun e => { error := some e })).toList
  | _, (some e, _) :: _ => [{ error := some e }]
  | a, (none, line) :: rest =>
    (onLine unmarshal a line).1 ++ scan unmarshal scanErr (onLine unmarshal a line).2 rest

/-! ## The loop. -/

/-- A message of the conversation. -/
structure Message where
  role : String
  content : String := ""
  reasoningContent : String := ""
  toolCalls : List ToolCall := []
  toolCallID : String := ""

/-- What is collected of a reply. -/
structure Reply where
  content : String := ""
  reasoningContent : String := ""
  pendingToolCalls : List ToolCall := []

/-- `for ev := range ch`, up to the first error. -/
def readReply : Reply → List StreamEvent → Except String Reply
  | reply, [] => .ok reply
  | reply, ev :: evs =>
    match ev.error with
    | some e => .error e
    | none => readReply
      { content := reply.content ++ ev.deltaContent
        reasoningContent :=
          if ev.reasoningContent ≠ "" then ev.reasoningContent else reply.reasoningContent
        pendingToolCalls := if ev.toolCalls ≠ [] then ev.toolCalls else reply.pendingToolCalls } evs

/-- What a run meets: the answers of the model, the tools and the context, given the messages. -/
structure Env where
  enabled : Bool
  ctxErr : List Message → Option String
  stream : List Message → List StreamEvent
  tools : String → Option (List Message → String → Except String String)

/-- `Execute` of the tool registry. -/
def Env.execute (env : Env) (messages : List Message) (tc : ToolCall) : Except String String :=
  match env.tools tc.name with
  | none => .error ("unknown tool: " ++ tc.name)
  | some tool => tool messages tc.arguments

/-- The tool message of a call. -/
def toolMessage (env : Env) (messages : List Message) (tc : ToolCall) : Message where
  role := "tool"
  toolCallID := tc.id
  content :=
    match env.execute messages tc with
    | .error e => "tool execution failed: " ++ e
    | .ok result => result

/-- What a run builds up: the messages, and the names of the tools that succeeded. -/
structure Progress where
  messages : List Message
  toolCallsMade : List String := []

/-- The loop over the pending calls. -/
def callTools (env : Env) : List ToolCall → Progress → Progress
  | [], p => p
  | tc :: tcs, p =>
    callTools env tcs
      { messages := p.messages ++ [toolMessage env p.messages tc]
        toolCallsMade :=
          if (env.execute p.messages tc).isOk then p.toolCallsMade ++ [tc.name]
          else p.toolCallsMade }

/-- The message a reply with tool calls becomes. -/
def Reply.assistantMsg (reply : Reply) : Message where
  role := "assistant"
  content := reply.content
  reasoningContent := reply.reasoningContent
  toolCalls := reply.pendingToolCalls

/-- The iterations left: the requests made, and the final text with the tools called. -/
def iterate (env : Env) : Nat → Progress →
    List (List Message) × Except String (String × List String)
  | 0, _ => ([], .error "max tool iterations exceeded")
  | left + 1, p =>
    match env.ctxErr p.messages with
    | some e => ([], .error e)
    | none =>
      match readReply {} (env.stream p.messages) with
      | .error e => ([p.messages], .error e)
      | .ok reply =>
        if reply.pendingToolCalls = [] then ([p.messages], .ok (reply.content, p.toolCallsMade))
        else
          let r := iterate env left (callTools env reply.pendingToolCalls
            { p with messages := p.messages ++ [reply.assistantMsg] })
          (p.messages :: r.1, r.2)

/-- The messages a run starts with. -/
def opening (systemPrompt : String) (history : List Message) (userMessage : String) :
    List Message :=
  { role := "system", content := systemPrompt } :: history
    ++ [{ role := "user", content := userMessage }]

/-- `Run`, with `maxToolIterations` 10. -/
def run (env : Env) (systemPrompt : String) (history : List Message) (userMessage : String) :
    List (List Message) × Except String (String × List String) :=
  if env.enabled then iterate env 10 { messages := opening systemPrompt history userMessage }
  else ([], .error "LLM not configured")

end AiScheduler.Agent

/-
  **WHAT THE CHAT AGENT MAKES OF A STREAM, AND OF A CONVERSATION.**

  Tool calls are collected by counting from 0 to the NUMBER of indices received, so calls are lost
  unless the indices are `0, 1, …` without a gap. Every call of a reply gets its tool message,
  whatever becomes of it.
-/
import AiScheduler.Ai.Agent
import Mathlib.Data.List.Dedup
import Mathlib.Data.List.Range
import Mathlib.Data.List.TakeWhile

namespace AiScheduler.Agent

open Lib List

/-! ## The tool calls of a stream. -/

def fragments (received : List ToolCall) (i : Int) : List ToolCall :=
  received.filter (fun tc => tc.index = i)

def lastNonempty (texts : List String) : String := (texts.filter (· ≠ "")).getLast?.getD ""

def assembled (fs : List ToolCall) : ToolCall where
  id := lastNonempty (fs.map (·.id))
  type := (fs.head?.map (·.type)).getD ""
  name := lastNonempty (fs.map (·.name))
  arguments := String.join (fs.map (·.arguments))

/-- **One call for each index received**, in increasing order, made up of its
fragments. -/
def Complete (received calls : List ToolCall) : Prop :=
  ∃ indices : List Int, indices.Pairwise (· < ·) ∧ (∀ i, i ∈ indices ↔ i ∈ received.map (·.index))
    ∧ calls = indices.map (fun i => assembled (fragments received i))

variable {received fs : List ToolCall} {i : Int}

theorem lastNonempty_append (texts : List String) (t : String) :
    lastNonempty (texts ++ [t]) = if t ≠ "" then t else lastNonempty texts := by
  unfold lastNonempty
  by_cases ht : t = "" <;> simp [ht]

theorem assembled_append (h : fs ≠ []) (tc : ToolCall) :
    assembled (fs ++ [tc]) = (assembled fs).extend tc := by
  obtain ⟨f, fs, rfl⟩ := exists_cons_of_ne_nil h
  simp only [assembled, ToolCall.extend, map_append, map_cons, map_nil,
    lastNonempty_append, String.join_append]
  simp

theorem assembled_singleton (tc : ToolCall) : assembled [tc] = { tc with index := 0 } := by
  have hlast : ∀ t : String, lastNonempty [t] = t := by
    intro t
    by_cases ht : t = "" <;> simp [lastNonempty, ht]
  simp [assembled, hlast]

theorem fragments_append (tc : ToolCall) :
    fragments (received ++ [tc]) i
      = if tc.index = i then fragments received i ++ [tc] else fragments received i := by
  unfold fragments
  by_cases h : tc.index = i <;> simp [h]

theorem get?_accumulated (received : List ToolCall) : ∀ i,
    (received.foldl addFragment .empty).get? i
      = if fragments received i = [] then none else some (i, assembled (fragments received i)) := by
  induction received using reverseRecOn with
  | nil => exact fun i => rfl
  | append_singleton received tc ih =>
  intro i
  rw [foldl_append, fragments_append]
  generalize received.foldl addFragment .empty = accum at ih ⊢
  have hadd : addFragment accum tc
      = accum.upsert (tc.index, assembled (fragments received tc.index ++ [tc])) := by
    unfold addFragment
    rw [ih tc.index]
    by_cases hnew : fragments received tc.index = []
    · rw [if_pos hnew, hnew, nil_append, assembled_singleton]
    · rw [if_neg hnew, assembled_append hnew]
  show (addFragment accum tc).get? i = _
  rw [hadd, Table.get?_upsert, ih i]
  by_cases hi : tc.index = i
  · subst hi
    simp
  · rw [if_neg (Ne.symm hi), if_neg hi]

theorem fragments_eq_nil : fragments received i = [] ↔ i ∉ received.map (·.index) := by
  simp [fragments, filter_eq_nil_iff]

theorem mem_accumulated (received : List ToolCall) :
    i ∈ ((received.foldl addFragment .empty).rows.map Prod.fst) ↔ i ∈ received.map (·.index) := by
  have hget := get?_accumulated received i
  constructor
  · intro hi
    by_contra hnone
    rw [if_pos (fragments_eq_nil.mpr hnone), Table.get?_none] at hget
    obtain ⟨row, hrow, rfl⟩ := mem_map.mp hi
    exact hget row hrow rfl
  · intro hi
    rw [if_neg (fun h => fragments_eq_nil.mp h hi)] at hget
    obtain ⟨hrow, _⟩ := Table.get?_some hget
    exact mem_map.mpr ⟨_, hrow, rfl⟩

theorem collect_complete_iff (received : List ToolCall) :
    Complete received (collect (received.foldl addFragment .empty))
      ↔ ∀ j < (received.map (·.index)).dedup.length, (j : Int) ∈ received.map (·.index) := by
  have hget := get?_accumulated received
  have hkeys := fun i => mem_accumulated (i := i) received
  have hnodup := (received.foldl addFragment .empty).nodup
  unfold collect
  generalize received.foldl addFragment .empty = accum at hget hkeys hnodup ⊢
  have hdistinct : (received.map (·.index)).dedup.Perm (accum.rows.map Prod.fst) :=
    (perm_ext_iff_of_nodup (nodup_dedup _) hnodup).mpr (fun i => by
      rw [mem_dedup, hkeys])
  rw [hdistinct.length_eq, length_map]
  constructor
  · rintro ⟨indices, hsorted, hmem, hcalls⟩
    -- as many calls as indices: none of the numbers counted through is missing
    have hperm := (perm_ext_iff_of_nodup (hsorted.imp Int.ne_of_lt) hnodup).mpr
      (fun i => by rw [hmem, hkeys])
    have hlength := congrArg length hcalls
    rw [length_map, hperm.length_eq, length_map] at hlength
    intro j hj
    have hsome := filterMap_length_eq_length.mp
      (hlength.trans length_range.symm) j (mem_range.mpr hj)
    rw [Option.isSome_map, Option.isSome_iff_exists] at hsome
    obtain ⟨row, hrow⟩ := hsome
    obtain ⟨hrow, hj⟩ := Table.get?_some hrow
    exact (hkeys j).mp (mem_map.mpr ⟨row, hrow, hj⟩)
  · intro hall
    have hsorted : ((range accum.rows.length).map Int.ofNat).Pairwise (· < ·) :=
      pairwise_map.mpr (pairwise_lt_range.imp Int.ofNat_lt.mpr)
    -- as many keys as numbers counted through, and every number is a key
    have hperm : ((range accum.rows.length).map Int.ofNat).Perm (accum.rows.map Prod.fst) := by
      apply (subperm_of_subset (hsorted.imp Int.ne_of_lt) ?_).perm_of_length_le (by simp)
      intro i hi
      obtain ⟨j, hj, rfl⟩ := mem_map.mp hi
      exact (hkeys j).mpr (hall j (mem_range.mp hj))
    refine ⟨_, hsorted, fun i => by rw [hperm.mem_iff, hkeys], ?_⟩
    rw [map_map, ← filterMap_eq_map]
    apply filterMap_congr
    intro j hj
    rw [hget, if_neg (fun h => fragments_eq_nil.mp h (hall j (mem_range.mp hj)))]
    rfl

def receivedIn (unmarshal : String → Option (List Choice)) (lines : List String) : List ToolCall :=
  (lines.filterMap (choiceOf unmarshal)).flatMap (·.toolCalls)

section Stream

variable (unmarshal : String → Option (List Choice)) (scanErr : Option String)

def accumulatedIn (lines : List String) (a : Accum) : Accum :=
  lines.foldl (fun a line => (onLine unmarshal a line).2) a

theorem calls_accumulatedIn (lines : List String) : ∀ a, (accumulatedIn unmarshal lines a).calls
      = (receivedIn unmarshal lines).foldl addFragment a.calls := by
  induction lines with
  | nil => exact fun a => rfl
  | cons line lines ih =>
  intro a
  show (accumulatedIn unmarshal lines (onLine unmarshal a line).2).calls = _
  rw [ih]
  unfold receivedIn onLine
  cases hline : choiceOf unmarshal line with
  | none => rw [filterMap_cons_none hline]
  | some choice =>
    rw [filterMap_cons_some hline, flatMap_cons, foldl_append]
    rfl

theorem scan_append (rest : List (Option String × String)) (lines : List String) : ∀ a,
    scan unmarshal scanErr a (lines.map (none, ·) ++ rest)
      = scan unmarshal none a (lines.map (none, ·))
        ++ scan unmarshal scanErr (accumulatedIn unmarshal lines a) rest := by
  induction lines with
  | nil => exact fun a => rfl
  | cons line lines ih =>
    intro a
    simp only [map_cons, cons_append, scan, ih, append_assoc]
    rfl

/-- **NO STREAMED CALL IS LOST, EXACTLY IF THE INDICES HAVE NO GAP**: the event that a line with a
finish reason sends last carries the complete calls of all fragments so far if and only if the `k`
indices received are `0, …, k - 1`. -/
theorem no_call_lost_iff (lines : List String) (line : String) (choice : Choice)
    (rest : List (Option String × String)) (hline : choiceOf unmarshal line = some choice)
    (hfinish : choice.finishReason ≠ "") :
    ∃ ev later, scan unmarshal scanErr {} (lines.map (none, ·) ++ (none, line) :: rest)
        = scan unmarshal none {} (lines.map (none, ·))
          ++ ((if choice.content ≠ "" then [{ deltaContent := choice.content }] else [])
            ++ ev :: later)
      ∧ ev.finishReason = choice.finishReason
      ∧ (Complete (receivedIn unmarshal (lines ++ [line])) ev.toolCalls
          ↔ ∀ j < ((receivedIn unmarshal (lines ++ [line])).map (·.index)).dedup.length,
              (j : Int) ∈ (receivedIn unmarshal (lines ++ [line])).map (·.index)) := by
  have hcalls := calls_accumulatedIn unmarshal (lines ++ [line]) {}
  have hlast : accumulatedIn unmarshal (lines ++ [line]) {}
      = (accumulatedIn unmarshal lines {}).add choice := by
    simp [accumulatedIn, List.foldl_append, onLine, hline]
  have hcomplete := collect_complete_iff (receivedIn unmarshal (lines ++ [line]))
  rw [← show _ = _ from hcalls, hlast] at hcomplete
  refine ⟨((accumulatedIn unmarshal lines {}).add choice).finish choice.finishReason,
    scan unmarshal scanErr ((accumulatedIn unmarshal lines {}).add choice) rest, ?_, rfl, hcomplete⟩
  rw [scan_append, scan, onLine, hline]
  simp only [onChoice, if_pos hfinish, List.append_assoc]
  rfl

end Stream

/-- The JSON of a chunk with one fragment, of the given index, and a finish reason. -/
def chunkText (index : String) : String :=
  "\x7b\"choices\":[\x7b\"delta\":\x7b\"tool_calls\":[\x7b\"index\":" ++ index
    ++ ",\"id\":\"a\",\"function\":\x7b\"name\":\"pause_task\"\x7d\x7d]\x7d,"
    ++ "\"finish_reason\":\"tool_calls\"\x7d]\x7d"

/-- What that chunk says. -/
def chunkChoice (index : Int) : Choice where
  toolCalls := [{ index, id := "a", name := "pause_task" }]
  finishReason := "tool_calls"

/-- `json.Unmarshal` on the chunks of index 0 and 1. -/
def readChunk (text : String) : Option (List Choice) :=
  if text = chunkText "0" then some [chunkChoice 0]
  else if text = chunkText "1" then some [chunkChoice 1]
  else none

theorem call_zero_kept : ∃ ev later,
    scan readChunk none {} [(none, "data: " ++ chunkText "0")] = ev :: later
      ∧ Complete (chunkChoice 0).toolCalls ev.toolCalls := by
  obtain ⟨ev, later, hscan, _, hcomplete⟩ := no_call_lost_iff readChunk none []
    ("data: " ++ chunkText "0") (chunkChoice 0) [] (by decide +kernel) (by decide)
  have hreceived : receivedIn readChunk ([] ++ ["data: " ++ chunkText "0"])
      = (chunkChoice 0).toolCalls := by decide +kernel
  rw [hreceived] at hcomplete
  exact ⟨ev, later, hscan, hcomplete.mpr (by decide)⟩

/-- **A LOST CALL**: the only fragment has index 1, and the finish event carries no
call at all. -/
theorem call_one_lost :
    scan readChunk none {} [(none, "data: " ++ chunkText "1")]
      = [{ finishReason := "tool_calls" }] := by
  have hline : choiceOf readChunk ("data: " ++ chunkText "1") = some (chunkChoice 1) := by
    decide +kernel
  simp only [scan, onLine, hline]
  rfl

/-! ## The messages of a run. -/

/-- **Every assistant message with tool calls is followed at once by one tool message per call**, in
order and with the calls' ids. -/
def Paired : List Message → Prop
  | [] => True
  | m :: rest =>
    (m.role = "assistant" → m.toolCalls ≠ [] →
      (rest.takeWhile (·.role = "tool")).map (·.toolCallID) = m.toolCalls.map (·.id))
    ∧ Paired rest

variable {xs ys : List Message} {y : Message}

theorem paired_append (hxs : Paired xs) (hys : Paired (y :: ys)) (hy : y.role ≠ "tool") :
    Paired (xs ++ y :: ys) := by
  have htake : ∀ zs,
      (zs ++ y :: ys).takeWhile (·.role = "tool") = zs.takeWhile (·.role = "tool") := by
    intro zs
    induction zs with
    | nil => simp [hy]
    | cons z zs ih => rw [cons_append, takeWhile_cons, takeWhile_cons, ih]
  induction xs with
  | nil => exact hys
  | cons x xs ih =>
    refine ⟨fun hrole hcalls => ?_, ih hxs.2⟩
    rw [← hxs.1 hrole hcalls, ← htake xs]
    rfl

theorem paired_of_tools {ms : List Message} (h : ∀ m ∈ ms, m.role = "tool") : Paired ms := by
  induction ms with
  | nil => trivial
  | cons m ms ih =>
    refine ⟨fun hrole => ?_, ih (fun m hm => h m (.tail _ hm))⟩
    rw [h m (.head _)] at hrole
    exact absurd hrole (by decide)

theorem messages_callTools (env : Env) (tcs : List ToolCall) : ∀ p, ∃ ms : List Message,
    (callTools env tcs p).messages = p.messages ++ ms
      ∧ (∀ m ∈ ms, m.role = "tool") ∧ ms.map (·.toolCallID) = tcs.map (·.id) := by
  induction tcs with
  | nil => exact fun p => ⟨[], by simp [callTools], by simp, rfl⟩
  | cons tc tcs ih =>
  intro p
  obtain ⟨ms, hms, htools, hids⟩ := ih
    { messages := p.messages ++ [toolMessage env p.messages tc]
      toolCallsMade := if (env.execute p.messages tc).isOk then p.toolCallsMade ++ [tc.name]
        else p.toolCallsMade }
  refine ⟨toolMessage env p.messages tc :: ms, ?_, ?_, ?_⟩
  · rw [callTools, hms, append_assoc]
    rfl
  · intro m hm
    rcases mem_cons.mp hm with rfl | hm
    · rfl
    · exact htools m hm
  · rw [map_cons, hids]
    rfl

/-- What the requests of the iterations left have in common. -/
structure Sent (base : List Message) (left : Nat) (p : Progress) (sent : List (List Message)) :
    Prop where
  bounded : sent.length ≤ left
  extend : (p.messages :: sent).Pairwise (· <+: ·)
  paired : ∀ m ∈ sent, ∃ part, m = base ++ part ∧ Paired part

theorem iterate_sent (env : Env) (base : List Message) (left : Nat) : ∀ p : Progress,
    (∃ part, p.messages = base ++ part ∧ Paired part) →
      Sent base left p (iterate env left p).1 := by
  induction left with
  | zero => exact fun p _ => ⟨Nat.le_refl 0, by simp [iterate], by simp [iterate]⟩
  | succ left ih =>
  intro p hp
  have hnone : Sent base (left + 1) p [] := ⟨by simp, by simp, by simp⟩
  have hone : Sent base (left + 1) p [p.messages] := ⟨by simp, by simp, by simpa using hp⟩
  unfold iterate
  split
  · exact hnone
  split
  · exact hone
  next reply _ =>
    split
    · exact hone
    next hcalls =>
      -- the reply and its tool messages are one more round
      obtain ⟨part, hpart, hpaired⟩ := hp
      obtain ⟨ms, hms, htools, hids⟩ := messages_callTools env reply.pendingToolCalls
        { p with messages := p.messages ++ [reply.assistantMsg] }
      have hround : Paired (reply.assistantMsg :: ms) := by
        refine ⟨fun _ _ => ?_, paired_of_tools htools⟩
        rw [takeWhile_eq_self_iff.mpr (by simpa using htools)]
        exact hids
      have hnext : (callTools env reply.pendingToolCalls
          { p with messages := p.messages ++ [reply.assistantMsg] }).messages
          = p.messages ++ reply.assistantMsg :: ms := by
        rw [hms]
        simp
      have hrest := ih (callTools env reply.pendingToolCalls
          { p with messages := p.messages ++ [reply.assistantMsg] })
        ⟨part ++ reply.assistantMsg :: ms, by rw [hnext, hpart, append_assoc],
          paired_append hpaired hround (by simp [Reply.assistantMsg])⟩
      have hextend := hrest.extend
      rw [hnext] at hextend
      obtain ⟨hfrom, htail⟩ := pairwise_cons.mp hextend
      have hbefore : ∀ m ∈ (iterate env left _).1, p.messages <+: m := fun m hm =>
        (prefix_append _ _).trans (hfrom m hm)
      refine ⟨Nat.succ_le_succ hrest.bounded, ?_, ?_⟩
      · refine pairwise_cons.mpr ⟨?_, pairwise_cons.mpr ⟨hbefore, htail⟩⟩
        intro m hm
        rcases mem_cons.mp hm with rfl | hm
        · exact prefix_rfl
        · exact hbefore m hm
      intro m hm
      rcases mem_cons.mp hm with rfl | hm
      · exact ⟨part, hpart, hpaired⟩
      · exact hrest.paired m hm

/-- **THE CONVERSATION STAYS WELL FORMED**: `Run` makes at most 10 requests, each extends the one
before, and what the run has added is paired. -/
theorem conversation_well_formed (env : Env) (systemPrompt : String) (history : List Message)
    (userMessage : String) :
    (run env systemPrompt history userMessage).1.length ≤ 10
      ∧ (run env systemPrompt history userMessage).1.Pairwise (· <+: ·)
      ∧ ∀ m ∈ (run env systemPrompt history userMessage).1, ∃ part,
          m = opening systemPrompt history userMessage ++ part ∧ Paired part := by
  unfold run
  split
  · have hsent := iterate_sent env (opening systemPrompt history userMessage) 10
      { messages := opening systemPrompt history userMessage } ⟨[], by simp, trivial⟩
    exact ⟨hsent.bounded, (List.pairwise_cons.mp hsent.extend).2, hsent.paired⟩
  · exact ⟨by simp, .nil, by simp⟩

end AiScheduler.Agent

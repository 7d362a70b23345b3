import AiSwitch.Common.Json
import AiSwitch.Stream.SseHandler

/-!
# The Anthropic stream parser

`anthropic_stream_parser` (`adapter/anthropic_adapter.cpp`) keeps its own buffer and cuts it at
`\n\n` like `sse_handler`, but reads each block line by line: the last `event: ` line and the last
`data: ` line count. Both loops are embedded as they stand, with `substr` throwing where a position
lies beyond the end; `feed_eq_framer` then shows that nothing ever throws and that the parser is a
framer over the same separator. JSON parsing is an arbitrary partial function throughout.
-/

namespace AiSwitch

open ByteString Delimited Effect Nlohmann

/-- `"event: "` -/
def eventPrefix : Bytes := utf8 "event: "

/-- `"message_stop"` -/
def messageStop : Bytes := utf8 "message_stop"

/-- `"content_block_delta"` -/
def contentBlockDelta : Bytes := utf8 "content_block_delta"

/-- The fields of an `anthropic_stream_parser`. -/
structure AnthropicStreamParser where
  buffer : Bytes := []
  done : Bool := false
deriving DecidableEq

namespace AnthropicStreamParser

/-! ## The line loop -/

/-- The newline as a delimiter. -/
def newline : Delim UInt8 := ⟨[nl], by simp⟩

/-- `find(d, start)` -/
def findFrom (d s : Bytes) (start : ℕ) : Option ℕ := (find d (s.drop start)).map (start + ·)

/-- What one line does to `event_type` and `data_line`. -/
def readLine (line : Bytes) (eventType dataLine : Bytes) : Outcome Exn (Bytes × Bytes) :=
  if eventPrefix <+: line then do
    let eventType ← substr line 7 none
    return (eventType, dataLine)
  else if dataPrefix <+: line then do
    let dataLine ← substr line 6 none
    return (eventType, dataLine)
  else
    return (eventType, dataLine)

/-- The `while (start <= block.size())` loop. -/
def scanLines (block : Bytes) (start : ℕ) (eventType dataLine : Bytes) :
    Outcome Exn (Bytes × Bytes) :=
  if _hstart : start ≤ block.length then
    match _hnl : findFrom newline.toList block start with
    | none => do
      let line ← substr block start none
      readLine line eventType dataLine
    | some nlPos => do
      let line ← substr block start (some (nlPos - start))
      let (eventType, dataLine) ← readLine line eventType dataLine
      scanLines block (nlPos + 1) eventType dataLine
  else
    return (eventType, dataLine)
termination_by block.length + 1 - start
decreasing_by
  obtain ⟨p, -, hp⟩ := Option.map_eq_some_iff.mp _hnl
  omega

/-! ## The block loop -/

variable (parse : Bytes → Except ParseFailure Json)

/-- The `try` block on the data of a `content_block_delta`. -/
def blockText (dataLine : Bytes) : Outcome Exn (Option Bytes) :=
  Outcome.catchAll (do
    let chunk ← parseBy parse dataLine
    if chunk.contains "delta" then
      let delta ← chunk.index "delta"
      if delta.contains "text" then
        let text ← delta.index "text" >>= Json.getString
        return some text
      else return none
    else return none)
    (fun _ => .ok none)

/-- The `while (true)` loop of `feed`. -/
def feedLoop (p : AnthropicStreamParser) (texts : List Bytes) :
    Outcome Exn (List Bytes × AnthropicStreamParser) :=
  match _hpos : find nlnl.toList p.buffer with
  | none => .ok (texts, p)
  | some pos => do
    let block := p.buffer.take pos
    let rest := p.buffer.drop (pos + 2)
    let (eventType, dataLine) ← scanLines block 0 [] []
    if eventType = messageStop then
      feedLoop { buffer := rest, done := true } texts
    else if eventType = contentBlockDelta ∧ dataLine ≠ [] then do
      let text ← blockText parse dataLine
      feedLoop { p with buffer := rest } (texts ++ text.toList)
    else
      feedLoop { p with buffer := rest } texts
termination_by p.buffer.length
decreasing_by
  all_goals
    have hlen := find_add_length_le _hpos nlnl.ne_nil
    simp only [nlnl, List.length_cons, List.length_nil] at hlen
    simp only [List.length_drop]
    omega

/-- `feed` -/
def feed (p : AnthropicStreamParser) (raw : Bytes) :
    Outcome Exn (List Bytes × AnthropicStreamParser) :=
  feedLoop parse { p with buffer := p.buffer ++ raw } []

/-- Successive calls of `feed` on one parser, with the texts they return. -/
def feedAll (p : AnthropicStreamParser) :
    List Bytes → Outcome Exn (List Bytes × AnthropicStreamParser)
  | [] => .ok ([], p)
  | raw :: raws => do
    let (texts, p) ← feed parse p raw
    let (texts', p) ← feedAll p raws
    return (texts ++ texts', p)

/-! ## Lines and fields -/

/-- The lines of a block. -/
def lines (b : Bytes) : List Bytes := (cut newline b).1 ++ [(cut newline b).2]

/-- The rest of the last line that starts with `pre`, empty if there is none. -/
def lastField (pre : Bytes) (ls : List Bytes) : Bytes :=
  ((ls.filter (pre <+: ·)).getLast?.map (·.drop pre.length)).getD []

/-- The event that a block names. -/
def eventType (b : Bytes) : Bytes := lastField eventPrefix (lines b)

/-- The data that a block carries. -/
def dataLine (b : Bytes) : Bytes := lastField dataPrefix (lines b)

/-- What a line does to the fields read so far. -/
def step (acc : Bytes × Bytes) (line : Bytes) : Bytes × Bytes :=
  if eventPrefix <+: line then (line.drop 7, acc.2)
  else if dataPrefix <+: line then (acc.1, line.drop 6)
  else acc

/-- "event: " is seven bytes long, as the parser's `substr(7)` takes it. -/
theorem length_eventPrefix : eventPrefix.length = 7 := by decide

/-- "data: " is six bytes long, as the parser's `substr(6)` takes it. -/
theorem length_dataPrefix : dataPrefix.length = 6 := by decide

/-- Reading a line never throws, and does to the two fields what `step` does. -/
theorem readLine_eq (line : Bytes) (acc : Bytes × Bytes) :
    readLine line acc.1 acc.2 = .ok (step acc line) := by
  rw [readLine, step]
  split_ifs with hevent hdata
  · rw [substr_of_le (length_eventPrefix ▸ hevent.length_le)]
    rfl
  · rw [substr_of_le (length_dataPrefix ▸ hdata.length_le)]
    rfl
  · rfl

/-- A block without a newline is a single line. -/
theorem lines_of_none {b : Bytes} (h : find newline.toList b = none) : lines b = [b] := by
  rw [lines, cut_of_none h]
  rfl

/-- A block with a newline is its first line and the lines after it. -/
theorem lines_of_some {b : Bytes} {p : ℕ} (h : find newline.toList b = some p) :
    lines b = b.take p :: lines (b.drop (p + 1)) := by
  rw [lines, cut_of_some h]
  rfl

/-- **The line loop reads the lines from `start` on, and never throws.** -/
theorem scanLines_eq {block : Bytes} {start : ℕ} (hstart : start ≤ block.length)
    (acc : Bytes × Bytes) :
    scanLines block start acc.1 acc.2 = .ok ((lines (block.drop start)).foldl step acc) := by
  induction hn : block.length + 1 - start using Nat.strongRecOn generalizing start acc with
  | ind n ih =>
    rw [scanLines, dif_pos hstart]
    cases hfind : find newline.toList (block.drop start) with
    | none =>
      -- the last line has no newline after it
      have hnone : findFrom newline.toList block start = none := by simp [findFrom, hfind]
      split
      · rw [substr_of_le hstart, Outcome.ok_bind, readLine_eq, lines_of_none hfind]
        rfl
      · simp_all
    | some p =>
      have hsome : findFrom newline.toList block start = some (start + p) := by
        simp [findFrom, hfind]
      have hlen := find_add_length_le hfind newline.ne_nil
      simp only [newline, List.length_singleton, List.length_drop] at hlen
      split
      · simp_all
      · rename_i nlPos hnl
        rw [hsome, Option.some.injEq] at hnl
        subst hnl
        rw [substr_of_le hstart, Outcome.ok_bind, readLine_eq, Outcome.ok_bind,
          Nat.add_sub_cancel_left]
        refine (ih (block.length + 1 - (start + p + 1)) (by omega) (by omega)
          (step acc ((block.drop start).take p)) rfl).trans ?_
        rw [lines_of_some hfind, List.drop_drop]
        rfl

/-- No line has both prefixes. -/
theorem not_dataPrefix_of_eventPrefix {line : Bytes} (h : eventPrefix <+: line) :
    ¬ dataPrefix <+: line := by
  intro h'
  obtain ⟨t, rfl⟩ := h
  exact absurd (List.cons_prefix_cons.mp h').1 (by decide)

/-- The fields left by the line loop are those of the last lines that name them. -/
theorem foldl_step (ls : List Bytes) :
    ls.foldl step ([], []) = (lastField eventPrefix ls, lastField dataPrefix ls) := by
  induction ls using List.reverseRecOn with
  | nil => rfl
  | append_singleton ls line ih =>
    rw [List.foldl_append, List.foldl_cons, List.foldl_nil, ih, step]
    by_cases hevent : eventPrefix <+: line
    · have hdata := not_dataPrefix_of_eventPrefix hevent
      simp [lastField, List.filter_append, hevent, hdata, length_eventPrefix]
    · by_cases hdata : dataPrefix <+: line
      · simp [lastField, List.filter_append, hevent, hdata, length_dataPrefix]
      · simp [lastField, List.filter_append, hevent, hdata]

/-- Reading a block yields the last event type and the last data line in it. -/
theorem scanLines_block (b : Bytes) : scanLines b 0 [] [] = .ok (eventType b, dataLine b) := by
  have hstart : 0 ≤ b.length := Nat.zero_le _
  have h := scanLines_eq hstart ([], [])
  rwa [List.drop_zero, foldl_step] at h

/-! ## The parser as a framer -/

/-- The text that an event document carries: an object `delta` holds a string `text`. -/
def deltaText : Json → Option Bytes
  | .object fields => do
    let .object delta ← fields.lookup (utf8 "delta") | none
    let .string text ← delta.lookup (utf8 "text") | none
    return text
  | _ => none

/-- The text that a block yields. -/
def blockDelta (b : Bytes) : Option Bytes :=
  if eventType b = contentBlockDelta ∧ dataLine b ≠ [] then
    (parse (dataLine b)).toOption.bind deltaText
  else none

/-- Reading a document either finds the text or changes nothing. -/
theorem blockText_eq (data : Bytes) :
    blockText parse data = .ok ((parse data).toOption.bind deltaText) := by
  rw [blockText, parseBy]
  cases hparse : parse data with
  | error e => simp [Except.toOption]
  | ok chunk =>
    simp only [Except.toOption]
    cases chunk with
    | object fields =>
      cases hdelta : fields.lookup (utf8 "delta") with
      | none => simp [deltaText, hdelta]
      | some delta =>
        cases delta with
        | object delta =>
          cases htext : delta.lookup (utf8 "text") with
          | none => simp [deltaText, hdelta, htext]
          | some text => cases text <;> simp [deltaText, hdelta, htext]
        | null | boolean | integer | floating | string | array => simp [deltaText, hdelta]
    | null | boolean | integer | floating | string | array => simp [deltaText]

/-- The framer of which `feed` is the loop. -/
def framer : Framer UInt8 Bytes where
  delim := nlnl
  emit := blockDelta parse
  mark b := decide (eventType b = messageStop)

/-- The parser's fields as a framer state. -/
def toState (p : AnthropicStreamParser) : Framer.State UInt8 := ⟨p.buffer, p.done⟩

/-- A framer state as a parser. -/
def ofState (st : Framer.State UInt8) : AnthropicStreamParser := ⟨st.buffer, st.done⟩

/-- The two types of events that matter are different. -/
theorem contentBlockDelta_ne_messageStop : contentBlockDelta ≠ messageStop := by decide

/-- Without a complete block the loop stops. -/
theorem feedLoop_of_none {p : AnthropicStreamParser} {texts : List Bytes}
    (hpos : find nlnl.toList p.buffer = none) : feedLoop parse p texts = .ok (texts, p) := by
  rw [feedLoop]
  split
  · rfl
  · simp_all

/-- With a complete block the loop reads it and goes on behind the blank line. -/
theorem feedLoop_of_some {p : AnthropicStreamParser} {texts : List Bytes} {pos : ℕ}
    (hpos : find nlnl.toList p.buffer = some pos) :
    feedLoop parse p texts = feedLoop parse
      { buffer := p.buffer.drop (pos + nlnl.toList.length)
        done := p.done || (framer parse).mark (p.buffer.take pos) }
      (texts ++ (blockDelta parse (p.buffer.take pos)).toList) := by
  rw [feedLoop]
  split
  · simp_all
  · rename_i pos' hpos'
    rw [hpos, Option.some.injEq] at hpos'
    subst hpos'
    simp only [scanLines_block, Outcome.ok_bind]
    by_cases hstop : eventType (p.buffer.take pos) = messageStop
    · have hdelta : eventType (p.buffer.take pos) ≠ contentBlockDelta :=
        fun h => contentBlockDelta_ne_messageStop (h ▸ hstop)
      simp [hstop, framer, blockDelta, nlnl, Ne.symm contentBlockDelta_ne_messageStop]
    · rw [if_neg hstop]
      by_cases hdelta : eventType (p.buffer.take pos) = contentBlockDelta ∧
        dataLine (p.buffer.take pos) ≠ []
      · rw [if_pos hdelta, blockText_eq, Outcome.ok_bind, blockDelta, if_pos hdelta]
        simp [framer, hstop, nlnl]
      · rw [if_neg hdelta, blockDelta, if_neg hdelta]
        simp [framer, hstop, nlnl]

/-- The loop returns the texts of the blocks its buffer is cut into. -/
theorem feedLoop_eq (p : AnthropicStreamParser) (texts : List Bytes) :
    feedLoop parse p texts = .ok (texts ++ (cut nlnl p.buffer).1.filterMap (blockDelta parse),
      { buffer := (cut nlnl p.buffer).2
        done := p.done || (cut nlnl p.buffer).1.any (framer parse).mark }) := by
  obtain ⟨buffer, done⟩ := p
  induction buffer using cut_induction (d := nlnl) generalizing texts done with
  | none s hpos =>
    rw [feedLoop_of_none parse (p := ⟨s, done⟩) hpos, cut_of_none hpos]
    simp
  | some s pos hpos ih =>
    rw [feedLoop_of_some parse (p := ⟨s, done⟩) hpos, ih, cut_of_some hpos]
    cases hdelta : blockDelta parse (s.take pos) <;> simp [hdelta, Bool.or_assoc]

/-- `feed` is the framer, and never throws. -/
theorem feed_eq_framer (p : AnthropicStreamParser) (raw : Bytes) :
    feed parse p raw = .ok (((framer parse).feed p.toState raw).1,
      ofState ((framer parse).feed p.toState raw).2) := by
  rw [feed, feedLoop_eq]
  rfl

/-- The parser is the framer at its own blocks. -/
theorem feedAll_eq_framer (p : AnthropicStreamParser) (raws : List Bytes) :
    feedAll parse p raws = .ok (((framer parse).feedAll p.toState raws).1,
      ofState ((framer parse).feedAll p.toState raws).2) := by
  induction raws generalizing p with
  | nil => rfl
  | cons raw raws ih =>
    rw [feedAll, feed_eq_framer, Outcome.ok_bind]
    simp only [ih, Outcome.ok_bind]
    rfl

/-! ## Independence of the split -/

/-- **The Anthropic parser does not see how the stream is split, and no block can harm it.** The
pieces fed to a fresh parser give the delta texts of the greedily cut concatenation, its remainder
as buffer, and the end flag exactly when a block names `message_stop`; no call throws. -/
theorem feedAll_eq_blocks (raws : List Bytes) :
    feedAll parse {} raws = .ok ((cut nlnl raws.flatten).1.filterMap (blockDelta parse),
      { buffer := (cut nlnl raws.flatten).2
        done := decide (∃ b ∈ (cut nlnl raws.flatten).1, eventType b = messageStop) }) := by
  have hfresh : find nlnl.toList ({} : AnthropicStreamParser).toState.buffer = none := by decide
  have hmark : (cut nlnl raws.flatten).1.any (framer parse).mark
      = decide (∃ b ∈ (cut nlnl raws.flatten).1, eventType b = messageStop) := by
    rw [Bool.eq_iff_iff]
    simp [framer]
  rw [feedAll_eq_framer, Framer.feedAll_eq_feed _ raws _ hfresh, ← hmark]
  rfl

end AnthropicStreamParser

end AiSwitch

import AiSwitch.Common.ByteString
import AiSwitch.Common.Delimited

/-!
# The SSE handler

`sse_handler` (`stream/sse_handler.h`, `stream/sse_handler.cpp`) cuts the bytes libcurl delivers
into messages at each `\n\n`, and frames the text sent to a client. The loop of `feed` is embedded
as it stands; `SseHandler.feed_eq_framer` then identifies it with a framer of delimited blocks, so
that the split of the stream into pieces drops out of every statement about it.
-/

namespace AiSwitch

open ByteString Delimited

/-- The newline byte. -/
def nl : UInt8 := 10

/-- The message separator `\n\n`. -/
def nlnl : Delim UInt8 := ⟨[nl, nl], by simp⟩

/-- `"data: "` -/
def dataPrefix : Bytes := utf8 "data: "

/-- `"[DONE]"` -/
def doneMarker : Bytes := utf8 "[DONE]"

/-- The bytes of "data: ". -/
theorem dataPrefix_eq : dataPrefix = [100, 97, 116, 97, 58, 32] := by decide

/-- The bytes of "[DONE]". -/
theorem doneMarker_eq : doneMarker = [91, 68, 79, 78, 69, 93] := by decide

/-- The state of an `sse_handler`. -/
structure SseHandler where
  buffer : Bytes := []
  done : Bool := false
deriving DecidableEq

namespace SseHandler

/-- The `while (true)` loop of `feed`, entered with the messages collected so far. -/
def feedLoop (h : SseHandler) (messages : List Bytes) : List Bytes × SseHandler :=
  match _hpos : find nlnl.toList h.buffer with
  | none => (messages, h)
  | some pos =>
    let line := h.buffer.take pos
    let rest := h.buffer.drop (pos + 2)
    let line := if line.take dataPrefix.length = dataPrefix then line.drop dataPrefix.length
      else line
    if line = doneMarker then feedLoop { buffer := rest, done := true } messages
    else if line = [] then feedLoop { h with buffer := rest } messages
    else feedLoop { h with buffer := rest } (messages ++ [line])
termination_by h.buffer.length
decreasing_by
  all_goals
    have hlen := find_add_length_le _hpos nlnl.ne_nil
    simp only [nlnl, List.length_cons, List.length_nil] at hlen
    simp only [List.length_drop]
    omega

/-- `feed`: append the new data, then extract the complete messages. -/
def feed (h : SseHandler) (raw : Bytes) : List Bytes × SseHandler :=
  feedLoop { h with buffer := h.buffer ++ raw } []

/-- `is_done` -/
def isDone (h : SseHandler) : Bool := h.done

/-- `make_chunk` -/
def makeChunk (data : Bytes) : Bytes := dataPrefix ++ data ++ nlnl.toList

/-- `make_done_chunk` -/
def makeDoneChunk : Bytes := utf8 "data: [DONE]\n\n"

/-- Successive calls of `feed` on one handler, with the messages they return. -/
def feedAll : SseHandler → List Bytes → List Bytes × SseHandler
  | h, [] => ([], h)
  | h, raw :: raws =>
    ((h.feed raw).1 ++ (feedAll (h.feed raw).2 raws).1, (feedAll (h.feed raw).2 raws).2)

/-- Feeding more pieces goes on from where the handler stands. -/
theorem feedAll_append (h : SseHandler) (raws raws' : List Bytes) :
    h.feedAll (raws ++ raws') = ((h.feedAll raws).1 ++ ((h.feedAll raws).2.feedAll raws').1,
      ((h.feedAll raws).2.feedAll raws').2) := by
  induction raws generalizing h with
  | nil => rfl
  | cons raw raws ih =>
    simp only [List.cons_append, feedAll, ih, List.append_assoc]

/-! ## The handler as a framer -/

/-- A block without one leading `data: `. -/
def strip (b : Bytes) : Bytes := if dataPrefix <+: b then b.drop dataPrefix.length else b

/-- The framer of which `feed` is the loop: an empty block gives nothing, a `[DONE]` block ends
the stream, any other block is a message. -/
def framer : Framer UInt8 Bytes where
  delim := nlnl
  emit b := Option.guard (fun m => m ≠ [] ∧ m ≠ doneMarker) (strip b)
  mark b := decide (strip b = doneMarker)

/-- The handler's fields as a framer state. -/
def toState (h : SseHandler) : Framer.State UInt8 := ⟨h.buffer, h.done⟩

/-- Comparing the first six bytes is the prefix test. -/
theorem strip_eq (b : Bytes) :
    (if b.take dataPrefix.length = dataPrefix then b.drop dataPrefix.length else b) = strip b := by
  simp only [strip, List.prefix_iff_eq_take, eq_comm (a := dataPrefix)]

/-- Without a complete event the loop stops. -/
theorem feedLoop_of_none {h : SseHandler} {messages : List Bytes}
    (hpos : find nlnl.toList h.buffer = none) : feedLoop h messages = (messages, h) := by
  rw [feedLoop]
  split
  · rfl
  · simp_all

/-- With a complete event the loop reads it and goes on behind the blank line. -/
theorem feedLoop_of_some {h : SseHandler} {messages : List Bytes} {pos : ℕ}
    (hpos : find nlnl.toList h.buffer = some pos) :
    feedLoop h messages = feedLoop
      { buffer := h.buffer.drop (pos + nlnl.toList.length)
        done := h.done || framer.mark (h.buffer.take pos) }
      (messages ++ (framer.emit (h.buffer.take pos)).toList) := by
  rw [feedLoop]
  split
  · simp_all
  · rename_i pos' hpos'
    rw [hpos, Option.some.injEq] at hpos'
    subst hpos'
    simp only [strip_eq]
    by_cases hdone : strip (h.buffer.take pos) = doneMarker
    · rw [if_pos hdone]
      simp [framer, Option.guard, hdone, nlnl]
    · rw [if_neg hdone]
      by_cases hnil : strip (h.buffer.take pos) = []
      · rw [if_pos hnil]
        simp [framer, Option.guard, hnil, nlnl, Ne.symm (by decide : doneMarker ≠ [])]
      · rw [if_neg hnil]
        simp [framer, Option.guard, hdone, hnil, nlnl]

/-- The loop returns the outputs of the blocks its buffer is cut into. -/
theorem feedLoop_eq (h : SseHandler) (messages : List Bytes) :
    feedLoop h messages = (messages ++ (cut nlnl h.buffer).1.filterMap framer.emit,
      { buffer := (cut nlnl h.buffer).2
        done := h.done || (cut nlnl h.buffer).1.any framer.mark }) := by
  obtain ⟨buffer, done⟩ := h
  induction buffer using cut_induction (d := nlnl) generalizing messages done with
  | none s hpos =>
    rw [feedLoop_of_none (h := ⟨s, done⟩) hpos, cut_of_none hpos]
    simp
  | some s pos hpos ih =>
    rw [feedLoop_of_some (h := ⟨s, done⟩) hpos, ih, cut_of_some hpos]
    cases hemit : framer.emit (s.take pos) <;> simp [hemit, Bool.or_assoc]

/-- `feed` is the framer. -/
theorem feed_eq_framer (h : SseHandler) (raw : Bytes) :
    h.feed raw = ((framer.feed h.toState raw).1,
      ⟨(framer.feed h.toState raw).2.buffer, (framer.feed h.toState raw).2.done⟩) := by
  rw [feed, feedLoop_eq]
  rfl

/-- The handler is the framer at its own events. -/
theorem feedAll_eq_framer (h : SseHandler) (raws : List Bytes) :
    h.feedAll raws = ((framer.feedAll h.toState raws).1,
      ⟨(framer.feedAll h.toState raws).2.buffer, (framer.feedAll h.toState raws).2.done⟩) := by
  induction raws generalizing h with
  | nil => rfl
  | cons raw raws ih =>
    rw [feedAll, ih, feed_eq_framer, Framer.feedAll]
    rfl

/-- Feeding pieces to a handler whose buffer holds no complete message is feeding them joined. -/
theorem feedAll_eq_feed {h : SseHandler} (hbuf : find nlnl.toList h.buffer = none)
    (raws : List Bytes) : h.feedAll raws = h.feed raws.flatten := by
  rw [feedAll_eq_framer, Framer.feedAll_eq_feed framer raws h.toState hbuf, feed_eq_framer]

/-- The messages are those of the events that the whole text completes. -/
theorem feedAll_fst (raws : List Bytes) :
    (feedAll {} raws).1 = (cut nlnl raws.flatten).1.filterMap framer.emit := by
  rw [feedAll_eq_feed (by decide), feed, feedLoop_eq]
  rfl

/-- The messages of some blocks are their stripped texts, less the empty and the marker ones. -/
theorem filterMap_emit (bs : List Bytes) :
    bs.filterMap framer.emit
      = (bs.map strip).filter (fun m => m ≠ [] ∧ m ≠ doneMarker) := by
  rw [← List.filterMap_eq_filter, List.filterMap_map]
  rfl

/-! ## The end of a stream -/

/-- A block of the bytes is the end marker. -/
def Ended (s : Bytes) : Prop := ∃ b ∈ (cut nlnl s).1, strip b = doneMarker

instance : DecidablePred Ended := fun s => inferInstanceAs
  (Decidable (∃ b ∈ (cut nlnl s).1, strip b = doneMarker))

/-- The handler is done exactly when the text has ended the stream. -/
theorem isDone_feedAll_iff (raws : List Bytes) :
    (feedAll {} raws).2.isDone = true ↔ Ended raws.flatten := by
  rw [feedAll_eq_feed (by decide), feed, feedLoop_eq, isDone, Ended]
  simp [framer]

/-- The end flag stays set. -/
theorem isDone_feed_of_isDone {h : SseHandler} (hdone : h.isDone = true) (raw : Bytes) :
    (h.feed raw).2.isDone = true := by
  rw [isDone] at hdone
  rw [feed, feedLoop_eq, isDone]
  simp [hdone]

/-- A handler that is done stays done. -/
theorem isDone_feedAll_of_isDone {h : SseHandler} (hdone : h.isDone = true) (raws : List Bytes) :
    (h.feedAll raws).2.isDone = true := by
  induction raws generalizing h with
  | nil => exact hdone
  | cons raw raws ih => exact ih (isDone_feed_of_isDone hdone raw)

/-! ## Independence of the split -/

/-- **The parser does not see how the stream is split.** The pieces fed to a fresh handler give
the messages of the greedily cut concatenation, its remainder as buffer, and the end flag exactly
when a block is the end marker; two splits of the same bytes cannot be told apart. -/
theorem feedAll_split_independent (raws : List Bytes) :
    (feedAll {} raws).1
        = ((cut nlnl raws.flatten).1.map strip).filter (fun m => m ≠ [] ∧ m ≠ doneMarker) ∧
      (feedAll {} raws).2.buffer = (cut nlnl raws.flatten).2 ∧
      ((feedAll {} raws).2.isDone = true
        ↔ ∃ b ∈ (cut nlnl raws.flatten).1, strip b = doneMarker) ∧
      ∀ raws' : List Bytes, raws'.flatten = raws.flatten → feedAll {} raws' = feedAll {} raws := by
  have hfresh : find nlnl.toList ({} : SseHandler).buffer = none := by decide
  refine ⟨?_, ?_, ?_, ?_⟩
  · rw [feedAll_eq_feed hfresh, feed, feedLoop_eq]
    exact filterMap_emit _
  · rw [feedAll_eq_feed hfresh, feed, feedLoop_eq]
    rfl
  · rw [feedAll_eq_feed hfresh, feed, feedLoop_eq, isDone]
    simp [framer]
  · intro raws' h
    rw [feedAll_eq_feed hfresh, feedAll_eq_feed hfresh, h]

end SseHandler

end AiSwitch

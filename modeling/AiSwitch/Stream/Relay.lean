import AiSwitch.Stream.Codec
import AiSwitch.Adapter.OpenaiCompatible

/-!
# Relaying a streamed text

The whole path of a streamed text: the provider's events, the write function of the
OpenAI-compatible adapter, `make_chunk` in the session, and a client that decodes with the same
`sse_handler`. The first half is faithful for every split of the upstream bytes
(`takeWhile_transferCalls`); the second is not (`relay_iff`), because `make_chunk` frames a text
that was JSON-encoded upstream without encoding it again.
-/

namespace AiSwitch

open ByteString Delimited Nlohmann OpenaiCompatible SseHandler

/-- The JSON text of an event that carries the delta `c`. -/
def eventText (c : Bytes) : Bytes :=
  utf8 "\x7b\"choices\":[\x7b\"delta\":\x7b\"content\":" ++ quote c ++ utf8 "\x7d\x7d]\x7d"

/-- The document it denotes. -/
def eventDocument (c : Bytes) : Json :=
  .obj [("choices", .array [.obj [("delta", .obj [("content", .string c)])]])]

/-- The response body of the provider. -/
def upstream (cs : List String) : Bytes :=
  encode (cs.map fun c => eventText (utf8 c)) ++ makeDoneChunk

/-- What the callbacks of a transfer send before the terminator. -/
def relayedTexts (calls : List StreamCall) : List Bytes :=
  (calls.takeWhile fun c => !c.done).map StreamCall.content

/-- The gateway relays the deltas `cs` unchanged: the frames it writes for the callbacks of the
transfer, the terminator last, decode to the text of `cs`, and only the terminator ends the
stream. -/
def RelayedUnchanged (lib : Lib) (blocks : List Bytes) (cs : List String) : Prop :=
  let calls := transferCalls lib {} blocks
  let before := feedAll {} ((relayedTexts calls).map makeChunk)
  let after := before.2.feed makeDoneChunk
  (∃ c ∈ calls, c.done = true) ∧ (before.1 ++ after.1).flatten = (cs.map utf8).flatten ∧
    before.2.isDone = false ∧ after.2.isDone = true

/-! ## The events -/

/-- An event's document carries the content it was made of. -/
theorem deltaContent_eventDocument (c : Bytes) : deltaContent (eventDocument c) = some c := rfl

/-- No escaped byte is a newline. -/
theorem nl_notMem_escapeByte (b : UInt8) : nl ∉ escapeByte b := by
  have hall : ∀ n : Fin 256, nl ∉ escapeByte (UInt8.ofNat n) := by decide +kernel
  simpa using hall ⟨b.toNat, b.toNat_lt⟩

/-- An event's text has no newline. -/
theorem nl_notMem_eventText (c : Bytes) : nl ∉ eventText c := by
  have hopen : nl ∉ utf8 "\x7b\"choices\":[\x7b\"delta\":\x7b\"content\":" := by decide
  have hclose : nl ∉ utf8 "\x7d\x7d]\x7d" := by decide
  have hquote : nl ∉ utf8 "\"" := by decide
  simp [eventText, quote, hopen, hclose, hquote, nl_notMem_escapeByte]

/-- An event's text starts with a brace. -/
theorem exists_eventText_eq_cons (c : Bytes) : ∃ t, eventText c = 123 :: t := ⟨_, rfl⟩

/-- Encoded as JSON, a delta is free of newlines: its event is always a block. -/
theorem clean_eventText (c : Bytes) : Clean (eventText c) := by
  have hnl := nl_notMem_eventText c
  refine ⟨fun h => hnl (h.subset ?_), fun h => hnl (h.subset (by simp)), fun h => ?_⟩
  · simp [nlnl]
  · obtain ⟨t, ht⟩ := exists_eventText_eq_cons c
    rw [ht, doneMarker_eq] at h
    exact absurd (List.head_eq_of_cons_eq h) (by decide)

/-- The texts of events are clean payloads. -/
theorem clean_of_mem_eventTexts (cs : List String) :
    ∀ p ∈ cs.map (fun c => eventText (utf8 c)), Clean p :=
  List.forall_mem_map.mpr fun c _ => clean_eventText (utf8 c)

/-! ## The callbacks -/

variable (lib : Lib)

/-- The texts that the callbacks forward do not depend on the split. -/
theorem filter_transferCalls (h : SseHandler) (blocks : List Bytes) :
    (transferCalls lib h blocks).filter (fun c => !c.done)
      = contentCalls lib (h.feedAll blocks).1 := by
  induction blocks generalizing h with
  | nil => rfl
  | cons raw blocks ih =>
    rw [transferCalls, List.filter_append, ih, feedAll, blockCalls, List.filter_append]
    have hcontent : (contentCalls lib (h.feed raw).1).filter (fun c => !c.done)
        = contentCalls lib (h.feed raw).1 :=
      List.filter_eq_self.mpr fun c hc => by simp [done_of_mem_contentCalls lib hc]
    have hdone : (if (h.feed raw).2.isDone then [⟨[], true⟩] else []).filter
        (fun c : StreamCall => !c.done) = [] := by
      split <;> rfl
    rw [hcontent, hdone]
    simp [contentCalls]

/-- The messages of the whole upstream body are the texts of its events. -/
theorem feed_upstream (cs : List String) :
    (feed {} (upstream cs)).1 = cs.map fun c => eventText (utf8 c) := by
  have hmarker : [dataPrefix ++ doneMarker].filterMap framer.emit = [] := by decide
  have hclean := clean_of_mem_eventTexts cs
  rw [feed, feedLoop_eq, List.nil_append, List.nil_append, upstream, cut_stream hclean]
  simp only
  rw [List.filterMap_append, filterMap_emit_frames hclean, hmarker, List.append_nil,
    List.filter_eq_self]
  intro p hp
  obtain ⟨c, -, rfl⟩ := List.mem_map.mp hp
  obtain ⟨t, ht⟩ := exists_eventText_eq_cons (utf8 c)
  simp [ht]

/-- The upstream text ends the stream. -/
theorem ended_upstream (cs : List String) : Ended (upstream cs) :=
  ended_stream (clean_of_mem_eventTexts cs)

/-- A part of the upstream body that stops short does not end the stream. -/
theorem not_ended_of_append {cs : List String} {s t : Bytes} (h : s ++ t = upstream cs)
    (ht : t ≠ []) : ¬ Ended s := by
  intro hs
  have hall := eq_stream_of_ended (clean_of_mem_eventTexts cs) ⟨t, h⟩ hs
  exact ht (List.self_eq_append_right.mp (hall.trans h.symm))

/-- Among blocks that carry a byte there is a last one that does. -/
theorem exists_last_nonempty {blocks : List Bytes} (h : blocks.flatten ≠ []) :
    ∃ init last tail, blocks = init ++ last :: tail ∧ last ≠ [] ∧ tail.flatten = [] := by
  induction blocks with
  | nil => exact absurd rfl h
  | cons raw blocks ih =>
    by_cases hrest : blocks.flatten = []
    · exact ⟨[], raw, blocks, rfl, fun hraw => h (by simp [hraw, hrest]), hrest⟩
    · obtain ⟨init, last, tail, rfl, hlast, htail⟩ := ih hrest
      exact ⟨raw :: init, last, tail, rfl, hlast, htail⟩

/-- The messages of the deltas become one callback each. -/
theorem contentCalls_eventTexts {cs : List String}
    (hparse : ∀ c ∈ cs, lib.tryParse (eventText (utf8 c)) = .ok (eventDocument (utf8 c))) :
    contentCalls lib (cs.map fun c => eventText (utf8 c)) = cs.map fun c => ⟨utf8 c, false⟩ := by
  have hmsg : ∀ c ∈ cs, messageContent lib (eventText (utf8 c)) = some (utf8 c) := by
    intro c hc
    rw [messageContent, hparse c hc]
    exact deltaContent_eventDocument _
  have hmap : cs.filterMap (fun c => messageContent lib (eventText (utf8 c)))
      = cs.filterMap fun c => some (utf8 c) := List.filterMap_congr hmsg
  simp [contentCalls, List.filterMap_map, Function.comp_def, hmap]

/-- **The adapter's half is faithful.** In whatever blocks the upstream body arrives, the
callbacks forward exactly the deltas, in order, and then the terminator. -/
theorem relayedTexts_transferCalls {cs : List String} {blocks : List Bytes}
    (hsplit : blocks.flatten = upstream cs)
    (hparse : ∀ c ∈ cs, lib.tryParse (eventText (utf8 c)) = .ok (eventDocument (utf8 c))) :
    relayedTexts (transferCalls lib {} blocks) = cs.map utf8 ∧
      ∃ c ∈ transferCalls lib {} blocks, c.done = true := by
  have hended : Ended blocks.flatten := hsplit ▸ ended_upstream cs
  refine ⟨?_, (exists_done_transferCalls_iff lib rfl blocks).mpr
    ((isDone_feedAll_iff blocks).mpr hended)⟩
  have hnonempty : blocks.flatten ≠ [] := by
    rw [hsplit, upstream]
    exact List.append_ne_nil_of_right_ne_nil _ (by decide)
  obtain ⟨init, last, tail, rfl, hlast, htail⟩ := exists_last_nonempty hnonempty
  have hjoin : init.flatten ++ last = upstream cs := by simpa [htail] using hsplit
  have hinit : (feedAll {} init).2.isDone = false :=
    Bool.eq_false_iff.mpr fun h =>
      not_ended_of_append hjoin hlast ((isDone_feedAll_iff init).mp h)
  have hdone : ((feedAll {} init).2.feed last).2.isDone = true := by
    have : (feedAll {} (init ++ [last])).2.isDone = true := by
      rw [isDone_feedAll_iff]
      simpa [hjoin] using ended_upstream cs
    rwa [feedAll_append] at this
  have hnone : ∀ c ∈ transferCalls lib {} init, c.done = false := by
    intro c hc
    by_contra h
    have := (exists_done_transferCalls_iff lib rfl init).mp ⟨c, hc, by simpa using h⟩
    rw [hinit] at this
    cases this
  -- the callbacks before the terminator are those of all the messages
  have hbefore : transferCalls lib {} init ++ contentCalls lib ((feedAll {} init).2.feed last).1
      = contentCalls lib (cs.map fun c => eventText (utf8 c)) := by
    rw [← feed_upstream, ← hjoin, show init.flatten ++ last = (init ++ [last]).flatten by simp,
      ← feedAll_eq_feed (by decide), feedAll_append]
    have hfilter := filter_transferCalls lib {} init
    rw [List.filter_eq_self.mpr fun c hc => by simp [hnone c hc]] at hfilter
    rw [hfilter]
    simp [contentCalls, feedAll]
  rw [relayedTexts, transferCalls_append, transferCalls, blockCalls, hdone, if_pos rfl,
    ← List.append_assoc, ← List.append_assoc, hbefore, contentCalls_eventTexts lib hparse,
    List.append_assoc, List.takeWhile_append_of_pos (by simp)]
  simp [Function.comp_def]

/-- **Which texts the gateway relays unchanged.** For every list of deltas and every split of the
provider's events into blocks: what the client decodes is what was sent exactly when no delta
holds a blank line, ends in a newline or is the end marker. -/
theorem relayedUnchanged_iff {cs : List String} {blocks : List Bytes}
    (hsplit : blocks.flatten = upstream cs)
    (hparse : ∀ c ∈ cs, lib.tryParse (eventText (utf8 c)) = .ok (eventDocument (utf8 c))) :
    RelayedUnchanged lib blocks cs ↔ ∀ c ∈ cs, Clean (utf8 c) := by
  obtain ⟨htexts, hdone⟩ := relayedTexts_transferCalls lib hsplit hparse
  have hrelay := relay_iff (cs.map utf8)
  rw [List.forall_mem_map] at hrelay
  simp only [RelayedUnchanged, htexts, hdone, true_and]
  exact hrelay

/-- The document of a delta that is text is valid. -/
theorem isValid_eventDocument (c : String) : (eventDocument (utf8 c)).isValid = true := by
  unfold eventDocument
  simp [Json.isValid_obj_iff, validUtf8_utf8]

/-- A library that parses the events of the deltas `cs`. -/
def eventLib (cs : List String) : Lib :=
  .ofTable (cs.map fun c =>
    (eventText (utf8 c), ⟨eventDocument (utf8 c), isValid_eventDocument c⟩))

/-- The equivalence at two deltas, split inside the first event. -/
theorem relayedUnchanged_iff_two_deltas :
    RelayedUnchanged (eventLib ["Hello", ", wor\nld"])
        [(upstream ["Hello", ", wor\nld"]).take 20, (upstream ["Hello", ", wor\nld"]).drop 20]
        ["Hello", ", wor\nld"]
      ↔ ∀ c ∈ ["Hello", ", wor\nld"], Clean (utf8 c) :=
  relayedUnchanged_iff (eventLib ["Hello", ", wor\nld"]) (by simp) (by
    intro c hc
    rcases List.mem_cons.mp hc with rfl | hc
    · rfl
    · rw [List.mem_singleton.mp hc]
      rfl)

/-- A paragraph break as a delta of its own is lost. -/
theorem not_relayedUnchanged_paragraph_break :
    ¬ RelayedUnchanged (eventLib ["a", "\n\n", "b"]) [upstream ["a", "\n\n", "b"]]
      ["a", "\n\n", "b"] := by
  rintro ⟨-, htext, -, -⟩
  revert htext
  decide +kernel

end AiSwitch

import AiSwitch.Adapter.Anthropic
import AiSwitch.Common.JsonValue
import AiSwitch.Stream.Codec
import Mathlib.Data.List.ReduceOption

/-!
# The text of a response, streamed or not

The content of a response is a list of blocks. `chat_completion` joins the texts of the text blocks
of the finished document, `anthropic_stream_parser::feed` the pieces in which the events of a stream
bring them. Both find the same text (`chatCompletion_eq_stream`), wherever the texts are cut into
pieces, whatever other events stand between these, and however the network splits the stream.
-/

namespace AiSwitch

open ByteString Delimited Effect Nlohmann Nlohmann.Json

/-! ## Events -/

/-- An event of the stream, with its name and its line of data. -/
structure StreamEvent where
  name : Bytes
  data : Bytes

namespace StreamEvent

/-- The two lines of an event. -/
def block (e : StreamEvent) : Bytes := eventPrefix ++ e.name ++ nl :: (dataPrefix ++ e.data)

/-- Name and data each stand on one line, and there are data. -/
structure OnLines (e : StreamEvent) : Prop where
  name : nl ∉ e.name
  data : nl ∉ e.data
  data_ne_nil : e.data ≠ []

/-- The bytes of some events. -/
def encode (events : List StreamEvent) : Bytes :=
  (events.map fun e => e.block ++ nlnl.toList).flatten

/-- An event that has nothing to do with a content block. -/
def IsAside (e : StreamEvent) : Prop :=
  e.name ∈ [utf8 "ping", utf8 "message_start", utf8 "message_delta"]

instance : DecidablePred IsAside := fun _ => inferInstanceAs (Decidable (_ ∈ _))

variable (parse : Bytes → Except ParseFailure Json)

/-- A delta that brings a piece of text. -/
def IsTextDelta (e : StreamEvent) (piece : Bytes) : Prop :=
  e.name = contentBlockDelta ∧ ∃ doc, parse e.data = .ok doc ∧
    doc.path ["delta", "text"] = some (.string piece)

/-- A delta without a field `text`. -/
def IsOtherDelta (e : StreamEvent) : Prop :=
  e.name = contentBlockDelta ∧ ∃ doc, parse e.data = .ok doc ∧ doc.path ["delta", "text"] = none

/-- The deltas of a content block up to its end. A text block has a text, which they bring in
pieces; a block of another type has none, and other deltas bring none. -/
inductive Brings : Option Bytes → List StreamEvent → Prop
  | stop {content : Option Bytes} {e : StreamEvent} (h : content = none ∨ content = some [])
      (he : e.name = utf8 "content_block_stop") : Brings content [e]
  | piece {piece text : Bytes} {e : StreamEvent} {es : List StreamEvent}
      (he : e.IsTextDelta parse piece) (hes : Brings (some text) es) :
      Brings (some (piece ++ text)) (e :: es)
  | other {content : Option Bytes} {e : StreamEvent} {es : List StreamEvent}
      (he : e.IsOtherDelta parse) (hes : Brings content es) : Brings content (e :: es)
  | aside {content : Option Bytes} {e : StreamEvent} {es : List StreamEvent} (he : e.IsAside)
      (hes : Brings content es) : Brings content (e :: es)

/-- The events of a stream bring the content blocks one after another, and end with
`message_stop`. -/
inductive Carries : List (Option Bytes) → List StreamEvent → Prop
  | stop {e : StreamEvent} (he : e.name = messageStop) : Carries [] [e]
  | block {content : Option Bytes} {contents : List (Option Bytes)} {e : StreamEvent}
      {es es' : List StreamEvent} (he : e.name = utf8 "content_block_start")
      (hes : Brings parse content es) (hrest : Carries contents es') :
      Carries (content :: contents) (e :: (es ++ es'))
  | aside {contents : List (Option Bytes)} {e : StreamEvent} {es : List StreamEvent}
      (he : e.IsAside) (hes : Carries contents es) : Carries contents (e :: es)

end StreamEvent

/-! ## What the parser reads of an event -/

namespace AnthropicStreamParser

/-- A text without a line end is a block between line ends. -/
theorem isBlock_newline {l : Bytes} (h : nl ∉ l) : IsBlock newline l := by
  refine find_eq_some (by simp) (by rw [List.drop_left]) fun q hq hocc => h ?_
  rw [List.drop_append_of_le_length hq.le, List.drop_eq_getElem_cons hq] at hocc
  obtain ⟨hx, -⟩ := List.cons_prefix_cons.mp hocc
  exact hx ▸ List.getElem_mem hq

/-- A text without a line end is one line. -/
theorem lines_of_notMem {l : Bytes} (h : nl ∉ l) : lines l = [l] := by
  refine lines_of_none (find_eq_none_iff.mpr fun hin => h ?_)
  exact hin.subset (List.mem_singleton_self nl)

/-- A line end closes the first line. -/
theorem lines_append {l : Bytes} (h : nl ∉ l) (s : Bytes) :
    lines (l ++ nl :: s) = l :: lines s := by
  have hcut := cut_block (isBlock_newline h) s
  rw [show l ++ newline.toList ++ s = l ++ nl :: s by simp [newline]] at hcut
  rw [lines, hcut, lines]
  rfl

/-- The names of the fields have no line end. -/
theorem nl_notMem_prefixes : nl ∉ eventPrefix ∧ nl ∉ dataPrefix := by decide

variable {e : StreamEvent}

/-- A block has two lines, the name and the data. -/
theorem lines_block (h : e.OnLines) :
    lines e.block = [eventPrefix ++ e.name, dataPrefix ++ e.data] := by
  have hname : nl ∉ eventPrefix ++ e.name := by simp [nl_notMem_prefixes.1, h.name]
  have hdata : nl ∉ dataPrefix ++ e.data := by simp [nl_notMem_prefixes.2, h.data]
  rw [StreamEvent.block, lines_append hname, lines_of_notMem hdata]

/-- The event type of a block is the name of its event. -/
theorem eventType_block (h : e.OnLines) : eventType e.block = e.name := by
  have hdata : ¬ eventPrefix <+: dataPrefix ++ e.data := fun hevent =>
    not_dataPrefix_of_eventPrefix hevent (List.prefix_append _ _)
  rw [eventType, lines_block h, lastField]
  simp [hdata]

/-- The data line of a block is the data of its event. -/
theorem dataLine_block (h : e.OnLines) : dataLine e.block = e.data := by
  have hname := not_dataPrefix_of_eventPrefix (List.prefix_append eventPrefix e.name)
  rw [dataLine, lines_block h, lastField]
  simp [hname]

/-- An event holds a single newline, between its lines, so it is a block of the stream. -/
theorem isBlock_block (h : e.OnLines) : IsBlock nlnl e.block := by
  have hname : nl ∉ eventPrefix ++ e.name := by simp [nl_notMem_prefixes.1, h.name]
  have hdata : nl ∉ dataPrefix ++ e.data := by simp [nl_notMem_prefixes.2, h.data]
  refine (SseHandler.isBlock_nlnl_iff _).mpr ⟨fun hin => ?_, fun hsuf => hdata ?_⟩
  · have hcount : nlnl.toList.count nl ≤ e.block.count nl := hin.sublist.count_le nl
    have htwo : nlnl.toList.count nl = 2 := by decide
    rw [StreamEvent.block, List.count_append, List.count_cons_self, List.count_eq_zero.mpr hname,
      List.count_eq_zero.mpr hdata, htwo] at hcount
    omega
  · have hlast : [nl] <:+ dataPrefix ++ e.data := by
      refine List.suffix_of_suffix_length_le hsuf ?_ (by simp [length_dataPrefix]; omega)
      exact (List.suffix_cons nl _).trans (List.suffix_append _ _)
    exact hlast.subset (List.mem_singleton_self nl)

/-- A stream of events is cut into the blocks that it was made of. -/
theorem cut_encode_events {events : List StreamEvent} (h : ∀ e ∈ events, e.OnLines) :
    cut nlnl (StreamEvent.encode events) = (events.map StreamEvent.block, []) := by
  induction events with
  | nil => simp [StreamEvent.encode]
  | cons e es ih =>
    obtain ⟨he, hes⟩ := List.forall_mem_cons.mp h
    have hcons : StreamEvent.encode (e :: es) = e.block ++ nlnl.toList ++ StreamEvent.encode es :=
      rfl
    rw [hcons, cut_block (isBlock_block he), ih hes]
    rfl

variable {parse : Bytes → Except ParseFailure Json}

/-- The text of a document is its string at `delta.text`. -/
theorem deltaText_of_path {doc : Json} {piece : Bytes}
    (h : doc.path ["delta", "text"] = some (.string piece)) : deltaText doc = some piece := by
  cases doc with
  | object fields =>
    obtain ⟨delta, hdelta, htext⟩ := Option.bind_eq_some_iff.mp h
    obtain ⟨text, htext, hpiece⟩ := Option.bind_eq_some_iff.mp htext
    cases hpiece
    cases delta with
    | object delta =>
      rw [member] at hdelta htext
      simp [deltaText, hdelta, htext]
    | _ => cases htext
  | _ => cases h

/-- A document without the path of the text carries none. -/
theorem deltaText_of_path_eq_none {doc : Json} (h : doc.path ["delta", "text"] = none) :
    deltaText doc = none := by
  cases doc with
  | object fields =>
    rw [path, Option.bind_eq_none_iff] at h
    cases hdelta : fields.lookup (utf8 "delta") with
    | none => simp [deltaText, hdelta]
    | some delta =>
      cases delta with
      | object delta =>
        have htext : delta.lookup (utf8 "text") = none := by
          simpa [path, member] using h _ hdelta
        simp [deltaText, hdelta, htext]
      | _ => simp [deltaText, hdelta]
  | _ => rfl

/-- The block of a text delta gives its piece. -/
theorem blockDelta_of_isTextDelta (h : e.OnLines) {piece : Bytes} (he : e.IsTextDelta parse piece) :
    blockDelta parse e.block = some piece := by
  obtain ⟨hname, doc, hdoc, hpath⟩ := he
  rw [blockDelta, eventType_block h, dataLine_block h, if_pos ⟨hname, h.data_ne_nil⟩, hdoc]
  exact deltaText_of_path hpath

/-- The block of a delta without a text gives nothing. -/
theorem blockDelta_of_isOtherDelta (h : e.OnLines) (he : e.IsOtherDelta parse) :
    blockDelta parse e.block = none := by
  obtain ⟨hname, doc, hdoc, hpath⟩ := he
  rw [blockDelta, eventType_block h, dataLine_block h, if_pos ⟨hname, h.data_ne_nil⟩, hdoc]
  exact deltaText_of_path_eq_none hpath

/-- An event that is no delta yields nothing. -/
theorem blockDelta_of_name_ne (h : e.OnLines) (he : e.name ≠ contentBlockDelta) :
    blockDelta parse e.block = none := by
  rw [blockDelta, eventType_block h, if_neg fun hboth => he hboth.1]

/-- The block of an event that is no delta gives nothing. -/
theorem blockDelta_of_isAside (h : e.OnLines) (he : e.IsAside) :
    blockDelta parse e.block = none := by
  refine blockDelta_of_name_ne h fun hname => ?_
  rw [StreamEvent.IsAside, hname] at he
  exact absurd he (by decide)

/-- The text that the parser reads of some events. -/
def textOf (parse : Bytes → Except ParseFailure Json) (events : List StreamEvent) : Bytes :=
  (events.filterMap fun e => blockDelta parse e.block).flatten

/-- A stream without events has the empty text. -/
@[simp] theorem textOf_nil : textOf parse [] = [] := rfl

/-- The texts of two streams are appended. -/
theorem textOf_append (es es' : List StreamEvent) :
    textOf parse (es ++ es') = textOf parse es ++ textOf parse es' := by
  simp [textOf]

/-- An event that gives a piece adds it to the text. -/
theorem textOf_cons_of_some {es : List StreamEvent} {piece : Bytes}
    (h : blockDelta parse e.block = some piece) :
    textOf parse (e :: es) = piece ++ textOf parse es := by
  simp [textOf, h]

/-- An event that gives nothing adds nothing to the text. -/
theorem textOf_cons_of_none {es : List StreamEvent} (h : blockDelta parse e.block = none) :
    textOf parse (e :: es) = textOf parse es := by
  simp [textOf, h]

/-- The deltas of a block bring its text. -/
theorem textOf_of_brings {content : Option Bytes} {events : List StreamEvent}
    (h : StreamEvent.Brings parse content events) (hlines : ∀ e ∈ events, e.OnLines) :
    textOf parse events = content.getD [] := by
  induction h with
  | stop h he =>
    have hnone := @blockDelta_of_name_ne _ parse (hlines _ List.mem_cons_self) (by rw [he]; decide)
    rw [textOf_cons_of_none hnone, textOf_nil]
    rcases h with rfl | rfl
    · rfl
    · rfl
  | piece he hes ih =>
    rw [List.forall_mem_cons] at hlines
    rw [textOf_cons_of_some (blockDelta_of_isTextDelta hlines.1 he), ih hlines.2]
    rfl
  | other he hes ih =>
    rw [List.forall_mem_cons] at hlines
    rw [textOf_cons_of_none (blockDelta_of_isOtherDelta hlines.1 he), ih hlines.2]
  | aside he hes ih =>
    rw [List.forall_mem_cons] at hlines
    rw [textOf_cons_of_none (blockDelta_of_isAside hlines.1 he), ih hlines.2]

/-- The stream brings the texts of all blocks, in order. -/
theorem textOf_of_carries {contents : List (Option Bytes)} {events : List StreamEvent}
    (h : StreamEvent.Carries parse contents events) (hlines : ∀ e ∈ events, e.OnLines) :
    textOf parse events = contents.reduceOption.flatten := by
  induction h with
  | stop he =>
    have hnone := @blockDelta_of_name_ne _ parse (hlines _ List.mem_cons_self)
      (he ▸ contentBlockDelta_ne_messageStop.symm)
    rw [textOf_cons_of_none hnone]
    rfl
  | @block content contents e es es' he hes hrest ih =>
    rw [List.forall_mem_cons, List.forall_mem_append] at hlines
    obtain ⟨hstart, hblock, hafter⟩ := hlines
    have hnone := @blockDelta_of_name_ne _ parse hstart (by rw [he]; decide)
    rw [textOf_cons_of_none hnone, textOf_append, textOf_of_brings hes hblock, ih hafter]
    cases content with
    | none => rw [List.reduceOption_cons_of_none]; rfl
    | some text => rw [List.reduceOption_cons_of_some]; rfl
  | aside he hes ih =>
    rw [List.forall_mem_cons] at hlines
    rw [textOf_cons_of_none (blockDelta_of_isAside hlines.1 he), ih hlines.2]

/-- A stream that carries contents has an event that ends the message. -/
theorem exists_messageStop_of_carries {contents : List (Option Bytes)} {events : List StreamEvent}
    (h : StreamEvent.Carries parse contents events) : ∃ e ∈ events, e.name = messageStop := by
  induction h with
  | @stop e he => exact ⟨e, by simp, he⟩
  | block he hes hrest ih =>
    obtain ⟨e, hmem, hstop⟩ := ih
    exact ⟨e, by simp [hmem], hstop⟩
  | aside he hes ih =>
    obtain ⟨e, hmem, hstop⟩ := ih
    exact ⟨e, by simp [hmem], hstop⟩

/-- **What the parser makes of the stream**, however it is split. -/
theorem feedAll_of_carries {contents : List (Option Bytes)} {events : List StreamEvent}
    {raws : List Bytes} (h : StreamEvent.Carries parse contents events)
    (hlines : ∀ e ∈ events, e.OnLines) (hraws : raws.flatten = StreamEvent.encode events) :
    ∃ texts parser, feedAll parse {} raws = .ok (texts, parser) ∧
      texts.flatten = contents.reduceOption.flatten ∧ parser.done = true := by
  have hfresh : find nlnl.toList ({} : AnthropicStreamParser).toState.buffer = none := by decide
  have hfeed := feedAll_eq_framer parse {} raws
  rw [Framer.feedAll_eq_feed _ raws _ hfresh, hraws] at hfeed
  refine ⟨_, _, hfeed, ?_, ?_⟩
  · show ((cut nlnl (StreamEvent.encode events)).1.filterMap (blockDelta parse)).flatten = _
    rw [cut_encode_events hlines, ← textOf_of_carries h hlines, textOf, List.filterMap_map]
    rfl
  · obtain ⟨e, he, hstop⟩ := exists_messageStop_of_carries h
    show (cut nlnl (StreamEvent.encode events)).1.any (framer parse).mark = true
    rw [cut_encode_events hlines, List.any_eq_true]
    exact ⟨e.block, List.mem_map_of_mem he,
      decide_eq_true ((eventType_block (hlines e he)).trans hstop)⟩

end AnthropicStreamParser

/-! ## What the adapter makes of the document -/

namespace Anthropic

/-- A content block: a text block with its text, or a block of another type. -/
inductive ContentBlock (block : Json) : Option Bytes → Prop
  | text {text : Bytes} (htype : block.member "type" = some (.lit "text"))
      (htext : block.member "text" = some (.string text)) : ContentBlock block (some text)
  | other {type : Bytes} (htype : block.member "type" = some (.string type))
      (hne : type ≠ utf8 "text") : ContentBlock block none

/-- The document of a response with this content. -/
structure IsResponse (response : Json) (contents : List (Option Bytes)) : Prop where
  error : response.member "error" = none
  content : ∃ blocks, response.member "content" = some (.array blocks) ∧
    List.Forall₂ ContentBlock blocks contents
  id : ∃ s, response.member "id" = some (.string s)
  model : ∃ s, response.member "model" = some (.string s)
  stopReason : ∃ s, response.member "stop_reason" = some (.string s)

/-- `choices[0].message.content` -/
def answerContent (doc : Json) : Option Json :=
  match doc.member "choices" with
  | some (.array (choice :: _)) => choice.path ["message", "content"]
  | _ => none

/-- A member that is a text is read. -/
theorem value_getString_of_member {j : Json} {key : String} {s : Bytes}
    (h : j.member key = some (.string s)) (default : Bytes) :
    j.value key getString default = .ok s :=
  value_of_member h getString default

/-- The loop over the blocks joins the texts of the text blocks. -/
theorem contentText_eq {blocks : List Json} {contents : List (Option Bytes)}
    (h : List.Forall₂ ContentBlock blocks contents) (acc : Bytes) :
    contentText acc blocks = .ok (acc ++ contents.reduceOption.flatten) := by
  induction h generalizing acc with
  | nil => simp [contentText]
  | cons hblock hblocks ih =>
    cases hblock with
    | text htype htext =>
      rw [contentText, value_getString_of_member htype, Outcome.ok_bind, if_pos rfl,
        value_getString_of_member htext, Outcome.ok_bind, ih, List.reduceOption_cons_of_some,
        List.flatten_cons, List.append_assoc]
    | other htype hne =>
      rw [contentText, value_getString_of_member htype, Outcome.ok_bind, if_neg hne, ih,
        List.reduceOption_cons_of_none]

/-- The converted response has the contents one after another as its answer. -/
theorem exists_convertResponse_eq {response : Json} {contents : List (Option Bytes)}
    (h : IsResponse response contents) : ∃ doc, convertResponse response = .ok doc ∧
      answerContent doc = some (.string contents.reduceOption.flatten) := by
  obtain ⟨blocks, hcontent, hblocks⟩ := h.content
  obtain ⟨id, hid⟩ := h.id
  obtain ⟨model, hmodel⟩ := h.model
  obtain ⟨stopReason, hstopReason⟩ := h.stopReason
  unfold convertResponse
  rw [contains_eq_isSome_member, h.error, if_neg (by simp), contains_eq_isSome_member, hcontent,
    if_pos (by simp), index_of_member hcontent, Outcome.ok_bind]
  dsimp only
  rw [contentText_eq hblocks, Outcome.ok_bind, value_getString_of_member hid, Outcome.ok_bind,
    value_getString_of_member hmodel, Outcome.ok_bind, value_getString_of_member hstopReason,
    Outcome.ok_bind]
  exact ⟨_, rfl, rfl⟩

/-- What `chat_completion` makes of the document that is the response to its POST. -/
theorem exists_chatCompletion_eq {a : Anthropic} {lib : Lib} {net : Network}
    {request body response : Json} {text : Bytes} {t : Transfer} {contents : List (Option Bytes)}
    (hbody : a.buildRequestBody request false = .ok body) (htext : lib.dump body = .ok text)
    (hnet : net ⟨a.baseUrl ++ utf8 "/messages", a.headers, text⟩ = some t) (hres : t.res = .ok)
    (hcode : t.httpCode = 200) (hparse : lib.tryParse t.blocks.flatten = .ok response)
    (hresponse : IsResponse response contents) :
    ∃ doc, a.chatCompletion lib net request = .ok doc ∧
      answerContent doc = some (.string contents.reduceOption.flatten) := by
  obtain ⟨doc, hdoc, hcontent⟩ := exists_convertResponse_eq hresponse
  refine ⟨doc, ?_, hcontent⟩
  have hpost : a.httpPost net (a.baseUrl ++ utf8 "/messages") text = .ok t.blocks.flatten := by
    rw [httpPost, hnet]
    simp [checkResponse, hres, hcode]
  have hconvert : lib.parse t.blocks.flatten >>= convertResponse = .ok doc := by
    rw [Lib.parse, parseBy, hparse]
    exact hdoc
  rw [chatCompletion, hbody, Outcome.ok_bind, htext, Outcome.ok_bind, hpost, Outcome.ok_bind,
    hconvert]

/-- **Streamed or not, the text is the same.** For every content, every response that carries it as
a document and every stream that carries it as events, in any pieces and with any other events
between them, and however the bytes of the stream are split: the texts that the parser returns are
together the content of the answer that `chat_completion` builds, and the parser is done. -/
theorem streamed_text_eq_answerContent {a : Anthropic} {lib : Lib} {net : Network}
    {request body response : Json} {text : Bytes} {t : Transfer} {contents : List (Option Bytes)}
    {events : List StreamEvent} {raws : List Bytes}
    (hbody : a.buildRequestBody request false = .ok body) (htext : lib.dump body = .ok text)
    (hnet : net ⟨a.baseUrl ++ utf8 "/messages", a.headers, text⟩ = some t) (hres : t.res = .ok)
    (hcode : t.httpCode = 200) (hparse : lib.tryParse t.blocks.flatten = .ok response)
    (hresponse : IsResponse response contents) (hlines : ∀ e ∈ events, e.OnLines)
    (hcarries : StreamEvent.Carries lib.tryParse contents events)
    (hraws : raws.flatten = StreamEvent.encode events) :
    ∃ doc texts parser, a.chatCompletion lib net request = .ok doc ∧
      AnthropicStreamParser.feedAll lib.tryParse {} raws = .ok (texts, parser) ∧
      answerContent doc = some (.string texts.flatten) ∧ parser.done = true := by
  obtain ⟨doc, hdoc, hcontent⟩ :=
    exists_chatCompletion_eq hbody htext hnet hres hcode hparse hresponse
  obtain ⟨texts, parser, hfeed, htexts, hdone⟩ :=
    AnthropicStreamParser.feedAll_of_carries hcarries hlines hraws
  exact ⟨doc, texts, parser, hdoc, hfeed, htexts ▸ hcontent, hdone⟩

/-- The delta that brings a piece, with its document. -/
def sampleDelta (piece : String) : Bytes × { j : Json // j.isValid = true } :=
  (utf8 "\x7b\"delta\":\x7b\"text\":\"" ++ utf8 piece ++ utf8 "\"\x7d\x7d",
    ⟨.obj [("delta", .obj [("text", .lit piece)])], by
      simp [Json.isValid_obj, Json.isValid_lit]⟩)

/-- A response with the text `Hi`. -/
def sampleResponse : Bytes × { j : Json // j.isValid = true } :=
  (utf8 ("\x7b\"content\":[\x7b\"text\":\"Hi\",\"type\":\"text\"\x7d],\"id\":\"msg\"," ++
      "\"model\":\"claude\",\"stop_reason\":\"end_turn\"\x7d"),
    ⟨.obj [("content", .array [.obj [("text", .lit "Hi"), ("type", .lit "text")]]),
      ("id", .lit "msg"), ("model", .lit "claude"), ("stop_reason", .lit "end_turn")],
      by decide +kernel⟩)

/-- The same text in two pieces, with a ping between them. -/
def sampleEvents : List StreamEvent :=
  [⟨utf8 "content_block_start", utf8 "\x7b\x7d"⟩, ⟨contentBlockDelta, (sampleDelta "H").1⟩,
    ⟨utf8 "ping", utf8 "\x7b\x7d"⟩, ⟨contentBlockDelta, (sampleDelta "i").1⟩,
    ⟨utf8 "content_block_stop", utf8 "\x7b\x7d"⟩, ⟨messageStop, utf8 "\x7b\x7d"⟩]

/-- The bytes of the stream arrive in two halves. -/
theorem streamed_text_eq_answerContent_hi :
    let lib := Lib.ofTable [sampleResponse, sampleDelta "H", sampleDelta "i"]
    ∃ doc texts parser,
      chatCompletion { apiKey := utf8 "sk-ant" } lib (fun _ => some ⟨[sampleResponse.1], .ok, 200⟩)
        (.object [(utf8 "messages", .array [])]) = .ok doc ∧
      AnthropicStreamParser.feedAll lib.tryParse {}
        [(StreamEvent.encode sampleEvents).take 60, (StreamEvent.encode sampleEvents).drop 60]
          = .ok (texts, parser) ∧
      answerContent doc = some (.string texts.flatten) ∧ parser.done = true := by
  intro lib
  have hdelta : ∀ piece ∈ ["H", "i"], StreamEvent.IsTextDelta lib.tryParse
      ⟨contentBlockDelta, (sampleDelta piece).1⟩ (utf8 piece) := by
    intro piece hpiece
    refine ⟨rfl, (sampleDelta piece).2.1, ?_, rfl⟩
    simp only [List.mem_cons, List.not_mem_nil, or_false] at hpiece
    rcases hpiece with rfl | rfl
    · rfl
    · rfl
  refine @streamed_text_eq_answerContent _ lib _ (.object [(utf8 "messages", .array [])]) _
    sampleResponse.2.1 _ ⟨[sampleResponse.1], .ok, 200⟩ [some (utf8 "Hi")] sampleEvents
    _ rfl (Lib.dump_of_isValid (by decide +kernel)) rfl rfl rfl ?_ ?_ ?_ ?_ (by simp)
  · rfl
  · exact ⟨rfl, ⟨_, rfl, .cons (.text rfl rfl) .nil⟩, ⟨_, rfl⟩, ⟨_, rfl⟩, ⟨_, rfl⟩⟩
  · have hlines : ∀ e ∈ sampleEvents, nl ∉ e.name ∧ nl ∉ e.data ∧ e.data ≠ [] := by decide +kernel
    exact fun e he => ⟨(hlines e he).1, (hlines e he).2.1, (hlines e he).2.2⟩
  · exact .block rfl (.piece (hdelta "H" (by simp)) (.aside (by decide)
      (.piece (hdelta "i" (by simp)) (.stop (.inr rfl) rfl)))) (.stop rfl)

end Anthropic

end AiSwitch

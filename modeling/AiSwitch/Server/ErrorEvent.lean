import AiSwitch.Common.JsonText
import AiSwitch.Server.StreamTask
import AiSwitch.Stream.Codec

/-!
# The event that reports a failed stream

The task of a streaming request splices the message of an exception into a JSON document in an SSE
frame, and escapes nothing. `reported_iff` says which messages come back out of this: the frame is
one message of an SSE client in any case in which the message has no newline, but the document is
that of the message only if the message has nothing to be escaped.
-/

namespace AiSwitch

open ByteString Nlohmann Nlohmann.Json SseHandler

/-- What stands before the message in the document, and what stands after it. -/
def errorOpening : Bytes := utf8 "\x7b\"error\":\x7b\"code\":\"provider_error\",\"message\":\""

def errorClosing : Bytes := utf8 "\"\x7d\x7d"

/-- The error event is a chunk around the message. -/
theorem errorEvent_eq (msg : Bytes) :
    errorEvent msg = makeChunk (errorOpening ++ msg ++ errorClosing) := by
  have hopening : utf8 "data: \x7b\"error\":\x7b\"code\":\"provider_error\",\"message\":\""
      = dataPrefix ++ errorOpening := by decide +kernel
  have hclosing : utf8 "\"\x7d\x7d\n\n" = errorClosing ++ nlnl.toList := by decide +kernel
  rw [errorEvent, hopening, hclosing, makeChunk]
  simp only [List.append_assoc]

/-! ## A message that needs no escapes -/

section

variable {msg : Bytes}

/-- The event is one message. -/
theorem feed_errorEvent (h : nl ∉ msg) :
    (feed {} (errorEvent msg)).1 = [errorOpening ++ msg ++ errorClosing] := by
  have hnl : nl ∉ errorOpening ++ msg ++ errorClosing := by
    have hopening : nl ∉ errorOpening := by decide +kernel
    have hclosing : nl ∉ errorClosing := by decide +kernel
    simp [hopening, h, hclosing]
  have hmessage : IsMessage (errorOpening ++ msg ++ errorClosing) := by
    have hcons : ∃ s, errorOpening = 123 :: s := ⟨errorOpening.tail, by decide +kernel⟩
    obtain ⟨s, hs⟩ := hcons
    refine ⟨by simp [hs], ?_, ?_, ?_⟩
    · exact fun hin => hnl (hin.subset (by simp [nlnl]))
    · exact fun hsuf => hnl (hsuf.subset (by simp))
    · rw [hs, doneMarker_eq]
      simp
  have hencode : errorEvent msg = encode [errorOpening ++ msg ++ errorClosing] := by
    rw [errorEvent_eq, encode]
    simp
  rw [hencode, feed_encode (by simpa using hmessage)]

variable (fractions : Bytes → ℚ → Prop)

/-- The message denotes the document of the error. -/
theorem denotes_error (hvalid : ValidUtf8 msg) (h : ∀ b ∈ msg, ¬ IsSpecial b) :
    ∃ j, Denotes fractions (errorOpening ++ msg ++ errorClosing) j ∧
      j.path ["error", "code"] = some (.lit "provider_error") ∧
      j.path ["error", "message"] = some (.string msg) := by
  have hkey : ∀ key ∈ ["error", "code", "provider_error", "message"],
      Chars (utf8 key) (utf8 key) := by
    intro key hkey
    refine chars_self (validUtf8_utf8 key) ?_
    revert key
    decide +kernel
  have hmembers : Reads fractions (.members _) _ := reads_member (hkey "code" (by simp))
    (.string (hkey "provider_error" (by simp)))
    (reads_lastMember (hkey "message" (by simp)) (.string (chars_self hvalid h)))
  have hdocument := Reads.object (reads_lastMember (hkey "error" (by simp)) (.object hmembers))
  have hopening : errorOpening = 123 :: 34 :: (utf8 "error" ++ 34 :: 58 :: 123 :: 34 ::
      (utf8 "code" ++ 34 :: 58 :: 34 :: (utf8 "provider_error" ++ 34 :: 44 :: 34 ::
      (utf8 "message" ++ [34, 58, 34])))) := by
    decide +kernel
  have hclosing : errorClosing = [34, 125, 125] := by decide +kernel
  rw [hopening, hclosing]
  have hdenotes := denotes_of_reads hdocument
  simp only [List.cons_append, List.append_assoc, List.nil_append] at hdenotes ⊢
  exact ⟨_, hdenotes, rfl, rfl⟩

end

/-! ## Any message -/

/-- The event of an exception, taken apart by a fresh handler, is one message, and this is the
document of the error with the message of the exception. -/
def Reported (fractions : Bytes → ℚ → Prop) (e : Exn) : Prop :=
  ∃ d j, (feed {} ((errorHandler e).flatMap Send.chunkData)).1 = [d] ∧ Denotes fractions d j ∧
    j.path ["error", "code"] = some (.lit "provider_error") ∧
    j.path ["error", "message"] = some (.string e.what)

/-- What is sent of an exception ends at its first zero byte. -/
theorem chunkData_errorHandler (e : Exn) :
    (errorHandler e).flatMap Send.chunkData = errorEvent (cstr e.what) := by
  simp [errorHandler]

/-- A document with that code and that message takes the length of the template and the cost of the
message. -/
theorem weight_of_error {j : Json} {msg : Bytes}
    (hcode : j.path ["error", "code"] = some (.lit "provider_error"))
    (hmessage : j.path ["error", "message"] = some (.string msg)) : 48 + cost msg ≤ weight j := by
  rw [path_pair] at hcode hmessage
  obtain ⟨error, herror, hcode⟩ := Option.bind_eq_some_iff.mp hcode
  rw [herror, Option.bind_some] at hmessage
  have houter := weight_of_member herror
  have hinner := weight_of_members (by decide) hcode hmessage
  have hcosts : cost (utf8 "error") = 5 ∧ cost (utf8 "code") = 4 ∧ cost (utf8 "message") = 7 ∧
      cost (utf8 "provider_error") = 14 := by decide +kernel
  rw [lit, weight, weight] at hinner
  omega

/-- The document has no room for escapes: whatever the frame is cut into, it is no longer than the
template with the message in it. -/
theorem Reported.plain {fractions : Bytes → ℚ → Prop} {e : Exn} (h : Reported fractions e) :
    ValidUtf8 e.what ∧ ∀ b ∈ e.what, ¬ IsSpecial b := by
  obtain ⟨d, j, hfeed, hdenotes, hcode, hmessage⟩ := h
  rw [chunkData_errorHandler] at hfeed
  have hlength : d.length ≤ (errorOpening ++ cstr e.what ++ errorClosing).length := by
    refine length_le_of_mem_feed_makeChunk ?_
    rw [← errorEvent_eq, hfeed]
    exact List.mem_singleton_self d
  have hweight := (weight_of_error hcode hmessage).trans (hdenotes.weight_le.trans hlength)
  have htemplate : errorOpening.length = 45 ∧ errorClosing.length = 3 := by decide +kernel
  have hcstr : (cstr e.what).length ≤ e.what.length := (List.takeWhile_prefix _).length_le
  rw [List.length_append, List.length_append, cost] at hweight
  have hspecial : e.what.countP IsSpecial = 0 := by omega
  rw [path_pair] at hmessage
  obtain ⟨error, herror, hmessage⟩ := Option.bind_eq_some_iff.mp hmessage
  have hvalid := isValid_of_member (isValid_of_member hdenotes.isValid herror) hmessage
  exact ⟨(isValid_string _).mp hvalid, by simpa [List.countP_eq_zero] using hspecial⟩

/-- A message of plain bytes is reported. -/
theorem reported_of_plain (fractions : Bytes → ℚ → Prop) {e : Exn} (hvalid : ValidUtf8 e.what)
    (hplain : ∀ b ∈ e.what, ¬ IsSpecial b) : Reported fractions e := by
  obtain ⟨j, hdenotes, hpaths⟩ := denotes_error fractions hvalid hplain
  refine ⟨_, j, ?_, hdenotes, hpaths⟩
  rw [chunkData_errorHandler, cstr_eq_self fun hzero => hplain 0 hzero (by decide)]
  exact feed_errorEvent fun hnl => hplain nl hnl (by decide)

/-- **Which failures are reported as one well-formed event.** For every exception: the event that
the session sends is a message of which the document has the code and the message of the exception
exactly where this message is UTF-8 without quotation marks, backslashes and control characters. -/
theorem reported_iff (fractions : Bytes → ℚ → Prop) (e : Exn) :
    Reported fractions e ↔ ValidUtf8 e.what ∧ ∀ b ∈ e.what, ¬ IsSpecial b :=
  ⟨Reported.plain, fun h => reported_of_plain fractions h.1 h.2⟩

/-- A message that quotes the name of a model. -/
theorem not_reported_quoted_model :
    ¬ Reported (fun _ _ => False) (.runtimeError (utf8 "unknown model \"gpt\"")) := by
  intro h
  exact h.plain.2 34 (by decide +kernel) (.inl rfl)

end AiSwitch

import AiSwitch.Common.Progress
import AiSwitch.Server.StreamWrites
import AiSwitch.Stream.Relay

/-!
# From the provider to the client

A provider streams its deltas, libcurl hands them on in whatever blocks, the pool task posts a
handler for each callback, the threads of the event loop write the frames piece by piece, and the
client decodes what it has read so far. `client_reads` follows a text the whole way, for the deltas
that survive their frames and the schedules that keep the writes apart: at every moment the client
has a beginning of what the provider sent, and it takes the response for complete exactly when it
has all of it. Such a schedule is bounded, and can be continued until the whole response has been
sent (`inevitable_response`).
-/

namespace AiSwitch

open ByteString Delimited Nlohmann SseHandler Transition

/-- How many steps a write can still take. -/
def PendingWrite.work (w : PendingWrite) : ℕ := w.rest.length + 1

namespace StreamState

/-! ## The client -/

/-- What a client has of the texts `ps` that reads a beginning of the response piece by piece: the
first of them, at least those whose frames it has read, and the end flag if it has read all. -/
structure Reads (ps raws : List Bytes) : Prop where
  texts : (feedAll {} raws).1 <+: ps.filter (· ≠ [])
  frames : ∀ k, encode (ps.take k) <+: raws.flatten →
    (ps.take k).filter (· ≠ []) <+: (feedAll {} raws).1
  done : (feedAll {} raws).2.isDone = true ↔ raws.flatten = response ps

variable {ps raws : List Bytes}

/-- The response is the encoded payloads and the terminator's chunk. -/
theorem response_eq (ps : List Bytes) : response ps = encode ps ++ makeDoneChunk := rfl

/-- **A client that reads a beginning of the response.** -/
theorem reads_of_prefix (hps : ∀ p ∈ ps, Clean p) (hraws : raws.flatten <+: response ps) :
    Reads ps raws where
  texts := by
    have hprefix := (prefix_cut_fst nlnl hraws).filterMap framer.emit
    have hmarker : framer.emit (dataPrefix ++ doneMarker) = none := by decide
    rw [response_eq, cut_stream hps, List.filterMap_append, filterMap_emit_frames hps] at hprefix
    rw [feedAll_fst]
    simpa [hmarker] using hprefix
  frames k hk := by
    have htake : ∀ p ∈ ps.take k, Clean p := fun p hp => hps p (List.mem_of_mem_take hp)
    have hprefix := (prefix_cut_fst nlnl hk).filterMap framer.emit
    rw [cut_encode fun p hp => (htake p hp).isBlock] at hprefix
    dsimp only at hprefix
    rwa [filterMap_emit_frames htake, ← feedAll_fst] at hprefix
  done := by
    rw [isDone_feedAll_iff]
    exact ⟨eq_stream_of_ended hps hraws, fun hall => hall ▸ ended_stream hps⟩

/-! ## The end of the stream -/

/-- How many steps a posted handler and its writes can take. -/
def handlerWork (h : PostedHandler) : ℕ := 1 + (h.map fun send => send.start.work).sum

/-- How many steps are left. -/
def workLeft (s : StreamState) : ℕ :=
  (s.todo.map fun h => handlerWork h + 1).sum + (s.ready.map handlerWork).sum +
    (s.writes.map PendingWrite.work).sum

variable {s s' : StreamState} {a : Action}

/-- Without one of the writes there is less work. -/
theorem work_eraseIdx_lt {j : ℕ} {w : PendingWrite} (hw : s.writes[j]? = some w) :
    ((s.writes.eraseIdx j).map PendingWrite.work).sum < (s.writes.map PendingWrite.work).sum := by
  rw [sum_map_of_getElem PendingWrite.work hw, PendingWrite.work]
  omega

/-- Every action takes a step of those that are left. -/
theorem workLeft_lt (hstep : step s a = some s') : workLeft s' < workLeft s := by
  cases a with
  | post =>
    -- the handler moves to the waiting ones, where it has one step less
    obtain ⟨h, todo, htodo, rfl⟩ := exists_of_step_post hstep
    simp only [workLeft, htodo, List.map_cons, List.sum_cons, List.map_append, List.sum_append,
      List.map_nil, List.sum_nil]
    omega
  | start i =>
    -- what the handler had left is left to its writes, less the step it takes
    obtain ⟨h, hready, rfl⟩ := exists_of_step_start hstep
    simp only [workLeft, sum_map_of_getElem handlerWork hready, handlerWork, List.map_append,
      List.sum_append, List.map_map, Function.comp_def]
    omega
  | advance j k =>
    obtain ⟨w, hw, ⟨-, hpos, hle⟩, rfl⟩ := exists_of_step_advance hstep
    simp only [workLeft, sum_map_of_getElem PendingWrite.work hw,
      sum_map_set PendingWrite.work hw, PendingWrite.work, List.length_drop]
    omega
  | complete j =>
    obtain ⟨w, hw, -, rfl⟩ := exists_of_step_complete hstep
    exact Nat.add_lt_add_left (work_eraseIdx_lt hw) _
  | fail j =>
    obtain ⟨w, hw, -, rfl⟩ := exists_of_step_fail hstep
    exact Nat.add_lt_add_left (work_eraseIdx_lt hw) _

/-- A write under way can go on: by a byte, to its end, or it fails. -/
theorem exists_step_of_write {w : PendingWrite} {ws : List PendingWrite}
    (hwrites : s.writes = w :: ws) : ∃ a, InTurn s a ∧ (step s a).isSome := by
  have hw : s.writes[0]? = some w := by rw [hwrites, List.getElem?_cons_zero]
  by_cases hrest : w.rest = []
  · exact ⟨.complete 0, trivial, by simp [step, hw, hrest]⟩
  · cases hshut : s.shut with
    | true => exact ⟨.fail 0, trivial, by simp [step, hw, hshut]⟩
    | false =>
      have hlen : 1 ≤ w.rest.length := List.length_pos_iff.mpr hrest
      exact ⟨.advance 0 1, trivial, by simp [step, hw, hshut, hlen]⟩

/-- As long as something is left to do, something can be done in its turn. -/
theorem exists_step (hs : ¬ s.Quiescent) : ∃ a, InTurn s a ∧ (step s a).isSome := by
  cases hwrites : s.writes with
  | cons w ws => exact exists_step_of_write hwrites
  | nil =>
    cases hready : s.ready with
    | cons h ready => exact ⟨.start 0, ⟨rfl, hwrites⟩, by simp [step, hready]⟩
    | nil =>
      cases htodo : s.todo with
      | cons h todo => exact ⟨.post, trivial, by simp [step, htodo]⟩
      | nil => exact absurd ⟨htodo, hready, hwrites⟩ hs

/-- **A stream that is written in turn comes to its end.** Its schedules are bounded, and none of
them ends before the response has been sent. -/
theorem inevitable_response (hinv : Inv ps s) :
    Inevitable (restrict step InTurn) (fun _ => True)
      (fun s' => s'.Quiescent ∧ s'.out = response ps) s := by
  refine inevitable_of_measure workLeft ?_ ?_ hinv
  · intro s a s' hinv _ hstep
    obtain ⟨hturn, hstep⟩ := restrict_eq_some_iff.mp hstep
    exact ⟨inv_step s a s' hinv hturn hstep, workLeft_lt hstep⟩
  · intro s hinv hgoal
    have hs : ¬ s.Quiescent := fun hq => hgoal ⟨hq, hinv.inOrder.out_of_quiescent hq⟩
    obtain ⟨a, hturn, henabled⟩ := exists_step hs
    obtain ⟨s', hstep⟩ := Option.isSome_iff_exists.mp henabled
    exact ⟨a, s', trivial, restrict_eq_some_iff.mpr ⟨hturn, hstep⟩⟩

end StreamState

/-! ## The task -/

namespace OpenaiCompatible

variable {a : OpenaiCompatible} {lib : Lib} {cs : List String} {t : Transfer} {r : StreamRequest}

/-- A callback that ends the stream brings no text. -/
theorem eq_of_mem_transferCalls {parser : SseHandler} {raws : List Bytes} {c : StreamCall}
    (hc : c ∈ transferCalls lib parser raws) (hdone : c.done = true) : c = ⟨[], true⟩ := by
  induction raws generalizing parser with
  | nil => cases hc
  | cons raw raws ih =>
    rw [transferCalls] at hc
    rcases List.mem_append.mp hc with hc | hc
    · rw [blockCalls] at hc
      rcases List.mem_append.mp hc with hc | hc
      · rw [done_of_mem_contentCalls lib hc] at hdone
        cases hdone
      · split at hc
        · exact List.mem_singleton.mp hc
        · cases hc
    · exact ih hc

/-- The callbacks of a transfer that brings the deltas `cs` and ends with the end marker. -/
theorem transferCalls_upstream (hblocks : ∀ b ∈ t.blocks, b ≠ [])
    (hsplit : t.blocks.flatten = upstream cs)
    (hparse : ∀ c ∈ cs, lib.tryParse (eventText (utf8 c)) = .ok (eventDocument (utf8 c))) :
    transferCalls lib {} t.blocks = StreamState.callbacks (cs.map utf8) := by
  have hended : Ended t.blocks.flatten := hsplit ▸ ended_upstream cs
  have hbefore : ¬ Ended t.blocks.dropLast.flatten := by
    rcases List.eq_nil_or_concat t.blocks with hnil | ⟨init, last, hlast⟩
    · rw [hnil] at hended
      simp [Ended, cut_nil] at hended
    · rw [List.concat_eq_append] at hlast
      rw [hlast, List.dropLast_concat]
      have hjoin : init.flatten ++ last = upstream cs := by simp [← hsplit, hlast]
      exact not_ended_of_append hjoin (hblocks last (by simp [hlast]))
  obtain ⟨init, last, hcalls, hlast, hinit⟩ :=
    (transferCalls_terminated_iff lib t.blocks).mpr ⟨hended, hbefore⟩
  obtain ⟨htexts, -⟩ := relayedTexts_transferCalls lib hsplit hparse
  have hmarker : last = ⟨[], true⟩ :=
    eq_of_mem_transferCalls (hcalls ▸ List.mem_append_right _ (List.mem_singleton_self _)) hlast
  have htake : (init ++ [last]).takeWhile (fun c => !c.done) = init := by
    rw [List.takeWhile_append_of_pos (by simpa using hinit)]
    simp [hlast]
  rw [relayedTexts, hcalls, htake] at htexts
  have htextual : init = (init.map StreamCall.content).map (⟨·, false⟩) := by
    rw [List.map_map]
    refine (List.map_id init).symm.trans (List.map_congr_left fun c hc => ?_)
    rw [Function.comp_apply, ← hinit c hc]
    rfl
  rw [hcalls, hmarker, StreamState.callbacks, ← htexts, ← htextual]

/-- The handlers that the task posts for such a transfer. -/
theorem streamTask_upstream (hmsg : r.HasMessages) (hread : r.Readable) (hsucc : t.Succeeded)
    (hcalls : transferCalls lib {} t.blocks = StreamState.callbacks (cs.map utf8)) :
    { todo := (streamTask (a.toAdapter lib fun _ => some t) r.json).1 }
      = StreamState.init (cs.map utf8) := by
  obtain ⟨text, htext⟩ :=
    chatCompletionStream_of_readable (a := a) lib r (fun _ => some t) hmsg hread
  rw [httpPostStream_some, checkTransfer_of_succeeded hsucc, hcalls] at htext
  rw [streamTask_of_ok htext, StreamState.init]

/-- **From the provider to the client.** For every request that is streamed by an OpenAI-compatible
adapter and every transfer that brings the deltas `cs` in whatever blocks, in every state that a
schedule reaches that starts each handler in its turn: a client that has read some of what has been
sent, in whatever pieces, has the first of the deltas, all those whose frames it has read, and takes
the response for complete exactly when it has read all of it; and the schedule can be continued
until the whole response has been sent, and not forever. -/
theorem client_reads {schedule : List StreamState.Action} {s : StreamState}
    (hmsg : r.HasMessages) (hread : r.Readable) (hsucc : t.Succeeded)
    (hblocks : ∀ b ∈ t.blocks, b ≠ []) (hsplit : t.blocks.flatten = upstream cs)
    (hparse : ∀ c ∈ cs, lib.tryParse (eventText (utf8 c)) = .ok (eventDocument (utf8 c)))
    (hclean : ∀ c ∈ cs, Clean (utf8 c))
    (hturns : Respects StreamState.step StreamState.InTurn
      { todo := (streamTask (a.toAdapter lib fun _ => some t) r.json).1 } schedule)
    (hrun : run StreamState.step
      { todo := (streamTask (a.toAdapter lib fun _ => some t) r.json).1 } schedule = some s) :
    (∀ raws : List Bytes, raws.flatten <+: s.out → StreamState.Reads (cs.map utf8) raws) ∧
      Inevitable (restrict StreamState.step StreamState.InTurn) (fun _ => True)
        (fun s' => s'.Quiescent ∧ s'.out = StreamState.response (cs.map utf8)) s := by
  have hcalls := transferCalls_upstream hblocks hsplit hparse
  have hstart := streamTask_upstream (a := a) hmsg hread hsucc hcalls
  rw [hstart] at hturns hrun
  have hinv := invariant_run StreamState.inv_step (StreamState.inv_init _) hturns hrun
  refine ⟨fun raws hraws => ?_, StreamState.inevitable_response hinv⟩
  refine StreamState.reads_of_prefix ?_ (hraws.trans hinv.inOrder.out_prefix)
  exact List.forall_mem_map.mpr hclean

/-- A request without numbers of its own. -/
def plainRequest : StreamRequest where
  fields := [(utf8 "messages", .array []), (utf8 "model", .lit "gpt-4"),
    (utf8 "stream", .boolean true)]
  valid := by decide +kernel
  model_string _ hv := ⟨_, (Option.some.inj hv).symm⟩

/-- One delta, which arrives in two blocks. -/
def helloTransfer : Transfer where
  blocks := [(upstream ["Hello"]).take 20, (upstream ["Hello"]).drop 20]
  res := .ok
  httpCode := 200

/-- The stream of this delta. -/
def helloStream : StreamState where
  todo := (streamTask ((openaiAdapter (utf8 "sk") (utf8 "https://api.openai.com/v1")).toAdapter
    (eventLib ["Hello"]) fun _ => some helloTransfer) plainRequest.json).1

/-- The first of the frame has been written, and read in two pieces. -/
theorem client_reads_hello :
    ∃ s, run StreamState.step helloStream [.post, .start 0, .advance 0 9] = some s ∧
      s.out = utf8 "data: Hel" ∧ StreamState.Reads [utf8 "Hello"] [utf8 "dat", utf8 "a: Hel"] := by
  have hsome : (run StreamState.step helloStream [.post, .start 0, .advance 0 9]).map
      StreamState.out = some (utf8 "data: Hel") := by decide +kernel
  obtain ⟨s, hrun, hout⟩ := Option.map_eq_some_iff.mp hsome
  refine ⟨s, hrun, hout, ?_⟩
  have hsplit : helloTransfer.blocks.flatten = upstream ["Hello"] := by simp [helloTransfer]
  have hparse : ∀ c ∈ ["Hello"],
      (eventLib ["Hello"]).tryParse (eventText (utf8 c)) = .ok (eventDocument (utf8 c)) := by
    simp only [List.forall_mem_singleton]
    rfl
  have hturns : Respects StreamState.step StreamState.InTurn helloStream
      [.post, .start 0, .advance 0 9] := by decide +kernel
  obtain ⟨hreads, -⟩ := client_reads (r := plainRequest) ⟨_, rfl⟩ ⟨⟨_, rfl⟩, _, rfl⟩
    (by decide +kernel) (by decide +kernel) hsplit hparse (by decide +kernel) hturns hrun
  exact hreads _ (by rw [hout]; decide +kernel)

end OpenaiCompatible

end AiSwitch

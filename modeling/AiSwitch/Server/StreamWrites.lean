import AiSwitch.Common.Transition
import AiSwitch.Server.StreamTask

/-!
# Concurrent writes on one socket

The handlers that a pool task posts run on the threads of one `io_context`, with no strand: two of
them may run at once and in either order. Each starts an `async_write` of its own, which Asio
performs as a sequence of partial writes, and nothing waits for the previous one. The write of the
terminator ends in `do_close`, which shuts the send side down.

A state holds the handlers still to be posted, those waiting for a thread, the writes under way and
the bytes that have reached the socket; a schedule is a list of actions. `written_in_order` says
for which schedules the client receives the response whole and in order.
-/

namespace AiSwitch

open ByteString Transition

/-- An `async_write` under way: the bytes it has left, and whether it is the terminator's. -/
structure PendingWrite where
  rest : Bytes
  done : Bool
deriving DecidableEq, Repr

/-- The bytes that a `send_stream_chunk` writes. -/
def Send.bytes (s : Send) : Bytes := if s.done then SseHandler.makeDoneChunk else s.chunkData

/-- The write that a `send_stream_chunk` starts. -/
def Send.start (s : Send) : PendingWrite := ⟨s.bytes, s.done⟩

/-- A session whose stream header has been sent. -/
structure StreamState where
  /-- Handlers that the pool task has not posted yet. -/
  todo : List PostedHandler
  /-- Posted handlers that no thread has taken. -/
  ready : List PostedHandler := []
  writes : List PendingWrite := []
  out : Bytes := []
  shut : Bool := false
deriving DecidableEq

namespace StreamState

/-- What can happen next: the task posts a handler, a thread runs the `i`-th waiting handler, the
`j`-th write transfers `k` more bytes, its completion handler runs, or it fails. -/
inductive Action where
  | post
  | start (i : ℕ)
  | advance (j k : ℕ)
  | complete (j : ℕ)
  | fail (j : ℕ)

/-- One action. A write fails only once the send side is shut, and then nothing more is sent. -/
def step (s : StreamState) : Action → Option StreamState
  | .post =>
    match s.todo with
    | [] => none
    | h :: todo => some { s with todo := todo, ready := s.ready ++ [h] }
  | .start i =>
    match s.ready[i]? with
    | none => none
    | some h => some
        { s with ready := s.ready.eraseIdx i, writes := s.writes ++ h.map Send.start }
  | .advance j k =>
    match s.writes[j]? with
    | none => none
    | some w =>
      if s.shut = false ∧ 0 < k ∧ k ≤ w.rest.length then some
        { s with
          writes := s.writes.set j { w with rest := w.rest.drop k }
          out := s.out ++ w.rest.take k }
      else none
  | .complete j =>
    match s.writes[j]? with
    | none => none
    | some w =>
      if w.rest = [] then some
        { s with writes := s.writes.eraseIdx j, shut := s.shut || w.done }
      else none
  | .fail j =>
    match s.writes[j]? with
    | none => none
    | some _ =>
      if s.shut = true then some { s with writes := s.writes.eraseIdx j }
      else none

/-! ## What an action needs, and what it does -/

section Actions

variable {s s' : StreamState} {i j k : ℕ}

/-- Posting makes the next handler ready. -/
theorem exists_of_step_post (hstep : step s .post = some s') :
    ∃ h todo, s.todo = h :: todo ∧ s' = { s with todo := todo, ready := s.ready ++ [h] } := by
  dsimp only [step] at hstep
  cases htodo : s.todo with
  | nil => simp [htodo] at hstep
  | cons h todo =>
    rw [htodo] at hstep
    exact ⟨h, todo, rfl, (Option.some.inj hstep).symm⟩

/-- Starting a ready handler begins its write. -/
theorem exists_of_step_start (hstep : step s (.start i) = some s') :
    ∃ h, s.ready[i]? = some h ∧
      s' = { s with ready := s.ready.eraseIdx i, writes := s.writes ++ h.map Send.start } := by
  dsimp only [step] at hstep
  cases hready : s.ready[i]? with
  | none => simp [hready] at hstep
  | some h =>
    rw [hready] at hstep
    exact ⟨h, rfl, (Option.some.inj hstep).symm⟩

/-- A write advances by some of its bytes while the socket is open. -/
theorem exists_of_step_advance (hstep : step s (.advance j k) = some s') :
    ∃ w, s.writes[j]? = some w ∧ (s.shut = false ∧ 0 < k ∧ k ≤ w.rest.length) ∧
      s' = { s with
        writes := s.writes.set j { w with rest := w.rest.drop k }
        out := s.out ++ w.rest.take k } := by
  dsimp only [step] at hstep
  cases hw : s.writes[j]? with
  | none => simp [hw] at hstep
  | some w =>
    rw [hw] at hstep
    obtain ⟨hguard, hsome⟩ := Option.ite_none_right_eq_some.mp hstep
    exact ⟨w, rfl, hguard, (Option.some.inj hsome).symm⟩

/-- A write completes when no byte is left, and the last one shuts the socket. -/
theorem exists_of_step_complete (hstep : step s (.complete j) = some s') :
    ∃ w, s.writes[j]? = some w ∧ w.rest = [] ∧
      s' = { s with writes := s.writes.eraseIdx j, shut := s.shut || w.done } := by
  dsimp only [step] at hstep
  cases hw : s.writes[j]? with
  | none => simp [hw] at hstep
  | some w =>
    rw [hw] at hstep
    obtain ⟨hrest, hsome⟩ := Option.ite_none_right_eq_some.mp hstep
    exact ⟨w, rfl, hrest, (Option.some.inj hsome).symm⟩

/-- A write fails once the socket is shut. -/
theorem exists_of_step_fail (hstep : step s (.fail j) = some s') :
    ∃ w, s.writes[j]? = some w ∧ s.shut = true ∧
      s' = { s with writes := s.writes.eraseIdx j } := by
  dsimp only [step] at hstep
  cases hw : s.writes[j]? with
  | none => simp [hw] at hstep
  | some w =>
    rw [hw] at hstep
    obtain ⟨hshut, hsome⟩ := Option.ite_none_right_eq_some.mp hstep
    exact ⟨w, rfl, hshut, (Option.some.inj hsome).symm⟩

end Actions

/-! ## The response -/

/-- The callbacks of one task: the texts, then the terminator. -/
def callbacks (cs : List Bytes) : List StreamCall := cs.map (⟨·, false⟩) ++ [⟨[], true⟩]

/-- The state in which the task starts. -/
def init (cs : List Bytes) : StreamState where
  todo := (callbacks cs).map StreamCall.handler

/-- The body of the response. -/
def response (cs : List Bytes) : Bytes :=
  (cs.map SseHandler.makeChunk).flatten ++ SseHandler.makeDoneChunk

/-- Nothing is left to do. -/
def Quiescent (s : StreamState) : Prop := s.todo = [] ∧ s.ready = [] ∧ s.writes = []

/-- The response so far is whole and in order: one write at a time, the bytes sent a prefix of the
response, all of it once nothing is left to do, and all of it when the send side is shut. -/
structure InOrder (cs : List Bytes) (s : StreamState) : Prop where
  one_write : s.writes.length ≤ 1
  out_prefix : s.out <+: response cs
  out_of_quiescent : s.Quiescent → s.out = response cs
  out_of_shut : s.shut = true → s.out = response cs

/-! ## The invariant -/

/-- The writes still to come, of the waiting handlers and of those not posted yet. -/
def pending (s : StreamState) : List PendingWrite :=
  s.writes ++ ((s.ready ++ s.todo).flatten).map Send.start

/-- The last of the writes, and no other, is the terminator's. -/
def LastDone (ws : List PendingWrite) : Prop :=
  ∃ init last, ws = init ++ [last] ∧ last.done = true ∧ ∀ w ∈ init, w.done = false

/-- The last of the writes, one write at a time. -/
theorem lastDone_cons_iff (w : PendingWrite) (ws : List PendingWrite) :
    LastDone (w :: ws) ↔ ws = [] ∧ w.done = true ∨ w.done = false ∧ LastDone ws := by
  constructor
  · rintro ⟨init, last, heq, hlast, hinit⟩
    cases init with
    | nil =>
      obtain ⟨rfl, rfl⟩ := List.cons.inj heq
      exact .inl ⟨rfl, hlast⟩
    | cons v init =>
      obtain ⟨rfl, rfl⟩ := List.cons.inj heq
      exact .inr ⟨hinit w (by simp), init, last, rfl, hlast, fun u hu => hinit u (by simp [hu])⟩
  · rintro (⟨rfl, hw⟩ | ⟨hw, init, last, rfl, hlast, hinit⟩)
    · exact ⟨[], w, rfl, hw, by simp⟩
    · exact ⟨w :: init, last, rfl, hlast, by simpa [hw] using hinit⟩

/-- What holds as long as every handler is started in its turn: the bytes sent and those pending
are the response, every handler makes one send, and only the last pending write is the
terminator's, until it has shut the send side. -/
structure Inv (cs : List Bytes) (s : StreamState) : Prop where
  one_write : s.writes.length ≤ 1
  handlers : ∀ h ∈ s.ready ++ s.todo, ∃ c, h = [c]
  bytes : s.out ++ (s.pending.map PendingWrite.rest).flatten = response cs
  open_pending : s.shut = false → LastDone s.pending
  shut_pending : s.shut = true → s.pending = []

/-- A handler is started in its turn: the oldest one, when no write is under way. -/
def InTurn (s : StreamState) : Action → Prop
  | .start i => i = 0 ∧ s.writes = []
  | _ => True

instance (s : StreamState) (a : Action) : Decidable (InTurn s a) :=
  match a with
  | .start i => inferInstanceAs (Decidable (i = 0 ∧ s.writes = []))
  | .post | .advance .. | .complete _ | .fail _ => isTrue trivial

/-- The invariant holds at the start. -/
theorem inv_init (cs : List Bytes) : Inv cs (init cs) := by
  have hpending : (init cs).pending
      = cs.map (fun c => ⟨SseHandler.makeChunk c, false⟩) ++
        [⟨SseHandler.makeDoneChunk, true⟩] := by
    rw [pending, init, List.nil_append, List.nil_append, flatten_map_handler]
    simp [callbacks, Send.start, Send.bytes, Function.comp_def]
  refine ⟨by simp [init], ?_, ?_, fun _ => ⟨_, _, hpending, rfl, ?_⟩, by simp [init]⟩
  · intro h hh
    obtain ⟨c, -, rfl⟩ := List.mem_map.mp (by simpa [init] using hh)
    exact ⟨_, rfl⟩
  · rw [hpending]
    simp [init, response, Function.comp_def]
  · intro w hw
    obtain ⟨c, -, rfl⟩ := List.mem_map.mp hw
    rfl

section Preservation

variable {cs : List Bytes} {s s' : StreamState}

/-- A write under way comes before everything else that is pending. -/
theorem pending_of_writes {w : PendingWrite} (hwrites : s.writes = [w]) :
    s.pending = w :: ((s.ready ++ s.todo).flatten).map Send.start := by
  rw [pending, hwrites]
  rfl

/-- While a write is under way, it is the only one. -/
theorem Inv.writes_eq (h : Inv cs s) {j : ℕ} {w : PendingWrite} (hw : s.writes[j]? = some w) :
    j = 0 ∧ s.writes = [w] := by
  have hone := h.one_write
  match hs : s.writes with
  | [] => simp [hs] at hw
  | [v] =>
    rw [hs] at hw
    cases j with
    | zero => exact ⟨rfl, by simpa using hw⟩
    | succ j => simp at hw
  | _ :: _ :: _ => simp [hs] at hone

/-- While something is under way, the send side is open. -/
theorem Inv.shut_eq_false (h : Inv cs s) {w : PendingWrite} (hwrites : s.writes = [w]) :
    s.shut = false := by
  by_contra hshut
  have hnil := h.shut_pending (by simpa using hshut)
  rw [pending_of_writes hwrites] at hnil
  cases hnil

/-- A step that sends nothing and leaves what is pending in its order. -/
theorem Inv.of_pending_eq (h : Inv cs s) (hone : s'.writes.length ≤ 1)
    (hhandlers : ∀ g ∈ s'.ready ++ s'.todo, ∃ c, g = [c]) (hpending : s'.pending = s.pending)
    (hout : s'.out = s.out) (hshut : s'.shut = s.shut) : Inv cs s' where
  one_write := hone
  handlers := hhandlers
  bytes := by rw [hout, hpending, h.bytes]
  open_pending hopen := hpending ▸ h.open_pending (hshut.symm.trans hopen)
  shut_pending hclosed := hpending ▸ h.shut_pending (hshut.symm.trans hclosed)

/-- A handler is posted, and keeps its place in the order. -/
theorem inv_post {h : PostedHandler} {todo : List PostedHandler} (hinv : Inv cs s)
    (htodo : s.todo = h :: todo) : Inv cs { s with todo := todo, ready := s.ready ++ [h] } := by
  have hlist : s.ready ++ [h] ++ todo = s.ready ++ s.todo := by simp [htodo]
  refine hinv.of_pending_eq hinv.one_write ?_ ?_ rfl rfl
  · simpa only [hlist] using hinv.handlers
  · simp only [pending, hlist]

/-- In its turn a handler finds nothing under way, and starts one write. -/
theorem inv_start {h : PostedHandler} {ready : List PostedHandler} (hinv : Inv cs s)
    (hwrites : s.writes = []) (hready : s.ready = h :: ready) :
    Inv cs { s with ready := ready, writes := s.writes ++ h.map Send.start } := by
  obtain ⟨c, rfl⟩ := hinv.handlers h (by simp [hready])
  refine hinv.of_pending_eq (by simp [hwrites]) ?_ ?_ rfl rfl
  · intro g hg
    apply hinv.handlers g
    rw [hready]
    exact List.mem_cons_of_mem [c] hg
  · simp [pending, hwrites, hready]

/-- What leaves the write has reached the wire. -/
theorem inv_advance {w : PendingWrite} (hinv : Inv cs s) (hwrites : s.writes = [w]) (k : ℕ) :
    Inv cs { s with
      writes := [{ w with rest := w.rest.drop k }], out := s.out ++ w.rest.take k } where
  one_write := le_rfl
  handlers := hinv.handlers
  bytes := by
    have hbytes := hinv.bytes
    rw [pending_of_writes hwrites] at hbytes
    rw [pending_of_writes rfl, ← hbytes]
    simp only [List.map_cons, List.flatten_cons, List.append_assoc]
    rw [← List.append_assoc (w.rest.take k), List.take_append_drop]
  open_pending hopen := by
    have hlast := hinv.open_pending hopen
    rw [pending_of_writes hwrites, lastDone_cons_iff] at hlast
    rwa [pending_of_writes rfl, lastDone_cons_iff]
  shut_pending hclosed := by
    rw [hinv.shut_eq_false hwrites] at hclosed
    cases hclosed

/-- A write is over. That of the terminator was the last, and shuts the send side. -/
theorem inv_complete {w : PendingWrite} (hinv : Inv cs s) (hwrites : s.writes = [w])
    (hrest : w.rest = []) : Inv cs { s with writes := [], shut := s.shut || w.done } := by
  have hshut := hinv.shut_eq_false hwrites
  have hlast := hinv.open_pending hshut
  have hbytes := hinv.bytes
  rw [pending_of_writes hwrites, lastDone_cons_iff] at hlast
  rw [pending_of_writes hwrites, List.map_cons, List.flatten_cons, hrest, List.nil_append] at hbytes
  refine ⟨Nat.zero_le 1, hinv.handlers, hbytes, fun hopen => ?_, fun hclosed => ?_⟩
  · rcases hlast with ⟨-, hdone⟩ | ⟨-, hlast⟩
    · simp [hdone] at hopen
    · exact hlast
  · rcases hlast with ⟨hnil, -⟩ | ⟨hdone, -⟩
    · exact hnil
    · simp [hshut, hdone] at hclosed

/-- **One action in turn keeps the invariant.** -/
theorem inv_step (s : StreamState) (a : Action) (s' : StreamState) (hinv : Inv cs s)
    (hturn : InTurn s a) (hstep : step s a = some s') : Inv cs s' := by
  cases a with
  | post =>
    obtain ⟨h, todo, htodo, rfl⟩ := exists_of_step_post hstep
    exact inv_post hinv htodo
  | start i =>
    obtain ⟨rfl, hwrites⟩ := hturn
    obtain ⟨h, hfirst, rfl⟩ := exists_of_step_start hstep
    rw [← List.head?_eq_getElem?] at hfirst
    obtain ⟨ready, hready⟩ := List.head?_eq_some_iff.mp hfirst
    rw [hready, List.eraseIdx_cons_zero]
    exact inv_start hinv hwrites hready
  | advance j k =>
    obtain ⟨w, hw, -, rfl⟩ := exists_of_step_advance hstep
    obtain ⟨rfl, hwrites⟩ := hinv.writes_eq hw
    rw [hwrites]
    exact inv_advance hinv hwrites k
  | complete j =>
    obtain ⟨w, hw, hrest, rfl⟩ := exists_of_step_complete hstep
    obtain ⟨rfl, hwrites⟩ := hinv.writes_eq hw
    rw [hwrites]
    exact inv_complete hinv hwrites hrest
  | fail j =>
    -- no write is under way once the send side is shut
    obtain ⟨w, hw, hshut, -⟩ := exists_of_step_fail hstep
    obtain ⟨-, hwrites⟩ := hinv.writes_eq hw
    rw [hinv.shut_eq_false hwrites] at hshut
    cases hshut

end Preservation

/-- The invariant says that the response so far is whole and in order. -/
theorem Inv.inOrder {cs : List Bytes} {s : StreamState} (h : Inv cs s) : InOrder cs s where
  one_write := h.one_write
  out_prefix := ⟨_, h.bytes⟩
  out_of_quiescent hq := by
    have hbytes := h.bytes
    obtain ⟨htodo, hready, hwrites⟩ := hq
    simpa [pending, htodo, hready, hwrites] using hbytes
  out_of_shut hshut := by
    have hbytes := h.bytes
    simpa [h.shut_pending hshut] using hbytes

/-- **When streamed bytes arrive whole and in order.** For every list of texts and every schedule
that starts each handler in its turn, in every state that it reaches: one write is under way at
most, the bytes sent are those of the response from its start, and the send side is shut only
after all of them. -/
theorem written_in_order {cs : List Bytes} {as : List Action} {s : StreamState}
    (hturns : Respects step InTurn (init cs) as) (hrun : run step (init cs) as = some s) :
    InOrder cs s :=
  (invariant_run inv_step (inv_init cs) hturns hrun).inOrder

/-- One text, with its frame written in two parts. -/
theorem written_in_order_one_text :
    InOrder [utf8 "a"] { todo := [], out := response [utf8 "a"], shut := true } :=
  @written_in_order [utf8 "a"]
    [.post, .start 0, .advance 0 4, .post, .advance 0 5, .complete 0, .start 0, .advance 0 14,
      .complete 0]
    _ (by decide +kernel) (by decide +kernel)

/-- Two threads take the handlers of two texts at once: their frames are mixed on the socket. -/
theorem not_inOrder_two_threads :
    ∃ s, run step (init [utf8 "a", utf8 "b"])
        [.post, .post, .start 0, .start 0, .advance 0 3, .advance 1 3] = some s ∧
      s.out = utf8 "datdat" ∧ ¬ InOrder [utf8 "a", utf8 "b"] s := by
  refine ⟨_, rfl, by decide +kernel, fun h => ?_⟩
  exact absurd h.one_write (by decide +kernel)

end StreamState

end AiSwitch

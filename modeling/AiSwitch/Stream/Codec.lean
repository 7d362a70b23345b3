import AiSwitch.Stream.SseHandler

/-!
# Framing and unframing a text

`make_chunk` splices a text between `data: ` and `\n\n`; `feed` takes such frames apart. A text
that holds `\n\n`, ends in `\n` or is `[DONE]` does not come back. No list of texts with such a
member comes back as the same concatenation either (`relay_iff`): every newline pair that a cut
consumes beyond the one of the frame loses two newlines for good, and where no newline is lost,
a newline left over from one frame keeps the next frame's `data: ` in the text, which only adds
bytes.
-/

namespace AiSwitch.SseHandler

open ByteString Delimited

/-- A text that comes back from its frame. -/
def Clean (p : Bytes) : Prop := ¬ nlnl.toList <:+: p ∧ ¬ [nl] <:+ p ∧ p ≠ doneMarker

instance : DecidablePred Clean := fun p => inferInstanceAs
  (Decidable (¬ nlnl.toList <:+: p ∧ ¬ [nl] <:+ p ∧ p ≠ doneMarker))

/-- The text of the messages that some blocks yield. -/
def messageText (bs : List Bytes) : Bytes := (bs.filterMap framer.emit).flatten

/-- The end of a stream is a frame as well. -/
theorem makeDoneChunk_eq : makeDoneChunk = makeChunk doneMarker := by decide

/-! ## Blocks and stripping -/

/-- A frame without its first word is its payload. -/
theorem strip_dataPrefix (p : Bytes) : strip (dataPrefix ++ p) = p := by
  rw [strip, if_pos (List.prefix_append _ _), List.drop_left]

/-- A block that begins with a line end has no first word. -/
theorem strip_nl_cons (b : Bytes) : strip (nl :: b) = nl :: b := by
  rw [strip, if_neg]
  intro h
  rw [dataPrefix_eq, List.cons_prefix_cons] at h
  exact absurd h.1 (by decide)

/-- Stripping removes no newline. -/
theorem count_strip (b : Bytes) : (strip b).count nl = b.count nl := by
  rw [strip]
  split
  · rename_i h
    obtain ⟨t, rfl⟩ := h
    rw [List.drop_left, List.count_append]
    have : dataPrefix.count nl = 0 := by decide
    omega
  · rfl

/-- A block between two `\n\n` holds no `\n\n` and does not end in `\n`. -/
theorem isBlock_nlnl_iff (b : Bytes) : IsBlock nlnl b ↔ ¬ nlnl.toList <:+: b ∧ ¬ [nl] <:+ b := by
  constructor
  · intro h
    refine ⟨fun hin => ?_, fun hsuf => ?_⟩
    · cases hfind : find nlnl.toList b with
      | none => exact find_eq_none_iff.mp hfind hin
      | some q =>
        have hlen := find_add_length_le hfind nlnl.ne_nil
        have happ := find_append hfind nlnl.ne_nil nlnl.toList
        rw [IsBlock, happ, Option.some.injEq] at h
        simp only [nlnl, List.length_cons, List.length_nil] at hlen
        omega
    · obtain ⟨x, rfl⟩ := hsuf
      refine not_prefix_drop_of_lt_find (q := x.length) h (by simp) ?_
      rw [List.append_assoc, List.drop_left]
      exact ⟨[nl], rfl⟩
  · rintro ⟨hin, hsuf⟩
    refine find_eq_some (by simp) (by rw [List.drop_left]) ?_
    intro q hq hocc
    rw [List.drop_append_of_le_length hq.le] at hocc
    -- the occurrence starts inside `b`: it lies in `b`, or `b` ends in its first newline
    rcases hdrop : b.drop q with _ | ⟨x, _ | ⟨y, rest⟩⟩
    · rw [List.drop_eq_nil_iff] at hdrop
      omega
    · rw [hdrop] at hocc
      have hx : nl = x := (List.cons_prefix_cons.mp hocc).1
      exact hsuf (hx ▸ hdrop ▸ List.drop_suffix q b)
    · rw [hdrop] at hocc
      obtain ⟨hx, hocc⟩ := List.cons_prefix_cons.mp hocc
      obtain ⟨hy, -⟩ := List.cons_prefix_cons.mp hocc
      refine hin (List.IsInfix.trans ?_ (List.drop_suffix q b).isInfix)
      rw [hdrop, ← hx, ← hy]
      exact (List.prefix_append [nl, nl] rest).isInfix

/-- A frame is a block of the stream exactly when its text neither holds `\n\n` nor ends in
`\n`: the `data: ` in front takes no part in an occurrence. -/
theorem isBlock_frame_iff (p : Bytes) :
    IsBlock nlnl (dataPrefix ++ p) ↔ ¬ nlnl.toList <:+: p ∧ ¬ [nl] <:+ p := by
  rw [isBlock_nlnl_iff]
  refine and_congr (not_congr ?_) (not_congr ?_)
  · rw [dataPrefix_eq]
    simp only [nlnl, List.cons_append, List.nil_append, List.infix_cons_iff, List.cons_prefix_cons]
    simp [nl]
  · constructor
    · intro h
      rcases p with _ | ⟨a, p⟩
      · rw [dataPrefix_eq] at h
        obtain ⟨x, hx⟩ := h
        simpa [nl] using congrArg List.getLast? hx
      · exact List.suffix_of_suffix_length_le h (List.suffix_append _ _) (by simp)
    · exact fun h => h.trans (List.suffix_append _ _)

/-! ## Newlines and lengths along a cut -/

/-- Every block takes the two newlines of its separator, and no byte is lost otherwise. -/
theorem count_cut (s : Bytes) :
    (cut nlnl s).1.flatten.count nl + 2 * (cut nlnl s).1.length + (cut nlnl s).2.count nl
      = s.count nl := by
  have hjoin : ∀ bs : List Bytes, ((bs.map (· ++ nlnl.toList)).flatten).count nl
      = bs.flatten.count nl + 2 * bs.length := by
    intro bs
    induction bs with
    | nil => rfl
    | cons b bs ih =>
      have hsep : nlnl.toList.count nl = 2 := by decide
      simp only [List.map_cons, List.flatten_cons, List.count_append, List.length_cons, ih, hsep]
      omega
  have h := congrArg (List.count nl) (flatten_cut nlnl s)
  rw [List.count_append, hjoin] at h
  exact h

/-- The messages hold all the newlines of their blocks: the dropped blocks hold none. -/
theorem count_messageText (bs : List Bytes) :
    (messageText bs).count nl = bs.flatten.count nl := by
  induction bs with
  | nil => rfl
  | cons b bs ih =>
    rw [messageText, filterMap_emit] at ih ⊢
    rw [List.map_cons, List.filter_cons, List.flatten_cons, List.count_append, ← ih,
      ← count_strip b]
    split
    · rw [List.flatten_cons, List.count_append]
    · rename_i h
      have hzero : (strip b).count nl = 0 := by
        by_cases hnil : strip b = []
        · rw [hnil]; rfl
        · have hmark : strip b = doneMarker := by simpa [hnil] using h
          rw [hmark]; decide
      omega

/-- After a string that ends in a separator, at most one newline is left over. -/
theorem cut_snd_of_sep (s : Bytes) :
    (cut nlnl (s ++ nlnl.toList)).2 = [] ∨ (cut nlnl (s ++ nlnl.toList)).2 = [nl] := by
  have hsuf : (cut nlnl (s ++ nlnl.toList)).2 <:+ s ++ nlnl.toList :=
    ⟨_, flatten_cut nlnl (s ++ nlnl.toList)⟩
  have hnone := find_eq_none_iff.mp (find_cut_snd nlnl (s ++ nlnl.toList))
  match hrem : (cut nlnl (s ++ nlnl.toList)).2 with
  | [] => exact .inl rfl
  | [x] =>
    rw [hrem] at hsuf
    have hx : [x] <:+ nlnl.toList :=
      List.suffix_of_suffix_length_le hsuf (List.suffix_append _ _) (by simp [nlnl])
    obtain ⟨y, hy⟩ := hx
    have hlast := congrArg List.getLast? hy
    simp [nlnl] at hlast
    exact .inr (by rw [hlast])
  | x :: y :: rest =>
    rw [hrem] at hsuf hnone
    exact absurd (List.suffix_of_suffix_length_le (List.suffix_append _ _) hsuf
      (by simp [nlnl])).isInfix hnone

/-- A string that ends in a separator has a block. -/
theorem cut_fst_ne_nil (s : Bytes) : (cut nlnl (s ++ nlnl.toList)).1 ≠ [] := by
  intro h
  have hjoin := flatten_cut nlnl (s ++ nlnl.toList)
  have hnone := find_eq_none_iff.mp (find_cut_snd nlnl (s ++ nlnl.toList))
  rw [h] at hjoin
  simp only [List.map_nil, List.flatten_nil, List.nil_append] at hjoin
  rw [hjoin] at hnone
  exact hnone (List.suffix_append _ _).isInfix

/-! ## One frame after a leftover newline -/

/-- The messages of two lists of blocks come one after another. -/
theorem messageText_append (bs bs' : List Bytes) :
    messageText (bs ++ bs') = messageText bs ++ messageText bs' := by
  rw [messageText, List.filterMap_append, List.flatten_append]
  rfl

/-- A block that is not the end marker yields its stripped text, possibly empty. -/
theorem messageText_singleton {b : Bytes} (hmark : strip b ≠ doneMarker) :
    messageText [b] = strip b := by
  rw [messageText, filterMap_emit]
  by_cases hnil : strip b = [] <;> simp [hnil, hmark]

/-- A frame adds two line ends to those of its payload. -/
theorem count_frame (r p : Bytes) :
    (r ++ makeChunk p).count nl = r.count nl + p.count nl + 2 := by
  have hpre : dataPrefix.count nl = 0 := by decide
  have hsep : nlnl.toList.count nl = 2 := by decide
  simp only [makeChunk, List.count_append, hpre, hsep]
  omega

/-- A frame ends in an empty line. -/
theorem append_makeChunk (r p : Bytes) :
    r ++ makeChunk p = (r ++ dataPrefix ++ p) ++ nlnl.toList := by
  simp [makeChunk]

/-- Cutting one frame: there is a block, at most one newline is left over, and every block after the
first has cost the text two newlines. -/
theorem exists_cut_frame (r p : Bytes) :
    ∃ b bs r', cut nlnl (r ++ makeChunk p) = (b :: bs, r') ∧ (r' = [] ∨ r' = [nl]) ∧
      (messageText (b :: bs)).count nl + 2 * bs.length + r'.count nl
        = r.count nl + p.count nl := by
  obtain ⟨bs, r', hcut⟩ : ∃ bs r', cut nlnl (r ++ makeChunk p) = (bs, r') := ⟨_, _, rfl⟩
  have hr' := cut_snd_of_sep (r ++ dataPrefix ++ p)
  have hne := cut_fst_ne_nil (r ++ dataPrefix ++ p)
  rw [← append_makeChunk, hcut] at hr' hne
  have hcount := count_cut (r ++ makeChunk p)
  rw [hcut, count_frame, ← count_messageText] at hcount
  obtain ⟨b, bs, rfl⟩ := List.exists_cons_of_ne_nil hne
  simp only [List.length_cons] at hcount
  exact ⟨b, bs, r', hcut, hr', by omega⟩

/-- A frame that is one block and takes its separator has a clean text. -/
theorem clean_of_cut_frame {p b : Bytes} (hcut : cut nlnl (makeChunk p) = ([b], []))
    (hmark : strip b ≠ doneMarker) : b = dataPrefix ++ p ∧ Clean p := by
  have hb : b = dataPrefix ++ p := by
    have hjoin := flatten_cut nlnl (makeChunk p)
    rw [hcut, List.map_singleton, List.flatten_singleton, List.append_nil, makeChunk] at hjoin
    exact List.append_cancel_right hjoin
  have hblock : IsBlock nlnl b := isBlock_of_mem_cut (s := makeChunk p) (by simp [hcut])
  obtain ⟨hin, hsuf⟩ := (isBlock_frame_iff p).mp (hb ▸ hblock)
  exact ⟨hb, hin, hsuf, by rwa [hb, strip_dataPrefix] at hmark⟩

/-- A frame that stays one block keeps the length of its text, up to the newline it leaves over;
after a leftover newline it gains the six bytes of its own `data: `. -/
theorem length_single_block {r p b r' : Bytes} (hr : r = [] ∨ r = [nl])
    (hcut : cut nlnl (r ++ makeChunk p) = ([b], r')) (hmark : strip b ≠ doneMarker) :
    (messageText [b]).length + r'.length = r.length + p.length + if r = [] then 0 else 6 := by
  have hjoin := flatten_cut nlnl (r ++ makeChunk p)
  have hcount := count_cut (r ++ makeChunk p)
  rw [hcut] at hjoin hcount
  simp only [List.map_cons, List.map_nil, List.flatten_cons, List.flatten_nil, List.append_nil,
    makeChunk] at hjoin hcount
  have hlen := congrArg List.length hjoin
  have hpre : dataPrefix.length = 6 := by decide
  simp only [List.length_append, hpre] at hlen
  rw [messageText_singleton hmark]
  rcases hr with rfl | rfl
  · -- nothing was left over: the block begins with the prefix of the frame, which is stripped
    have hr' : r' = [] ∨ r' = [nl] := by
      have := cut_snd_of_sep ([] ++ dataPrefix ++ p)
      rwa [← append_makeChunk, hcut] at this
    have hlong : 6 ≤ b.length := by
      have := count_frame [] p
      simp only [makeChunk] at this
      rcases p with _ | ⟨a, p⟩
      · rcases hr' with rfl | rfl
        · simp at hlen; omega
        · simp at this hcount; omega
      · rcases hr' with rfl | rfl <;> simp at hlen <;> omega
    have hstrip : dataPrefix <+: b :=
      List.prefix_of_prefix_length_le
        (show dataPrefix <+: b ++ nlnl.toList ++ r' from ⟨p ++ nlnl.toList, by rw [hjoin]; simp⟩)
        ⟨nlnl.toList ++ r', by simp⟩ (by omega)
    rw [strip, if_pos hstrip, List.length_drop, hpre, if_pos rfl]
    simp only [List.length_nil] at hlen ⊢
    omega
  · -- the block begins with the leftover newline, and the prefix stays
    rcases b with _ | ⟨a, b⟩
    · rw [dataPrefix_eq] at hjoin
      simp [nlnl, nl] at hjoin
    · have ha : a = nl := by simpa using congrArg List.head? hjoin
      subst ha
      rw [strip_nl_cons, if_neg (by simp)]
      simp only [List.length_cons, List.length_nil] at hlen ⊢
      omega

/-! ## A list of frames -/

/-- The bytes that carry the texts `ps`. -/
def encode (ps : List Bytes) : Bytes := (ps.map makeChunk).flatten

/-- A stream begins with its first frame. -/
theorem encode_cons (p : Bytes) (ps : List Bytes) :
    encode (p :: ps) = makeChunk p ++ encode ps := rfl

/-- A stream is cut frame by frame. -/
theorem cut_encode_cons (r p : Bytes) (ps : List Bytes) :
    cut nlnl (r ++ encode (p :: ps))
      = ((cut nlnl (r ++ makeChunk p)).1
          ++ (cut nlnl ((cut nlnl (r ++ makeChunk p)).2 ++ encode ps)).1,
        (cut nlnl ((cut nlnl (r ++ makeChunk p)).2 ++ encode ps)).2) := by
  rw [encode_cons, ← List.append_assoc, cut_append]

/-- **Damages do not cancel.** After at most one leftover newline, a list of frames yields a text
with fewer newlines than were sent, or with as many and at least as many bytes (more, if there
was a leftover newline and a frame to keep its prefix). -/
theorem fewer_newlines_or_longer (ps : List Bytes) (r : Bytes) (hr : r = [] ∨ r = [nl])
    (hmark : ∀ b ∈ (cut nlnl (r ++ encode ps)).1, strip b ≠ doneMarker) :
    (messageText (cut nlnl (r ++ encode ps)).1).count nl + (cut nlnl (r ++ encode ps)).2.count nl
        < r.count nl + ps.flatten.count nl ∨
      (messageText (cut nlnl (r ++ encode ps)).1).count nl
          + (cut nlnl (r ++ encode ps)).2.count nl = r.count nl + ps.flatten.count nl ∧
        r.length + ps.flatten.length + (if r = [] ∨ ps = [] then 0 else 6)
          ≤ (messageText (cut nlnl (r ++ encode ps)).1).length
            + (cut nlnl (r ++ encode ps)).2.length := by
  induction ps generalizing r with
  | nil =>
    have hcut : cut nlnl (r ++ encode []) = ([], r) := by
      rw [show r ++ encode [] = r by simp [encode]]
      exact cut_of_none (by rcases hr with rfl | rfl <;> decide)
    rw [hcut]
    right
    simp [messageText]
  | cons p ps ih =>
    rw [cut_encode_cons] at hmark ⊢
    obtain ⟨b, bs, r', hcut, hr', hcount⟩ := exists_cut_frame r p
    rw [hcut] at hmark ⊢
    simp only [List.mem_append] at hmark
    simp only [messageText_append, List.count_append, List.length_append, List.flatten_cons]
    have hrest := ih r' hr' (fun b hb => hmark b (.inr hb))
    cases bs with
    | cons b' bs =>
      -- a second cut inside the frame: two newlines are gone
      left
      simp only [List.length_cons] at hcount
      omega
    | nil =>
      -- one cut: no newline is gone, and the length tells whether one was left over
      have hlen := length_single_block hr hcut (hmark b (.inl (by simp)))
      simp only [List.length_nil] at hcount
      rcases hrest with hrest | ⟨hrest, hlonger⟩
      · left
        omega
      · right
        refine ⟨by omega, ?_⟩
        have hmore : (if r = [] ∨ p :: ps = [] then 0 else 6) = if r = [] then 0 else 6 := by
          simp
        rw [hmore]
        omega

/-- Frames that are blocks are cut into themselves. -/
theorem cut_encode {ps : List Bytes} (hps : ∀ p ∈ ps, IsBlock nlnl (dataPrefix ++ p)) :
    cut nlnl (encode ps) = (ps.map (dataPrefix ++ ·), []) := by
  induction ps with
  | nil => simp [encode]
  | cons p ps ih =>
    rw [encode_cons, makeChunk, cut_block (hps p (by simp)), ih fun q hq => hps q (by simp [hq])]
    rfl

/-- A clean payload is one block. -/
theorem Clean.isBlock {p : Bytes} (hp : Clean p) : IsBlock nlnl (dataPrefix ++ p) :=
  (isBlock_frame_iff p).mpr ⟨hp.1, hp.2.1⟩

/-- Clean texts come back as they were sent. -/
theorem cut_encode_of_clean {ps : List Bytes} (hps : ∀ p ∈ ps, Clean p) :
    messageText (cut nlnl (encode ps)).1 = ps.flatten ∧ (cut nlnl (encode ps)).2 = [] ∧
      ∀ b ∈ (cut nlnl (encode ps)).1, strip b ≠ doneMarker := by
  rw [cut_encode fun p hp => (hps p hp).isBlock]
  refine ⟨?_, rfl, ?_⟩
  · induction ps with
    | nil => rfl
    | cons p ps ih =>
      have hstrip : strip (dataPrefix ++ p) ≠ doneMarker := by
        rw [strip_dataPrefix]
        exact (hps p (by simp)).2.2
      have hcons := messageText_append [dataPrefix ++ p] (ps.map (dataPrefix ++ ·))
      rw [messageText_singleton hstrip, strip_dataPrefix,
        ih fun q hq => hps q (by simp [hq])] at hcons
      exact hcons
  · intro b hb
    obtain ⟨p, hp, rfl⟩ := List.mem_map.mp hb
    rw [strip_dataPrefix]
    exact (hps p hp).2.2

/-- The payloads of frames are what they were made of. -/
theorem map_strip_frames (ps : List Bytes) : (ps.map (dataPrefix ++ ·)).map strip = ps := by
  rw [List.map_map]
  exact (List.map_congr_left fun p _ => strip_dataPrefix p).trans (List.map_id ps)

/-- Clean texts come out of their blocks, but for the empty ones. -/
theorem filterMap_emit_frames {ps : List Bytes} (hps : ∀ p ∈ ps, Clean p) :
    (ps.map (dataPrefix ++ ·)).filterMap framer.emit = ps.filter (· ≠ []) := by
  rw [filterMap_emit, map_strip_frames]
  refine List.filter_congr fun p hp => ?_
  simp [(hps p hp).2.2]

/-- The blocks of a whole stream of clean texts: one for each, and the end marker. -/
theorem cut_stream {ps : List Bytes} (hps : ∀ p ∈ ps, Clean p) :
    cut nlnl (encode ps ++ makeDoneChunk)
      = (ps.map (dataPrefix ++ ·) ++ [dataPrefix ++ doneMarker], []) := by
  have hframes : ∀ p ∈ ps ++ [doneMarker], IsBlock nlnl (dataPrefix ++ p) := by
    intro p hp
    rcases List.mem_append.mp hp with hp | hp
    · exact (hps p hp).isBlock
    · rw [List.mem_singleton.mp hp, isBlock_frame_iff]
      decide
  have hblocks := cut_encode hframes
  rw [makeDoneChunk_eq]
  simpa [encode] using hblocks

/-- A stream with its end frame has ended. -/
theorem ended_stream {ps : List Bytes} (hps : ∀ p ∈ ps, Clean p) :
    Ended (encode ps ++ makeDoneChunk) := by
  rw [Ended, cut_stream hps]
  exact ⟨dataPrefix ++ doneMarker, by simp, strip_dataPrefix _⟩

/-- No beginning of the stream ends it but all of it: the end marker is its last block. -/
theorem eq_stream_of_ended {ps : List Bytes} {s : Bytes} (hps : ∀ p ∈ ps, Clean p)
    (h : s <+: encode ps ++ makeDoneChunk) (hs : Ended s) : s = encode ps ++ makeDoneChunk := by
  refine eq_of_cut_fst_eq h (by rw [cut_stream hps]) ?_
  have hprefix := prefix_cut_fst nlnl h
  rw [cut_stream hps] at hprefix ⊢
  rcases List.prefix_concat_iff.mp hprefix with hall | hbefore
  · exact hall
  · obtain ⟨b, hb, hmarker⟩ := hs
    obtain ⟨p, hp, rfl⟩ := List.mem_map.mp (hbefore.subset hb)
    rw [strip_dataPrefix] at hmarker
    exact absurd hmarker (hps p hp).2.2

/-- A text that is not clean damages the whole list. -/
theorem clean_of_messageText_eq {ps : List Bytes}
    (hmark : ∀ b ∈ (cut nlnl (encode ps)).1, strip b ≠ doneMarker)
    (hrem : (cut nlnl (encode ps)).2 = [])
    (htext : messageText (cut nlnl (encode ps)).1 = ps.flatten) : ∀ p ∈ ps, Clean p := by
  induction ps with
  | nil => simp
  | cons p ps ih =>
    obtain ⟨b, bs, r, hcut, hr, hcount⟩ := exists_cut_frame [] p
    rw [List.nil_append] at hcut
    have hcutAll := cut_encode_cons [] p ps
    rw [List.nil_append, List.nil_append, hcut] at hcutAll
    rw [hcutAll] at hmark hrem htext
    simp only [List.mem_append] at hmark hrem htext
    have hrest := fewer_newlines_or_longer ps r hr fun b hb => hmark b (.inr hb)
    rw [hrem] at hrest
    have hcountText := congrArg (List.count nl) htext
    have hlenText := congrArg List.length htext
    rw [messageText_append] at hcountText hlenText
    simp only [List.count_append, List.length_append, List.flatten_cons, List.count_nil,
      List.length_nil] at hcount hrest hcountText hlenText
    cases bs with
    | cons b' bs =>
      -- the newlines of the second cut are gone, and no later frame brings them back
      simp only [List.length_cons] at hcount
      omega
    | nil =>
      have hstrip : strip b ≠ doneMarker := hmark b (.inl (by simp))
      rcases hr with rfl | rfl
      · obtain ⟨rfl, hp⟩ := clean_of_cut_frame hcut hstrip
        rw [List.nil_append] at hmark hrem htext
        rw [messageText_append, messageText_singleton hstrip, strip_dataPrefix,
          List.flatten_cons] at htext
        have htail := ih (fun c hc => hmark c (.inr hc)) hrem (List.append_cancel_left htext)
        exact List.forall_mem_cons.mpr ⟨hp, htail⟩
      · -- a newline is left over: the next frame pays for it with six bytes, or it stays
        have hlen := length_single_block (r := []) (.inl rfl) hcut hstrip
        rcases ps with _ | ⟨p', ps⟩
        · exact absurd hrem (by rw [show [nl] ++ encode [] = [nl] from rfl]; decide +kernel)
        · exfalso
          have hpay : (if [nl] = [] ∨ p' :: ps = [] then 0 else 6) = 6 := by simp
          have hone : [nl].count nl = 1 := by decide
          rw [hpay] at hrest
          simp only [hone, List.length_singleton, List.length_nil, if_pos] at hlen hcount hrest
          omega

/-! ## Relaying -/

/-- To be fed frame by frame is to be fed the stream. -/
theorem feedAll_map_makeChunk (ps : List Bytes) :
    feedAll {} (ps.map makeChunk) = feed {} (encode ps) :=
  feedAll_eq_feed (by decide) _

/-- After a leftover newline the end marker is not recognised; after nothing it is. -/
theorem feed_makeDoneChunk {h : SseHandler} (hdone : h.done = false)
    (hbuf : h.buffer = [] ∨ h.buffer = [nl]) :
    (h.feed makeDoneChunk).2.isDone = true ↔ h.buffer = [] := by
  obtain ⟨buffer, done⟩ := h
  simp only at hdone hbuf
  rcases hbuf with rfl | rfl
  · subst hdone
    decide +kernel
  · subst hdone
    decide +kernel

/-- **Which texts are relayed unchanged.** The texts `ps`, framed one by one and followed by the
end frame, come back as the same concatenation, with the end flag raised by the end frame and by
nothing before it, exactly when every one of them is clean. -/
theorem relay_iff (ps : List Bytes) :
    (((feedAll {} (ps.map makeChunk)).1
          ++ ((feedAll {} (ps.map makeChunk)).2.feed makeDoneChunk).1).flatten = ps.flatten ∧
        (feedAll {} (ps.map makeChunk)).2.isDone = false ∧
        ((feedAll {} (ps.map makeChunk)).2.feed makeDoneChunk).2.isDone = true)
      ↔ ∀ p ∈ ps, Clean p := by
  have hfeed : feed {} (encode ps) = ((cut nlnl (encode ps)).1.filterMap framer.emit,
      ⟨(cut nlnl (encode ps)).2, (cut nlnl (encode ps)).1.any framer.mark⟩) := by
    rw [feed, feedLoop_eq]
    rfl
  have hmark : (cut nlnl (encode ps)).1.any framer.mark = false
      ↔ ∀ b ∈ (cut nlnl (encode ps)).1, strip b ≠ doneMarker := by
    simp [framer]
  have hnone : (feed ⟨[], false⟩ makeDoneChunk).1 = [] := by decide +kernel
  rw [feedAll_map_makeChunk, hfeed]
  constructor
  · rintro ⟨htext, hbefore, hafter⟩
    rw [isDone] at hbefore
    have hbuf : (cut nlnl (encode ps)).2 = [] ∨ (cut nlnl (encode ps)).2 = [nl] := by
      rcases List.eq_nil_or_concat ps with rfl | ⟨qs, q, rfl⟩
      · left
        simp [encode]
      · have := cut_snd_of_sep ((qs.map makeChunk).flatten ++ dataPrefix ++ q)
        rwa [← append_makeChunk, show (qs.map makeChunk).flatten ++ makeChunk q
          = encode (qs.concat q) by simp [encode]] at this
    -- the end frame was recognised, so nothing stood before it
    have hnil := (feed_makeDoneChunk hbefore hbuf).mp hafter
    simp only at hnil hbefore
    rw [hnil, hbefore, hnone, List.append_nil] at htext
    exact clean_of_messageText_eq (hmark.mp hbefore) hnil htext
  · intro hps
    obtain ⟨htext, hrem, hclean⟩ := cut_encode_of_clean hps
    have hbefore := hmark.mpr hclean
    refine ⟨?_, hbefore, ?_⟩
    · rw [hrem, hbefore, hnone, List.append_nil]
      exact htext
    · exact (feed_makeDoneChunk hbefore (.inl hrem)).mpr hrem

/-! ## The image of the parser -/

/-- A text that `feed` can return as a message. -/
def IsMessage (m : Bytes) : Prop := m ≠ [] ∧ Clean m

instance : DecidablePred IsMessage := fun m => inferInstanceAs (Decidable (m ≠ [] ∧ Clean m))

/-- What is left of a block is an end of it. -/
theorem strip_suffix (b : Bytes) : strip b <:+ b := by
  rw [strip]
  split
  · exact List.drop_suffix _ b
  · exact List.suffix_rfl

/-- Stripping a block keeps it free of `\n\n` and of a newline at its end. -/
theorem isMessage_strip {b : Bytes} (hb : IsBlock nlnl b) (hnil : strip b ≠ [])
    (hmark : strip b ≠ doneMarker) : IsMessage (strip b) := by
  obtain ⟨hin, hsuf⟩ := (isBlock_nlnl_iff b).mp hb
  refine ⟨hnil, ?_, ?_, hmark⟩
  · exact fun h => hin (h.trans (strip_suffix b).isInfix)
  · exact fun h => hsuf (h.trans (strip_suffix b))

/-- Every message is one, whatever the handler has been fed before. -/
theorem isMessage_of_mem_feed {h : SseHandler} {raw m : Bytes} (hm : m ∈ (h.feed raw).1) :
    IsMessage m := by
  rw [feed, feedLoop_eq, List.nil_append, filterMap_emit, List.mem_filter] at hm
  obtain ⟨hmem, hkept⟩ := hm
  obtain ⟨b, hb, rfl⟩ := List.mem_map.mp hmem
  obtain ⟨hnil, hmark⟩ := of_decide_eq_true hkept
  exact isMessage_strip (isBlock_of_mem_cut hb) hnil hmark

/-- The first block of a frame begins with its prefix. -/
theorem dataPrefix_prefix_of_cut {p b : Bytes} {bs : List Bytes}
    (h : (cut nlnl (makeChunk p)).1 = b :: bs) : dataPrefix <+: b := by
  have hnl : nl ∉ dataPrefix := by decide
  have hframe : dataPrefix <+: makeChunk p := ⟨p ++ nlnl.toList, by simp [makeChunk]⟩
  have hblock : b ++ nlnl.toList <+: makeChunk p := by
    rw [← flatten_cut nlnl (makeChunk p), h]
    exact ⟨(bs.map (· ++ nlnl.toList)).flatten ++ (cut nlnl (makeChunk p)).2, by simp⟩
  by_cases hlen : dataPrefix.length ≤ b.length
  · exact List.prefix_of_prefix_length_le hframe ((List.prefix_append b _).trans hblock) hlen
  · -- a shorter block would put its newline into the prefix
    have hshort : b ++ [nl] <+: dataPrefix := by
      refine List.prefix_of_prefix_length_le (List.IsPrefix.trans ⟨[nl], ?_⟩ hblock) hframe ?_
      · simp [nlnl]
      · rw [List.length_append, List.length_singleton]
        omega
    exact absurd (hshort.subset (by simp)) hnl

/-- No message that a frame yields is longer than the text in it. -/
theorem length_le_of_mem_feed_makeChunk {p m : Bytes} (hm : m ∈ (feed {} (makeChunk p)).1) :
    m.length ≤ p.length := by
  obtain ⟨b, bs, r, hcut, -⟩ := exists_cut_frame [] p
  rw [List.nil_append] at hcut
  have hprefix := dataPrefix_prefix_of_cut (congrArg Prod.fst hcut)
  have hsix : dataPrefix.length = 6 := by decide
  have hlen := congrArg List.length (flatten_cut nlnl (makeChunk p))
  rw [hcut, makeChunk] at hlen
  simp only [List.map_cons, List.flatten_cons, List.length_append, hsix, nlnl, List.length_cons,
    List.length_nil] at hlen
  rw [feed, feedLoop_eq, List.nil_append, filterMap_emit, List.mem_filter] at hm
  obtain ⟨c, hc, rfl⟩ := List.mem_map.mp hm.1
  rw [show ({ ({} : SseHandler) with buffer := [] ++ makeChunk p } : SseHandler).buffer
    = makeChunk p from rfl, hcut] at hc
  have hb := hprefix.length_le
  rcases List.mem_cons.mp hc with rfl | hc
  · rw [strip, if_pos hprefix, List.length_drop]
    omega
  · -- a later block leaves the first one, with its prefix, out
    have hstrip := (strip_suffix c).length_le
    have hflat := (List.sublist_flatten_of_mem
      (List.mem_map_of_mem (f := (· ++ nlnl.toList)) hc)).length_le
    rw [List.length_append] at hflat
    simp only [nlnl, List.length_cons, List.length_nil] at hflat
    omega

/-- Messages are cut from their frames as they were sent, and nothing is left. -/
theorem feed_encode {ps : List Bytes} (hps : ∀ p ∈ ps, IsMessage p) :
    feed {} (encode ps) = (ps, {}) := by
  have hkept : ps.filter (fun m => m ≠ [] ∧ m ≠ doneMarker) = ps :=
    List.filter_eq_self.mpr fun p hp => decide_eq_true ⟨(hps p hp).1, (hps p hp).2.2.2⟩
  have hmark : (ps.map (dataPrefix ++ ·)).any framer.mark = false := by
    rw [List.any_eq_false]
    intro b hb
    obtain ⟨p, hp, rfl⟩ := List.mem_map.mp hb
    simpa [framer, strip_dataPrefix] using (hps p hp).2.2.2
  rw [feed, feedLoop_eq]
  simp only [List.nil_append]
  rw [cut_encode fun p hp => (hps p hp).2.isBlock, filterMap_emit, map_strip_frames, hkept, hmark]
  rfl

/-- **The exact domain of the codec.** The framed texts come back one by one exactly when each is
non-empty, is not the end marker, holds no `\n\n` and does not end in `\n`; the handler is then as
fresh as before and the end frame only raises its flag. No damage makes up for another, since
`feed` returns no other texts at all. -/
theorem feed_encode_iff (ps : List Bytes) :
    ((feed {} (encode ps)).1 = ps ↔ ∀ p ∈ ps, IsMessage p) ∧
      ((∀ p ∈ ps, IsMessage p) →
        (feed {} (encode ps)).2.buffer = [] ∧ (feed {} (encode ps)).2.isDone = false ∧
          ((feed {} (encode ps)).2.feed makeDoneChunk).1 = [] ∧
          ((feed {} (encode ps)).2.feed makeDoneChunk).2.isDone = true) ∧
      ∀ (h : SseHandler) (raw m : Bytes), m ∈ (h.feed raw).1 → IsMessage m := by
  refine ⟨⟨?_, ?_⟩, ?_, ?_⟩
  · intro h p hp
    rw [← h] at hp
    exact isMessage_of_mem_feed hp
  · intro hps
    rw [feed_encode hps]
  · intro hps
    have hend : feed {} makeDoneChunk = ([], ⟨[], true⟩) := by decide +kernel
    rw [feed_encode hps]
    exact ⟨rfl, rfl, congrArg Prod.fst hend, congrArg (·.2.isDone) hend⟩
  · exact fun h raw m hm => isMessage_of_mem_feed hm

end AiSwitch.SseHandler

import Mathlib.Data.List.Infix
import Mathlib.Tactic.Common

/-!
# Delimited streams

A stream of frames separated by a fixed delimiter arrives in pieces that respect no frame border.
`find` is the search for a first occurrence, `cut` the greedy decomposition of a string at the
successive first occurrences, and `Framer` a parser that keeps the undelimited remainder between
two pieces and treats every complete block by itself.

The two laws a user needs are `cut_append` (cutting a concatenation continues from the remainder)
and `Framer.feedAll_eq_feed` (the pieces in which a stream arrives are not observable).
-/

namespace Delimited

variable {α β : Type*} [DecidableEq α]

/-! ## First occurrence -/

/-- The index of the first occurrence of `d` in `s`, if there is one. -/
def find (d : List α) : List α → Option ℕ
  | [] => if d = [] then some 0 else none
  | a :: s => if d <+: a :: s then some 0 else (find d s).map (· + 1)

/-- An occurrence is a position from which `d` can be read. -/
theorem prefix_drop_of_find {d s : List α} {p : ℕ} (h : find d s = some p) : d <+: s.drop p := by
  induction s generalizing p with
  | nil =>
    rw [find] at h
    split at h
    · simp_all
    · cases h
  | cons a s ih =>
    rw [find] at h
    split at h
    · cases h
      assumption
    · obtain ⟨q, hq, rfl⟩ := Option.map_eq_some_iff.mp h
      exact ih hq

/-- A delimiter that is found lies within the text. -/
theorem find_add_length_le {d s : List α} {p : ℕ} (h : find d s = some p) (hd : d ≠ []) :
    p + d.length ≤ s.length := by
  have hlen := (prefix_drop_of_find h).length_le
  have hpos := List.length_pos_iff.mpr hd
  rw [List.length_drop] at hlen
  omega

/-- Nothing before the first occurrence is an occurrence. -/
theorem not_prefix_drop_of_lt_find {d s : List α} {p q : ℕ} (h : find d s = some p) (hq : q < p) :
    ¬ d <+: s.drop q := by
  induction s generalizing p q with
  | nil =>
    rw [find] at h
    split at h
    · cases h
      omega
    · cases h
  | cons a s ih =>
    rw [find] at h
    split at h
    · cases h
      omega
    · obtain ⟨p', hp', rfl⟩ := Option.map_eq_some_iff.mp h
      cases q with
      | zero => assumption
      | succ q => exact ih hp' (by omega)

/-- The search finds the position that has an occurrence and none before it. -/
theorem find_eq_some {d s : List α} {p : ℕ} (hp : p ≤ s.length) (hd : d <+: s.drop p)
    (hmin : ∀ q < p, ¬ d <+: s.drop q) : find d s = some p := by
  induction s generalizing p with
  | nil =>
    have hp0 : p = 0 := by simpa using hp
    subst hp0
    simp_all [find]
  | cons a s ih =>
    cases p with
    | zero =>
      rw [find, if_pos (by simpa using hd)]
    | succ p =>
      rw [find, if_neg (by simpa using hmin 0 (by omega)),
        ih (by simpa using hp) (by simpa using hd)
          (fun q hq => by simpa using hmin (q + 1) (by omega))]
      rfl

/-- What follows an occurrence does not move it. -/
theorem find_append {d s : List α} {p : ℕ} (h : find d s = some p) (hd : d ≠ []) (t : List α) :
    find d (s ++ t) = some p := by
  have hlen := find_add_length_le h hd
  have hdrop : ∀ q ≤ p, (d <+: (s ++ t).drop q ↔ d <+: s.drop q) := by
    intro q hq
    rw [List.drop_append_of_le_length (by omega)]
    refine ⟨fun hp => ?_, fun hp => hp.trans (List.prefix_append _ _)⟩
    exact List.prefix_of_prefix_length_le hp (List.prefix_append _ _)
      (by rw [List.length_drop]; omega)
  refine find_eq_some (by rw [List.length_append]; omega) ?_ ?_
  · exact (hdrop p le_rfl).mpr (prefix_drop_of_find h)
  · intro q hq hp
    exact not_prefix_drop_of_lt_find h hq ((hdrop q (by omega)).mp hp)

/-- The search fails exactly when `d` is no infix. -/
theorem find_eq_none_iff {d s : List α} : find d s = none ↔ ¬ d <:+: s := by
  induction s with
  | nil => simp [find]
  | cons a s ih =>
    rw [find, List.infix_cons_iff]
    split <;> simp_all

/-- `find(d) == 0` tells the prefixes, wherever else they occur. -/
theorem find_eq_some_zero_iff {d s : List α} : find d s = some 0 ↔ d <+: s := by
  constructor
  · intro h
    simpa using prefix_drop_of_find h
  · intro h
    exact find_eq_some (Nat.zero_le _) (by simpa using h) fun q hq => absurd hq (Nat.not_lt_zero q)

/-- A string splits at the first occurrence. -/
theorem take_append_drop_of_find {d s : List α} {p : ℕ} (h : find d s = some p) :
    s.take p ++ (d ++ s.drop (p + d.length)) = s := by
  obtain ⟨t, ht⟩ := prefix_drop_of_find h
  have hdrop : s.drop (p + d.length) = t := by
    rw [← List.drop_drop, ← ht, List.drop_left]
  rw [hdrop, ht, List.take_append_drop]

/-! ## Greedy cutting -/

/-- A delimiter is a non-empty string. -/
structure Delim (α : Type*) where
  toList : List α
  ne_nil : toList ≠ []

/-- Cut `s` at the first occurrence of the delimiter, then the rest likewise: the complete blocks
in order, and the remainder in which the delimiter does not occur. -/
def cut (d : Delim α) (s : List α) : List (List α) × List α :=
  match _h : find d.toList s with
  | none => ([], s)
  | some p =>
    let rest := cut d (s.drop (p + d.toList.length))
    (s.take p :: rest.1, rest.2)
termination_by s.length
decreasing_by
  have hlen := find_add_length_le _h d.ne_nil
  have hpos := List.length_pos_iff.mpr d.ne_nil
  rw [List.length_drop]
  omega

/-- A text without the delimiter is not cut. -/
theorem cut_of_none {d : Delim α} {s : List α} (h : find d.toList s = none) :
    cut d s = ([], s) := by
  rw [cut]
  split
  · rfl
  · simp_all

/-- A text is cut behind its first delimiter, and on from there. -/
theorem cut_of_some {d : Delim α} {s : List α} {p : ℕ} (h : find d.toList s = some p) :
    cut d s = (s.take p :: (cut d (s.drop (p + d.toList.length))).1,
      (cut d (s.drop (p + d.toList.length))).2) := by
  rw [cut]
  split
  · simp_all
  · rename_i q hq
    rw [h, Option.some.injEq] at hq
    subst hq
    rfl

/-- The empty text has no blocks. -/
@[simp] theorem cut_nil (d : Delim α) : cut d [] = ([], []) :=
  cut_of_none (by simp [find, d.ne_nil])

/-- A rule for arguing along the cuts of a string. -/
theorem cut_induction {d : Delim α} {motive : List α → Prop}
    (none : ∀ s, find d.toList s = .none → motive s)
    (some : ∀ s p, find d.toList s = .some p → motive (s.drop (p + d.toList.length)) → motive s)
    (s : List α) : motive s := by
  induction hn : s.length using Nat.strongRecOn generalizing s with
  | ind n ih =>
    cases h : find d.toList s with
    | none => exact none s h
    | some p =>
      have hlen := find_add_length_le h d.ne_nil
      have hpos := List.length_pos_iff.mpr d.ne_nil
      refine some s p h (ih _ ?_ _ rfl)
      rw [List.length_drop]
      omega

/-- **Cutting a concatenation continues from the remainder of the first part.** -/
theorem cut_append (d : Delim α) (s t : List α) :
    cut d (s ++ t) = ((cut d s).1 ++ (cut d ((cut d s).2 ++ t)).1,
      (cut d ((cut d s).2 ++ t)).2) := by
  induction s using cut_induction (d := d) with
  | none s h => rw [cut_of_none h]; rfl
  | some s p h ih =>
    have hlen := find_add_length_le h d.ne_nil
    rw [cut_of_some h, cut_of_some (find_append h d.ne_nil t),
      List.take_append_of_le_length (by omega), List.drop_append_of_le_length hlen, ih]
    rfl

/-- The remainder holds no complete block. -/
theorem find_cut_snd (d : Delim α) (s : List α) : find d.toList (cut d s).2 = none := by
  induction s using cut_induction (d := d) with
  | none s h => rw [cut_of_none h]; exact h
  | some s p h ih => rw [cut_of_some h]; exact ih

/-- The cut loses nothing: the blocks with their delimiters, then the remainder. -/
theorem flatten_cut (d : Delim α) (s : List α) :
    ((cut d s).1.map (· ++ d.toList)).flatten ++ (cut d s).2 = s := by
  induction s using cut_induction (d := d) with
  | none s h => rw [cut_of_none h]; rfl
  | some s p h ih =>
    rw [cut_of_some h]
    simp only [List.map_cons, List.flatten_cons, List.append_assoc]
    rw [ih]
    exact take_append_drop_of_find h

/-- What has been cut off a beginning stays cut off. -/
theorem prefix_cut_fst (d : Delim α) {s t : List α} (h : s <+: t) :
    (cut d s).1 <+: (cut d t).1 := by
  obtain ⟨u, rfl⟩ := h
  rw [cut_append]
  exact List.prefix_append _ _

/-- A beginning of a string without a remainder is all of it if it has all the blocks. -/
theorem eq_of_cut_fst_eq {d : Delim α} {s t : List α} (h : s <+: t) (ht : (cut d t).2 = [])
    (hcut : (cut d s).1 = (cut d t).1) : s = t := by
  refine h.eq_of_length_le ?_
  have hs := congrArg List.length (flatten_cut d s)
  have ht' := congrArg List.length (flatten_cut d t)
  rw [ht, List.append_nil, ← hcut] at ht'
  rw [List.length_append] at hs
  omega

/-- A block is complete: the delimiter occurs in it, followed by the delimiter, only at the end. -/
def IsBlock (d : Delim α) (b : List α) : Prop := find d.toList (b ++ d.toList) = some b.length

/-- A complete block at the front is the first one cut off. -/
theorem cut_block {d : Delim α} {b : List α} (hb : IsBlock d b) (s : List α) :
    cut d (b ++ d.toList ++ s) = (b :: (cut d s).1, (cut d s).2) := by
  have hdrop : (b ++ d.toList ++ s).drop (b.length + d.toList.length) = s := by
    rw [← List.length_append, List.drop_left]
  rw [cut_of_some (find_append hb d.ne_nil s), hdrop, List.append_assoc, List.take_left]

/-- Every block of a cut is complete. -/
theorem isBlock_of_mem_cut {d : Delim α} {s b : List α} (hb : b ∈ (cut d s).1) : IsBlock d b := by
  induction s using cut_induction (d := d) with
  | none s h => simp [cut_of_none h] at hb
  | some s p h ih =>
    rw [cut_of_some h, List.mem_cons] at hb
    rcases hb with rfl | hb
    · have hlen := find_add_length_le h d.ne_nil
      have htake : (s.take p).length = p := by rw [List.length_take]; omega
      have hpre : s.take p ++ d.toList <+: s :=
        ⟨s.drop (p + d.toList.length), by
          rw [List.append_assoc]; exact take_append_drop_of_find h⟩
      refine find_eq_some (by rw [List.length_append]; omega) ?_ ?_
      · rw [List.drop_left]
      · intro q hq hocc
        exact not_prefix_drop_of_lt_find h (by omega) (hocc.trans (hpre.drop q))
    · exact ih hb

/-! ## Framers -/

/-- A parser of delimited blocks. Every complete block yields at most one output, and some blocks
mark the end of the stream; neither depends on the blocks before it. -/
structure Framer (α β : Type*) where
  delim : Delim α
  emit : List α → Option β
  mark : List α → Bool

/-- What a framer keeps between two pieces. -/
structure Framer.State (α : Type*) where
  buffer : List α := []
  done : Bool := false

namespace Framer

/-- Take in one piece: the outputs of the blocks it completes, and the state left. -/
def feed (F : Framer α β) (st : State α) (raw : List α) : List β × State α :=
  ((cut F.delim (st.buffer ++ raw)).1.filterMap F.emit,
    { buffer := (cut F.delim (st.buffer ++ raw)).2
      done := st.done || (cut F.delim (st.buffer ++ raw)).1.any F.mark })

/-- Take in the pieces one after another, collecting the outputs. -/
def feedAll (F : Framer α β) : State α → List (List α) → List β × State α
  | st, [] => ([], st)
  | st, raw :: raws =>
    ((F.feed st raw).1 ++ (F.feedAll (F.feed st raw).2 raws).1,
      (F.feedAll (F.feed st raw).2 raws).2)

/-- Feeding a concatenation is feeding its two parts. -/
theorem feed_append (F : Framer α β) (st : State α) (s t : List α) :
    F.feed st (s ++ t)
      = ((F.feed st s).1 ++ (F.feed (F.feed st s).2 t).1, (F.feed (F.feed st s).2 t).2) := by
  simp only [feed, ← List.append_assoc, cut_append F.delim (st.buffer ++ s) t,
    List.filterMap_append, List.any_append, Bool.or_assoc]

/-- **The pieces of a stream are not observable.** From a state that holds no complete block,
feeding the pieces one after another is feeding their concatenation at once. -/
theorem feedAll_eq_feed (F : Framer α β) (raws : List (List α)) (st : State α)
    (hst : find F.delim.toList st.buffer = none) :
    F.feedAll st raws = F.feed st raws.flatten := by
  induction raws generalizing st with
  | nil => simp [feedAll, feed, cut_of_none hst]
  | cons raw raws ih =>
    have hrem : find F.delim.toList (F.feed st raw).2.buffer = none := find_cut_snd _ _
    rw [feedAll, ih _ hrem, List.flatten_cons, feed_append]

end Framer

end Delimited

import LexicalReport.Scan.Basic
import Mathlib.Data.List.Basic
import Mathlib.Tactic.Basic

/-! What the moves of a cursor do to the text ahead of it and to its place. Every move goes over
some number of characters, so each is an `advanceBy`. A cursor in its text stays there. -/

namespace LexicalReport.Scan.Cursor

open Token (Kind)

def ahead (s : Cursor) : List Char :=
  s.chars.toList.drop s.position

def place (s : Cursor) : Place :=
  ⟨s.line, s.position - s.lineStart⟩

structure InText (s : Cursor) : Prop where
  lineStart_le : s.lineStart ≤ s.position
  position_le : s.position ≤ s.chars.size

theorem peek?_eq_head? (s : Cursor) : s.peek? = s.ahead.head? := by
  rw [peek?, ahead, List.head?_drop, Array.getElem?_toList]

theorem peekAt?_eq (s : Cursor) (n : Nat) : s.peekAt? n = s.ahead[n]? := by
  rw [peekAt?, ahead, List.getElem?_drop, Array.getElem?_toList]

theorem left_eq_length (s : Cursor) : s.left = s.ahead.length := by
  rw [left, ahead, List.length_drop, Array.length_toList]

theorem peek?_of_ahead {s : Cursor} {c : Char} {rest : List Char} (next : s.ahead = c :: rest) :
    s.peek? = some c := by
  rw [peek?_eq_head?, next, List.head?_cons]

theorem ahead_of_peek? {s : Cursor} {c : Char} (found : s.peek? = some c) :
    ∃ rest, s.ahead = c :: rest := by
  rwa [peek?_eq_head?, List.head?_eq_some_iff] at found

theorem ahead_of_peek?_none {s : Cursor} (found : s.peek? = none) : s.ahead = [] := by
  rwa [peek?_eq_head?, List.head?_eq_none_iff] at found

theorem ahead_advance (s : Cursor) : s.advance.ahead = s.ahead.tail := by
  cases found : s.peek? with
  | none =>
    simp [advance, found, ahead_of_peek?_none found]
  | some c => rw [ahead, advance_chars, advance_position found, ahead, List.tail_drop]

@[simp] theorem advance_tokens (s : Cursor) : s.advance.tokens = s.tokens := by
  unfold advance
  split
  · rfl
  · split <;> rfl

@[simp] theorem advance_errors (s : Cursor) : s.advance.errors = s.errors := by
  unfold advance
  split
  · rfl
  · split <;> rfl

theorem place_advance {s : Cursor} (inText : s.InText) {c : Char} {rest : List Char}
    (next : s.ahead = c :: rest) : s.advance.place = s.place.next c := by
  have bound := inText.lineStart_le
  simp only [advance, peek?_of_ahead next, place, Place.next]
  split
  · simp only [Nat.sub_self]
  · rw [Nat.sub_add_comm bound]

theorem inText_advance {s : Cursor} (inText : s.InText) : s.advance.InText := by
  obtain ⟨first, last⟩ := inText
  cases found : s.peek? with
  | none => exact ⟨by simpa [advance, found] using first, by simpa [advance, found] using last⟩
  | some c =>
    have inside := position_lt_of_peek? found
    refine ⟨?_, by rw [advance_position found, advance_chars]; omega⟩
    simp only [advance, found]
    split
    · exact Nat.le_refl _
    · exact Nat.le_succ_of_le first

@[simp] theorem advanceBy_chars (n : Nat) (s : Cursor) : (advanceBy n s).chars = s.chars := by
  induction n generalizing s with
  | zero => rfl
  | succ n ih => rw [advanceBy, ih, advance_chars]

@[simp] theorem advanceBy_tokens (n : Nat) (s : Cursor) : (advanceBy n s).tokens = s.tokens := by
  induction n generalizing s with
  | zero => rfl
  | succ n ih => rw [advanceBy, ih, advance_tokens]

@[simp] theorem advanceBy_errors (n : Nat) (s : Cursor) : (advanceBy n s).errors = s.errors := by
  induction n generalizing s with
  | zero => rfl
  | succ n ih => rw [advanceBy, ih, advance_errors]

theorem ahead_advanceBy (n : Nat) (s : Cursor) : (advanceBy n s).ahead = s.ahead.drop n := by
  induction n generalizing s with
  | zero => rfl
  | succ n ih => rw [advanceBy, ih, ahead_advance, List.drop_tail]

theorem advanceBy_advanceBy (m n : Nat) (s : Cursor) :
    advanceBy n (advanceBy m s) = advanceBy (m + n) s := by
  induction m generalizing s with
  | zero => rw [Nat.zero_add, advanceBy]
  | succ m ih => rw [advanceBy, ih, Nat.succ_add, advanceBy]

theorem advanceBy_succ (n : Nat) (s : Cursor) : (advanceBy n s).advance = advanceBy (n + 1) s :=
  advanceBy_advanceBy n 1 s

theorem inText_advanceBy (n : Nat) {s : Cursor} (inText : s.InText) : (advanceBy n s).InText := by
  induction n generalizing s with
  | zero => exact inText
  | succ n ih => exact ih (inText_advance inText)

theorem position_advanceBy {n : Nat} {s : Cursor} (enough : n ≤ s.ahead.length) :
    (advanceBy n s).position = s.position + n := by
  induction n generalizing s with
  | zero => rfl
  | succ n ih =>
    obtain ⟨c, rest, next⟩ := List.exists_cons_of_length_pos (Nat.zero_lt_of_lt enough)
    have fewer : n ≤ s.advance.ahead.length := by
      rw [ahead_advance, List.length_tail]
      omega
    rw [advanceBy, ih fewer, advance_position (peek?_of_ahead next)]
    omega

theorem place_advanceBy {n : Nat} {s : Cursor} (inText : s.InText) (enough : n ≤ s.ahead.length) :
    (advanceBy n s).place = s.place.after (s.ahead.take n) := by
  induction n generalizing s with
  | zero => rfl
  | succ n ih =>
    obtain ⟨c, rest, next⟩ := List.exists_cons_of_length_pos (Nat.zero_lt_of_lt enough)
    have tail : s.advance.ahead = rest := by rw [ahead_advance, next, List.tail_cons]
    have fewer : n ≤ s.advance.ahead.length := by
      rw [next, List.length_cons] at enough
      rw [tail]
      omega
    rw [advanceBy, ih (inText_advance inText) fewer, place_advance inText next, tail, next]
    rfl

theorem advanceWhile_eq (p : Char → Bool) (s : Cursor) :
    s.advanceWhile p = advanceBy (s.ahead.takeWhile p).length s := by
  fun_induction advanceWhile p s with
  | case1 s found =>
    rw [ahead_of_peek?_none found]
    rfl
  | case2 s c found holds ih =>
    obtain ⟨rest, next⟩ := ahead_of_peek? found
    rw [ih, ahead_advance, next, List.tail_cons, List.takeWhile_cons_of_pos holds]
    rfl
  | case3 s c found fails =>
    obtain ⟨rest, next⟩ := ahead_of_peek? found
    rw [next, List.takeWhile_cons_of_neg fails]
    rfl

theorem mark?_eq {s : Cursor} (inText : s.InText) :
    s.mark? = some ⟨s.position, s.line, s.place.column⟩ :=
  if_pos inText.lineStart_le

theorem textFrom?_advanceBy {n : Nat} {s : Cursor} (inText : s.InText)
    (enough : n ≤ s.ahead.length) :
    (advanceBy n s).textFrom? s.position = some (s.ahead.take n) := by
  have bound := (inText_advanceBy n inText).position_le
  have moved := position_advanceBy enough
  rw [textFrom?, if_pos ⟨by omega, bound⟩, moved, advanceBy_chars, Array.toList_extract,
    List.extract_eq_take_drop, Nat.add_sub_cancel_left, ahead]

/-- The cursor after it has gone over a segment and noted what it is. As with `contentAt`, the
number of characters leaves out the first. -/
def taking (s : Cursor) : Content × Nat → Cursor
  | (.token kind, n) => { advanceBy (n + 1) s with
      tokens := s.tokens.push
        ⟨kind, String.ofList (s.ahead.take (n + 1)), s.line, s.place.column⟩ }
  | (.fault fault, n) => { advanceBy (n + 1) s with
      errors := s.errors.push ⟨fault, s.line, s.place.column⟩ }
  | (.skipped, n) => advanceBy (n + 1) s
  | (.comment, n) => advanceBy (n + 1) s

theorem noteToken?_advanceBy {n : Nat} {s : Cursor} (inText : s.InText)
    (enough : n < s.ahead.length) (kind : Kind) :
    (advanceBy (n + 1) s).noteToken? kind ⟨s.position, s.line, s.place.column⟩ =
      some (s.taking (.token kind, n)) := by
  simp only [noteToken?, textFrom?_advanceBy inText enough, Option.bind_eq_bind, Option.bind_some,
    taking, advanceBy_tokens]

theorem noteFault_advanceBy (n : Nat) (s : Cursor) (fault : Fault) :
    (advanceBy (n + 1) s).noteFault fault ⟨s.position, s.line, s.place.column⟩ =
      s.taking (.fault fault, n) := by
  simp only [noteFault, taking, advanceBy_errors]

end LexicalReport.Scan.Cursor

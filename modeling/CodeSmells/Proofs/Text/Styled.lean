import CodeSmells.Text.Styled
import Mathlib.Data.List.Basic

/-!
# Style sequences in a text

A terminal reads a text mark by mark.  An escape, `[`, numbers with semicolons
between them and `m` are one mark, which sets a style; any other character is
shown in the styles that are in force.  A reset ends all styles.

**Results.**

* `sequence?_eq_some_iff`: the sequences that a text may start with.
* `marks_renderPieces`: the marks of pieces with colors.
* `erase_renderPieces`: without sequences, the text of pieces is the one without colors.
* `alternates_renderPieces`: every opening has its reset before the next one.
* `shown_renderPieces`: each character is shown in the style of its own piece.
-/

namespace CodeSmells

namespace Styling

section Escapes

/-- A text without the character that starts a sequence. -/
def IsEscapeFree (text : String) : Prop :=
  '\x1b' ∉ text.toList

instance (text : String) : Decidable (IsEscapeFree text) :=
  inferInstanceAs (Decidable ('\x1b' ∉ text.toList))

variable {a b : String}

theorem isEscapeFree_append_iff : IsEscapeFree (a ++ b) ↔ IsEscapeFree a ∧ IsEscapeFree b := by
  rw [IsEscapeFree, String.toList_append, List.mem_append, not_or]
  rfl

theorem isEscapeFree_toString (n : Nat) : IsEscapeFree (toString n) := by
  intro h
  have hdigits : (toString n).toList = Nat.toDigits 10 n := by simp
  rw [hdigits] at h
  have hdigit : Char.isDigit '\x1b' = true :=
    Nat.isDigit_of_mem_toDigits (by decide) (by decide) h
  exact absurd hdigit (by decide)

theorem isEscapeFree_intercalate {separator : String} {texts : List String}
    (hseparator : IsEscapeFree separator) (h : ∀ text ∈ texts, IsEscapeFree text) :
    IsEscapeFree (String.intercalate separator texts) := by
  rw [IsEscapeFree, String.toList_intercalate]
  induction texts with
  | nil => exact List.not_mem_nil
  | cons text rest ih =>
      rw [List.forall_mem_cons] at h
      cases rest with
      | nil =>
          rw [List.map_singleton, List.intercalate_singleton]
          exact h.1
      | cons next rest =>
          rw [List.map_cons, List.map_cons, List.intercalate_cons_cons, List.mem_append,
            List.mem_append, not_or, not_or]
          exact ⟨⟨h.1, hseparator⟩, ih h.2⟩

end Escapes

/-- The characters between the `[` and the `m` of a sequence. -/
def isNumbering (c : Char) : Bool :=
  c.isDigit || c == ';'

/-- The numbers of the sequence that a text starts with, and the text after it. -/
def sequence? : List Char → Option (List Char × List Char)
  | '\x1b' :: '[' :: s =>
      match s.dropWhile isNumbering with
      | 'm' :: rest => some (s.takeWhile isNumbering, rest)
      | _ => none
  | _ => none

section Sequences

variable {text numbers rest : List Char}

/-- A text starts with a sequence if it is spelled so. -/
theorem sequence?_eq_some_iff :
    sequence? text = some (numbers, rest) ↔
      (∀ c ∈ numbers, isNumbering c = true) ∧
        text = '\x1b' :: '[' :: (numbers ++ 'm' :: rest) := by
  constructor
  · intro h
    unfold sequence? at h
    split at h
    · split at h
      · rename_i hafter
        cases h
        refine ⟨List.all_eq_true.1 List.all_takeWhile, ?_⟩
        rw [← hafter, List.takeWhile_append_dropWhile]
      · cases h
    · cases h
  · rintro ⟨hnumbers, rfl⟩
    have hm : isNumbering 'm' = false := by decide
    rw [sequence?, List.dropWhile_append_of_pos hnumbers, List.takeWhile_append_of_pos hnumbers]
    simp [hm]

theorem length_lt_of_sequence? (h : sequence? text = some (numbers, rest)) :
    rest.length < text.length := by
  obtain ⟨-, rfl⟩ := sequence?_eq_some_iff.1 h
  simp only [List.length_cons, List.length_append]
  omega

theorem sequence?_of_ne_escape {c : Char} (h : c ≠ '\x1b') : sequence? (c :: rest) = none := by
  rw [sequence?]
  rintro s ⟨⟩
  exact h rfl

end Sequences

/-- What a terminal reads: a character to show, or a sequence that sets a style. -/
inductive Mark where
  | char (c : Char)
  | sequence (numbers : List Char)

/-- The marks of a text, read from the left. -/
def marks (text : List Char) : List Mark :=
  match h : sequence? text with
  | some (numbers, rest) =>
      have := length_lt_of_sequence? h
      .sequence numbers :: marks rest
  | none =>
      match text with
      | [] => []
      | c :: s => .char c :: marks s
termination_by text.length

namespace Mark

def char? : Mark → Option Char
  | char c => some c
  | sequence _ => none

def numbers? : Mark → Option (List Char)
  | char _ => none
  | sequence numbers => some numbers

end Mark

/-- The text without its sequences. -/
def erase (text : List Char) : List Char :=
  (marks text).filterMap Mark.char?

/-- The numbers of the sequences of a text. -/
def sequences (text : List Char) : List (List Char) :=
  (marks text).filterMap Mark.numbers?

/-- The numbers of the sequence that ends all styles. -/
def reset : List Char :=
  ['0']

/-- Openings and resets take turns, from an opening to a reset. -/
inductive Alternates : List (List Char) → Prop
  | nil : Alternates []
  | opened {opening : List Char} {rest : List (List Char)} :
      opening ≠ reset → Alternates rest → Alternates (opening :: reset :: rest)

/-- The characters that are shown, each with the styles in force. -/
def shown (styles : List (List Char)) : List Mark → List (Char × List (List Char))
  | [] => []
  | .char c :: rest => (c, styles) :: shown styles rest
  | .sequence numbers :: rest =>
      shown (if numbers = reset then [] else styles ++ [numbers]) rest

section Marks

variable {text numbers rest : List Char} {styles : List (List Char)}

@[simp] theorem marks_nil : marks [] = [] := by
  rw [marks]
  rfl

theorem marks_of_sequence? (h : sequence? text = some (numbers, rest)) :
    marks text = .sequence numbers :: marks rest := by
  rw [marks]
  split
  · rename_i hfound
    rw [h] at hfound
    cases hfound
    rfl
  · rename_i hnone
    rw [h] at hnone
    cases hnone

theorem marks_cons_of_ne_escape {c : Char} (h : c ≠ '\x1b') :
    marks (c :: rest) = .char c :: marks rest := by
  rw [marks]
  split
  · rename_i hfound
    rw [sequence?_of_ne_escape h] at hfound
    cases hfound
  · rfl

theorem marks_sequence (h : ∀ c ∈ numbers, isNumbering c = true) :
    marks ('\x1b' :: '[' :: (numbers ++ 'm' :: rest)) = .sequence numbers :: marks rest :=
  marks_of_sequence? (sequence?_eq_some_iff.2 ⟨h, rfl⟩)

/-- A text without escapes is shown as it is. -/
theorem marks_append_of_notMem (h : '\x1b' ∉ text) :
    marks (text ++ rest) = text.map .char ++ marks rest := by
  induction text with
  | nil => rfl
  | cons c text ih =>
      rw [List.mem_cons, not_or] at h
      rw [List.cons_append, marks_cons_of_ne_escape (Ne.symm h.1), ih h.2, List.map_cons,
        List.cons_append]

/-- What is shown of characters before other marks. -/
theorem shown_chars_append {more : List Mark} :
    shown styles (text.map .char ++ more) =
      (text.map fun c => (c, styles)) ++ shown styles more := by
  induction text with
  | nil => rfl
  | cons c text ih =>
      rw [List.map_cons, List.cons_append, shown, ih, List.map_cons, List.cons_append]

theorem filterMap_char?_chars : (text.map Mark.char).filterMap Mark.char? = text := by
  rw [List.filterMap_map]
  exact List.filterMap_some

theorem filterMap_numbers?_chars : (text.map Mark.char).filterMap Mark.numbers? = [] := by
  rw [List.filterMap_map, List.filterMap_eq_nil_iff]
  exact fun _ _ => rfl

end Marks

section Pieces

variable {piece : StyledPiece} {pieces : List StyledPiece}

/-- A reset is opened again only where the text itself has one. -/
theorem reopen_of_notMem {opening text : List Char} (h : '\x1b' ∉ text) :
    reopen opening text = text := by
  induction text with
  | nil => rfl
  | cons c text ih =>
      rw [List.mem_cons, not_or] at h
      rw [reopen, ih h.2]
      rintro rest rfl
      exact absurd rfl h.1

theorem isNumbering_of_mem_code (style : Style) :
    ∀ c ∈ style.code.toList, isNumbering c = true := by
  have hall : style.code.toList.all isNumbering = true := by
    cases style <;> decide
  exact List.all_eq_true.1 hall

theorem code_ne_reset (style : Style) : style.code.toList ≠ reset := by
  cases style <;> decide

/-- The marks of a piece with colors. -/
def pieceMarks (piece : StyledPiece) : List Mark :=
  match piece.style with
  | none => piece.text.toList.map .char
  | some style =>
      .sequence style.code.toList :: (piece.text.toList.map .char ++ [.sequence reset])

/--
The terminal reads a piece as its marks and goes on after it.  The characters of the
piece have no part in a sequence, since only an escape starts one.
-/
theorem marks_render_append {rest : List Char} (h : IsEscapeFree piece.text) :
    marks (piece.render true ++ rest) = pieceMarks piece ++ marks rest := by
  obtain ⟨_ | style, text⟩ := piece
  · exact marks_append_of_notMem h
  · have hnumbers : ∀ c ∈ reset, isNumbering c = true :=
      List.forall_mem_singleton.2 (by decide)
    have hreset : marks (resetSequence ++ rest) = .sequence reset :: marks rest :=
      marks_sequence hnumbers
    have hrender : (StyledPiece.mk (some style) text).render true ++ rest =
        '\x1b' :: '[' ::
          (style.code.toList ++ 'm' :: (text.toList ++ (resetSequence ++ rest))) := by
      simp [StyledPiece.render, Style.opening, reopen_of_notMem h]
    rw [hrender, marks_sequence (isNumbering_of_mem_code style), marks_append_of_notMem h, hreset]
    simp [pieceMarks]

theorem marks_renderPieces (h : ∀ piece ∈ pieces, IsEscapeFree piece.text) :
    marks (renderPieces true pieces).toList = pieces.flatMap pieceMarks := by
  rw [renderPieces, String.toList_ofList]
  induction pieces with
  | nil => exact marks_nil
  | cons piece pieces ih =>
      rw [List.forall_mem_cons] at h
      rw [List.flatMap_cons, List.flatMap_cons, marks_render_append h.1, ih h.2]

/-- Without the sequences, pieces have the text that they have without colors. -/
theorem erase_renderPieces (h : ∀ piece ∈ pieces, IsEscapeFree piece.text) :
    erase (renderPieces true pieces).toList = (renderPieces false pieces).toList := by
  have hpiece : ∀ piece : StyledPiece,
      (pieceMarks piece).filterMap Mark.char? = piece.render false := by
    rintro ⟨_ | style, text⟩
    · exact filterMap_char?_chars
    · simp only [pieceMarks, List.filterMap_cons, List.filterMap_append, List.filterMap_nil,
        filterMap_char?_chars, Mark.char?, List.append_nil]
      rfl
  rw [erase, marks_renderPieces h, List.filterMap_flatMap, renderPieces, String.toList_ofList]
  exact List.flatMap_congr fun piece _ => hpiece piece

/-- The sequences of pieces are an opening and a reset for each that has a style. -/
theorem alternates_renderPieces (h : ∀ piece ∈ pieces, IsEscapeFree piece.text) :
    Alternates (sequences (renderPieces true pieces).toList) := by
  rw [sequences, marks_renderPieces h, List.filterMap_flatMap]
  -- From here on the pieces may hold any text: an induction over their marks needs no more.
  clear h
  induction pieces with
  | nil => exact .nil
  | cons piece pieces ih =>
      rw [List.flatMap_cons]
      obtain ⟨_ | style, text⟩ := piece
      · rw [pieceMarks, filterMap_numbers?_chars]
        exact ih
      · simp only [pieceMarks, List.filterMap_cons, List.filterMap_append,
          filterMap_numbers?_chars, Mark.numbers?]
        exact .opened (code_ne_reset style) ih

/-- The characters of a piece, each with the style of the piece. -/
def pieceShown (piece : StyledPiece) : List (Char × List (List Char)) :=
  piece.text.toList.map fun c => (c, (piece.style.map fun style => style.code.toList).toList)

/-- No style reaches beyond its piece. -/
theorem shown_pieceMarks_append {more : List Mark} :
    shown [] (pieceMarks piece ++ more) = pieceShown piece ++ shown [] more := by
  obtain ⟨_ | style, text⟩ := piece
  · exact shown_chars_append
  · simp only [pieceMarks, List.cons_append, List.append_assoc, shown,
      if_neg (code_ne_reset style), shown_chars_append]
    rfl

theorem shown_renderPieces (h : ∀ piece ∈ pieces, IsEscapeFree piece.text) :
    shown [] (marks (renderPieces true pieces).toList) = pieces.flatMap pieceShown := by
  rw [marks_renderPieces h]
  clear h
  induction pieces with
  | nil => rfl
  | cons piece pieces ih =>
      rw [List.flatMap_cons, List.flatMap_cons, shown_pieceMarks_append, ih]

end Pieces

end Styling
end CodeSmells

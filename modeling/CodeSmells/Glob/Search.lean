import CodeSmells.Glob.Basic

/-!
# Searching with globs

To follow every way in which the stars of a glob may share a text out would take
too long.  A search marks instead, for each suffix of the text, whether the
remaining tokens accept it, and works through the tokens from the last to the
first.

**Results.**

* `marks_nil`, `marks_cons`: a suffix is marked exactly when it is in the language.
* `search_eq_accepts`: a search decides the language.
-/

namespace CodeSmells
namespace Glob

/-- The mark of the longest suffix. -/
def firstMark : List Bool → Bool
  | [] => false
  | mark :: _ => mark

/-- Mark the suffixes that a character and then a marked suffix make up. -/
def markAfterChar (token : Token) : List Char → List Bool → List Bool
  | c :: s, _ :: marks => (token.admits c && firstMark marks) :: markAfterChar token s marks
  | _, _ => [false]

/-- Mark the suffixes that have a marked suffix of their own. -/
def markAnySuffix : List Bool → List Bool
  | [] => []
  | mark :: marks =>
      let later := markAnySuffix marks
      (mark || firstMark later) :: later

/-- Mark the suffixes that have a marked suffix after one of their separators. -/
def markAfterSeparator (sep : Char) : List Char → List Bool → List Bool
  | c :: s, _ :: marks =>
      let later := markAfterSeparator sep s marks
      ((c == sep && firstMark marks) || firstMark later) :: later
  | _, _ => [false]

/-- For each suffix of a text, the longest first, whether the tokens accept it. -/
def marks : List Token → List Char → List Bool
  | [], s => s.map (fun _ => false) ++ [true]
  | [.directories], s => s.map (fun _ => true) ++ [true]
  | .directories :: rest, s =>
      let ofRest := marks rest s
      List.zipWith (· || ·) ofRest (markAfterSeparator '/' s ofRest)
  | .sequence :: rest, s => markAnySuffix (marks rest s)
  | token :: rest, s => markAfterChar token s (marks rest s)

/-- Whether the whole text is in the language of the tokens. -/
def search (tokens : List Token) (s : List Char) : Bool :=
  firstMark (marks tokens s)

/-- The marks fit the language of the tokens. -/
structure Marked (tokens : List Token) : Prop where
  nil : marks tokens [] = [accepts tokens []]
  cons : ∀ c s, marks tokens (c :: s) = accepts tokens (c :: s) :: marks tokens s

namespace Marked

variable {tokens : List Token}

theorem first (h : Marked tokens) (s : List Char) :
    firstMark (marks tokens s) = accepts tokens s := by
  cases s with
  | nil => rw [h.nil, firstMark]
  | cons c s => rw [h.cons, firstMark]

theorem first_anySuffix (h : Marked tokens) (s : List Char) :
    firstMark (markAnySuffix (marks tokens s)) = anySuffix (accepts tokens) s := by
  induction s with
  | nil => simp [h.nil, markAnySuffix, firstMark, anySuffix]
  | cons c s ih => rw [h.cons, markAnySuffix, firstMark, anySuffix, ih]

theorem first_afterSeparator (h : Marked tokens) (s : List Char) :
    firstMark (markAfterSeparator '/' s (marks tokens s)) =
      anySuffixAfter '/' (accepts tokens) s := by
  induction s with
  | nil => rw [markAfterSeparator, firstMark, anySuffixAfter]; simp
  | cons c s ih => rw [h.cons, markAfterSeparator, firstMark, anySuffixAfter, ih, h.first]

theorem afterChar (h : Marked tokens) (token : Token) (c : Char) (s : List Char) :
    markAfterChar token (c :: s) (marks tokens (c :: s)) =
      (token.admits c && accepts tokens s) :: markAfterChar token s (marks tokens s) := by
  rw [h.cons, markAfterChar, h.first]

end Marked

theorem marked (tokens : List Token) : Marked tokens := by
  induction tokens with
  | nil => exact ⟨rfl, fun c s => rfl⟩
  | cons token rest ih =>
      cases token with
      | directories =>
          cases rest with
          | nil => exact ⟨rfl, fun c s => rfl⟩
          | cons next rest =>
              constructor
              · simp [marks, accepts, ih.nil, markAfterSeparator, anySuffixAfter]
              · intro c s
                simp [marks, accepts, ih.cons, markAfterSeparator, anySuffixAfter, ih.first,
                  ih.first_afterSeparator]
      | sequence =>
          constructor
          · simp [marks, accepts, ih.nil, markAnySuffix, firstMark, anySuffix]
          · intro c s
            simp [marks, accepts, ih.cons, markAnySuffix, anySuffix, ih.first_anySuffix]
      | literal d => exact ⟨by simp [marks, accepts, markAfterChar], ih.afterChar _⟩
      | anyChar => exact ⟨by simp [marks, accepts, markAfterChar], ih.afterChar _⟩
      | oneOf members => exact ⟨by simp [marks, accepts, markAfterChar], ih.afterChar _⟩
      | noneOf members => exact ⟨by simp [marks, accepts, markAfterChar], ih.afterChar _⟩

/-- A suffix of no characters is marked exactly when the tokens accept it. -/
theorem marks_nil (tokens : List Token) : marks tokens [] = [accepts tokens []] :=
  (marked tokens).nil

/-- A longer suffix is marked exactly when the tokens accept it. -/
theorem marks_cons (tokens : List Token) (c : Char) (s : List Char) :
    marks tokens (c :: s) = accepts tokens (c :: s) :: marks tokens s :=
  (marked tokens).cons c s

/-- A search decides the language. -/
theorem search_eq_accepts (tokens : List Token) (s : List Char) :
    search tokens s = accepts tokens s :=
  (marked tokens).first s

/-- Whether the whole text is in the language of the glob. -/
def admits (glob : Glob) (text : String) : Bool :=
  search glob.tokens text.toList

/-- Whether `pattern` is a well-formed glob for `text`. -/
def fits (pattern text : String) : Bool :=
  match ofText? pattern with
  | some glob => glob.admits text
  | none => false

end Glob

end CodeSmells

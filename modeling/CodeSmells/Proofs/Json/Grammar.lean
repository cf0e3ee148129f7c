import CodeSmells.Json.Read
import Mathlib.Data.List.Basic

/-!
# The grammar of JSON text

`Writes value text` says that `text` is one of the texts of a JSON value, from
its first to its last character.  Blanks may stand between the parts of arrays
and objects, a character of a quotation may be written in several ways, and so
may a number.  `Node.Holds node value` says that `node` is the tree of such a text.

**Results.**

* `Writes.exists_head`: how the text of a value starts.
-/

namespace CodeSmells.Json

section Parts

/-- Blanks only. -/
def Blank (text : List Char) : Prop :=
  ∀ c ∈ text, Cursor.isBlank c = true

theorem blank_nil : Blank [] := by
  intro c hc
  cases hc

/-- What stands before an item: blanks, and a comma unless the item is the first one. -/
inductive Lead : Bool → List Char → Prop
  | first {text : List Char} : Blank text → Lead true text
  | later {before after : List Char} :
      Blank before → Blank after → Lead false (before ++ ',' :: after)

/-- The ways to write characters inside quotes. -/
inductive QuotedChars : List Char → List Char → Prop
  | nil : QuotedChars [] []
  | plain {c : Char} {chars text : List Char} :
      c ≠ '"' → c ≠ '\\' → 32 ≤ c.toNat →
      QuotedChars chars text → QuotedChars (c :: chars) (c :: text)
  | escaped {c letter : Char} {chars text : List Char} :
      escapeValue? letter = some c →
      QuotedChars chars text → QuotedChars (c :: chars) ('\\' :: letter :: text)
  | unit {a b c d : Char} {code : Nat} {chars text : List Char} :
      hexUnit? a b c d = some code →
      Quotation.isLeading code = false → Quotation.isTrailing code = false →
      QuotedChars chars text →
      QuotedChars (Char.ofNat code :: chars) ('\\' :: 'u' :: a :: b :: c :: d :: text)
  | pair {a b c d a' b' c' d' : Char} {leading trailing : Nat} {chars text : List Char} :
      hexUnit? a b c d = some leading → hexUnit? a' b' c' d' = some trailing →
      Quotation.isLeading leading = true → Quotation.isTrailing trailing = true →
      QuotedChars chars text →
      QuotedChars (Quotation.pair leading trailing :: chars)
        ('\\' :: 'u' :: a :: b :: c :: d :: '\\' :: 'u' :: a' :: b' :: c' :: d' :: text)

inductive Quotes : String → List Char → Prop
  | quotes {content : String} {text : List Char} :
      QuotedChars content.toList text → Quotes content ('"' :: text ++ ['"'])

/-- Digits, at least one of them. -/
inductive Digits : List Nat → List Char → Prop
  | digits {text : List Char} :
      text ≠ [] → (∀ c ∈ text, c.isDigit = true) →
      Digits (text.map fun c => c.toNat - 48) text

/-- The digits after a point, if there is one. -/
inductive FractionPart : List Nat → List Char → Prop
  | none : FractionPart [] []
  | some {digits : List Nat} {text : List Char} :
      Digits digits text → FractionPart digits ('.' :: text)

/-- The sign of an exponent, and whether it is a minus. -/
inductive ExponentSign : Bool → List Char → Prop
  | none : ExponentSign false []
  | plus : ExponentSign false ['+']
  | minus : ExponentSign true ['-']

/-- An exponent, if there is one. -/
inductive ExponentPart : Option (Bool × List Nat) → List Char → Prop
  | none : ExponentPart .none []
  | some {letter : Char} {down : Bool} {digits : List Nat} {sign text : List Char} :
      letter = 'e' ∨ letter = 'E' → ExponentSign down sign → Digits digits text →
      ExponentPart (.some (down, digits)) (letter :: sign ++ text)

def signText (negative : Bool) : List Char :=
  if negative then ['-'] else []

/-- The text of a number literal; only a zero alone starts with a zero. -/
inductive SpellsLiteral : Literal → List Char → Prop
  | literal {negative : Bool} {whole fraction : List Nat} {exponent : Option (Bool × List Nat)}
      {wholeText fractionText exponentText : List Char} :
      Digits whole wholeText → (∀ d rest, whole ≠ 0 :: d :: rest) →
      FractionPart fraction fractionText → ExponentPart exponent exponentText →
      SpellsLiteral ⟨negative, whole, fraction, exponent⟩
        (signText negative ++ wholeText ++ fractionText ++ exponentText)

end Parts

mutual

/-- The texts of a value. -/
inductive Writes : Json → List Char → Prop
  | nullWord : Writes .null ['n', 'u', 'l', 'l']
  | trueWord : Writes (.bool true) ['t', 'r', 'u', 'e']
  | falseWord : Writes (.bool false) ['f', 'a', 'l', 's', 'e']
  | integer {n : Int} {literal : Literal} {text : List Char} :
      SpellsLiteral literal text → literal.value = .ok (.integer n) → Writes (.integer n) text
  | real {x : Binary64} {literal : Literal} {text : List Char} :
      SpellsLiteral literal text → literal.value = .ok (.real x) → Writes (.real x) text
  | text {content : String} {text : List Char} :
      Quotes content text → Writes (.text content) text
  | array {items : List Json} {text : List Char} :
      WritesItems true items text → Writes (.array items) ('[' :: text)
  | object {members : List (String × Json)} {text : List Char} :
      WritesMembers true members text → Writes (.object members) ('{' :: text)

/-- Items up to the closing bracket, from the first one or from a later one on. -/
inductive WritesItems : Bool → List Json → List Char → Prop
  | close {first : Bool} {blanks : List Char} :
      Blank blanks → WritesItems first [] (blanks ++ [']'])
  | item {first : Bool} {item : Json} {items : List Json} {lead text more : List Char} :
      Lead first lead → Writes item text → WritesItems false items more →
      WritesItems first (item :: items) (lead ++ (text ++ more))

/-- Members up to the closing brace, from the first one or from a later one on. -/
inductive WritesMembers : Bool → List (String × Json) → List Char → Prop
  | close {first : Bool} {blanks : List Char} :
      Blank blanks → WritesMembers first [] (blanks ++ ['}'])
  | member {first : Bool} {name : String} {value : Json} {members : List (String × Json)}
      {lead key before after text more : List Char} :
      Lead first lead → Quotes name key → Blank before → Blank after → Writes value text →
      WritesMembers false members more →
      WritesMembers first ((name, value) :: members)
        (lead ++ (key ++ (before ++ ':' :: (after ++ (text ++ more)))))

end

mutual

/-- The tree of a text of the value, without faults; where its parts stand is left open. -/
inductive Node.Holds : Node → Json → Prop
  | null {start stop : Nat} : Node.Holds (.null start stop) .null
  | bool {value : Bool} {start stop : Nat} : Node.Holds (.bool value start stop) (.bool value)
  | integer {n : Int} {literal : Literal} {start stop : Nat} :
      literal.value = .ok (.integer n) → Node.Holds (.number literal start stop) (.integer n)
  | real {x : Binary64} {literal : Literal} {start stop : Nat} :
      literal.value = .ok (.real x) → Node.Holds (.number literal start stop) (.real x)
  | text {quotation : Quotation} {content : String} :
      quotation.read = .ok content → Node.Holds (.text quotation) (.text content)
  | array {start : Nat} {items : Items} {values : List Json} :
      Items.Holds items values → Node.Holds (.array start items) (.array values)
  | object {start : Nat} {entries : Entries} {members : List (String × Json)} :
      Entries.Holds entries members → Node.Holds (.object start entries) (.object members)

inductive Items.Holds : Items → List Json → Prop
  | close {stop : Nat} : Items.Holds (.close stop) []
  | item {node : Node} {after : Nat} {more : Items} {value : Json} {values : List Json} :
      Node.Holds node value → Items.Holds more values →
      Items.Holds (.item node after more) (value :: values)

inductive Entries.Holds : Entries → List (String × Json) → Prop
  | close {stop : Nat} : Entries.Holds (.close stop) []
  | entry {key : Quotation} {afterKey : Nat} {node : Node} {after : Nat} {more : Entries}
      {name : String} {value : Json} {members : List (String × Json)} :
      key.read = .ok name → Node.Holds node value → Entries.Holds more members →
      Entries.Holds (.entry key afterKey node after more) ((name, value) :: members)

end

section Heads

variable {text : List Char}

theorem Quotes.exists_head {content : String} (h : Quotes content text) :
    ∃ s, text = '"' :: s := by
  cases h with
  | @quotes text _ => exact ⟨text ++ ['"'], rfl⟩

theorem Digits.exists_head {digits : List Nat} (h : Digits digits text) :
    ∃ c s, text = c :: s ∧ c.isDigit = true := by
  cases h with
  | digits hne hall =>
      obtain ⟨c, s, rfl⟩ := List.exists_cons_of_ne_nil hne
      exact ⟨c, s, rfl, hall c (by simp)⟩

/-- A number starts with a minus or a digit. -/
theorem SpellsLiteral.exists_head {literal : Literal} (h : SpellsLiteral literal text) :
    ∃ c s, text = c :: s ∧ (c = '-' ∨ c.isDigit = true) := by
  cases h with
  | @literal negative whole fraction exponent wholeText fractionText exponentText hwhole =>
      cases negative with
      | true => exact ⟨'-', wholeText ++ fractionText ++ exponentText, by simp [signText], .inl rfl⟩
      | false =>
          obtain ⟨c, s, rfl, hc⟩ := hwhole.exists_head
          exact ⟨c, s ++ fractionText ++ exponentText, by simp [signText], .inr hc⟩

theorem isBlank_of_number {c : Char} (h : c = '-' ∨ c.isDigit = true) :
    Cursor.isBlank c = false := by
  rw [← Bool.not_eq_true]
  intro hblank
  simp only [Cursor.isBlank, Bool.or_eq_true, beq_iff_eq] at hblank
  rcases hblank with ((rfl | rfl) | rfl) | rfl <;> simp at h

/-- The text of a value starts neither with a blank nor with a closing bracket. -/
theorem Writes.exists_head {value : Json} (h : Writes value text) :
    ∃ c s, text = c :: s ∧ Cursor.isBlank c = false ∧ c ≠ ']' := by
  have hnumber : ∀ {literal : Literal}, SpellsLiteral literal text →
      ∃ c s, text = c :: s ∧ Cursor.isBlank c = false ∧ c ≠ ']' := by
    intro literal hliteral
    obtain ⟨c, s, rfl, hc⟩ := hliteral.exists_head
    refine ⟨c, s, rfl, isBlank_of_number hc, ?_⟩
    rintro rfl
    simp at hc
  cases h with
  | nullWord | trueWord | falseWord | array | object => exact ⟨_, _, rfl, by decide, by decide⟩
  | integer hliteral | real hliteral => exact hnumber hliteral
  | text hquotes =>
      obtain ⟨s, rfl⟩ := hquotes.exists_head
      exact ⟨'"', s, rfl, by decide, by decide⟩

theorem WritesItems.length_pos {first : Bool} {items : List Json}
    (h : WritesItems first items text) : 0 < text.length := by
  cases h with
  | close => simp
  | item _ hitem =>
      obtain ⟨c, s, rfl, -⟩ := hitem.exists_head
      simp only [List.length_append, List.length_cons]
      omega

theorem WritesMembers.length_pos {first : Bool} {members : List (String × Json)}
    (h : WritesMembers first members text) : 0 < text.length := by
  cases h with
  | close => simp
  | member =>
      simp only [List.length_append, List.length_cons]
      omega

end Heads

end CodeSmells.Json

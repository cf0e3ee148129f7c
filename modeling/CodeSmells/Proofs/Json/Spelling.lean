import CodeSmells.Proofs.Json.Grammar

/-!
# JSON as it is written

A `Spelling` is what a text writes, without the blanks between its parts: a text is
a list of pieces and a number is a literal.  Every text that the grammar of JSON
allows spells something, also one that is refused because of a number that is too
large or half of a surrogate pair.  `Node.Shows` says that a tree is that of such a
text, and `Spelling.node` is one such tree.

**Results.**

* `Spelling.shows_node`: the tree of a spelling shows it.
* `Spells.exists_head`: how the text of a spelling starts.
* `Writes.exists_spelling`: a text of a value spells something that holds the value.
-/

namespace CodeSmells.Json

/-- A value as it is written. -/
inductive Spelling where
  | null
  | bool (value : Bool)
  | number (literal : Literal)
  | text (pieces : List Piece)
  | array (items : List Spelling)
  | object (members : List (List Piece × Spelling))
deriving Inhabited

namespace Spelling

/-- Induction on a spelling by way of its items and the values of its members. -/
@[elab_as_elim]
theorem induction_on {motive : Spelling → Prop} (spelling : Spelling) (null : motive .null)
    (bool : ∀ b, motive (.bool b)) (number : ∀ literal, motive (.number literal))
    (text : ∀ pieces, motive (.text pieces))
    (array : ∀ items : List Spelling, (∀ item ∈ items, motive item) → motive (.array items))
    (object : ∀ members : List (List Piece × Spelling), (∀ member ∈ members, motive member.2) →
      motive (.object members)) : motive spelling := by
  match spelling with
  | .null => exact null
  | .bool b => exact bool b
  | .number literal => exact number literal
  | .text pieces => exact text pieces
  | .array items =>
      exact array items fun item _ => induction_on item null bool number text array object
  | .object members =>
      exact object members fun member _ => induction_on member.2 null bool number text array object
termination_by spelling
decreasing_by
  · rename_i hmem
    have hlt := List.sizeOf_lt_of_mem hmem
    simp only [Spelling.array.sizeOf_spec]
    omega
  · rename_i hmem
    have hlt := List.sizeOf_lt_of_mem hmem
    have hsnd : sizeOf member.2 < sizeOf member := by
      obtain ⟨key, value⟩ := member
      simp only [Prod.mk.sizeOf_spec]
      omega
    simp only [Spelling.object.sizeOf_spec]
    omega

mutual

/-- How many containers are nested in what is written. -/
def nesting : Spelling → Nat
  | .array items => nestingItems items + 1
  | .object members => nestingMembers members + 1
  | _ => 0

def nestingItems : List Spelling → Nat
  | [] => 0
  | item :: rest => max item.nesting (nestingItems rest)

def nestingMembers : List (List Piece × Spelling) → Nat
  | [] => 0
  | (_, value) :: rest => max value.nesting (nestingMembers rest)

end

/-- A text in quotes that has no place. -/
def quotation (pieces : List Piece) : Quotation :=
  ⟨0, pieces, .ok 0⟩

mutual

/-- The tree of what is written, without places. -/
def node : Spelling → Node
  | .null => .null 0 0
  | .bool value => .bool value 0 0
  | .number literal => .number literal 0 0
  | .text pieces => .text (quotation pieces)
  | .array items => .array 0 (itemNodes items)
  | .object members => .object 0 (memberNodes members)

def itemNodes : List Spelling → Items
  | [] => .close 0
  | item :: rest => .item item.node 0 (itemNodes rest)

def memberNodes : List (List Piece × Spelling) → Entries
  | [] => .close 0
  | (key, value) :: rest => .entry (quotation key) 0 value.node 0 (memberNodes rest)

end

end Spelling

section Grammar

/-- The ways to write pieces inside quotes. -/
inductive SpellsPieces : List Piece → List Char → Prop
  | nil : SpellsPieces [] []
  | plain {c : Char} {pieces : List Piece} {text : List Char} :
      c ≠ '"' → c ≠ '\\' → 32 ≤ c.toNat →
      SpellsPieces pieces text → SpellsPieces (.plain c :: pieces) (c :: text)
  | escaped {c letter : Char} {pieces : List Piece} {text : List Char} :
      escapeValue? letter = some c →
      SpellsPieces pieces text → SpellsPieces (.escaped c :: pieces) ('\\' :: letter :: text)
  | unit {a b c d : Char} {code : Nat} {pieces : List Piece} {text : List Char} :
      hexUnit? a b c d = some code → SpellsPieces pieces text →
      SpellsPieces (.unit code :: pieces) ('\\' :: 'u' :: a :: b :: c :: d :: text)

mutual

/-- The texts of a spelling, from the first to the last character. -/
inductive Spells : Spelling → List Char → Prop
  | nullWord : Spells .null ['n', 'u', 'l', 'l']
  | trueWord : Spells (.bool true) ['t', 'r', 'u', 'e']
  | falseWord : Spells (.bool false) ['f', 'a', 'l', 's', 'e']
  | number {literal : Literal} {text : List Char} :
      SpellsLiteral literal text → Spells (.number literal) text
  | text {pieces : List Piece} {text : List Char} :
      SpellsPieces pieces text → Spells (.text pieces) ('"' :: (text ++ ['"']))
  | array {items : List Spelling} {text blanks : List Char} :
      SpellsItems true items text → Blank blanks →
      Spells (.array items) ('[' :: (text ++ (blanks ++ [']'])))
  | object {members : List (List Piece × Spelling)} {text blanks : List Char} :
      SpellsMembers true members text → Blank blanks →
      Spells (.object members) ('{' :: (text ++ (blanks ++ ['}'])))

/-- Items with what stands before each, from the first one or from a later one on. -/
inductive SpellsItems : Bool → List Spelling → List Char → Prop
  | none {first : Bool} : SpellsItems first [] []
  | item {first : Bool} {item : Spelling} {items : List Spelling} {lead text more : List Char} :
      Lead first lead → Spells item text → SpellsItems false items more →
      SpellsItems first (item :: items) (lead ++ (text ++ more))

/-- Members with what stands before each, from the first one or from a later one on. -/
inductive SpellsMembers : Bool → List (List Piece × Spelling) → List Char → Prop
  | none {first : Bool} : SpellsMembers first [] []
  | member {first : Bool} {key : List Piece} {value : Spelling}
      {members : List (List Piece × Spelling)} {lead name before after text more : List Char} :
      Lead first lead → SpellsPieces key name → Blank before → Blank after → Spells value text →
      SpellsMembers false members more →
      SpellsMembers first ((key, value) :: members)
        (lead ++ ('"' :: (name ++ '"' :: (before ++ ':' :: (after ++ (text ++ more))))))

end

/-- The pieces of a text that is written as it is. -/
def plainPieces (text : String) : List Piece :=
  text.toList.map .plain

/-- Without quotes, backslashes and control characters a text may be written as it is. -/
theorem spellsPieces_plainPieces {text : String}
    (h : ∀ c ∈ text.toList, c ≠ '"' ∧ c ≠ '\\' ∧ 32 ≤ c.toNat) :
    SpellsPieces (plainPieces text) text.toList := by
  rw [plainPieces]
  generalize text.toList = chars at h
  induction chars with
  | nil => exact .nil
  | cons c s ih =>
      rw [List.forall_mem_cons] at h
      exact .plain h.1.1 h.1.2.1 h.1.2.2 (ih h.2)

/-- A digit alone is a number. -/
theorem spells_digit {c : Char} (h : c.isDigit = true) :
    Spells (.number ⟨false, [c.toNat - 48], [], none⟩) [c] := by
  have hwhole : Digits ([c].map fun c => c.toNat - 48) [c] :=
    .digits (List.cons_ne_nil c []) (List.forall_mem_singleton.2 h)
  exact .number (.literal hwhole (by simp) .none .none)

end Grammar

section Trees

mutual

/-- The tree of a text of the spelling, without faults; where its parts stand is left open. -/
inductive Node.Shows : Node → Spelling → Prop
  | null {start stop : Nat} : Node.Shows (.null start stop) .null
  | bool {value : Bool} {start stop : Nat} : Node.Shows (.bool value start stop) (.bool value)
  | number {literal : Literal} {start stop : Nat} :
      Node.Shows (.number literal start stop) (.number literal)
  | text {start stop : Nat} {pieces : List Piece} :
      Node.Shows (.text ⟨start, pieces, .ok stop⟩) (.text pieces)
  | array {start stop : Nat} {found : Items} {items : List Spelling} :
      Items.Shows found items (.close stop) → Node.Shows (.array start found) (.array items)
  | object {start stop : Nat} {found : Entries} {members : List (List Piece × Spelling)} :
      Entries.Shows found members (.close stop) →
      Node.Shows (.object start found) (.object members)

/-- The items come first, and then the last of them. -/
inductive Items.Shows : Items → List Spelling → Items → Prop
  | done {last : Items} : Items.Shows last [] last
  | item {node : Node} {after : Nat} {more last : Items} {item : Spelling}
      {items : List Spelling} :
      Node.Shows node item → Items.Shows more items last →
      Items.Shows (.item node after more) (item :: items) last

/-- The members come first, and then the last of them. -/
inductive Entries.Shows : Entries → List (List Piece × Spelling) → Entries → Prop
  | done {last : Entries} : Entries.Shows last [] last
  | entry {start stop afterKey after : Nat} {key : List Piece} {node : Node}
      {more last : Entries} {value : Spelling} {members : List (List Piece × Spelling)} :
      Node.Shows node value → Entries.Shows more members last →
      Entries.Shows (.entry ⟨start, key, .ok stop⟩ afterKey node after more)
        ((key, value) :: members) last

end

namespace Spelling

mutual

/-- The tree of a spelling shows it. -/
theorem shows_node : ∀ spelling : Spelling, spelling.node.Shows spelling
  | .null => .null
  | .bool _ => .bool
  | .number _ => .number
  | .text _ => .text
  | .array items => .array (shows_itemNodes items)
  | .object members => .object (shows_memberNodes members)

theorem shows_itemNodes : ∀ items : List Spelling, (itemNodes items).Shows items (.close 0)
  | [] => .done
  | item :: rest => .item (shows_node item) (shows_itemNodes rest)

theorem shows_memberNodes : ∀ members : List (List Piece × Spelling),
    (memberNodes members).Shows members (.close 0)
  | [] => .done
  | (_, value) :: rest => .entry (shows_node value) (shows_memberNodes rest)

end

end Spelling

end Trees

section Heads

variable {text rest : List Char}

/-- The text of a spelling starts neither with a blank nor with a closing bracket. -/
theorem Spells.exists_head {spelling : Spelling} (h : Spells spelling text) :
    ∃ c s, text = c :: s ∧ Cursor.isBlank c = false ∧ c ≠ ']' := by
  cases h with
  | nullWord | trueWord | falseWord | text | array | object =>
      exact ⟨_, _, rfl, by decide, by decide⟩
  | number hliteral =>
      obtain ⟨c, s, rfl, hc⟩ := hliteral.exists_head
      refine ⟨c, s, rfl, isBlank_of_number hc, ?_⟩
      rintro rfl
      simp at hc

end Heads

section Values

/-- Quoted characters are written with pieces that stand for them. -/
theorem QuotedChars.exists_pieces {chars text : List Char} (h : QuotedChars chars text) :
    ∃ pieces, SpellsPieces pieces text ∧
      ∀ start stop, Quotation.assemble (.ok stop) start pieces = .ok chars := by
  induction h with
  | nil => exact ⟨[], .nil, fun _ _ => rfl⟩
  | @plain c chars text hquote hslash hcontrol _ ih =>
      obtain ⟨pieces, hpieces, hread⟩ := ih
      refine ⟨.plain c :: pieces, .plain hquote hslash hcontrol hpieces, fun start stop => ?_⟩
      rw [Quotation.assemble, hread]
      rfl
  | @escaped c letter chars text hletter _ ih =>
      obtain ⟨pieces, hpieces, hread⟩ := ih
      refine ⟨.escaped c :: pieces, .escaped hletter hpieces, fun start stop => ?_⟩
      rw [Quotation.assemble, hread]
      rfl
  | @unit a b c d code chars text hcode hleading htrailing _ ih =>
      obtain ⟨pieces, hpieces, hread⟩ := ih
      refine ⟨.unit code :: pieces, .unit hcode hpieces, fun start stop => ?_⟩
      rw [Quotation.assemble.eq_def]
      simp [hleading, htrailing, hread, Except.map]
  | @pair a b c d a' b' c' d' leading trailing chars text hl ht hleading htrailing _ ih =>
      obtain ⟨pieces, hpieces, hread⟩ := ih
      have hnot : Quotation.isTrailing leading = false := by
        simp only [Quotation.isLeading, Bool.and_eq_true, decide_eq_true_eq] at hleading
        simp only [Quotation.isTrailing, Bool.and_eq_false_iff, decide_eq_false_iff_not]
        omega
      refine ⟨.unit leading :: .unit trailing :: pieces, .unit hl (.unit ht hpieces),
        fun start stop => ?_⟩
      simp [Quotation.assemble, hleading, htrailing, hnot, hread, Except.map]

/-- A quotation is written with pieces that are read to its content. -/
theorem Quotes.exists_pieces {content : String} {text : List Char} (h : Quotes content text) :
    ∃ pieces body, SpellsPieces pieces body ∧ text = '"' :: (body ++ ['"']) ∧
      ∀ start stop, Quotation.read ⟨start, pieces, .ok stop⟩ = .ok content := by
  cases h with
  | @quotes body hchars =>
      obtain ⟨pieces, hpieces, hread⟩ := hchars.exists_pieces
      refine ⟨pieces, body, hpieces, rfl, fun start stop => ?_⟩
      rw [Quotation.read, hread]
      simp [Except.map]

mutual

/-- A text of a value spells something, and every tree that shows it holds the value. -/
theorem Writes.exists_spelling {value : Json} {text : List Char} (h : Writes value text) :
    ∃ spelling, Spells spelling text ∧ ∀ node : Node, node.Shows spelling → node.Holds value := by
  cases h with
  | nullWord =>
      refine ⟨.null, .nullWord, fun node hnode => ?_⟩
      cases hnode with
      | null => exact .null
  | trueWord =>
      refine ⟨.bool true, .trueWord, fun node hnode => ?_⟩
      cases hnode with
      | bool => exact .bool
  | falseWord =>
      refine ⟨.bool false, .falseWord, fun node hnode => ?_⟩
      cases hnode with
      | bool => exact .bool
  | @integer n literal _ hliteral hvalue =>
      refine ⟨.number literal, .number hliteral, fun node hnode => ?_⟩
      cases hnode with
      | number => exact .integer hvalue
  | @real x literal _ hliteral hvalue =>
      refine ⟨.number literal, .number hliteral, fun node hnode => ?_⟩
      cases hnode with
      | number => exact .real hvalue
  | text hquotes =>
      obtain ⟨pieces, body, hpieces, rfl, hread⟩ := hquotes.exists_pieces
      refine ⟨.text pieces, .text hpieces, fun node hnode => ?_⟩
      cases hnode with
      | text => exact .text (hread _ _)
  | array hitems =>
      obtain ⟨items, body, blanks, hbody, hblanks, rfl, hholds⟩ := hitems.exists_spelling
      refine ⟨.array items, .array hbody hblanks, fun node hnode => ?_⟩
      cases hnode with
      | array hfound => exact .array (hholds _ _ hfound)
  | object hmembers =>
      obtain ⟨members, body, blanks, hbody, hblanks, rfl, hholds⟩ := hmembers.exists_spelling
      refine ⟨.object members, .object hbody hblanks, fun node hnode => ?_⟩
      cases hnode with
      | object hfound => exact .object (hholds _ _ hfound)

theorem WritesItems.exists_spelling {first : Bool} {values : List Json} {text : List Char}
    (h : WritesItems first values text) :
    ∃ items body blanks, SpellsItems first items body ∧ Blank blanks ∧
      text = body ++ (blanks ++ [']']) ∧
      ∀ (found : Items) (stop : Nat), found.Shows items (.close stop) → found.Holds values := by
  cases h with
  | @close _ blanks hblanks =>
      refine ⟨[], [], blanks, .none, hblanks, rfl, fun found stop hfound => ?_⟩
      cases hfound with
      | done => exact .close
  | @item _ value values lead text more hlead hvalue hmore =>
      obtain ⟨item, hitem, hholds⟩ := hvalue.exists_spelling
      obtain ⟨items, body, blanks, hbody, hblanks, rfl, hrest⟩ := hmore.exists_spelling
      refine ⟨item :: items, lead ++ (text ++ body), blanks, .item hlead hitem hbody, hblanks,
        by simp, fun found stop hfound => ?_⟩
      cases hfound with
      | item hnode hshown => exact .item (hholds _ hnode) (hrest _ _ hshown)

theorem WritesMembers.exists_spelling {first : Bool} {values : List (String × Json)}
    {text : List Char} (h : WritesMembers first values text) :
    ∃ members body blanks, SpellsMembers first members body ∧ Blank blanks ∧
      text = body ++ (blanks ++ ['}']) ∧
      ∀ (found : Entries) (stop : Nat), found.Shows members (.close stop) → found.Holds values := by
  cases h with
  | @close _ blanks hblanks =>
      refine ⟨[], [], blanks, .none, hblanks, rfl, fun found stop hfound => ?_⟩
      cases hfound with
      | done => exact .close
  | @member _ name value values lead key before after text more hlead hkey hbefore hafter hvalue
      hmore =>
      obtain ⟨pieces, letters, hpieces, rfl, hread⟩ := hkey.exists_pieces
      obtain ⟨item, hitem, hholds⟩ := hvalue.exists_spelling
      obtain ⟨members, body, blanks, hbody, hblanks, rfl, hrest⟩ := hmore.exists_spelling
      refine ⟨(pieces, item) :: members, _, blanks,
        .member hlead hpieces hbefore hafter hitem hbody, hblanks, by simp,
        fun found stop hfound => ?_⟩
      cases hfound with
      | entry hnode hshown => exact .entry (hread _ _) (hholds _ hnode) (hrest _ _ hshown)

end

end Values

end CodeSmells.Json

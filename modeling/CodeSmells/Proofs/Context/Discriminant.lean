import CodeSmells.Proofs.BooleanParameter
import CodeSmells.Proofs.Context.Grammar

/-!
# The tag of a default expression

An object is an expression by its tag alone.  Its other members may be anything, with
one exception: the node of an `other` is a text.  Tags without a name of their own are
all `unknown`.  So a default that nobody knows never keeps a dump from being read, and
the detector of boolean parameters sees nothing of a default but whether it is `true`
or `false`.

**Results.**

* `Expression.exists_meaning_iff`, `Expression.tag_of_meaning`: which objects are
  expressions, and of which tag.
* `Context.isContext_iff`: tagged defaults take no part in whether an object is a context.
* `BooleanParameter.sniff_eq_of_alike`: defaults that are alike give the same warnings.
* `Expression.tag_decides`: all of this on texts, dumps and contexts.
-/

namespace CodeSmells

open Json Fallible

namespace Expression

variable {tag : String} {members : List (String × Json)} {expression : Expression}

section Payloads

variable {α : Type} {name : String} {read : Json → Reading α}

theorem soleValue_of_notMem {seen : Option α} (h : name ∉ members.map Prod.fst) :
    soleValue name read seen members = .ok seen := by
  induction members generalizing seen with
  | nil => rfl
  | cons member members ih =>
      obtain ⟨key, value⟩ := member
      rw [List.map_cons, List.mem_cons, not_or] at h
      cases seen <;> rw [soleValue, if_neg (Ne.symm h.1), ih h.2]

/-- Where no name is repeated, a value that can be read is all that a sole value asks for. -/
theorem exists_soleValue_iff (hnodup : (members.map Prod.fst).Nodup) :
    (∃ found, soleValue name read none members = .ok found) ↔
      ∀ value, (name, value) ∈ members → ∃ x, read value = .ok x := by
  induction members with
  | nil => simp [soleValue]
  | cons member members ih =>
      obtain ⟨key, first⟩ := member
      rw [List.map_cons, List.nodup_cons] at hnodup
      by_cases hkey : key = name
      · subst hkey
        have hrest : ∀ value, (key, value) ∉ members := fun value hmem =>
          hnodup.1 (List.mem_map.2 ⟨_, hmem, rfl⟩)
        have hsole (x : α) : soleValue key read (some x) members = .ok (some x) :=
          soleValue_of_notMem hnodup.1
        simp only [soleValue, if_true, bind_eq_ok_iff, hsole, List.mem_cons, Prod.mk.injEq,
          true_and, hrest, or_false, forall_eq]
        constructor
        · rintro ⟨_, x, hx, -⟩
          exact ⟨x, hx⟩
        · rintro ⟨x, hx⟩
          exact ⟨some x, x, hx, rfl⟩
      · have hmem (value : Json) : (name, value) ∈ (key, first) :: members ↔
            (name, value) ∈ members := by
          simp [Ne.symm hkey]
        rw [soleValue, if_neg hkey, ih hnodup.2]
        simp only [hmem]

theorem exists_payloadNode_iff {value : Json} :
    (∃ node, payloadNode value = .ok node) ↔ ∃ node, value = .text node := by
  cases value <;> simp [payloadNode, refuseHere]

end Payloads

section Tags

/-- The tags with a name of their own. -/
def tags : List String :=
  ["true", "false", "nil", "int", "float", "str", "sym", "other"]

/-- The tag that an expression has after it was read. -/
def knownTag (tag : String) : String :=
  if tag ∈ tags then tag else "unknown"

theorem form_of_notMem (h : tag ∉ tags) : form tag = .plain unknown := by
  simp only [tags, List.mem_cons, List.not_mem_nil, or_false, not_or] at h
  simp [form, h]

/-- What a tag asks for builds an expression with the tag that it is known by. -/
theorem form_cases (tag : String) :
    (∃ expression, form tag = .plain expression ∧ expression.tag = knownTag tag) ∨
      (∃ build, form tag = .withValue build ∧ ∀ value, (build value).tag = knownTag tag) ∨
      (form tag = .withNode ∧ tag = "other") := by
  by_cases hmem : tag ∈ tags
  · have hknown : knownTag tag = tag := if_pos hmem
    rw [hknown]
    simp only [tags, List.mem_cons, List.not_mem_nil, or_false] at hmem
    rcases hmem with rfl | rfl | rfl | rfl | rfl | rfl | rfl | rfl
    · exact .inl ⟨true, rfl, rfl⟩
    · exact .inl ⟨false, rfl, rfl⟩
    · exact .inl ⟨nil, rfl, rfl⟩
    · exact .inr (.inl ⟨int, rfl, fun _ => rfl⟩)
    · exact .inr (.inl ⟨float, rfl, fun _ => rfl⟩)
    · exact .inr (.inl ⟨str, rfl, fun _ => rfl⟩)
    · exact .inr (.inl ⟨sym, rfl, fun _ => rfl⟩)
    · exact .inr (.inr ⟨rfl, rfl⟩)
  · have hknown : knownTag tag = "unknown" := if_neg hmem
    exact .inl ⟨unknown, form_of_notMem hmem, hknown.symm⟩

theorem tag_of_ofMembers (h : ofMembers tag members = .ok expression) :
    expression.tag = knownTag tag := by
  rw [ofMembers] at h
  rcases form_cases tag with ⟨plain, hform, htag⟩ | ⟨build, hform, htag⟩ | ⟨hform, rfl⟩
  · rw [hform] at h
    rw [← Except.ok.inj h, htag]
  · rw [hform] at h
    obtain ⟨found, -, rfl⟩ := map_eq_ok_iff.1 h
    exact htag _
  · rw [hform] at h
    obtain ⟨found, -, rfl⟩ := map_eq_ok_iff.1 h
    rfl

/-- The tag is `other`, and there is a node that is not a text. -/
def HasOddNode (tag : String) (members : List (String × Json)) : Prop :=
  tag = "other" ∧ ∃ value, ("node", value) ∈ members ∧ ∀ node, value ≠ .text node

/-- Nothing but an odd node keeps members from making an expression. -/
theorem exists_ofMembers_iff (hnodup : (members.map Prod.fst).Nodup) :
    (∃ expression, ofMembers tag members = .ok expression) ↔ ¬ HasOddNode tag members := by
  rcases form_cases tag with ⟨plain, hform, -⟩ | ⟨build, hform, -⟩ | ⟨hform, rfl⟩
  · have hnode : ¬ HasOddNode tag members := by
      rintro ⟨rfl, -⟩
      cases hform
    rw [ofMembers, hform]
    exact iff_of_true ⟨plain, rfl⟩ hnode
  · have hnode : ¬ HasOddNode tag members := by
      rintro ⟨rfl, -⟩
      cases hform
    obtain ⟨found, hfound⟩ :
        ∃ found, soleValue "value" (fun value => .ok (payloadValue value)) none members =
          .ok found :=
      (exists_soleValue_iff hnodup).2 fun value _ => ⟨payloadValue value, rfl⟩
    rw [ofMembers, hform]
    dsimp only
    rw [hfound]
    exact iff_of_true ⟨_, rfl⟩ hnode
  · have hmap : (∃ expression, ofMembers "other" members = .ok expression) ↔
        ∃ found, soleValue "node" payloadNode none members = .ok found := by
      simp [ofMembers, hform, map_eq_ok_iff]
    rw [hmap, exists_soleValue_iff hnodup]
    simp only [exists_payloadNode_iff, HasOddNode, true_and, not_exists, not_and, not_forall,
      not_not]

end Tags

section Objects

/-- The object has the tag, and no name is repeated in it. -/
structure IsTagged (tag : String) (members : List (String × Json)) : Prop where
  nodup : (members.map Prod.fst).Nodup
  tag : ("type", .text tag) ∈ members

/-- A tagged object means what its tag makes of the other members. -/
theorem meaning_iff (h : IsTagged tag members) :
    Meaning (.object members) expression ↔
      ofMembers tag (members.filter fun e => e.1 ≠ "type") = .ok expression := by
  rw [Meaning, valuesUnder_eq_singleton h.nodup h.tag]
  constructor
  · rintro ⟨_, hvalue, _, rfl, hexpression⟩
    cases hvalue
    exact hexpression
  · intro hexpression
    exact ⟨_, rfl, tag, rfl, hexpression⟩

/-- Tagged objects are expressions, all but an `other` with an odd node. -/
theorem exists_meaning_iff (h : IsTagged tag members) :
    (∃ expression, Meaning (.object members) expression) ↔ ¬ HasOddNode tag members := by
  have hnodup : ((members.filter fun e => e.1 ≠ "type").map Prod.fst).Nodup :=
    h.nodup.sublist (List.filter_sublist.map Prod.fst)
  simp only [meaning_iff h, exists_ofMembers_iff hnodup]
  simp [HasOddNode]

/-- The tag of a tagged object is the tag of the expression. -/
theorem tag_of_meaning (h : IsTagged tag members)
    (hmeaning : Meaning (.object members) expression) : expression.tag = knownTag tag :=
  tag_of_ofMembers ((meaning_iff h).1 hmeaning)

theorem isBooleanLiteral_iff_tag :
    expression.isBooleanLiteral = Bool.true ↔
      expression.tag = "true" ∨ expression.tag = "false" := by
  cases expression <;> simp [isBooleanLiteral, Expression.tag]

/-- Tags without a name of their own are those of no boolean literals. -/
theorem isBooleanLiteral_of_meaning (h : IsTagged tag members)
    (hmeaning : Meaning (.object members) expression) :
    expression.isBooleanLiteral = Bool.true ↔ tag = "true" ∨ tag = "false" := by
  rw [isBooleanLiteral_iff_tag, tag_of_meaning h hmeaning, knownTag]
  split_ifs with hmem
  · rfl
  · have htrue : tag ≠ "true" := by
      rintro rfl
      exact hmem (by decide)
    have hfalse : tag ≠ "false" := by
      rintro rfl
      exact hmem (by decide)
    simp [htrue, hfalse]

end Objects

end Expression

namespace DefaultAssignment

/-- An object with a text as its parameter and a tagged expression without an odd node. -/
def IsTaggedDefault (item : Json) : Prop :=
  ∃ fields tag members, item = .object fields ∧
    (Sole (valuesUnder ["parameter"] fields) fun value => ∃ parameter, TextOf value parameter) ∧
    (Sole (valuesUnder ["value"] fields) fun value => value = .object members) ∧
    Expression.IsTagged tag members ∧ ¬ Expression.HasOddNode tag members

theorem IsTaggedDefault.exists_meaning {item : Json} (h : IsTaggedDefault item) :
    ∃ assignment, Meaning item assignment := by
  obtain ⟨fields, tag, members, rfl, hparameter, ⟨_, hvalues, rfl⟩, htagged, hnode⟩ := h
  obtain ⟨parameter, hparameter⟩ := exists_sole_iff.2 hparameter
  obtain ⟨expression, hexpression⟩ := (Expression.exists_meaning_iff htagged).2 hnode
  exact ⟨⟨parameter, expression⟩, hparameter, _, hvalues, hexpression⟩

/-- The same parameter, with a boolean literal in both or in neither. -/
def Alike (a b : DefaultAssignment) : Prop :=
  a.parameter = b.parameter ∧ a.value.isBooleanLiteral = b.value.isBooleanLiteral

end DefaultAssignment

namespace Context

variable {room : Nat} {members : List (String × Json)}

/-- The defaults of an object are tagged, if it has any. -/
def HasTaggedDefaults (members : List (String × Json)) : Prop :=
  SoleOr (valuesUnder ["default_assignments"] members)
    (fun value => ∃ items, value = .array items ∧
      ∀ item ∈ items, DefaultAssignment.IsTaggedDefault item) True

def withoutDefaults (members : List (String × Json)) : List (String × Json) :=
  members.filter fun e => e.1 ≠ "default_assignments"

theorem valuesUnder_withoutDefaults {names : List String}
    (h : "default_assignments" ∉ names) :
    valuesUnder names (withoutDefaults members) = valuesUnder names members := by
  rw [valuesUnder, valuesUnder, withoutDefaults, List.filter_filter]
  congr 1
  refine List.filter_congr fun e _ => ?_
  by_cases hname : e.1 = "default_assignments"
  · simp [hname, h]
  · simp [hname]

theorem valuesUnder_defaults_withoutDefaults :
    valuesUnder ["default_assignments"] (withoutDefaults members) = [] := by
  simp [valuesUnder, withoutDefaults, List.filter_filter]

/-- Tagged defaults that can be read are accepted. -/
theorem HasTaggedDefaults.accepted (h : HasTaggedDefaults members)
    (hreadable : IsReadable room (.object members)) :
    SoleOr (valuesUnder ["default_assignments"] members)
      (fun value => ∃ items, value = .array items ∧
        ∀ item ∈ items, ∃ assignment, Accepted DefaultAssignment.read item assignment) True := by
  obtain ⟨inner, -, hmembers⟩ := hreadable.members
  rcases h with ⟨_, hvalues, items, rfl, hitems⟩ | hnone
  · have hmem : Json.array items ∈ valuesUnder ["default_assignments"] members := by
      rw [hvalues]
      exact List.mem_singleton_self _
    obtain ⟨member, hmember, hvalue⟩ := List.mem_map.1 hmem
    have harray : IsReadable inner (.array items) :=
      hvalue ▸ hmembers member (List.mem_of_mem_filter hmember)
    obtain ⟨_, -, hreadableItems⟩ := harray.items
    refine .inl ⟨_, hvalues, items, rfl, fun item hitem => ?_⟩
    obtain ⟨assignment, hmeaning⟩ := (hitems item hitem).exists_meaning
    exact ⟨assignment, (DefaultAssignment.readsAs_read.accepted_iff
      (hreadableItems item hitem) assignment).2 hmeaning⟩
  · exact .inr hnone

/-- Tagged defaults take no part in whether an object is a context. -/
theorem isContext_iff (hreadable : IsReadable room (.object members))
    (hdefaults : HasTaggedDefaults members) :
    IsContext members ↔ IsContext (withoutDefaults members) := by
  have hkept {names : List String} (hnames : "default_assignments" ∉ names) :
      valuesUnder names (withoutDefaults members) = valuesUnder names members :=
    valuesUnder_withoutDefaults hnames
  constructor
  · intro h
    exact
      { kind := by rw [hkept (by decide)]; exact h.kind
        fullName := by rw [hkept (by decide)]; exact h.fullName
        source := by rw [hkept (by decide)]; exact h.source
        line := by rw [hkept (by decide)]; exact h.line
        defaultAssignments := .inr ⟨valuesUnder_defaults_withoutDefaults, trivial⟩
        overrides := by rw [hkept (by decide)]; exact h.overrides }
  · intro h
    exact
      { kind := by rw [← hkept (by decide)]; exact h.kind
        fullName := by rw [← hkept (by decide)]; exact h.fullName
        source := by rw [← hkept (by decide)]; exact h.source
        line := by rw [← hkept (by decide)]; exact h.line
        defaultAssignments := hdefaults.accepted hreadable
        overrides := by rw [← hkept (by decide)]; exact h.overrides }

/-- A dump is read whatever the tagged defaults of its objects are. -/
theorem exists_parseDump_iff {objects : List (List (String × Json))} {text : String}
    (htext : (Json.array (objects.map .object)).HasText text)
    (hnesting : (Json.array (objects.map .object)).nesting ≤ maxDepth)
    (hdefaults : ∀ members ∈ objects, HasTaggedDefaults members) :
    (∃ contexts, parseDump text = .ok contexts) ↔
      ∀ members ∈ objects, IsContext (withoutDefaults members) := by
  obtain ⟨inner, -, hreadable⟩ := (htext.isReadable hnesting).items
  have hparse (contexts : List Context) : parseDump text = .ok contexts ↔
      List.Forall₂ Describes objects contexts :=
    parse_iff (means_dump objects) htext hnesting contexts
  simp only [hparse, exists_forall₂_iff, exists_describes_iff]
  refine forall₂_congr fun members hmem => ?_
  exact isContext_iff (hreadable _ (List.mem_map_of_mem hmem)) (hdefaults members hmem)

end Context

namespace BooleanParameter

variable {context : Context} {others : List DefaultAssignment}

/-- Defaults that are alike are examined alike. -/
theorem mapM_examine_of_alike {defaults : List DefaultAssignment}
    (h : List.Forall₂ DefaultAssignment.Alike defaults others) :
    (others.filter fun assignment => assignment.value.isBooleanLiteral).mapM (examine context) =
      (defaults.filter fun assignment => assignment.value.isBooleanLiteral).mapM
        (examine context) := by
  induction h with
  | nil => rfl
  | @cons a b defaults others hab _ ih =>
      have hexamine : examine context b = examine context a := by
        rw [examine, examine, warningFor, warningFor, hab.1]
      rw [List.filter_cons, List.filter_cons, ← hab.2]
      split
      · rw [List.mapM_cons, List.mapM_cons, hexamine, ih]
      · exact ih

/-- Other defaults that are alike give the same warnings or the same failure. -/
theorem sniff_eq_of_alike
    (h : List.Forall₂ DefaultAssignment.Alike context.defaultAssignments others) :
    sniff { context with defaultAssignments := others } = sniff context :=
  mapM_examine_of_alike h

theorem run_eq_of_alike (settings : DetectorSettings)
    (h : List.Forall₂ DefaultAssignment.Alike context.defaultAssignments others) :
    (detector settings).run { context with defaultAssignments := others } =
      (detector settings).run context := by
  have hadmits : (detector settings).admits { context with defaultAssignments := others } =
      (detector settings).admits context := rfl
  have hsniff : (detector settings).sniff { context with defaultAssignments := others } =
      (detector settings).sniff context := sniff_eq_of_alike h
  rw [Detector.run, Detector.run, hadmits, hsniff]

end BooleanParameter

namespace Expression

/--
An object with a text as its tag, in which no name is repeated, is an expression whatever
else is in it, unless it is an `other` with a node that is not a text.  The tag alone
says which expression it is, `unknown` if the tag has no name of its own, and it is a
boolean literal if the tag is `true` or `false`.  So a dump whose defaults are such
objects is read if it is read without them.  Contexts that differ in their defaults only,
but in neither the parameters nor which of them are boolean literals, have the same
boolean parameters.
-/
theorem tag_decides :
    (∀ (tag : String) (members : List (String × Json)) (text : String),
      IsTagged tag members → (Json.object members).HasText text →
      (Json.object members).nesting ≤ maxDepth →
        ((∃ expression, parse read text = .ok expression) ↔ ¬ HasOddNode tag members) ∧
        ∀ expression, parse read text = .ok expression →
          expression.tag = knownTag tag ∧
          (expression.isBooleanLiteral = Bool.true ↔ tag = "true" ∨ tag = "false")) ∧
    (∀ (objects : List (List (String × Json))) (text : String),
      (Json.array (objects.map .object)).HasText text →
      (Json.array (objects.map .object)).nesting ≤ maxDepth →
      (∀ members ∈ objects, Context.HasTaggedDefaults members) →
        ((∃ contexts, Context.parseDump text = .ok contexts) ↔
          ∀ members ∈ objects, Context.IsContext (Context.withoutDefaults members))) ∧
    (∀ (context : Context) (others : List DefaultAssignment),
      List.Forall₂ DefaultAssignment.Alike context.defaultAssignments others →
        let other := { context with defaultAssignments := others }
        BooleanParameter.sniff other = BooleanParameter.sniff context ∧
        ∀ settings, (BooleanParameter.detector settings).run other =
          (BooleanParameter.detector settings).run context) := by
  refine ⟨?_, ?_, ?_⟩
  · intro tag members text htagged htext hnesting
    have hparse := parse_iff (readsAs_read (.object members)) htext hnesting
    simp only [hparse]
    refine ⟨exists_meaning_iff htagged, fun expression hmeaning => ⟨?_, ?_⟩⟩
    · exact tag_of_meaning htagged hmeaning
    · exact isBooleanLiteral_of_meaning htagged hmeaning
  · intro objects text htext hnesting hdefaults
    exact Context.exists_parseDump_iff htext hnesting hdefaults
  · intro context others halike
    exact ⟨BooleanParameter.sniff_eq_of_alike halike,
      fun settings => BooleanParameter.run_eq_of_alike settings halike⟩

/-- A tag in capitals is unknown, and a node that is `null` is none. -/
theorem tag_decides_of_capitals_and_null :
    let capitals := [("value", Json.natural 1), ("type", .text "TRUE")]
    let other := [("type", Json.text "other"), ("node", .null)]
    (∃ expression, parse read (Json.object capitals).compact = .ok expression ∧
      expression.tag = "unknown" ∧ expression.isBooleanLiteral = Bool.false) ∧
    ∀ expression, parse read (Json.object other).compact ≠ .ok expression := by
  intro capitals other
  have hone : Writes (.natural 1) (Json.natural 1).render :=
    writes_integer (by decide) (by decide)
  have hcapitals : Writes (.object capitals) (Json.object capitals).render :=
    writes_object (by simp [capitals, hone, writes_text])
  have hnull : Writes .null (render .null) := .nullWord
  have hother : Writes (.object other) (Json.object other).render :=
    writes_object (by simp [other, writes_text, hnull])
  have hcapitalsTagged : IsTagged "TRUE" capitals := ⟨by decide, by simp [capitals]⟩
  have hotherTagged : IsTagged "other" other := ⟨by decide, by simp [other]⟩
  obtain ⟨hobjects, -, -⟩ := tag_decides
  obtain ⟨hread, htag⟩ :=
    hobjects "TRUE" capitals _ hcapitalsTagged (hasText_of_writes hcapitals) (by decide)
  obtain ⟨hrefused, -⟩ :=
    hobjects "other" other _ hotherTagged (hasText_of_writes hother) (by decide)
  constructor
  · have hnode : ¬ HasOddNode "TRUE" capitals := fun h => absurd h.1 (by decide)
    obtain ⟨expression, hexpression⟩ := hread.2 hnode
    obtain ⟨hknown, hboolean⟩ := htag expression hexpression
    refine ⟨expression, hexpression, hknown, ?_⟩
    simpa using hboolean
  · intro expression hexpression
    exact hrefused.1 ⟨expression, hexpression⟩ ⟨rfl, .null, by simp [other], nofun⟩

end Expression

end CodeSmells

import CodeSmells.Command.Run
import CodeSmells.Proofs.Fallible
import CodeSmells.Proofs.Text.Separated

/-!
# Command lines that name smell types

The smell types to look for are the values of an option that may be given more
than once, and each value may name several with commas between them.  What counts
is which names are given, however they are spread over options.

**Results.**

* `ofArguments_append`: an option starts anew after whatever stands before it.
* `ofArguments_option`: each way to write the option is one token.
* `foldlM_step`: the smell types may be taken in after everything else.
* `sameButNames_of_tokens`: command lines with the same other tokens ask for the same, up to
  the names of smell types.
-/

namespace CodeSmells

namespace ArgumentToken

section Order

variable {options : List OptionName} {rest : List String}

/-- Without a next argument nothing is taken from what follows. -/
theorem ofWord_none_snd (options : List OptionName) (word : List Char) :
    (ofWord options none word).2 = false := by
  unfold ofWord
  grind

theorem ofLetters_none_snd (options : List OptionName) (letters : List Char) :
    (ofLetters options none letters).2 = false := by
  induction letters with
  | nil => rfl
  | cons letter letters ih =>
      rw [ofLetters]
      split
      next => rfl
      next name _ =>
        cases name.takesValue with
        | false => exact ih
        | true => cases letters <;> grind

/--
What starts with an option is read by itself after other arguments, unless these
end the options: no option before it can take it as a value.
-/
theorem ofArguments_append {skip : Bool} {before : List String} {option : String}
    (hbefore : "--" ∉ before) (hskip : skip = true → before ≠ [])
    (hoption : isOptionLike option = true) :
    ofArguments options skip (before ++ option :: rest) =
      ofArguments options skip before ++ ofArguments options false (option :: rest) := by
  induction before generalizing skip with
  | nil =>
      cases skip with
      | true => exact absurd rfl (hskip rfl)
      | false => rfl
  | cons argument before ih =>
      rw [List.mem_cons, not_or] at hbefore
      cases skip with
      | true =>
          rw [List.cons_append, ofArguments, if_pos rfl, ofArguments, if_pos rfl]
          cases before with
          | nil => rfl
          | cons other before => exact ih hbefore.2 nofun
      | false =>
          -- The argument after this one can be taken as a value in both lists, or in none.
          have hnext : ((before ++ option :: rest).head?.filter fun other => !isOptionLike other) =
              before.head?.filter fun other => !isOptionLike other := by
            cases before with
            | nil => simp [hoption]
            | cons other before => rfl
          have htaken : ∀ found : List ArgumentToken × Bool, (before = [] → found.2 = false) →
              found.1 ++ ofArguments options found.2 (before ++ option :: rest) =
                found.1 ++ ofArguments options found.2 before ++
                  ofArguments options false (option :: rest) := by
            intro found hfound
            have htail : ofArguments options found.2 (before ++ option :: rest) =
                ofArguments options found.2 before ++
                  ofArguments options false (option :: rest) := by
              refine ih hbefore.2 fun hskip hnil => ?_
              rw [hfound hnil] at hskip
              cases hskip
            rw [htail, List.append_assoc]
          rw [List.cons_append, ofArguments, ofArguments, if_neg Bool.false_ne_true,
            if_neg Bool.false_ne_true]
          simp only [hnext]
          split
          next hends =>
            exact absurd (String.toList_inj.1 (hends.trans rfl)).symm hbefore.1
          next word _ _ =>
            refine htaken _ fun hnil => ?_
            rw [hnil]
            exact ofWord_none_snd options _
          next letter letters _ _ _ =>
            refine htaken _ fun hnil => ?_
            rw [hnil]
            exact ofLetters_none_snd options _
          next => exact htaken ([operand argument], false) fun _ => rfl

end Order

section Options

/-- The ways to write the option that names smell types, with its value. -/
inductive Names (value : String) : List String → Prop
  | word : Names value ["--smell-types=" ++ value]
  | wordApart : isOptionLike value = false → Names value ["--smell-types", value]
  | letter : value ≠ "" → (∀ rest, value.toList ≠ '=' :: rest) → Names value ["-s" ++ value]
  | letterSign : Names value ["-s=" ++ value]
  | letterApart : isOptionLike value = false → Names value ["-s", value]

variable {value : String} {arguments : List String}

theorem Names.exists_head (h : Names value arguments) :
    ∃ option taken, arguments = option :: taken ∧ isOptionLike option = true := by
  cases h with
  | word => exact ⟨_, _, rfl, by simp [isOptionLike]⟩
  | wordApart => exact ⟨_, _, rfl, by decide⟩
  | letter => exact ⟨_, _, rfl, by simp [isOptionLike]⟩
  | letterSign => exact ⟨_, _, rfl, by simp [isOptionLike]⟩
  | letterApart => exact ⟨_, _, rfl, by decide⟩

/-- A value that does not look like an option is taken from the next argument. -/
theorem next_of_not_optionLike (h : isOptionLike value = false) (rest : List String) :
    ((value :: rest).head?.filter fun argument => !isOptionLike argument) = some value := by
  rw [List.head?_cons, Option.filter_some, h, Bool.not_false, if_pos rfl]

/-- A letter takes what follows it as its value, without the sign between them. -/
theorem ofLetters_smellTypes (next : Option String) (letters : List Char) :
    ofLetters CommandName.analyze.options next ('s' :: letters) =
      match letters with
      | '=' :: attached => ([.value .smellTypes (String.ofList attached)], false)
      | _ :: _ => ([.value .smellTypes (String.ofList letters)], false)
      | [] =>
          match next with
          | some argument => ([.value .smellTypes argument], true)
          | none => ([wrong], false) := by
  rw [ofLetters]
  rfl

/-- However the option is written, it is one token. -/
theorem ofArguments_option (h : Names value arguments) (rest : List String) :
    ofArguments CommandName.analyze.options false (arguments ++ rest) =
      .value .smellTypes value :: ofArguments CommandName.analyze.options false rest := by
  cases h with
  | word =>
      simp [ofArguments, ofWord, CommandName.options, OptionName.long, OptionName.takesValue]
  | wordApart hvalue =>
      rw [List.cons_append, ofArguments, if_neg Bool.false_ne_true]
      simp only [List.cons_append, List.nil_append, next_of_not_optionLike hvalue]
      simp [ofArguments, ofWord, CommandName.options, OptionName.long, OptionName.takesValue]
  | letter hempty hsign =>
      obtain ⟨c, s, hchars⟩ := List.exists_cons_of_ne_nil (mt String.toList_eq_nil_iff.1 hempty)
      have hother : c ≠ '=' := by
        rintro rfl
        exact hsign s hchars
      have hvalue : String.ofList (c :: s) = value := by
        rw [← hchars, String.ofList_toList]
      simp [ofArguments, ofLetters_smellTypes, hchars, hvalue]
  | letterSign => simp [ofArguments, ofLetters_smellTypes]
  | letterApart hvalue =>
      rw [List.cons_append, ofArguments, if_neg Bool.false_ne_true]
      simp only [List.cons_append, List.nil_append, next_of_not_optionLike hvalue]
      simp [ofArguments, ofLetters_smellTypes]

end Options

end ArgumentToken

namespace ArgumentToken

/-- The smell types that a token names. -/
def names : ArgumentToken → List String
  | .value .smellTypes text => text.splitOn ","
  | _ => []

/-- Whether a token names smell types. -/
def isNaming : ArgumentToken → Bool
  | .value .smellTypes _ => true
  | _ => false

/-- The tokens that do not name smell types. -/
def besides (tokens : List ArgumentToken) : List ArgumentToken :=
  tokens.filter fun token => !token.isNaming

theorem names_of_not_naming {token : ArgumentToken} (h : token.isNaming = false) :
    token.names = [] := by
  cases token with
  | value name text =>
      cases name <;> first | rfl | cases h
  | _ => rfl

end ArgumentToken

namespace ArgumentDraft

open ArgumentToken Fallible

variable {operands : Nat} {token : ArgumentToken} {tokens : List ArgumentToken}

/-- The draft with more smell types, if there are any. -/
def addNames (draft : ArgumentDraft) : List String → ArgumentDraft
  | [] => draft
  | name :: more => { draft with smellTypes := some (draft.smellTypes.getD [] ++ name :: more) }

theorem addNames_addNames (draft : ArgumentDraft) (names more : List String) :
    (draft.addNames names).addNames more = draft.addNames (names ++ more) := by
  cases names with
  | nil => rfl
  | cons name names =>
      cases more with
      | nil => simp [addNames]
      | cons other more => simp [addNames]

theorem smellTypes_addNames (draft : ArgumentDraft) (names : List String) :
    (draft.addNames names).smellTypes.getD [] = draft.smellTypes.getD [] ++ names := by
  cases names with
  | nil => exact (List.append_nil _).symm
  | cons name names => rfl

/-- A token that names smell types adds its names. -/
theorem step_of_naming (h : token.isNaming = true) (draft : ArgumentDraft) :
    step operands draft token = .ok (draft.addNames token.names) := by
  cases token with
  | value name text =>
      cases name with
      | smellTypes =>
          obtain ⟨first, more, hnames⟩ :=
            List.exists_cons_of_ne_nil (Text.splitOn_comma_ne_nil text)
          simp only [step, ArgumentToken.names, hnames, addNames]
      | _ => cases h
  | _ => cases h

/-- Any other token is taken in alike, whatever smell types have been named. -/
theorem step_addNames (h : token.isNaming = false) (draft : ArgumentDraft)
    (names : List String) :
    step operands (draft.addNames names) token =
      (step operands draft token).map fun next => next.addNames names := by
  cases names with
  | nil =>
      have hnone : ∀ draft : ArgumentDraft, draft.addNames [] = draft := fun _ => rfl
      simp only [hnone]
      cases step operands draft token <;> rfl
  | cons name names =>
      cases token with
      | wrong => rfl
      | operand text =>
          simp only [step, addNames, apply_ite (Except.map _)]
          rfl
      | flag option =>
          cases option <;> simp only [step, addNames, apply_ite (Except.map _)] <;> rfl
      | value option text =>
          cases option with
          | smellTypes => cases h
          | format =>
              simp only [step, addNames]
              cases draft.format <;> cases OutputFormat.ofName? text <;> rfl
          | config =>
              simp only [step, addNames, apply_ite (Except.map _)]
              rfl
          | _ => rfl

theorem foldlM_addNames (h : ∀ token ∈ tokens, token.isNaming = false)
    (draft : ArgumentDraft) (names : List String) :
    tokens.foldlM (step operands) (draft.addNames names) =
      (tokens.foldlM (step operands) draft).map fun next => next.addNames names := by
  induction tokens generalizing draft with
  | nil => rfl
  | cons token tokens ih =>
      rw [List.forall_mem_cons] at h
      rw [List.foldlM_cons, List.foldlM_cons, step_addNames h.1]
      cases step operands draft token with
      | error reason => rfl
      | ok next => exact ih h.2 next

/-- The smell types may be taken in after all other tokens. -/
theorem foldlM_step (tokens : List ArgumentToken) (draft : ArgumentDraft) :
    tokens.foldlM (step operands) draft =
      ((besides tokens).foldlM (step operands) draft).map fun next =>
        next.addNames (tokens.flatMap ArgumentToken.names) := by
  induction tokens generalizing draft with
  | nil => rfl
  | cons token tokens ih =>
      have hbesides : ∀ other ∈ besides tokens, other.isNaming = false := by
        intro other hother
        simpa using List.of_mem_filter hother
      rw [List.foldlM_cons, List.flatMap_cons]
      cases htoken : token.isNaming with
      | true =>
          have hskip : besides (token :: tokens) = besides tokens := by
            simp [besides, htoken]
          rw [step_of_naming htoken, Fallible.ok_bind, ih, foldlM_addNames hbesides, hskip]
          cases (besides tokens).foldlM (step operands) draft with
          | error reason => rfl
          | ok next => exact congrArg Except.ok (addNames_addNames next _ _)
      | false =>
          have hkeep : besides (token :: tokens) = token :: besides tokens := by
            simp [besides, htoken]
          rw [hkeep, List.foldlM_cons, names_of_not_naming htoken, List.nil_append]
          cases step operands draft token with
          | error reason => rfl
          | ok next => exact ih next

end ArgumentDraft

section Requests

open ArgumentToken

/-- The tokens of the arguments of an analysis. -/
def ArgumentToken.ofAnalyze (arguments : List String) : List ArgumentToken :=
  ofArguments CommandName.analyze.options false arguments

/-- What is asked for is the same up to the order and repetition of smell types. -/
inductive Request.SameButNames : Option Request → Option Request → Prop
  | same (asked : Option Request) : SameButNames asked asked
  | analyze {request : AnalyzeRequest} {names : List String} :
      (∀ name, name ∈ request.smellTypes ↔ name ∈ names) →
      SameButNames (some (.analyze request))
        (some (.analyze { request with smellTypes := names }))

/-- Command lines with the same other tokens, and the same names, ask for the same. -/
theorem Request.sameButNames_of_tokens {arguments others : List String}
    (hbesides : besides (ofAnalyze others) = besides (ofAnalyze arguments))
    (hnames : ∀ name, name ∈ (ofAnalyze arguments).flatMap names ↔
      name ∈ (ofAnalyze others).flatMap names) :
    SameButNames (ofArguments? ("analyze" :: arguments)) (ofArguments? ("analyze" :: others)) := by
  have hword : ∀ rest, ofArguments? ("analyze" :: rest) = CommandName.analyze.request? rest :=
    fun _ => rfl
  rw [hword, hword, CommandName.request?, CommandName.request?, ← ofAnalyze, ← ofAnalyze]
  simp only [ArgumentDraft.foldlM_step (ofAnalyze arguments),
    ArgumentDraft.foldlM_step (ofAnalyze others), hbesides]
  cases (besides (ofAnalyze arguments)).foldlM (ArgumentDraft.step CommandName.analyze.operands)
      ArgumentDraft.empty with
  | error reason => exact .same _
  | ok draft =>
      have hsame : ∀ name,
          name ∈ (draft.addNames ((ofAnalyze arguments).flatMap names)).smellTypes.getD [] ↔
            name ∈ (draft.addNames ((ofAnalyze others).flatMap names)).smellTypes.getD [] := by
        intro name
        simp only [ArgumentDraft.smellTypes_addNames, List.mem_append, hnames]
      have hrest : ∀ names, draft.addNames names =
          { draft with smellTypes := (draft.addNames names).smellTypes } := by
        intro names
        cases names <;> rfl
      simp only [Except.map]
      rw [hrest ((ofAnalyze arguments).flatMap names), hrest ((ofAnalyze others).flatMap names)]
      cases draft.operand with
      | none => exact .same none
      | some path => exact .analyze hsame

variable {values before : List String} {options : List (List String)}

/-- Options that name smell types are tokens between those before and those after them. -/
theorem ArgumentToken.ofAnalyze_options (hbefore : "--" ∉ before) (hne : values ≠ [])
    (h : List.Forall₂ Names values options) (after : List String) :
    ofAnalyze (before ++ (options.flatten ++ after)) =
      ofAnalyze before ++ (values.map (ArgumentToken.value .smellTypes) ++ ofAnalyze after) := by
  have htokens : ofAnalyze (options.flatten ++ after) =
      values.map (ArgumentToken.value .smellTypes) ++ ofAnalyze after := by
    clear hne
    induction h with
    | nil => rfl
    | cons hoption _ ih =>
        rw [List.flatten_cons, List.append_assoc, ofAnalyze, ofArguments_option hoption,
          ← ofAnalyze, ih]
        rfl
  cases h with
  | nil => exact absurd rfl hne
  | cons hoption =>
      obtain ⟨option, taken, rfl, hlike⟩ := hoption.exists_head
      rw [← htokens, List.flatten_cons, List.cons_append, List.cons_append, ofAnalyze,
        ofArguments_append hbefore (absurd · Bool.false_ne_true) hlike]
      rfl

end Requests

end CodeSmells

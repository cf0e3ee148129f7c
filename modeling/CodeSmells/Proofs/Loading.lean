import CodeSmells.Files.Load
import CodeSmells.Proofs.Fallible

/-!
# Loading texts from files

**Results.**

* `readText_of_resolve`: a path that leads to the bytes of a text is read as the text.
* `load_of_resolve`: a configuration and contexts are loaded from such a path as they are
  read from the text.
* `load_eq_ok_iff`: what the contexts of a dump are loaded from.
* `load_eq_error_iff`: why a configuration or the contexts of a dump are not loaded.
-/

namespace CodeSmells

open Fallible

variable {tree : FileTree} {path : Path} {location : Location} {text : String}

/-- The bytes of a text are those of no other text. -/
theorem fromUTF8_toUTF8 (text : String) : String.fromUTF8? text.toUTF8 = some text := by
  have hvalid : ByteArray.IsValidUTF8 text.toUTF8 := text.isValidUTF8
  rw [String.fromUTF8?, dif_pos hvalid]
  rfl

theorem FileTree.present_of_resolve {entry : Entry} (h : tree.resolve path = .ok entry) :
    tree.present path = true := by
  rw [present, h]

theorem FileTree.readText_of_resolve (h : tree.resolve path = .ok (.file location text.toUTF8)) :
    tree.readText path = .ok text := by
  rw [readText, h]
  simp only [fromUTF8_toUTF8]

theorem Context.load_of_resolve (h : tree.resolve path = .ok (.file location text.toUTF8))
    {contexts : List Context} (hparse : parseDump text = .ok contexts) :
    Context.load tree path = .ok contexts := by
  rw [load, FileTree.readText_of_resolve h]
  simp only [hparse]
  rfl

theorem Config.load_of_resolve (h : tree.resolve path = .ok (.file location text.toUTF8))
    {config : Config} (hparse : parse text = .ok config) :
    Config.load tree path = .ok config := by
  rw [load, if_pos (FileTree.present_of_resolve h), FileTree.readText_of_resolve h]
  simp only [hparse]
  rfl

/-- The contexts of a dump are loaded from a file that holds them as a text. -/
theorem Context.load_eq_ok_iff {contexts : List Context} :
    Context.load tree path = .ok contexts ↔
      ∃ location bytes text, tree.resolve path = .ok (.file location bytes) ∧
        String.fromUTF8? bytes = some text ∧ parseDump text = .ok contexts := by
  rw [load, FileTree.readText]
  cases tree.resolve path with
  | error error => simp
  | ok entry =>
      cases entry with
      | sealed location => simp
      | directory location => simp
      | file location bytes =>
          cases htext : String.fromUTF8? bytes with
          | none => simp [htext]
          | some text =>
              cases hparse : parseDump text <;> simp [htext, hparse, Except.mapError]

/-- A configuration is not loaded if something is there that is no text or no configuration. -/
theorem Config.load_eq_error_iff {failure : Failure} :
    Config.load tree path = .error failure ↔
      tree.present path = true ∧
        ((∃ error, tree.readText path = .error error ∧
            failure = .unreadableConfig path error) ∨
          ∃ text refusal, tree.readText path = .ok text ∧
            Config.parse text = .error refusal ∧
            failure = .invalidConfig path text refusal) := by
  rw [load]
  cases hpresent : tree.present path with
  | false => simp
  | true =>
      cases htext : tree.readText path with
      | error error => simp [eq_comm]
      | ok text => simp [mapError_eq_error_iff]

/-- The contexts of a dump are not loaded if it is no text or no list of contexts. -/
theorem Context.load_eq_error_iff {failure : Failure} :
    Context.load tree path = .error failure ↔
      (∃ error, tree.readText path = .error error ∧
          failure = .unreadableContexts path error) ∨
        ∃ text refusal, tree.readText path = .ok text ∧
          parseDump text = .error refusal ∧
          failure = .invalidContexts path text refusal := by
  rw [load]
  cases htext : tree.readText path with
  | error error => simp [eq_comm]
  | ok text => simp [mapError_eq_error_iff]

end CodeSmells

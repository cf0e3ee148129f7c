import CodeSmells.Glob.Search

/-!
# Patterns for names

A pattern with `*`, `?` or `[` is a glob for the whole name.  Any other pattern
fits the names that contain it, so the empty pattern fits every name.
-/

namespace CodeSmells
namespace NamePattern

/-- Whether a pattern is to be read as a glob. -/
def isGlob (pattern : String) : Bool :=
  pattern.toList.any fun c => c == '*' || c == '?' || c == '['

/-- Whether `part` is a run of characters of `whole`. -/
def occursIn (part whole : String) : Bool :=
  anySuffix part.toList.isPrefixOf whole.toList

/-- Whether a pattern fits a name. -/
def fits (pattern name : String) : Bool :=
  if isGlob pattern then Glob.fits pattern name else occursIn pattern name

/-- Whether one of the patterns fits a name. -/
def anyFits (patterns : List String) (name : String) : Bool :=
  patterns.any fun pattern => fits pattern name

end NamePattern
end CodeSmells

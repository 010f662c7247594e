/-! Regular expressions as queries use them. How a pattern is written and what it matches is left to
whoever answers. -/

namespace DoubleEntry

/-- Reads patterns and finds their matches. Both depend on nothing but the texts that are given. -/
class PatternEngine where
  Compiled : Type
  /-- Reads a pattern; the error says why it cannot. -/
  compile : String → Except String Compiled
  /-- Whether there is a match somewhere in a text. -/
  isMatch : Compiled → String → Bool

/-- A pattern with the text that it was read from. -/
structure Matcher [PatternEngine] where
  source : String
  compiled : PatternEngine.Compiled
  read : PatternEngine.compile source = .ok compiled

namespace Matcher

variable [PatternEngine]

def ofText (source : String) : Except String Matcher :=
  match read : PatternEngine.compile source with
  | .ok compiled => .ok ⟨source, compiled, read⟩
  | .error reason => .error reason

def isMatch (matcher : Matcher) (text : String) : Bool :=
  PatternEngine.isMatch matcher.compiled text

theorem eq_of_source_eq {a b : Matcher} (same : a.source = b.source) : a = b := by
  obtain ⟨source, compiled, read⟩ := a
  obtain ⟨source', compiled', read'⟩ := b
  cases same
  rw [read] at read'
  cases read'
  rfl

instance : DecidableEq Matcher := fun a b =>
  if same : a.source = b.source then isTrue (eq_of_source_eq same)
  else isFalse fun equal => same (equal ▸ rfl)

end Matcher

end DoubleEntry

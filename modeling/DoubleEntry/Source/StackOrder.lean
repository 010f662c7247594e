/-! A well-founded order for work that is kept on a stack of bounded height. Each frame weighs what
it still has to do; frames are compared from the outermost on, so work on an inner frame may grow as
long as an outer one has shrunk. -/

namespace DoubleEntry.Source

/-- Weights of up to `height` frames, outermost first. -/
def StackWeight : Nat → Type
  | 0 => Unit
  | height + 1 => (Nat × Nat) × StackWeight height

namespace StackWeight

/-- The lexicographic order from the outermost frame on. -/
@[reducible] def order : (height : Nat) → WellFoundedRelation (StackWeight height)
  | 0 => emptyWf
  | height + 1 =>
    @Prod.lex (Nat × Nat) (StackWeight height) Prod.instWellFoundedRelation (order height)

instance (height : Nat) : WellFoundedRelation (StackWeight height) := order height

/-- The weights of the first `height` frames; where there is no frame the weight is zero. -/
def ofFrames : (height : Nat) → List (Nat × Nat) → StackWeight height
  | 0, _ => ()
  | height + 1, [] => ((0, 0), ofFrames height [])
  | height + 1, frame :: frames => (frame, ofFrames height frames)

/-- The order of the weights of two frames. -/
def Lighter : Nat × Nat → Nat × Nat → Prop := Prod.Lex (· < ·) (· < ·)

/-- A stack gets lighter when its innermost frame does, whatever is put on top of it. -/
theorem ofFrames_lt {height : Nat} (outer inner : List (Nat × Nat)) {lighter heavier : Nat × Nat}
    (within : outer.length < height) (less : Lighter lighter heavier) :
    (order height).rel (ofFrames height (outer ++ lighter :: inner))
      (ofFrames height (outer ++ [heavier])) := by
  induction outer generalizing height with
  | nil =>
    cases height with
    | zero => simp at within
    | succ height => exact Prod.Lex.left _ _ less
  | cons frame outer ih =>
    cases height with
    | zero => simp at within
    | succ height => exact Prod.Lex.right _ (ih (by simpa using within))

/-- A stack gets lighter when its innermost frame is taken away. -/
theorem ofFrames_dropLast_lt {height : Nat} (outer : List (Nat × Nat)) (last : Nat × Nat)
    (within : outer.length < height) (something : 0 < last.1) :
    (order height).rel (ofFrames height outer) (ofFrames height (outer ++ [last])) := by
  induction outer generalizing height with
  | nil =>
    cases height with
    | zero => simp at within
    | succ height => exact Prod.Lex.left _ _ (Prod.Lex.left _ _ something)
  | cons frame outer ih =>
    cases height with
    | zero => simp at within
    | succ height => exact Prod.Lex.right _ (ih (by simpa using within))

end StackWeight

end DoubleEntry.Source

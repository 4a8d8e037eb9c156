/-!
# Sets of code points as ranges

A set of code points written as inclusive ranges, in increasing order and
apart from each other, the way character properties are tabulated. Membership
asks whether some range holds the code point.
-/

namespace TypeRefs

namespace Text

/-- Inclusive ranges of code points, in increasing order. -/
abbrev CodeRanges := List (Nat × Nat)

/-- Whether a range of the set holds `n`. -/
def CodeRanges.contains (rs : CodeRanges) (n : Nat) : Bool :=
  rs.any fun r => r.1 ≤ n && n ≤ r.2

@[simp] theorem CodeRanges.contains_nil (n : Nat) : CodeRanges.contains [] n = false := rfl

theorem CodeRanges.contains_cons (r : Nat × Nat) (rs : CodeRanges) (n : Nat) :
    CodeRanges.contains (r :: rs) n = ((r.1 ≤ n && n ≤ r.2) || CodeRanges.contains rs n) := by
  simp [CodeRanges.contains, List.any_cons]

end Text

end TypeRefs

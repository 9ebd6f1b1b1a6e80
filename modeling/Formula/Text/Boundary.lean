/-! # Sets of characters by their boundaries

A set of code points is stored as the ascending list of places where membership changes. A code point
belongs to the set when an odd number of boundaries is at or below it.
-/
namespace Formula.Text

/-- Membership of `code`, where `inside` says whether the code points before the list belong. -/
def crossed (inside : Bool) : List Nat → Nat → Bool
  | [], _ => inside
  | bound :: bounds, code => if code < bound then inside else crossed (!inside) bounds code

end Formula.Text

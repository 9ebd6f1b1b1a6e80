/-! # Powers of ten and of two

The scales that decimals and doubles are counted in.
-/
namespace Formula

def tenTo (n : Nat) : Nat := Nat.pow 10 n

def twoTo (n : Nat) : Nat := Nat.pow 2 n

end Formula

/-!
Numbers of a fixed width.

* `fitsBits`: does a number fit into so many bits, one of them for the sign?
-/

namespace StyleTokens

/-- Does a number fit into so many bits, one of them for the sign? -/
def fitsBits (bits : Nat) (n : Int) : Bool :=
  let bound : Int := Nat.pow 2 (bits - 1)
  decide (-bound ≤ n) && decide (n < bound)

end StyleTokens

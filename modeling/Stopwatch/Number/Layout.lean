import Stopwatch.Number.Shortest

/-!
Layouts of doubles: scientific notation with the shortest digits or a fixed number of them, positional notation with the
shortest digits or a fixed number of places.
-/

namespace Stopwatch.Layout

/-- How a layout names what has no digits. -/
def special : Double → Bytes
  | .nan => utf8 "NaN"
  | .infinite true => utf8 "-Inf"
  | _ => utf8 "+Inf"

/-- Lays out the finite numbers and names the others. -/
def layout (finite : Nat → Int → Bytes) (x : Float) : Bytes :=
  match Double.ofFloat x with
  | .finite negative m e => (if negative then [Ascii.minus] else []) ++ finite m e
  | other => special other

/-- The exponent mark with its sign and at least so many digits. -/
def exponentMark (width : Nat) (x : Int) : Bytes :=
  let numeral := Integer.ofNat x.natAbs
  0x65 :: (if x < 0 then Ascii.minus else Ascii.plus)
    :: (List.replicate (width - numeral.length) Ascii.zero ++ numeral)

/-- The digits with a point after the first one. -/
def pointed : Bytes → Bytes
  | d :: rest => if rest.isEmpty then [d] else d :: Ascii.dot :: rest
  | [] => []

/-- Scientific notation of a numeral. -/
def scientificNumeral (width : Nat) (n : Numeral) : Bytes := pointed n.digits ++ exponentMark width n.exponent

/-- Positional notation of a numeral. -/
def positionalNumeral (n : Numeral) : Bytes :=
  if n.exponent < 0 then
    utf8 "0." ++ List.replicate (-n.exponent - 1).toNat Ascii.zero ++ n.digits
  else
    let whole := n.exponent.toNat + 1
    let front := n.digits.take whole
    let back := n.digits.drop whole
    front ++ List.replicate (whole - front.length) Ascii.zero ++ (if back.isEmpty then [] else Ascii.dot :: back)

/-- Scientific notation with the shortest digits: `1.25e+01`. -/
def scientific : Float → Bytes := layout fun m e => scientificNumeral 2 (Shortest.numeral m e)

/-- The digits of `m · 2ᵉ` rounded to so many after the first. -/
def roundedNumeral (places m : Nat) (e : Int) : Numeral :=
  if m = 0 then ⟨List.replicate (places + 1) Ascii.zero, 0⟩
  else
    let r := Double.ratio m e
    let x := Double.leadingExponent r
    let (num, den) := Double.scaleDown r (x - places)
    let n := Double.roundDiv num den
    let digits := Integer.ofNat n
    if places + 1 < digits.length then ⟨digits.take (places + 1), x + 1⟩ else ⟨digits, x⟩

/-- Scientific notation with so many digits after the point. -/
def scientificTo (places : Nat) : Float → Bytes :=
  layout fun m e => scientificNumeral 2 (roundedNumeral places m e)

/-- Positional notation with the shortest digits: `1000`, `2.5`. -/
def positional : Float → Bytes := layout fun m e => positionalNumeral (Shortest.numeral m e)

/-- A whole number of units of 10⁻ᵖ, written with `p` places after the point. -/
def withPlaces (places n : Nat) : Bytes :=
  let digits := Integer.ofNat n
  let padded := List.replicate (places + 1 - digits.length) Ascii.zero ++ digits
  let whole := padded.length - places
  padded.take whole ++ (if places = 0 then [] else Ascii.dot :: padded.drop whole)

/-- Positional notation with a fixed number of places, rounded half to even from the exact value. -/
def fixed (places : Nat) : Float → Bytes :=
  layout fun m e =>
    let (num, den) := Double.scaleDown (Double.ratio m e) (-places)
    withPlaces places (Double.roundDiv num den)

/-- Shortest digits, positional for exponents from -4 to 5, else scientific. -/
def general : Float → Bytes :=
  layout fun m e =>
    let n := Shortest.numeral m e
    if n.exponent < -4 || 6 ≤ n.exponent then scientificNumeral 2 n else positionalNumeral n

end Stopwatch.Layout

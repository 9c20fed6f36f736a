import GlslMaterial.Decimal.Shortest

/-! Written numbers: how a shortest decimal is laid out as text. -/

set_option autoImplicit false

namespace GlslMaterial.Decimal

def digitText (n : Nat) : List Char :=
  Nat.toDigits 10 n

theorem isDigit_of_mem_digitText {n : Nat} {c : Char} (member : c ∈ digitText n) :
    c.isDigit = true :=
  Nat.isDigit_of_mem_toDigits (by decide) (by decide) member

theorem toList_toString (n : Nat) : (toString n).toList = digitText n := by
  simp [digitText, Nat.repr]

/-- Digits with the decimal point in place and no exponent; whole numbers have no point. -/
def positional (d : Scaled) : List Char :=
  let digits := digitText d.digits
  let point : Int := digits.length + d.exponent
  if 0 ≤ d.exponent then digits ++ List.replicate d.exponent.toNat '0'
  else if 0 < point then digits.take point.toNat ++ '.' :: digits.drop point.toNat
  else '0' :: '.' :: (List.replicate (-point).toNat '0' ++ digits)

/-- One digit before the point and an exponent, with `plus` for the sign of one that is not
negative. -/
def scientific (plus : List Char) (d : Scaled) : List Char :=
  let digits := digitText d.digits
  let exponent : Int := digits.length + d.exponent - 1
  let fraction := match digits.drop 1 with
    | [] => []
    | rest => '.' :: rest
  let sign := if exponent < 0 then ['-'] else plus
  digits.take 1 ++ fraction ++ 'e' :: sign ++ digitText exponent.natAbs

def signed (negative : Bool) (text : List Char) : List Char :=
  if negative then '-' :: text else text

/-- Positional text, whatever the size. The sign of zero is kept. -/
def plainText : Bool × Magnitude → List Char
  | (negative, .zero) => signed negative ['0']
  | (negative, .finite b) => signed negative (positional (b.shortest .up))
  | (negative, .infinite) => signed negative "inf".toList
  | (_, .undefined) => "NaN".toList

def plain64 (x : Float) : String :=
  String.ofList (plainText (decode64 x))

def plain32 (x : Float32) : String :=
  String.ofList (plainText (decode32 x))

def withPoint (text : List Char) : List Char :=
  if text.contains '.' then text else text ++ ['.', '0']

/-- The text of a number in an interchange format: it always shows that it is not an integer, and
numbers from `10 ^ 16` on or below `10 ^ -5` have an exponent. -/
def interchangeText : Bool × Magnitude → List Char
  | (negative, .zero) => signed negative ['0', '.', '0']
  | (negative, .finite b) =>
    let d := b.shortest .even
    let leading : Int := (digitText d.digits).length + d.exponent - 1
    signed negative
      (if -5 ≤ leading && leading < 16 then withPoint (positional d) else scientific ['+'] d)
  | _ => "null".toList

def interchange64 (x : Float) : String :=
  String.ofList (interchangeText (decode64 x))

/-- The text of a number in a record that is shown: numbers from `10 ^ 16` on or below `10 ^ -4`
have an exponent. -/
def recordText : Bool × Magnitude → List Char
  | (negative, .zero) => signed negative ['0', '.', '0']
  | (negative, .finite b) =>
    let d := b.shortest .up
    let leading : Int := (digitText d.digits).length + d.exponent - 1
    signed negative
      (if -4 ≤ leading && leading < 16 then withPoint (positional d) else scientific [] d)
  | other => plainText other

def record32 (x : Float32) : String :=
  String.ofList (recordText (decode32 x))

end GlslMaterial.Decimal

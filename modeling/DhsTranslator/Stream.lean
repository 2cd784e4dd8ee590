import DhsTranslator.Keyword

/-!
# Reading values from text

What `std::istringstream >> value` leaves for the types the decoder reads, on the characters of the text. White space
is skipped, the longest prefix of the right form is converted, and the rest of the text stays unread. `none` is the
fail bit.

- `takeNumeral`: the sign and the digits at the front of a text;
- `extractSigned`, `extractUnsigned`: a decimal numeral in the range of the type; an unsigned one may carry a minus
  sign and then wraps around;
- `extractChar`: one byte, for the character types behind `int8_t` and `uint8_t`;
- `extractBool`: with `boolalpha`.
-/

namespace DhsTranslator

/-- What the code gets from outside: the serialiser of the tree library, the conversions of floating point texts, and
what a `bool` holds that a failed extraction was to set. -/
structure Env where
  nodeToString : AxiomNode → String
  readFloat : String → Option CFloat
  readDouble : String → Option CDouble
  failedBool : String → Bool

namespace IStream

/-- `isspace` in the C locale. -/
def isSpace (c : Char) : Bool :=
  c == ' ' || c == '\t' || c == '\n' || c == '\x0b' || c == '\x0c' || c == '\r'

def skipws (s : List Char) : List Char := s.dropWhile isSpace

def digitsVal (ds : List Char) : Nat := ds.foldl (fun n d => 10 * n + (d.toNat - '0'.toNat)) 0

/-- The sign of the numeral at the front, and its digits. -/
def takeNumeral : List Char → Bool × List Char
  | '-' :: s => (true, s.takeWhile Char.isDigit)
  | '+' :: s => (false, s.takeWhile Char.isDigit)
  | s => (false, s.takeWhile Char.isDigit)

/-- `>>` to a signed type with the range from `lo` to `hi`. -/
def extractSigned (lo hi : Int) (s : List Char) : Option Int :=
  let num := takeNumeral (skipws s)
  if num.2 = [] then none
  else
    let n : Int := if num.1 then -digitsVal num.2 else digitsVal num.2
    if lo ≤ n ∧ n ≤ hi then some n else none

/-- `>>` to an unsigned type of `w` bits. -/
def extractUnsigned (w : Nat) (s : List Char) : Option Nat :=
  let num := takeNumeral (skipws s)
  if num.2 = [] then none
  else if digitsVal num.2 < 2 ^ w then
    some (if num.1 then (2 ^ w - digitsVal num.2) % 2 ^ w else digitsVal num.2)
  else none

/-- `>>` to a character: the first byte that is not white space. -/
def extractChar (s : List Char) : Option UInt8 :=
  match skipws s with
  | [] => none
  | c :: _ => (String.utf8EncodeChar c).head?

/-- `>> boolalpha >>`. -/
def extractBool (s : List Char) : Option Bool :=
  if "true".toList <+: skipws s then some true
  else if "false".toList <+: skipws s then some false
  else none

end IStream

/-! ## Reading a value of a C++ type -/

open IStream

/-- What `parseVal<T>` makes of the text of a text node. -/
class ReadText (T : Type) where
  readText : Env → String → Option T

-- the generic reader: the extracted value, unless the stream failed

instance : ReadText Int8 where
  readText _ value := (extractChar value.toList).map fun b => Int8.ofInt b.toNat

instance : ReadText UInt8 where
  readText _ value := extractChar value.toList

instance : ReadText Int16 where
  readText _ value := (extractSigned (-2 ^ 15) (2 ^ 15 - 1) value.toList).map Int16.ofInt

instance : ReadText Int32 where
  readText _ value := (extractSigned (-2 ^ 31) (2 ^ 31 - 1) value.toList).map Int32.ofInt

instance : ReadText UInt16 where
  readText _ value := (extractUnsigned 16 value.toList).map UInt16.ofNat

instance : ReadText UInt32 where
  readText _ value := (extractUnsigned 32 value.toList).map UInt32.ofNat

instance : ReadText CFloat where
  readText env value := env.readFloat value

instance : ReadText CDouble where
  readText env value := env.readDouble value

/-- The reader of `bool` returns its variable whether or not the extraction failed. -/
instance : ReadText Bool where
  readText env value := some ((extractBool value.toList).getD (env.failedBool value))

/-- The reader of strings takes the text as it is. -/
instance : ReadText String where
  readText _ value := some value

end DhsTranslator

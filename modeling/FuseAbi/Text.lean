/-!
# Text as bytes

A name on the wire carries no encoding: it is shown as the bytes it came in. So whatever this library
prints is a sequence of bytes as well, and this module holds the few spellings that every line is made
of: plain words, decimal and hexadecimal numbers, and quotes.

All of them but `quoted` give printable ASCII. A quoted name is the name itself between two quotes, with
nothing escaped, so it may hold any byte that the name holds, a newline or a quote included.
-/

namespace FuseAbi

/-- A sequence of bytes: a request, a name on the wire, or a line of output. -/
abbrev Bytes := List UInt8

/-- The bytes of a list of ASCII characters. -/
def ofChars (l : List Char) : Bytes :=
  l.map fun c => c.toNat.toUInt8

/-- The bytes of a text whose characters are all ASCII. -/
def ascii (s : String) : Bytes :=
  ofChars s.toList

/-- A number in decimal digits, without sign or leading zeros. -/
def decimal (n : Nat) : Bytes :=
  ofChars (Nat.toDigits 10 n)

/-- A number in lower-case hexadecimal digits, without leading zeros. -/
def hexadecimal (n : Nat) : Bytes :=
  ofChars (Nat.toDigits 16 n)

/-- A name between double quotes, as it is. -/
def quoted (name : Bytes) : Bytes :=
  ascii "\"" ++ name ++ ascii "\""

/-- What is left of a text that is taken to end at its first zero byte. -/
def untilZero (s : Bytes) : Bytes :=
  s.takeWhile (· ≠ 0)

/-! ## Numbers at the start of a text -/

/-- White space in front of a number: the blank and the control characters from tab to return. -/
def isBlank (b : UInt8) : Bool :=
  b = 32 || (9 ≤ b && b ≤ 13)

def isDigit (b : UInt8) : Bool :=
  48 ≤ b && b ≤ 57

/-- The number that a text of decimal digits spells; no digits spell zero. -/
def digitsValue (digits : Bytes) : Nat :=
  digits.foldl (fun n b => 10 * n + (b.toNat - 48)) 0

/-- The integer at the start of a text: white space, at most one sign, then digits up to the first byte
that is none. What follows is ignored, and a text without digits there counts as zero.

This is what `atoi` gives where the number is one of 32 bits with a sign. Outside of that range `atoi` promises
nothing, and libraries differ (some stop at the ends of a wider range, some wrap around), so nothing is meant by
the value there. -/
def leadingInt (s : Bytes) : Int :=
  match s.dropWhile isBlank with
  | [] => 0
  | b :: rest =>
    if b = 45 then -(digitsValue (rest.takeWhile isDigit) : Int)
    else if b = 43 then digitsValue (rest.takeWhile isDigit)
    else digitsValue ((b :: rest).takeWhile isDigit)

end FuseAbi

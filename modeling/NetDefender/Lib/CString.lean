import Mathlib.Algebra.Group.Nat.Defs
import Mathlib.Data.List.DropRight

/-!
# Strings of C

Byte strings with the functions of `string.h`, `strings.h`, `ctype.h` and `stdlib.h`
that compare, search and convert them, in the C locale.  A byte string stands for the
memory up to the terminating NUL or beyond it; a function that stops at the first NUL
is applied to `text`.
-/

namespace NetDefender.CString

/-- A byte string. -/
abbrev Bytes := List UInt8

/-- The bytes of a literal. -/
def ascii (literal : String) : Bytes := literal.toUTF8.toList

/-- The string that starts at a pointer: the bytes before the first NUL. -/
def text (bytes : Bytes) : Bytes := bytes.takeWhile (· ≠ 0)

/-- `tolower`. -/
def tolower (byte : UInt8) : UInt8 :=
  if 65 ≤ byte ∧ byte ≤ 90 then byte + 32 else byte

/-- `isdigit`. -/
def isdigit (byte : UInt8) : Bool := 48 ≤ byte ∧ byte ≤ 57

/-- `isspace`. -/
def isspace (byte : UInt8) : Bool := byte = 32 ∨ (9 ≤ byte ∧ byte ≤ 13)

/-- Two strings are the same up to case, as `strcasecmp` returns 0. -/
def sameIgnoringCase (left right : Bytes) : Bool := left.map tolower = right.map tolower

/-- `strstr`: the needle occurs somewhere. -/
def occursIn (needle haystack : Bytes) : Bool :=
  haystack.tails.any fun tail => needle.isPrefixOf tail

/-- `strcasestr`. -/
def occursInIgnoringCase (needle haystack : Bytes) : Bool :=
  occursIn (needle.map tolower) (haystack.map tolower)

/-- The value of a string of digits. -/
def decimal (digits : Bytes) : Nat :=
  digits.foldl (fun value digit => value * 10 + (digit.toNat - 48)) 0

/-- `ULLONG_MAX`. -/
def ULLONG_MAX : Nat := 2 ^ 64 - 1

/-- `strtoull` in base 10: white space, a sign, digits; out of range gives
`ULLONG_MAX`, and a minus negates modulo 2^64. -/
def strtoull (bytes : Bytes) : Nat :=
  let trimmed := bytes.dropWhile isspace
  let negative := trimmed.head? = some 45
  let unsigned := if negative ∨ trimmed.head? = some 43 then trimmed.tail else trimmed
  let value := decimal (unsigned.takeWhile isdigit)
  if value > ULLONG_MAX then ULLONG_MAX
  else if negative then (2 ^ 64 - value) % 2 ^ 64
  else value

/-- `atoi` of a short string of digits. -/
def atoi (digits : Bytes) : Nat := decimal (digits.takeWhile isdigit)

end NetDefender.CString

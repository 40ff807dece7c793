/-
SongSheet/Yaml/Scalar.lean

Writing text as a scalar of a YAML document.

A text is written as it is where that reads back as the same text.  It is put
between single quotes (a single quote inside is doubled) where the plain form
would stand for something else or is not allowed, and between double quotes,
with escapes, where it holds a character that is not printable.
-/
import SongSheet.Yaml.Plain

namespace SongSheet.Yaml.Scalar

/-! ### Characters -/

/-- The characters that are written as they are. -/
def isPrintable (c : Char) : Bool :=
  let n := c.toNat
  (0x20 ≤ n && n ≤ 0x7e) || n == 0x85 || (0xa0 ≤ n && n ≤ 0xd7ff) ||
    (0xe000 ≤ n && n ≤ 0xfffd && n != 0xfeff) || 0x10000 ≤ n

/-- An upper-case hexadecimal digit. -/
def hexDigit (n : Nat) : Char := (Nat.digitChar n).toUpper

/-- The last `width` hexadecimal digits of a number. -/
def hexDigits : Nat → Nat → List Char
  | 0, _ => []
  | width + 1, n => hexDigits width (n / 16) ++ [hexDigit (n % 16)]

/-- A character between double quotes. -/
def escape (c : Char) : List Char :=
  let n := c.toNat
  if c = '"' then ['\\', '"']
  else if c = '\\' then ['\\', '\\']
  else if isPrintable c then [c]
  else match n with
    | 0x00 => ['\\', '0']
    | 0x07 => ['\\', 'a']
    | 0x08 => ['\\', 'b']
    | 0x09 => ['\\', 't']
    | 0x0a => ['\\', 'n']
    | 0x0b => ['\\', 'v']
    | 0x0c => ['\\', 'f']
    | 0x0d => ['\\', 'r']
    | 0x1b => ['\\', 'e']
    | _ =>
        if n ≤ 0xff then '\\' :: 'x' :: hexDigits 2 n
        else if n ≤ 0xffff then '\\' :: 'u' :: hexDigits 4 n
        else '\\' :: 'U' :: hexDigits 8 n

/-! ### Which style -/

/-- The characters that a plain scalar cannot start with. -/
def indicators : List Char :=
  ['#', ',', '[', ']', '\x7b', '\x7d', '&', '*', '!', '|', '>', '\x27', '"', '%', '@', '\x60']

/-- A character that needs a blank behind it to be special, at the start of a scalar. -/
def isLeadIndicator : List Char → Bool
  | ['-'] => true
  | ['?'] => true
  | [':'] => true
  | '-' :: ' ' :: _ => true
  | '?' :: ' ' :: _ => true
  | ':' :: ' ' :: _ => true
  | _ => false

/-- A colon that ends a key, or a hash that starts a comment. -/
def hasInnerIndicator : List Char → Bool
  | [] => false
  | [':'] => true
  | ':' :: ' ' :: _ => true
  | ' ' :: '#' :: _ => true
  | _ :: cs => hasInnerIndicator cs

/-- The text may be written without quotes. -/
def isPlainAllowed (cs : List Char) : Bool :=
  !(['-', '-', '-'].isPrefixOf cs) && !(['.', '.', '.'].isPrefixOf cs) &&
    !(cs.head?.any indicators.contains) && !isLeadIndicator cs && !hasInnerIndicator cs &&
    cs.head? != some ' ' && cs.getLast? != some ' '

/-- The text without quotes stands for itself. -/
def isPlain (cs : List Char) : Bool :=
  isPlainAllowed cs && Plain.ofText cs == .text && !Plain.hasLeadingZero cs

/-! ### Writing -/

/-- Between double quotes. -/
def doubleQuoted (cs : List Char) : List Char := '"' :: cs.flatMap escape ++ ['"']

/-- Between single quotes. -/
def singleQuoted (cs : List Char) : List Char :=
  '\x27' :: cs.flatMap (fun c => if c = '\x27' then [c, c] else [c]) ++ ['\x27']

/-- Writes a text as a scalar. -/
def render (cs : List Char) : List Char :=
  if !cs.all isPrintable then doubleQuoted cs
  else if isPlain cs then cs
  else singleQuoted cs

end SongSheet.Yaml.Scalar

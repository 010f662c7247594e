import DoubleEntry.Text.Blank
import DoubleEntry.Unicode.Category

/-! Properties of characters that are not general categories, and the scripts of characters. -/

namespace DoubleEntry.Unicode

/-- Alphabetic characters that are neither letters nor letter numbers. -/
def otherAlphabetic : RangeTable := .ofText "
  n9 1 t d g0 e 1 1 1 2 1 2 1 1 20 b 1c d 1 7 g 1 2t 7 4 4 2 2 4 1 z 1 u g 2u b 2t 2 3 9 1 3 1 4
  2y 1 1o c 3 7 6 k 1i 2 2 f 1 2 5 3 a 2 t 3 1m 7 2 2 2 2 a 1 a 2 t 3 1m 5 4 2 2 2 4 1 u 2 3 1 b 3
  1m 8 1 3 1 2 l 2 m 3 4 3 1m 7 2 2 2 2 9 2 a 2 u 1 1n 5 3 3 1 3 a 1 14 5 1l 7 1 3 1 3 8 2 b 2 t 3
  1m 7 1 3 1 3 8 2 b 2 f 1 c 4 1m 7 1 3 1 3 a 1 a 2 t 3 23 6 1 1 1 8 i 2 1p 1 2 7 i 1 2r 1 2 6 1 2
  g 1 4j j 9 b 1 10 32 c 1 1 2 4 n 4 4 3 1 3 2 7 3 4 d c 1 1 a 4 19w 2 u 2 u 2 u 2 1u j 58 2 y 1
  3a c 4 9 66 5 1l a 2 k 22 2 b 3 1d 5 1c f 1o 3 u 9 2 2 1l b 1e j bg y 1c1 1g 1rq w nsk 8 y 2 9u
  1 8 1 n 5 2g 2 1e g 1 1 1l 1 12 5 s c 19 4 1c c 11 1 1v e c 1 8 2 19 3 1e 1 1 3 2 2 5 1 18 5 5 1
  6l 8 fn7 1 1nb 5 1ae 3 1 2 5 4 lw 4 1t 1 8x 2 25 3 77 3 1h e 19 2 b 3 19 9 9 1 1p 3 10 c i 2 1l
  3 1c d e 2 2k 9 2 1 6 1 2 1 4d a n 4 1m 7 2 2 2 2 a 1 a 2 2c 9 1 1 2 1 1 4 1 2 2v d 1 3 2y i 6l
  7 2 7 t 2 2a f 1 1 2y b 2v e 75 d 6v 6 1 2 2 2 3 1 1 1 3y 7 2 6 4 1 s a 16 5 1 4 i b 1a e 5k 8
  5j 8 1 7 2b m 1 e 3e 6 3 1 1 2 1 3 1 1 3 1 1u 5 1 2 1 4 9o 4 9 2 1 1 1c 7 3 3 d0d h 2sg 1 1 1j 7
  4 2l 2 f58 1 6zl 7 1 h 2 7 1 2 1 5 2s 1 18z 1 2 1 7 2 5 1 gh 1 1k8 q 6 q 6 q"

/-- Lowercase characters that are no lowercase letters. -/
def otherLowercase : RangeTable := .ofText "
  4q 1 f 1 dx 9 7 2 u 5 2o 1 1g 1 2o1 1 2en 1r d 1 y 11 j5 1 d 1 g d 5v g nk q 1hu 2 o4e 2 5u 1 3k
  4 3 2 o2 4 9 1 i6u 1 2 3 1 16 1 9 16r9 1q"

/-- Uppercase characters that are no uppercase letters. -/
def otherUppercase : RangeTable := .ofText "
  6lc g na q 2ixs q 6 q 6 q"

def isAlphabetic (c : Char) : Bool :=
  inCategory "L" c || inCategory "Nl" c || otherAlphabetic.contains c

def isLowercase (c : Char) : Bool := inCategory "Ll" c || otherLowercase.contains c

def isUppercase (c : Char) : Bool := inCategory "Lu" c || otherUppercase.contains c

/-- A character that joins or separates its neighbours and is not shown. -/
def isJoinControl (c : Char) : Bool := c.toNat == 0x200C || c.toNat == 0x200D

/-- A character of a word: alphabetic, a mark, a digit, or one that connects. -/
def isWord (c : Char) : Bool :=
  isAlphabetic c || inCategory "M" c || inCategory "Nd" c || inCategory "Pc" c || isJoinControl c

/-- A letter or a number of any script. -/
def isAlphanumeric (c : Char) : Bool := isAlphabetic c || inCategory "N" c

/-- The characters of some scripts, by the name of the script in lower case. -/
def scripts : List (String × RangeTable) := [
  ("arabic", .ofText "
    16o 5 1 6 1 e 1 3 1 w 1 a b q 1 30 1 y 28 1c 6o y 5 23 1 t 1bv4 dq 2 40 w g 34 5 1 3r 31f v 1v 6
    8 9 x 6 181s 4 1 r 1 2 1 1 2 1 1 a 1 4 1 1 1 1 6 1 4 1 1 1 1 1 1 3 1 2 1 1 2 1 1 1 1 1 1 1 1 1 1
    2 1 1 2 4 1 7 1 4 1 4 1 1 1 a 1 h 5 3 1 5 1 h 1g 2"),
  ("armenian", .ofText "
    10x 12 2 1e 2 3 1chv 5"),
  ("cyrillic", .ofText "
    sg 3p 2 4p 4ls b 4g 1 24 1 38n w nr4 2o ham 2 18n4 1q x 1"),
  ("devanagari", .ofText "
    1s0 29 4 f 2 q vhc w mio a"),
  ("georgian", .ofText "
    3a8 12 1 1 5 1 2 17 1 4 2a8 17 2 3 37k 12 1 1 5 1"),
  ("greek", .ofText "
    og 4 1 3 2 4 1 1 4 1 1 1 1 3 1 1 1 k 1 1r e g 4yu 5 1e 5 4 5 2c 1 8w m 2 6 2 12 2 6 2 8 1 1 1 1
    1 1 1 v 2 1h 1 f 1 e 2 6 1 j 2 3 1 9 87 1 rb2 1 gyi 27 h 1 155r 1y"),
  ("han", .ofText "
    96o q 1 2h c 5y 1b 1 1 1 p 9 e 4 qs 534 1s g74 hkw a6 2 2y n48 2 c 7 sg9 wyo w 3dq 2 4ge 2 5rl f
    ha 1wi f2 15u 3t7 5 6ju"),
  ("hangul", .ofText "
    3cw 74 5ym 2 75 2m 35 v 1t v nhd t hv 8mc c n 4 1d 7tw v 3 6 2 6 2 6 2 3"),
  ("hebrew", .ofText "
    13l 1j 8 r 4 6 1cfc q 1 5 1 1 1 2 1 2 1 a"),
  ("hiragana", .ofText "
    9j5 2e 6 3 23q9 7z i 1 t 3 crx 1"),
  ("katakana", .ofText "
    9lt 2i 2 3 6o g 5s 1b 1 2g 14b2 a 1 19 ytu 4 1 7 1 2 1 1 7z 3 1e 1 e 4"),
  ("latin", .ofText "
    1t q 6 q 1b 1 f 1 5 n 1 v 1 ch 13 5 55n 12 6 1d 5 4 5 d 1 1y 1t 74 a9 1 d 1 g d 3x 2 6 1 r 1 h
    15 253 w o82 2u 3 2a k f mo 17 1 9 1 4 fpy 7 t6 q 6 q 1lx 6 1 16 1 9 16it v 6 6"),
  ("thai", .ofText "
    2rl 1m 5 s")]

/-- The characters with a property of the given name, in lower case and without separators. -/
def propertyNamed? (name : String) : Option (Char → Bool) :=
  match name with
  | "any" => some fun _ => true
  | "ascii" => some fun c => c.toNat < 128
  | "assigned" => some fun c => categoryOf c != "Cn"
  | "alphabetic" | "alpha" => some isAlphabetic
  | "lowercase" | "lower" => some isLowercase
  | "uppercase" | "upper" => some isUppercase
  | "whitespace" | "wspace" | "space" => some Text.isBlank
  | "joincontrol" | "joinc" => some isJoinControl
  | name => (categoryNamed? name).map inCategory

def scriptNamed? (name : String) : Option (Char → Bool) :=
  (scripts.find? fun entry => entry.1 == name).map fun entry => entry.2.contains

end DoubleEntry.Unicode

import DoubleEntry.Text.Layout

/-! JSON values and their compact text. -/

namespace DoubleEntry

/-- A JSON value. A number is an integer divided by a power of ten. -/
inductive JsonValue where
  | null
  | bool (value : Bool)
  | number (mantissa : Int) (places : Nat)
  | text (text : String)
  | list (items : List JsonValue)
  | object (fields : List (String × JsonValue))
  deriving Inhabited

namespace JsonValue

def hexDigit (number : Nat) : Char := Char.ofNat (if number < 10 then 48 + number else 87 + number)

/-- A character between quotes: quotes, backslashes and control characters are escaped. -/
def quotedChar (c : Char) : List Char :=
  match c with
  | '"' => ['\\', '"']
  | '\\' => ['\\', '\\']
  | '\x08' => ['\\', 'b']
  | '\x0c' => ['\\', 'f']
  | '\n' => ['\\', 'n']
  | '\r' => ['\\', 'r']
  | '\t' => ['\\', 't']
  | c => if c.toNat < 32 then
      ['\\', 'u', '0', '0', hexDigit (c.toNat / 16), hexDigit (c.toNat % 16)]
    else [c]

/-- A text between quotes. -/
def quoted (text : String) : String :=
  String.ofList ('"' :: text.toList.flatMap quotedChar ++ ['"'])

/-- A number. Behind a decimal point stands at least one digit, and no zero that could be
dropped. -/
def numberText (mantissa : Int) (places : Nat) : String :=
  if places == 0 then toString mantissa
  else
    let digits := (Nat.toDigits 10 mantissa.natAbs).leftpad (places + 1) '0'
    let whole := digits.take (digits.length - places)
    let fraction := digits.drop whole.length
    let kept := (fraction.reverse.dropWhile (· == '0')).reverse
    (if mantissa < 0 then "-" else "") ++ String.ofList whole ++ "." ++
      if kept.isEmpty then "0" else String.ofList kept

mutual

def compact : JsonValue → String
  | null => "null"
  | bool value => if value then "true" else "false"
  | number mantissa places => numberText mantissa places
  | text value => quoted value
  | list items => "[" ++ ",".intercalate (compactItems items) ++ "]"
  | object fields => "\x7b" ++ ",".intercalate (compactFields fields) ++ "\x7d"

def compactItems : List JsonValue → List String
  | [] => []
  | item :: items => item.compact :: compactItems items

def compactFields : List (String × JsonValue) → List String
  | [] => []
  | (name, value) :: fields => (quoted name ++ ":" ++ value.compact) :: compactFields fields

end

end JsonValue

end DoubleEntry

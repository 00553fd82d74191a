/-!
# Text of numbers and values

Messages and descriptions write numbers in decimal or in hexadecimal with a `0x` in front, and
composite values as a name followed by labelled fields between braces.
-/

namespace I3cHost.Text

/-- The lower-case hexadecimal digits of a number, without leading zeros. -/
def hexDigits (number : Nat) : String :=
  String.ofList (Nat.toDigits 16 number)

/-- A number in hexadecimal, as in `0x2c`. -/
def hex (number : Nat) : String :=
  "0x" ++ hexDigits number

/-- A byte in hexadecimal with at least two digits, as in `0x08`. -/
def hexByte (byte : UInt8) : String :=
  if byte < 16 then "0x0" ++ hexDigits byte.toNat else hex byte.toNat

/-- A truth value in lower case. -/
def truth (value : Bool) : String :=
  if value then "true" else "false"

/-- Items between square brackets, separated by commas. -/
def bracketed (items : List String) : String :=
  "[" ++ ", ".intercalate items ++ "]"

/-- A name followed by labelled fields between braces. -/
def labelled (name : String) (fields : List (String × String)) : String :=
  name ++ " \x7b " ++
    ", ".intercalate (fields.map fun field ↦ field.1 ++ ": " ++ field.2) ++ " \x7d"

/-- A name applied to one argument. -/
def applied (name argument : String) : String :=
  name ++ "(" ++ argument ++ ")"

/-- A value that may be missing. -/
def optional : Option String → String
  | none => "None"
  | some value => applied "Some" value

/-- The bytes of a buffer in decimal. -/
def bytes (buffer : List UInt8) : String :=
  bracketed (buffer.map fun byte ↦ toString byte.toNat)

end I3cHost.Text

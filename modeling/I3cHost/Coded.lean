import I3cHost.Codec.Error

/-!
# Enumerations with numeric codes

The class writes every enumeration as a number. `Coded` lists the values of an enumeration with
their codes, and reading a code finds the one value that has it. `ofCode?_code` and
`code_of_ofCode?` say that reading and writing codes are inverse to each other.
-/

namespace I3cHost

/-- A finite type whose values are written as distinct numbers. -/
class Coded (α : Type) where
  /-- What the number stands for, as named in errors. -/
  subject : String
  /-- Every value, in the order of the codes. -/
  values : List α
  /-- The number a value is written as. -/
  code : α → Nat
  /-- The name of a value. -/
  label : α → String
  /-- No value is missing from `values`. -/
  mem_values : ∀ value : α, value ∈ values
  /-- Different values have different codes. -/
  code_injective : ∀ left right : α, code left = code right → left = right

namespace Coded

variable {α : Type} [Coded α]

/-- The value with a code, if there is one. -/
def ofCode? (number : Nat) : Option α :=
  values.find? fun value ↦ code value == number

/-- The value with a code, or the error that names the field and the number. -/
def decode (number : Nat) : CodecResult α :=
  match ofCode? number with
  | some value => .ok value
  | none => .error (.invalidField (subject α) (UInt32.ofNat number))

/-- The value with a code given as a byte. -/
def ofByte (byte : UInt8) : CodecResult α :=
  decode byte.toNat

/-- The value with a code given as a 16-bit word. -/
def ofWord16 (word : UInt16) : CodecResult α :=
  decode word.toNat

/-- The code of a value as a byte. -/
def byte (value : α) : UInt8 :=
  UInt8.ofNat (code value)

/-- The code of a value as a 16-bit word. -/
def word16 (value : α) : UInt16 :=
  UInt16.ofNat (code value)

/-- Reading finds only values that have the code. -/
theorem code_of_ofCode? {number : Nat} {value : α} (h : ofCode? number = some value) :
    code value = number := by
  simpa using List.find?_some h

/-- The code of a value reads back as this value. -/
@[simp] theorem ofCode?_code (value : α) : ofCode? (code value) = some value := by
  cases h : (ofCode? (code value) : Option α) with
  | none =>
      have := List.find?_eq_none.1 h value (mem_values value)
      simp at this
  | some found => rw [code_injective found value (code_of_ofCode? h)]

/-- Decoding accepts exactly the codes of values. -/
theorem decode_eq_ok_iff {number : Nat} {value : α} :
    decode number = .ok value ↔ code value = number := by
  constructor
  · intro h
    unfold decode at h
    split at h
    · next found hfound =>
      cases h
      exact code_of_ofCode? hfound
    · cases h
  · rintro rfl
    simp [decode]

end Coded

end I3cHost

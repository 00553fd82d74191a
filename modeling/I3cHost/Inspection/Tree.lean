import I3cHost.Bytes
import I3cHost.Coded
import I3cHost.ProvisionedId

/-!
# Values laid out for inspection

Whoever watches a session wants to see the fields of a record by name. `Tree` is the form in which
every value can be shown, and `Inspect` says how a type is laid out. A tree shows everything that
has a meaning; reserved bytes are left out.
-/

namespace I3cHost

/-- A value laid out for inspection. -/
inductive Tree where
  /-- Stands for a value that is missing. -/
  | absent
  | flag (value : Bool)
  | number (value : Nat)
  | text (content : String)
  | bytes (content : Bytes)
  | items (items : List Tree)
  | fields (fields : List (String × Tree))
  deriving Inhabited

/-- A type whose values can be laid out. -/
class Inspect (α : Type) where
  /-- The layout of a value. -/
  tree : α → Tree

export Inspect (tree)

instance : Inspect Tree := ⟨id⟩

instance : Inspect Bool := ⟨.flag⟩

instance : Inspect Nat := ⟨.number⟩

instance : Inspect UInt8 := ⟨fun number ↦ .number number.toNat⟩

instance : Inspect UInt16 := ⟨fun number ↦ .number number.toNat⟩

instance : Inspect UInt32 := ⟨fun number ↦ .number number.toNat⟩

instance : Inspect String := ⟨.text⟩

/-- An operation that returns nothing shows that it went well. -/
instance : Inspect Unit := ⟨fun _ ↦ .text "ok"⟩

/-- Enumerations show the name of a value. -/
instance {α : Type} [Coded α] : Inspect α := ⟨fun value ↦ .text (Coded.label value)⟩

instance {α : Type} [Inspect α] : Inspect (Option α) where
  tree
    | none => .absent
    | some value => tree value

instance {ε α : Type} [Inspect ε] [Inspect α] : Inspect (Except ε α) where
  tree
    | .ok value => tree value
    | .error error => tree error

instance {α : Type} [Inspect α] : Inspect (List α) := ⟨fun values ↦ .items (values.map tree)⟩

/-- Buffers are shown as such and not as lists of numbers. -/
instance (priority := high) : Inspect Bytes := ⟨.bytes⟩

/-- Identifiers are shown in hexadecimal with all twelve digits. -/
instance : Inspect ProvisionedId where
  tree identifier :=
    let digits := Nat.toDigits 16 identifier.toNat
    .text (String.ofList (List.replicate (12 - digits.length) '0' ++ digits))

/-- The layout of a failure: its kind and the sentence that describes it. -/
def Tree.failure (kind message : String) : Tree :=
  .fields [("error", .text kind), ("message", .text message)]

end I3cHost

/-! The words that qualify declarations, parameters and types: visibility, virtuality, the way an
argument is passed, nullability, the primitive types and the kinds of pointer, array, callable and
loop. -/

namespace SourcePrinter

/-- Who may see a declaration. -/
inductive Visibility where
  | unspecified
  | hidden
  | unit
  | assembly
  | inherited
  | everyone
  deriving DecidableEq, Repr

/-- How a member takes part in overriding. -/
inductive Virtuality where
  | none
  | virtual
  | abstract
  | override
  | final
  deriving DecidableEq, Repr

/-- How an argument is passed. -/
inductive ParameterModifier where
  | value
  | out
  | byReference
  | readOnly
  | variadic
  deriving DecidableEq, Repr

/-- Whether a type may hold an absent value, and whether access must unwrap it. -/
inductive Nullability where
  /-- Left to the kind of type. -/
  | default
  | notNullable
  /-- Absent values are allowed and access needs no unwrapping. -/
  | nullableUnwrapped
  /-- Absent values are allowed and access must unwrap. -/
  | nullableNotUnwrapped
  | unknown
  deriving DecidableEq, Repr

namespace Nullability

/-- Every nullability, once. -/
def all : List Nullability :=
  [default, notNullable, nullableUnwrapped, nullableNotUnwrapped, unknown]

theorem mem_all (n : Nullability) : n ∈ all := by cases n <;> decide

def name : Nullability → String
  | default => "Default"
  | notNullable => "NotNullable"
  | nullableUnwrapped => "NullableUnwrapped"
  | nullableNotUnwrapped => "NullableNotUnwrapped"
  | unknown => "Unknown"

/-- An absent value is allowed. -/
def isNullable : Nullability → Bool
  | nullableUnwrapped | nullableNotUnwrapped => true
  | _ => false

end Nullability

inductive PredefinedType where
  | int8
  | uint8
  | int16
  | uint16
  | int32
  | uint32
  | int64
  | uint64
  | intPtr
  | uintPtr
  | single
  | double
  | boolean
  | char
  | string
  | object
  | dynamic
  | void
  deriving DecidableEq, Repr

namespace PredefinedType

/-- Whole numbers of any width. -/
def isInteger : PredefinedType → Bool
  | int8 | uint8 | int16 | uint16 | int32 | uint32 | int64 | uint64 | intPtr | uintPtr => true
  | _ => false

/-- Floating-point numbers. -/
def isFloatingPoint : PredefinedType → Bool
  | single | double => true
  | _ => false

/-- Types that hold their data in place, and so hold no absent value by default. -/
def isValueType : PredefinedType → Bool
  | string | object | dynamic | void => false
  | _ => true

end PredefinedType

/-- Whether a pointer type is a raw pointer or a reference. -/
inductive PointerKind where
  | pointer
  | reference
  deriving DecidableEq, Repr

/-- Where the elements of an array live. -/
inductive ArrayKind where
  | static
  | dynamic
  | inline
  deriving DecidableEq, Repr

/-- What a callable type captures. -/
inductive BlockKind where
  | block
  | functionPointer
  | method
  deriving DecidableEq, Repr

/-- The direction of a counting loop. -/
inductive Direction where
  | forward
  | backward
  deriving DecidableEq, Repr

/-- The bounds of one dimension of an array; the upper one may be open. -/
structure Bounds where
  start : Int
  stop : Option Int
  deriving DecidableEq, Repr

end SourcePrinter

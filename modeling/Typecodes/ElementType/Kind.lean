/-! Kinds of numbers that an array can hold. The sixteen scalar kinds have the byte codes 0 to 15;
twelve of them are elementary and have a typecode fixed in advance.
-/

namespace Typecodes

/-- A code that stands for no member of the named enumeration. -/
structure UnknownCode where
  enumeration : String
  code : UInt8
deriving DecidableEq

/-- The wording for a code that stands for nothing. -/
def UnknownCode.message (unknown : UnknownCode) : String :=
  s!"No discriminant in enum `{unknown.enumeration}` matches the value `{unknown.code.toNat}`"

/-- The kinds of numbers an array element can be. -/
inductive ScalarKind where
  | bool
  | int8
  | uint8
  | int16
  | uint16
  | int32
  | uint32
  | int64
  | uint64
  | float16
  | float32
  | float64
  | longDouble
  | complex64
  | complex128
  | complexLongDouble
deriving DecidableEq, Hashable

/-- The twelve scalar kinds whose typecodes are known before any value is classified. -/
inductive ElementaryKind where
  | int8
  | int16
  | int32
  | int64
  | uint8
  | uint16
  | uint32
  | uint64
  | float32
  | float64
  | complex64
  | complex128
deriving DecidableEq, Hashable

namespace ScalarKind

/-- Every scalar kind, in the order of the codes. -/
def all : List ScalarKind :=
  [bool, int8, uint8, int16, uint16, int32, uint32, int64, uint64, float16, float32, float64,
    longDouble, complex64, complex128, complexLongDouble]

/-- The byte that stands for a kind. -/
def code : ScalarKind → UInt8
  | bool => 0
  | int8 => 1
  | uint8 => 2
  | int16 => 3
  | uint16 => 4
  | int32 => 5
  | uint32 => 6
  | int64 => 7
  | uint64 => 8
  | float16 => 9
  | float32 => 10
  | float64 => 11
  | longDouble => 12
  | complex64 => 13
  | complex128 => 14
  | complexLongDouble => 15

/-- The kind that a byte stands for. -/
def ofCode (code : UInt8) : Except UnknownCode ScalarKind :=
  match all.find? (fun kind => kind.code = code) with
  | some kind => .ok kind
  | none => .error ⟨"ScalarKind", code⟩

/-- The lower-case name of a kind. -/
def name : ScalarKind → String
  | bool => "bool"
  | int8 => "int8"
  | uint8 => "uint8"
  | int16 => "int16"
  | uint16 => "uint16"
  | int32 => "int32"
  | uint32 => "uint32"
  | int64 => "int64"
  | uint64 => "uint64"
  | float16 => "float16"
  | float32 => "float32"
  | float64 => "float64"
  | longDouble => "longdouble"
  | complex64 => "complex64"
  | complex128 => "complex128"
  | complexLongDouble => "clongdouble"

/-- The capitalised name of a kind, as the long forms write it. -/
def inspect : ScalarKind → String
  | bool => "Bool"
  | int8 => "Int8"
  | uint8 => "Uint8"
  | int16 => "Int16"
  | uint16 => "Uint16"
  | int32 => "Int32"
  | uint32 => "Uint32"
  | int64 => "Int64"
  | uint64 => "Uint64"
  | float16 => "Float16"
  | float32 => "Float32"
  | float64 => "Float64"
  | longDouble => "LongDouble"
  | complex64 => "Complex64"
  | complex128 => "Complex128"
  | complexLongDouble => "CLongDouble"

/-- The elementary kind of the same numbers, for the twelve kinds that have one. -/
def elementary? : ScalarKind → Option ElementaryKind
  | int8 => some .int8
  | uint8 => some .uint8
  | int16 => some .int16
  | uint16 => some .uint16
  | int32 => some .int32
  | uint32 => some .uint32
  | int64 => some .int64
  | uint64 => some .uint64
  | float32 => some .float32
  | float64 => some .float64
  | complex64 => some .complex64
  | complex128 => some .complex128
  | bool | float16 | longDouble | complexLongDouble => none

/-- The kind of pointer-sized signed integers on a 64-bit machine. -/
def pointerSized : ScalarKind :=
  int64

-----------------------------------------------------------------------------------------
-- Codes and kinds determine each other
-----------------------------------------------------------------------------------------

theorem ofCode_code (kind : ScalarKind) : ofCode kind.code = .ok kind := by
  cases kind <;> rfl

/-- No two kinds share a code. -/
theorem code_inj {first second : ScalarKind} (same : first.code = second.code)
    : first = second := by
  have decoded := ofCode_code first
  rw [same, ofCode_code second] at decoded
  exact (Except.ok.inj decoded).symm

end ScalarKind

namespace ElementaryKind

/-- The number of elementary kinds. -/
abbrev count : Nat := 12

/-- Every elementary kind, in table order. -/
def all : List ElementaryKind :=
  [int8, int16, int32, int64, uint8, uint16, uint32, uint64, float32, float64, complex64,
    complex128]

/-- The position of a kind in table order. -/
def index : ElementaryKind → Fin count
  | int8 => 0
  | int16 => 1
  | int32 => 2
  | int64 => 3
  | uint8 => 4
  | uint16 => 5
  | uint32 => 6
  | uint64 => 7
  | float32 => 8
  | float64 => 9
  | complex64 => 10
  | complex128 => 11

/-- The scalar kind of the same numbers. -/
def scalar : ElementaryKind → ScalarKind
  | int8 => .int8
  | int16 => .int16
  | int32 => .int32
  | int64 => .int64
  | uint8 => .uint8
  | uint16 => .uint16
  | uint32 => .uint32
  | uint64 => .uint64
  | float32 => .float32
  | float64 => .float64
  | complex64 => .complex64
  | complex128 => .complex128

/-- The name under which a kind's typecode is announced. -/
def name (kind : ElementaryKind) : String :=
  kind.scalar.name

/-- The capitalised name of a kind. -/
def inspect (kind : ElementaryKind) : String :=
  kind.scalar.inspect

-----------------------------------------------------------------------------------------
-- The elementary kinds among all kinds
-----------------------------------------------------------------------------------------

theorem elementary?_scalar (kind : ElementaryKind) : kind.scalar.elementary? = some kind := by
  cases kind <;> rfl

/-- The scalar kinds that are elementary are those of the elementary kinds. -/
theorem elementary?_eq_some {kind : ElementaryKind} {scalar : ScalarKind}
    : scalar.elementary? = some kind ↔ scalar = kind.scalar := by
  constructor
  · intro elementary
    cases scalar
      <;> simp only [ScalarKind.elementary?, Option.some.injEq, reduceCtorEq] at elementary
      <;> subst elementary
      <;> rfl
  · rintro rfl
    exact elementary?_scalar kind

theorem mem_all (kind : ElementaryKind) : kind ∈ all := by
  cases kind <;> decide

/-- No two kinds share a position. -/
theorem index_inj {first second : ElementaryKind} (same : first.index = second.index)
    : first = second := by
  revert same
  cases first <;> cases second <;> decide

end ElementaryKind

end Typecodes

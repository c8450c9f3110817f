import Typecodes.Layout

/-! Views of buffers. An exporter is asked for a writable or a read-only view and either grants one,
described by its attributes, or refuses with a cause.
-/

namespace Typecodes

/-- The kind of view asked for. -/
inductive BufferRequest where
  | writable
  | readOnly
deriving DecidableEq

/-- The attributes of a granted view. -/
structure View where
  rank : UInt32
  contiguity : Contiguity
  readOnly : Bool
  /-- The item format, such as `<d`, where the exporter gives one. -/
  format : Option String
deriving DecidableEq

/-- The layout class of a view. -/
def View.layout (view : View) : Layout :=
  Layout.classify view.contiguity

/-- Why an exporter grants no view. -/
inductive Refusal where
  /-- The memory may not be written. -/
  | notWritable
  /-- The object exports no memory. -/
  | unsupported
  /-- The exporter failed in its own way. -/
  | other (message : String)
deriving DecidableEq

/-- The wording of a refusal. -/
def Refusal.message : Refusal → String
  | notWritable => "buffer is not writable"
  | unsupported => "object does not support the buffer protocol"
  | other message => s!"buffer export failed: {message}"

/-- An exporter's answer to a request. -/
abbrev BufferReply := Except Refusal View

end Typecodes

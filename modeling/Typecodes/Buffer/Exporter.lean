import Typecodes.Buffer.View
import Typecodes.Identity

/-! Buffer exporters and what happens to them. An exporter answers a request from everything that
happened to exporters before, so its answers may change from one request to the next.
-/

namespace Typecodes

/-- Something that happened to an exporter. The handle tells exporters apart that have the same
runtime type.
-/
inductive BufferEvent where
  /-- A view was asked for, and the exporter gave this reply. -/
  | asked (handle : Nat) (runtimeType : Identity) (request : BufferRequest) (reply : BufferReply)
  /-- A granted view was given back. -/
  | released (handle : Nat) (runtimeType : Identity) (view : View)

namespace BufferEvent

/-- Whether the event is a request of the given kind to the given exporter. -/
def isRequest (handle : Nat) (request : BufferRequest) : BufferEvent → Bool
  | asked other _ kind _ => other = handle ∧ kind = request
  | released _ _ _ => false

/-- The line that reports an event. -/
def display : BufferEvent → String
  | asked _ runtimeType request reply =>
      let kind := match request with
        | .writable => "W"
        | .readOnly => "R"
      let outcome := match reply with
        | .ok _ => "ok"
        | .error _ => "err"
      s!"{kind} {runtimeType.word.toNat} {outcome}"
  | released _ runtimeType view => s!"release {runtimeType.word.toNat} {view.rank.toNat}d"

end BufferEvent

/-- An object that exports memory through views. Its reply may depend on all earlier events, which
are given newest first.
-/
structure Exporter where
  handle : Nat
  runtimeType : Identity
  reply : List BufferEvent → BufferRequest → BufferReply

namespace Exporter

/-- The reply at a position of a script; past the end the last reply repeats. -/
def replyAt : List BufferReply → Nat → BufferReply
  | [], _ => .error .unsupported
  | [reply], _ => reply
  | reply :: _, 0 => reply
  | _ :: rest, position + 1 => replyAt rest position

/-- An exporter that answers from two scripts, one for each kind of request. The position in a
script is the number of earlier requests of its kind.
-/
def scripted (handle : Nat) (runtimeType : Identity) (writable readOnly : List BufferReply)
    : Exporter where
  handle
  runtimeType
  reply history request :=
    let script := match request with
      | .writable => writable
      | .readOnly => readOnly
    replyAt script (history.countP (BufferEvent.isRequest handle request))

/-- An exporter is steady if its replies depend on the request alone. -/
def Steady (exporter : Exporter) : Prop :=
  ∀ earlier later request, exporter.reply earlier request = exporter.reply later request

end Exporter

end Typecodes

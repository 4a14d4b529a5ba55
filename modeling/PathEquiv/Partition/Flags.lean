import PathEquiv.Json.Record

set_option autoImplicit false

namespace PathEquiv

structure Flags where
  isError : Bool := false
  isTimeout : Bool := false
  isDepthLimited : Bool := false
  deriving DecidableEq, Repr, Inhabited

namespace Flags

def toJson (flags : Flags) : Json :=
  .obj [
    ("is_error", .bool flags.isError),
    ("is_timeout", .bool flags.isTimeout),
    ("is_depth_limited", .bool flags.isDepthLimited)]

def ofJson? (document : Json) : Option Flags := do
  let names := ["is_error", "is_timeout", "is_depth_limited"]
  let [isError, isTimeout, isDepthLimited] ← document.record? names .refused | none
  return {
    isError := ← Json.withDefault? false Json.bool? isError
    isTimeout := ← Json.withDefault? false Json.bool? isTimeout
    isDepthLimited := ← Json.withDefault? false Json.bool? isDepthLimited }

end Flags

end PathEquiv

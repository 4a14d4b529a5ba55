import PathEquiv.Run.Engine

set_option autoImplicit false

namespace PathEquiv

inductive Outcome where
  | compared (equivalent : Bool)
  | depthLimited
  | choiceCaptured
  | skipped (error : String)
  deriving DecidableEq, Repr, Inhabited

def Outcome.toJson : Outcome → Json
  | .compared equivalent =>
      .obj [("outcome", .str "compared"), ("equivalent", .bool equivalent)]
  | .depthLimited => .obj [("outcome", .str "depth_limited")]
  | .choiceCaptured => .obj [("outcome", .str "choice_captured")]
  | .skipped error => .obj [("outcome", .str "skipped"), ("error", .str error)]

namespace Run

variable {σ : Type}

def step (host : Host σ) (setup : Setup) : Event → RunM σ Outcome
  | .comparison site => do
      let record ← compare host setup site
      return .compared record.equivalent
  | .depthLimit condition => do
      let _ ← limitDepth host setup condition
      return .depthLimited
  | .choice state number condition => do
      captureChoice host setup state number condition
      return .choiceCaptured

def stepOrSkip (host : Host σ) (setup : Setup) (event : Event) : RunM σ Outcome :=
  tryCatch (step host setup event) fun e =>
    if e.isFatal then throw e else return .skipped e.message

def replay (host : Host σ) (setup : Setup) : List Event → RunM σ (List Outcome)
  | [] => return []
  | event :: events => do
      let outcome ← stepOrSkip host setup event
      return outcome :: (← replay host setup events)

end Run

end PathEquiv

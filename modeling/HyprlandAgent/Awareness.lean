import HyprlandAgent.Effects

-- Meta-cognition: loop detection and post-action visual verification.
namespace HyprlandAgent

structure LoopDetector where
  history : List Json := []
  window : Nat := 6
  repeatThreshold : Nat := 3

def LoopDetector.key (action : Action) : Json :=
  (Json.obj [("kind",.str action.kind.value),("params",action.params.toJson)]).sortKeys

def LoopDetector.observe (detector : LoopDetector) (action : Action) : LoopDetector × Bool :=
  let key := LoopDetector.key action
  let history := detector.history ++ [key]
  let history := history.drop (history.length - detector.window)
  ({ detector with history := history },(history.filter (· == key)).length ≥ detector.repeatThreshold)

def ActionKind.visual : ActionKind → Bool
  | .mouseMove | .click | .scroll | .focusWindow | .dispatch => true
  | _ => false

def ActionResult.annotate (result : ActionResult) (preHash postHash : String) : ActionResult :=
  { result with preHash := some preHash, postHash := some postHash }

end HyprlandAgent

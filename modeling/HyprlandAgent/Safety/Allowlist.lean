import HyprlandAgent.Safety.Fnmatch
import HyprlandAgent.Schemas

-- The window allowlist: which windows the agent may act on.
namespace HyprlandAgent
open Fnmatch

def alwaysDeny : List String := ["1password","_1password","keepassxc","gnome-keyring"]

-- One entry under `allow:`; a key left out stands for "*".
structure AllowRule where
  class_ : Option String := none
  title : Option String := none
  deriving DecidableEq, Repr

section
-- `str.lower`, of which nothing below depends on more than that it is a function.
variable (lower : String → String)

def alwaysDenied (window : Window) : Bool := alwaysDeny.contains (lower window.appClass)

def AllowRule.allows (rule : AllowRule) (window : Window) : Bool :=
  fnmatch (lower window.appClass) (lower (rule.class_.getD "*")) &&
    fnmatch (lower window.title) (lower (rule.title.getD "*"))

def isAllowed (rules : List AllowRule) (window : Window) : Bool :=
  !alwaysDenied lower window && rules.any fun rule => rule.allows lower window

-- The miss counter that the allowlist miner drains; windows that are always
-- denied are not counted.
abbrev Misses := String × String → Nat

def recordMiss (rules : List AllowRule) (window : Window) (misses : Misses) : Misses :=
  if alwaysDenied lower window || isAllowed lower rules window then misses
  else fun entry => if entry = (window.appClass,window.title) then misses entry + 1 else misses entry

variable {lower}

theorem not_allowed_of_denied (rules : List AllowRule) {window : Window}
    (denied : lower window.appClass ∈ alwaysDeny) : isAllowed lower rules window = false := by
  simp [isAllowed,alwaysDenied,denied]

end
end HyprlandAgent

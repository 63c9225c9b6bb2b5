namespace InlineQuery.CommandLine

/-- Where log records go: whether the debug flag is set, whether records are shown, and the lowest
level that counts. -/
structure Log where
  isDebug : Bool
  isShown : Bool
  level : Nat
  deriving DecidableEq, Repr, Inhabited

namespace Log

/-- Nothing is shown and every level counts. -/
def initial : Log := ⟨false, false, 0⟩

def debugLevel : Nat := 10

def warningLevel : Nat := 30

/-- Shows records: all from the debug level on, or only warnings. -/
def open_ (isDebug : Bool) : Log := ⟨isDebug, true, if isDebug then debugLevel else warningLevel⟩

/-- Shows no records any more. The level stays. -/
def reset (log : Log) : Log := { log with isDebug := false, isShown := false }

end Log
end InlineQuery.CommandLine

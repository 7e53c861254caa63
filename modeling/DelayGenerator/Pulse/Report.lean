/-
This file reports how the instrument took a protocol.
-/

namespace DelayGenerator

/-- What became of a protocol: whether it was not sent at all, how many directives were tried, and
which of them were not acknowledged. -/
structure CommitReport where
  skipped : Bool
  attempted : Nat
  failed : List String
  deriving DecidableEq

namespace CommitReport

/-- Nothing is sent without a connection. -/
def withoutConnection : CommitReport := ⟨true, 0, []⟩

def isSuccess (report : CommitReport) : Bool := !report.skipped && report.failed.isEmpty

def message (report : CommitReport) : String :=
  if report.skipped then "COMMIT SUCCESS; trigger is not active"
  else if report.failed.isEmpty then "COMMIT SUCCESS; (trigger is active)"
  else
    "COMMIT FAILED; " ++ toString report.failed.length ++ " of " ++ toString report.attempted
      ++ " directives not acknowledged: " ++ ", ".intercalate report.failed

end CommitReport

end DelayGenerator

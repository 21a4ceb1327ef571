import FlowControl.Proofs.Sizing.Capacity
import FlowControl.Sizing.Session

/-!
# The handles of a session

What the operations of a session leave of its handles and of its log, so that nobody has to look at
how a session keeps them. A report is the only one that may write to the log, and none of them sets
a read limit that was not asked for.
-/

set_option autoImplicit false

namespace FlowControl

namespace SizingSession

variable {s : SizingSession} {i : Nat} {h : RecvHandle}

theorem handleAt_of_getElem? (hi : s.handles[i]? = some h) : s.handleAt i = h := by
  rw [handleAt, List.getD_eq_getElem?_getD, hi, Option.getD_some]

theorem handleAt_of_set {handles : List RecvHandle} (hi : i < handles.length)
    (hs : s.handles = handles.set i h) : s.handleAt i = h :=
  handleAt_of_getElem? (by rw [hs, List.getElem?_set_self hi])

/-- A report reaches the handle, and the log if it resizes the buffer. -/
theorem report_eq (i bytes capacity : Nat) (s : SizingSession) :
    host.report i bytes capacity s =
      { s with
        handles := s.handles.set i ((s.handleAt i).report bytes capacity)
        notices := s.notices ++ ((s.handleAt i).resize? bytes capacity).toList } := by
  have hhandle : host.handle i s = s.handleAt i := rfl
  unfold HandleHost.report
  rw [hhandle]
  cases (s.handleAt i).resize? bytes capacity with
  | none => simp [host, HandleHost.modify]
  | some n => rfl

theorem report_handles (i bytes capacity : Nat) (s : SizingSession) :
    (host.report i bytes capacity s).handles
      = s.handles.set i ((s.handleAt i).report bytes capacity) := by
  rw [report_eq]

/-- A report sets no limit. -/
theorem limit_handleAt_report (i bytes capacity : Nat) (s : SizingSession) :
    ((host.report i bytes capacity s).handleAt i).limit = (s.handleAt i).limit := by
  rcases Nat.lt_or_ge i s.handles.length with hlt | hge
  · rw [handleAt_of_set hlt (report_handles i bytes capacity s)]
    rfl
  · -- A number that was never given out stands for a fresh handle, before the report and after it.
    rw [report_eq, List.set_eq_of_length_le hge]
    rfl

theorem limit_handleAt_reportPositive (i bytes capacity : Nat) (s : SizingSession) :
    ((host.reportPositive i bytes capacity s).handleAt i).limit = (s.handleAt i).limit := by
  unfold HandleHost.reportPositive
  split
  · rfl
  · exact limit_handleAt_report i bytes capacity s

end SizingSession

end FlowControl

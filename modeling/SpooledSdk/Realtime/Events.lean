/-
Realtime events, and which of them end a job stream.
-/
import SpooledSdk.Errors

namespace SpooledSdk.Realtime

/-- `ConnectionState` and `SSEConnectionState`. -/
inductive ConnectionState
  | disconnected
  | connecting
  | connected
  | reconnecting
  deriving DecidableEq, Repr

/-- A `RealtimeEvent` with its type in dot notation. -/
structure RealtimeEvent where
  type : String
  data : Json

/-- The values of `TERMINAL_JOB_STATUSES`. -/
def terminalJobStatuses : List String := ["completed", "failed", "deadletter", "cancelled"]

/-- `closes_job_stream`, or `none` where it raises: a list or an object as `new_status` cannot
be looked up in a set. -/
def closesJobStream (event : RealtimeEvent) : Option Bool :=
  if event.type = "error" then some true
  else
    match event.type == "job.status_changed", event.data with
    | true, .obj members =>
      match Json.get? "new_status" members with
      | some (.str status) => some (terminalJobStatuses.contains status)
      | some (.arr _) | some (.obj _) => none
      | _ => some false
    | _, _ => some false

end SpooledSdk.Realtime

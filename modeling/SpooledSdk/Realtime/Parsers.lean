/-
From the text of a frame to an event.

The clients parse alike: a WebSocket message is the envelope itself, and the data of a
server-sent event may be one or not.  A parser raises exactly where it looks up a type that
cannot be hashed, and `closes_job_stream` where the new status cannot (`parsers_law`).
-/
import SpooledSdk.Realtime.Events
import SpooledSdk.Text

namespace SpooledSdk.Realtime

open Text

/-- The entries of `SERVER_EVENT_MAP`. -/
def serverEventMap : List (String × String) :=
  [("JobStatusChange", "job.status_changed"), ("JobCreated", "job.created"),
    ("JobCompleted", "job.completed"), ("JobFailed", "job.failed"), ("QueueStats", "queue.stats"),
    ("WorkerHeartbeat", "worker.heartbeat"), ("WorkerRegistered", "worker.registered"),
    ("WorkerDeregistered", "worker.deregistered"), ("SystemHealth", "system.health"),
    ("Ping", "ping"), ("Error", "error"), ("job.status", "job.status_changed"),
    ("job.created", "job.created"), ("job.completed", "job.completed"),
    ("job.failed", "job.failed"), ("queue.stats", "queue.stats"),
    ("worker.heartbeat", "worker.heartbeat"), ("worker.registered", "worker.registered"),
    ("worker.deregistered", "worker.deregistered"), ("system.health", "system.health"),
    ("ping", "ping"), ("error", "error")]

/-- What a parser can raise: the `TypeError` of a value that has no hash. -/
inductive Raised
  | unhashable
  deriving DecidableEq

/-- A list and a dict have no hash. -/
def hashable : Json → Bool
  | .arr _ | .obj _ => false
  | _ => true

/-- `SERVER_EVENT_MAP.get(server_type)` -/
def lookupType (serverType : Json) : Except Raised (Option String) :=
  match serverType with
  | .str name => .ok ((serverEventMap.find? fun entry => entry.1 == name).map Prod.snd)
  | serverType => if hashable serverType then .ok none else .error .unhashable

/-- The standard library: `json.loads`, with `none` for a `JSONDecodeError`, and `datetime`, with
`none` for what `_parse_timestamp` catches. -/
structure Library (τ : Type) where
  loads : String → Option Json
  fromTimestamp : ℚ → Option τ
  fromIsoformat : String → Option τ
  now : τ

/-- A `RealtimeEvent` with its timestamp. -/
structure StampedEvent (τ : Type) extends RealtimeEvent where
  timestamp : τ

section

variable {τ : Type} (lib : Library τ)

/-- `_parse_timestamp` -/
def parseTimestamp (value : Json) : Option τ :=
  match value with
  | .bool b => lib.fromTimestamp (if b then 1 else 0)
  | .int n => lib.fromTimestamp n
  | .float q => lib.fromTimestamp q
  | .str text =>
    let text := strip text
    if text = "" then none
    else lib.fromIsoformat
      (if text.endsWith "Z" then (text.dropEnd 1).toString ++ "+00:00" else text)
  | _ => none

/-- `data.get(key)` of a value that may be a dict. -/
def field (key : String) (data : Json) : Json :=
  match data with
  | .obj members => (Json.get? key members).getD .null
  | _ => .null

/-- `from_server_event` -/
def fromServerEvent (serverType data timestamp : Json) :
    Except Raised (Option (StampedEvent τ)) := do
  match ← lookupType serverType with
  | none => return none
  -- the timestamp of the envelope, then the one in its data, then the clock
  | some type =>
    let parsed := (parseTimestamp lib timestamp).or (parseTimestamp lib (field "timestamp" data))
    return some ⟨⟨type, data⟩, parsed.getD lib.now⟩

/-- The envelope of a message: its type, its data and its timestamp, if it is a dict. -/
def messageEnvelope : Json → Option (Json × Json × Json)
  | .obj members => some ((Json.get? "type" members).getD (.str ""),
      (Json.get? "data" members).getD (.obj []), (Json.get? "timestamp" members).getD .null)
  | _ => none

/-- `_parse_message` of `AsyncWebSocketClient` and `SpooledRealtime`. -/
def parseMessage (message : String) : Except Raised (Option (StampedEvent τ)) :=
  match (lib.loads message).bind messageEnvelope with
  | none => .ok none
  | some (msgType, eventData, timestamp) => fromServerEvent lib msgType eventData timestamp

/-- `WebSocketClient._handle_message`: the event that goes to the handlers, which cannot raise
out of it. -/
def handleMessage (message : String) : Except Raised (Option (StampedEvent τ)) :=
  match lib.loads message with
  | none => .ok none
  | some data =>
    match messageEnvelope data with
    | none => .ok none
    | some (msgType, eventData, timestamp) => fromServerEvent lib msgType eventData timestamp

/-- The envelope in the data of a server-sent event, or the data under the event's name. -/
def ssePayload (eventType : String) (payload : Json) : Json × Json :=
  let plain : Json × Json := (.str (if eventType = "" then "message" else eventType), payload)
  match payload with
  | .obj members =>
    match Json.get? "type" members, Json.get? "data" members with
    -- a dict with both fields is an envelope only if its data is a dict
    | some serverType, some (.obj inner) => (serverType, .obj inner)
    | _, _ => plain
  | _ => plain

/-- `_event_from_sse_payload` -/
def eventFromSsePayload (eventType : String) (payload : Json) :
    Except Raised (Option (StampedEvent τ)) :=
  let (serverType, eventData) := ssePayload eventType payload
  fromServerEvent lib serverType eventData (field "timestamp" eventData)

/-- `_parse_event` of `SSEClient` and `AsyncSSEClient`, and `SpooledRealtime._parse_sse_event`. -/
def parseEvent (eventType data : String) : Except Raised (Option (StampedEvent τ)) :=
  match lib.loads data with
  | none => .ok none
  | some payload => eventFromSsePayload lib eventType payload

/-! ### Receive loops -/

/-- A receive loop over the frames of one connection: the events that it delivers, and whether
it is still on that connection. -/
def receiveLoop {φ : Type} (handle : φ → Except Raised (Option (StampedEvent τ))) :
    List φ → List (StampedEvent τ) × Bool
  | [] => ([], true)
  | frame :: frames =>
    match handle frame with
    | .error _ => ([], false)
    | .ok event =>
      let (events, alive) := receiveLoop handle frames
      (event.toList ++ events, alive)

/-- One server-sent event, its name and its data, in the loop of a client: `closes_job_stream`
looks at the event of a job stream before it is delivered. -/
def handleEvent (jobStream : Bool) (event : String × String) :
    Except Raised (Option (StampedEvent τ)) := do
  if event.2 = "" then return none
  match ← parseEvent lib event.1 event.2 with
  | none => return none
  | some parsed =>
    -- the `TypeError` of `in` leaves the loop
    if jobStream && (closesJobStream parsed.toRealtimeEvent).isNone then .error .unhashable
    else return some parsed

/-- A handler that never raises on these frames delivers every event and loses no connection. -/
def KeepsGoing {φ : Type} (handle : φ → Except Raised (Option (StampedEvent τ)))
    (frames : List φ) : Prop :=
  receiveLoop handle frames =
    (frames.flatMap fun frame => ((handle frame).toOption.join).toList, true)

/-! ### Types and statuses that have a hash -/

/-- A frame is handled: its parser returns, and `closes_job_stream` does on its event. -/
def Handled (parsed : Except Raised (Option (StampedEvent τ))) : Prop :=
  ∃ event, parsed = .ok event ∧
    ∀ e, event = some e → (closesJobStream e.toRealtimeEvent).isSome = true

/-- The new status of a change of status has a hash. -/
def HashableStatus (serverType data : Json) : Prop :=
  lookupType serverType = .ok (some "job.status_changed") →
    ∀ members, data = .obj members → hashable (field "new_status" data) = true

/-- The type and the new status of a message have a hash. -/
def HashableMessage (message : String) : Prop :=
  ∀ serverType data timestamp,
    (lib.loads message).bind messageEnvelope = some (serverType, data, timestamp) →
      hashable serverType = true ∧ HashableStatus serverType data

/-- The type and the new status of a server-sent event have a hash. -/
def HashableEvent (eventType data : String) : Prop :=
  ∀ payload, lib.loads data = some payload →
    hashable (ssePayload eventType payload).1 = true ∧
      HashableStatus (ssePayload eventType payload).1 (ssePayload eventType payload).2

/-- The type of a message has a hash. -/
def HashableType (message : String) : Prop :=
  ∀ serverType data timestamp,
    (lib.loads message).bind messageEnvelope = some (serverType, data, timestamp) →
      hashable serverType = true

/-- The type of a server-sent event has a hash, and on a job stream its new status does. -/
def HashableFor (jobStream : Bool) (event : String × String) : Prop :=
  event.2 ≠ "" → ∀ payload, lib.loads event.2 = some payload →
    hashable (ssePayload event.1 payload).1 = true ∧
      (jobStream = true →
        HashableStatus (ssePayload event.1 payload).1 (ssePayload event.1 payload).2)

variable {lib}

theorem lookupType_ok_iff {serverType : Json} :
    (∃ type, lookupType serverType = .ok type) ↔ hashable serverType = true := by
  cases serverType with
  | null | bool | int | float | str => exact ⟨fun _ => rfl, fun _ => ⟨_, rfl⟩⟩
  | arr | obj => exact ⟨fun ⟨_, h⟩ => (nomatch h), fun h => (nomatch h)⟩

theorem fromServerEvent_eq (serverType data timestamp : Json) :
    fromServerEvent lib serverType data timestamp =
      (lookupType serverType).map fun type => type.map fun type => ⟨⟨type, data⟩,
        ((parseTimestamp lib timestamp).or (parseTimestamp lib (field "timestamp" data))).getD
          lib.now⟩ := by
  rw [fromServerEvent]
  cases lookupType serverType with
  | error => rfl
  | ok type => cases type <;> rfl

theorem isSome_closesJobStream {event : RealtimeEvent} :
    (closesJobStream event).isSome = true ↔
      (event.type = "job.status_changed" → ∀ members, event.data = .obj members →
        hashable (field "new_status" event.data) = true) := by
  obtain ⟨type, data⟩ := event
  rw [closesJobStream]
  by_cases herror : type = "error"
  · rw [if_pos herror]
    refine ⟨fun _ htype => ?_, fun _ => rfl⟩
    exact absurd (herror.symm.trans htype) (by decide)
  · rw [if_neg herror]
    by_cases htype : type = "job.status_changed"
    · have hbeq : (type == "job.status_changed") = true := beq_iff_eq.mpr htype
      simp only [hbeq]
      -- only a dict has its status looked up
      cases data with
      | obj members =>
        have hfield : field "new_status" (.obj members) =
            (Json.get? "new_status" members).getD .null := rfl
        dsimp only
        rw [hfield]
        cases Json.get? "new_status" members with
        | none => exact ⟨fun _ _ _ _ => rfl, fun _ => rfl⟩
        | some status =>
          cases status with
          | arr | obj =>
            exact ⟨fun h => (nomatch h), fun h => absurd (h htype members rfl) Bool.false_ne_true⟩
          | null | bool | int | float | str => exact ⟨fun _ _ _ _ => rfl, fun _ => rfl⟩
      | null | bool | int | float | str | arr =>
        exact ⟨fun _ _ _ h => (nomatch h), fun _ => rfl⟩
    · have hbeq : (type == "job.status_changed") = false := beq_eq_false_iff_ne.mpr htype
      simp only [hbeq]
      exact ⟨fun _ h => absurd h htype, fun _ => rfl⟩

/-- An event is made of a frame, and `closes_job_stream` looked it up, exactly if there was
nothing without a hash to look up. -/
theorem handled_fromServerEvent {serverType data timestamp : Json} :
    Handled (fromServerEvent lib serverType data timestamp) ↔
      hashable serverType = true ∧ HashableStatus serverType data := by
  rw [fromServerEvent_eq, ← lookupType_ok_iff, Handled, HashableStatus]
  cases hlookup : lookupType serverType with
  | error err => exact ⟨fun ⟨_, h, _⟩ => (nomatch h), fun ⟨⟨_, h⟩, _⟩ => (nomatch h)⟩
  | ok type =>
    cases type with
    | none =>
      exact ⟨fun _ => ⟨⟨_, rfl⟩, fun h => (nomatch h)⟩,
        fun _ => ⟨none, rfl, fun _ h => (nomatch h)⟩⟩
    | some type =>
      constructor
      · rintro ⟨event, hevent, h⟩
        refine ⟨⟨_, rfl⟩, fun htype => ?_⟩
        cases hevent
        cases htype
        exact isSome_closesJobStream.mp (h _ rfl) rfl
      · rintro ⟨-, h⟩
        refine ⟨_, rfl, fun e he => ?_⟩
        cases he
        exact isSome_closesJobStream.mpr fun htype => h (congrArg (Except.ok ∘ some) htype)

theorem handleMessage_eq (message : String) :
    handleMessage lib message = parseMessage lib message := by
  rw [handleMessage, parseMessage]
  cases lib.loads message <;> rfl

theorem handled_parseMessage {message : String} :
    Handled (parseMessage lib message) ↔ HashableMessage lib message := by
  rw [parseMessage, HashableMessage]
  cases (lib.loads message).bind messageEnvelope with
  | none =>
    exact ⟨fun _ _ _ _ h => (nomatch h), fun _ => ⟨none, rfl, fun _ h => (nomatch h)⟩⟩
  | some envelope =>
    obtain ⟨serverType, data, timestamp⟩ := envelope
    refine handled_fromServerEvent.trans ⟨fun h _ _ _ heq => ?_, fun h => h _ _ _ rfl⟩
    cases heq
    exact h

theorem handled_parseEvent {eventType data : String} :
    Handled (parseEvent lib eventType data) ↔ HashableEvent lib eventType data := by
  rw [parseEvent, HashableEvent]
  cases lib.loads data with
  | none => exact ⟨fun _ _ h => (nomatch h), fun _ => ⟨none, rfl, fun _ h => (nomatch h)⟩⟩
  | some payload =>
    refine handled_fromServerEvent.trans ⟨fun h _ heq => ?_, fun h => h _ rfl⟩
    cases heq
    exact h

/-! ### The loops -/

theorem receiveLoop_cons {φ : Type} (handle : φ → Except Raised (Option (StampedEvent τ)))
    (frame : φ) (frames : List φ) :
    receiveLoop handle (frame :: frames) =
      match handle frame with
      | .error _ => ([], false)
      | .ok event =>
        (event.toList ++ (receiveLoop handle frames).1, (receiveLoop handle frames).2) := rfl

theorem receiveLoop_alive_iff {φ : Type}
    {handle : φ → Except Raised (Option (StampedEvent τ))} {frames : List φ} :
    (receiveLoop handle frames).2 = true ↔
      ∀ frame ∈ frames, ∃ event, handle frame = .ok event := by
  induction frames with
  | nil => exact ⟨fun _ _ h => (nomatch h), fun _ => rfl⟩
  | cons frame frames ih =>
    rw [receiveLoop_cons, List.forall_mem_cons, ← ih]
    cases handle frame with
    | error err => exact ⟨fun h => (nomatch h), fun ⟨⟨_, h⟩, _⟩ => (nomatch h)⟩
    | ok event => exact ⟨fun h => ⟨⟨_, rfl⟩, h⟩, fun h => h.2⟩

/-- A loop that is still on its connection has delivered the events of all its frames. -/
theorem receiveLoop_of_alive {φ : Type}
    {handle : φ → Except Raised (Option (StampedEvent τ))} {frames : List φ}
    (h : (receiveLoop handle frames).2 = true) : KeepsGoing handle frames := by
  induction frames with
  | nil => rfl
  | cons frame frames ih =>
    rw [KeepsGoing, receiveLoop_cons, List.flatMap_cons]
    rw [receiveLoop_cons] at h
    cases hframe : handle frame with
    | error err =>
      rw [hframe] at h
      cases h
    | ok event =>
      rw [hframe] at h
      have htail := ih h
      rw [KeepsGoing] at htail
      simp only [htail]
      cases event <;> rfl

theorem keepsGoing_iff {φ : Type} {handle : φ → Except Raised (Option (StampedEvent τ))}
    {frames : List φ} :
    KeepsGoing handle frames ↔ ∀ frame ∈ frames, ∃ event, handle frame = .ok event :=
  ⟨fun h => receiveLoop_alive_iff.mp (congrArg Prod.snd h),
    fun h => receiveLoop_of_alive (receiveLoop_alive_iff.mpr h)⟩

theorem fromServerEvent_ok_iff {serverType data timestamp : Json} :
    (∃ event, fromServerEvent lib serverType data timestamp = .ok event) ↔
      hashable serverType = true := by
  rw [fromServerEvent_eq, ← lookupType_ok_iff]
  cases lookupType serverType with
  | error err => exact ⟨fun ⟨_, h⟩ => (nomatch h), fun ⟨_, h⟩ => (nomatch h)⟩
  | ok type => exact ⟨fun _ => ⟨_, rfl⟩, fun _ => ⟨_, rfl⟩⟩

theorem parseMessage_ok_iff {message : String} :
    (∃ event, parseMessage lib message = .ok event) ↔ HashableType lib message := by
  rw [parseMessage, HashableType]
  cases (lib.loads message).bind messageEnvelope with
  | none => exact ⟨fun _ _ _ _ h => (nomatch h), fun _ => ⟨none, rfl⟩⟩
  | some envelope =>
    obtain ⟨serverType, data, timestamp⟩ := envelope
    refine fromServerEvent_ok_iff.trans ⟨fun h _ _ _ heq => ?_, fun h => h _ _ _ rfl⟩
    cases heq
    exact h

theorem handleEvent_ok_iff {jobStream : Bool} {event : String × String} :
    (∃ parsed, handleEvent lib jobStream event = .ok parsed) ↔
      HashableFor lib jobStream event := by
  obtain ⟨eventType, data⟩ := event
  by_cases hempty : data = ""
  · exact ⟨fun _ hne => absurd hempty hne, fun _ => ⟨none, if_pos hempty⟩⟩
  · have hparse : HashableFor lib jobStream (eventType, data) ↔
        (∀ payload, lib.loads data = some payload →
          hashable (ssePayload eventType payload).1 = true ∧ (jobStream = true →
            HashableStatus (ssePayload eventType payload).1 (ssePayload eventType payload).2)) :=
      ⟨fun h => h hempty, fun h _ => h⟩
    have hhandle : handleEvent lib jobStream (eventType, data) =
        (parseEvent lib eventType data).bind fun parsed =>
          match parsed with
          | none => .ok none
          | some parsed =>
            if jobStream && (closesJobStream parsed.toRealtimeEvent).isNone then
              .error .unhashable
            else .ok (some parsed) := by
      rw [handleEvent, if_neg hempty]
      rfl
    rw [hparse, hhandle]
    cases jobStream with
    | true =>
      -- what closes the stream is looked up, so the frame has to be handled
      have hiff : (∃ parsed, ((parseEvent lib eventType data).bind fun parsed =>
          match parsed with
          | none => .ok none
          | some parsed =>
            if true && (closesJobStream parsed.toRealtimeEvent).isNone then .error .unhashable
            else .ok (some parsed)) = .ok parsed) ↔ Handled (parseEvent lib eventType data) := by
        rw [Handled]
        cases parseEvent lib eventType data with
        | error err => exact ⟨fun ⟨_, h⟩ => (nomatch h), fun ⟨_, h, _⟩ => (nomatch h)⟩
        | ok event =>
          cases event with
          | none => simp [Except.bind]
          | some event => cases hclose : closesJobStream event.toRealtimeEvent <;>
              simp [Except.bind, hclose]
      rw [hiff, handled_parseEvent, HashableEvent]
      exact ⟨fun h payload hload => ⟨(h payload hload).1, fun _ => (h payload hload).2⟩,
        fun h payload hload => ⟨(h payload hload).1, (h payload hload).2 rfl⟩⟩
    | false =>
      rw [parseEvent]
      cases lib.loads data with
      | none => exact ⟨fun _ _ h => (nomatch h), fun _ => ⟨none, rfl⟩⟩
      | some payload =>
        have hok : (∃ event, eventFromSsePayload lib eventType payload = .ok event) ↔
            hashable (ssePayload eventType payload).1 = true := fromServerEvent_ok_iff
        constructor
        · rintro ⟨parsed, h⟩ payload' heq
          cases heq
          refine ⟨hok.mp ?_, fun h => (nomatch h)⟩
          cases hevent : eventFromSsePayload lib eventType payload with
          | error err =>
            simp only [hevent] at h
            cases h
          | ok event => exact ⟨event, rfl⟩
        · intro h
          obtain ⟨event, hevent⟩ := hok.mpr (h payload rfl).1
          simp only [hevent]
          cases event with
          | none => exact ⟨none, rfl⟩
          | some event => exact ⟨some event, rfl⟩

/-! ### The law -/

/-- No frame breaks a client, exactly as far as what is looked up has a hash. -/
theorem parsers_law (lib : Library τ) :
    (∀ message, Handled (handleMessage lib message) ↔ HashableMessage lib message) ∧
    (∀ message, Handled (parseMessage lib message) ↔ HashableMessage lib message) ∧
    (∀ eventType data, Handled (parseEvent lib eventType data) ↔
      HashableEvent lib eventType data) ∧
    (∀ messages, KeepsGoing (handleMessage lib) messages ↔
      ∀ message ∈ messages, HashableType lib message) ∧
    (∀ messages, KeepsGoing (parseMessage lib) messages ↔
      ∀ message ∈ messages, HashableType lib message) ∧
    ∀ jobStream events, KeepsGoing (handleEvent lib jobStream) events ↔
      ∀ event ∈ events, HashableFor lib jobStream event := by
  have hloop : ∀ messages, KeepsGoing (parseMessage lib) messages ↔
      ∀ message ∈ messages, HashableType lib message := fun messages =>
    keepsGoing_iff.trans (forall₂_congr fun _ _ => parseMessage_ok_iff)
  have hsame : handleMessage lib = parseMessage lib := funext handleMessage_eq
  refine ⟨fun message => ?_, fun message => handled_parseMessage,
    fun eventType data => handled_parseEvent, ?_, hloop,
    fun jobStream events => keepsGoing_iff.trans (forall₂_congr fun _ _ => handleEvent_ok_iff)⟩
  · rw [hsame]
    exact handled_parseMessage
  · rw [hsame]
    exact hloop

/-- A library that knows one text. -/
def sampleLibrary : Library ℕ where
  loads text := if text = "\x7b\"type\": []\x7d" then some (.obj [("type", .arr [])]) else none
  fromTimestamp _ := none
  fromIsoformat _ := none
  now := 0

/-- A list as the type of a message breaks its parser. -/
theorem list_type_raises : ¬ ∀ (lib : Library ℕ) (message : String),
    Handled (parseMessage lib message) := by
  intro h
  obtain ⟨event, hevent, -⟩ := h sampleLibrary "\x7b\"type\": []\x7d"
  cases hevent

end

end SpooledSdk.Realtime

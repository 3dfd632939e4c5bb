/-
The texts that stand for filters: the ids of `_subscriptions`, and the commands on the wire.

* `table_by_id` — a table under the ids of filters is the table under the filters themselves,
  after any sequence of calls;
* `readCommand_text` — a server reads in the text of a command its name and the fields that are
  neither `None` nor empty.
-/
import SpooledSdk.JsonText
import SpooledSdk.Realtime.WsCommands

namespace SpooledSdk.Realtime

open JsonText

/-! ### Ids -/

/-- `to_id` and `_filter_to_id`: the keys are sorted. -/
def SubscriptionFilter.toId (filter : SubscriptionFilter) : String :=
  String.ofList (writeObject [("job_id", filter.jobId), ("queue", filter.queue)])

theorem toId_injective : Function.Injective SubscriptionFilter.toId := by
  intro filter filter' h
  have hmembers := writeObject_injective (String.ofList_injective h)
  simp only [List.cons.injEq, Prod.mk.injEq, true_and, and_true] at hmembers
  cases filter
  cases filter'
  simp_all

/-- What a call does to a table. -/
inductive TableOp
  | subscribe (filter : SubscriptionFilter)
  | unsubscribe (filter : SubscriptionFilter)
  | clear

/-- `_subscriptions` as the clients keep it, under the ids. -/
def TableOp.runById (table : Dict String SubscriptionFilter) :
    TableOp → Dict String SubscriptionFilter
  | .subscribe filter =>
    if (table.get? filter.toId).isSome then table else table.insert filter.toId filter
  | .unsubscribe filter =>
    if (table.get? filter.toId).isSome then table.erase filter.toId else table
  | .clear => .empty

/-- The same under the filters. -/
def TableOp.run (table : Subscriptions) : TableOp → Subscriptions
  | .subscribe filter => if (table.get? filter).isSome then table else table.insert filter filter
  | .unsubscribe filter => if (table.get? filter).isSome then table.erase filter else table
  | .clear => .empty

theorem mapKeys_run (table : Subscriptions) (op : TableOp) :
    (op.run table).mapKeys _ toId_injective = op.runById (table.mapKeys _ toId_injective) := by
  cases op with
  | subscribe filter =>
    rw [TableOp.run, TableOp.runById, Dict.get?_mapKeys]
    split
    · rfl
    · exact Dict.mapKeys_insert toId_injective table filter filter
  | unsubscribe filter =>
    rw [TableOp.run, TableOp.runById, Dict.get?_mapKeys]
    split
    · exact Dict.mapKeys_erase toId_injective table filter
    · rfl
  | clear => rfl

theorem mapKeys_foldl (table : Subscriptions) (ops : List TableOp) :
    (ops.foldl TableOp.run table).mapKeys _ toId_injective =
      ops.foldl TableOp.runById (table.mapKeys _ toId_injective) := by
  induction ops generalizing table with
  | nil => rfl
  | cons op ops ih => rw [List.foldl_cons, List.foldl_cons, ih, mapKeys_run]

/-- A table under ids has an id exactly when the table under filters has the filter, and lists the
same filters in the same order. -/
theorem table_by_id (ops : List TableOp) :
    (∀ filter : SubscriptionFilter,
      (ops.foldl TableOp.runById .empty).get? filter.toId =
        (ops.foldl TableOp.run .empty).get? filter) ∧
    (ops.foldl TableOp.runById .empty).values = (ops.foldl TableOp.run .empty).values := by
  have h : ops.foldl TableOp.runById .empty =
      (ops.foldl TableOp.run .empty).mapKeys _ toId_injective :=
    (mapKeys_foldl .empty ops).symm
  rw [h]
  exact ⟨Dict.get?_mapKeys toId_injective _, Dict.values_mapKeys toId_injective _⟩

/-! ### Commands -/

/-- `SubscribeCommand`, `UnsubscribeCommand` and `PingCommand`. -/
inductive Command
  | filter (verb : Commands.Verb) (filter : SubscriptionFilter)
  | ping

/-- The value under `cmd`. -/
def Command.name : Command → String
  | .filter .subscribe _ => "subscribe"
  | .filter .unsubscribe _ => "unsubscribe"
  | .ping => "ping"

/-- A field that is sent if it is neither `None` nor empty. -/
def optional (key : String) (value : Option String) : Members :=
  match truthy? value with
  | some text => [(key, some text)]
  | none => []

/-- `to_dict` -/
def Command.toDict (command : Command) : Members :=
  ("cmd", some command.name) ::
    match command with
    | .filter _ f => optional "queue" f.queue ++ optional "job_id" f.jobId
    | .ping => []

/-- `json.dumps(command.to_dict())`, the frame that is sent. -/
def Command.text (command : Command) : String := String.ofList (writeObject command.toDict)

/-- The filter that the server is told of. -/
def Command.wire : Command → Commands.Wire
  | .filter _ f => f.wire
  | .ping => (none, none)

/-- The string under `key`. -/
def member? (key : String) (members : Members) : Option String :=
  (members.find? fun member => member.1 == key).bind Prod.snd

/-- A server reads a frame: its command and its filter. -/
def readCommand (frame : String) : Option (String × Commands.Wire) :=
  (readObject frame.toList).bind fun members =>
    (member? "cmd" members).map fun name =>
      (name, member? "queue" members, member? "job_id" members)

theorem member?_toDict (command : Command) :
    member? "cmd" command.toDict = some command.name ∧
      (member? "queue" command.toDict, member? "job_id" command.toDict) = command.wire := by
  refine ⟨rfl, ?_⟩
  cases command with
  | ping => rfl
  | filter verb f =>
    rw [Command.toDict, Command.wire, SubscriptionFilter.wire]
    dsimp only [optional]
    cases truthy? f.queue <;> cases truthy? f.jobId <;> rfl

/-- A server reads in a frame the name of its command, and the filter without the fields that are
`None` or empty. -/
theorem readCommand_text (command : Command) :
    readCommand command.text = some (command.name, command.wire) := by
  obtain ⟨hname, hwire⟩ := member?_toDict command
  rw [readCommand, Command.text, String.toList_ofList, readObject_writeObject, Option.bind_some,
    hname, Option.map_some, ← hwire]

end SpooledSdk.Realtime

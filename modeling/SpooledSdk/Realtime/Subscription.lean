/-
Subscription filters: the URL of their stream, and their image in a command.
-/
import SpooledSdk.Dict
import SpooledSdk.Percent
import Mathlib.Data.List.Infix

namespace SpooledSdk.Realtime

/-- Its id encodes both fields, so it tells apart exactly what the filters do: a filter is its
own key. -/
structure SubscriptionFilter where
  queue : Option String := none
  jobId : Option String := none
  deriving DecidableEq, Repr

/-- `_subscriptions`. -/
abbrev Subscriptions := Dict SubscriptionFilter SubscriptionFilter

/-- A string attribute that is neither `None` nor empty. -/
def truthy? : Option String → Option String
  | some text => if text = "" then none else some text
  | none => none

/-- The fields that `SubscribeCommand.to_dict` and `UnsubscribeCommand.to_dict` send. -/
def SubscriptionFilter.wire (filter : SubscriptionFilter) : Option String × Option String :=
  (truthy? filter.queue, truthy? filter.jobId)

private def quoteByte (b : UInt8) : String :=
  let c := Char.ofNat b.toNat
  if c.isAlphanum ∨ c ∈ ['_', '.', '-', '~'] then String.singleton c
  else
    let digit := fun n => (Nat.digitChar n).toUpper
    String.ofList ['%', digit (b.toNat / 16), digit (b.toNat % 16)]

/-- `quote(text, safe="")`. -/
def quote (text : String) : String :=
  String.join (text.toUTF8.toList.map quoteByte)

private theorem toList_quoteByte (b : UInt8) :
    (quoteByte b).toList = Percent.encodeByte false b := by
  have hmem : (Char.ofNat b.toNat).isAlphanum = true ∨
      Char.ofNat b.toNat ∈ ['_', '.', '-', '~'] ↔
      Percent.isUnreserved (Char.ofNat b.toNat) = true := by
    simp [Percent.isUnreserved, or_assoc]
  rw [quoteByte, Percent.encodeByte]
  dsimp only
  split
  · rename_i h
    rw [if_pos (hmem.mp h), String.toList_singleton]
  · rename_i h
    rw [if_neg (mt hmem.mpr h), if_neg (by simp), String.toList_ofList]
    rfl

theorem toList_quote (text : String) : (quote text).toList = Percent.quote false text := by
  rw [quote, Percent.quote, String.toList_join, List.flatMap_map, Codec.encodeAll]
  exact List.flatMap_congr fun b _ => toList_quoteByte b

/-- The filter that a stream is opened for: the one given, or the oldest subscription. -/
def effective (subscriptions : Subscriptions) (filter : Option SubscriptionFilter) :
    Option SubscriptionFilter :=
  filter.or subscriptions.values.head?

/-- `_build_sse_url`. -/
def buildSseUrl (baseUrl : String) (subscriptions : Subscriptions)
    (filter : Option SubscriptionFilter) : String :=
  match effective subscriptions filter with
  | none => baseUrl ++ "/api/v1/events"
  | some f =>
    match truthy? f.jobId, truthy? f.queue with
    | some jobId, _ => baseUrl ++ "/api/v1/events/jobs/" ++ jobId
    | none, some queue => baseUrl ++ "/api/v1/events?queue=" ++ quote queue
    | none, none => baseUrl ++ "/api/v1/events"

/-- `"/events/jobs/" in url`. -/
def isJobStream (url : String) : Bool :=
  decide ("/events/jobs/".toList <:+: url.toList)

end SpooledSdk.Realtime

/-
The URL of a request, with its query string.

`_build_url` turns the parameters of a resource into a query string, and a server takes it apart
again: what it finds there is what the resource passed (`readUrl_buildUrl`).
-/
import SpooledSdk.Casing
import SpooledSdk.Dict
import SpooledSdk.Percent

namespace SpooledSdk.Http

open Casing

/-- The value of a query parameter; an object of another type stands as what `str` makes of it. -/
inductive QueryValue
  | none
  | bool (b : Bool)
  | int (n : ℤ)
  | str (s : String)
  | other (text : String)
  deriving DecidableEq, Repr

/-- The text that is sent; a parameter that is `None` is left out. -/
def QueryValue.text? : QueryValue → Option String
  | .none => .none
  | .bool b => some (if b then "true" else "false")
  | .int n => some (toString n)
  | .str s => some s
  | .other text => some text

/-- `convert_query_params` -/
def convertQueryParams (params : List (String × QueryValue)) : Dict String String :=
  params.foldl
    (fun result param =>
      match param.2.text? with
      | some text => result.insert (toSnakeCase param.1) text
      | none => result)
    .empty

/-- `urlencode` -/
def urlencode (params : Dict String String) : String :=
  String.ofList (Percent.writeForm params.entries)

/-- The URL without its query string. -/
def location (baseUrl path : String) (skipApiPrefix : Bool) : String :=
  baseUrl ++ (if skipApiPrefix || path.startsWith "/api/" then path else "/api/v1" ++ path)

/-- `_build_url` -/
def buildUrl (baseUrl path : String) (params : List (String × QueryValue))
    (skipApiPrefix : Bool) : String :=
  let url := location baseUrl path skipApiPrefix
  let convertedParams := convertQueryParams params
  if convertedParams.entries.isEmpty then url else url ++ "?" ++ urlencode convertedParams

/-- The parameters that a server finds in a URL. -/
def readUrl (url : String) : Option (List (String × String)) :=
  Percent.readForm (Percent.cutAt '?' (Percent.cutAt '#' url.toList).1).2

/-- The text of the last parameter of the given name that is not `None`. -/
def lastText (name : String) (params : List (String × QueryValue)) : Option String :=
  params.reverse.findSome? fun param =>
    if toSnakeCase param.1 = name then param.2.text? else none

theorem get?_convertQueryParams (params : List (String × QueryValue)) (name : String) :
    (convertQueryParams params).get? name = lastText name params := by
  induction params using List.reverseRecOn with
  | nil => rfl
  | append_singleton params param ih =>
    rw [convertQueryParams, List.foldl_append, ← convertQueryParams, lastText, List.reverse_concat,
      List.findSome?_cons, ← lastText, List.foldl_cons, List.foldl_nil]
    cases htext : param.2.text? with
    | none =>
      simp only [ite_self]
      exact ih
    | some text =>
      simp only [Dict.get?_insert, ih]
      by_cases h : toSnakeCase param.1 = name
      · rw [if_pos h, if_pos h]
      · rw [if_neg h, if_neg h]

variable {baseUrl path : String} {skipApiPrefix : Bool}

/-- What a URL says is read back from it, if what it is asked of has no `?` and no `#`. -/
theorem readUrl_location (params : Dict String String)
    (h : ∀ c ∈ (location baseUrl path skipApiPrefix).toList, c ≠ '?' ∧ c ≠ '#') :
    readUrl (location baseUrl path skipApiPrefix ++ "?" ++ urlencode params) =
      some params.entries := by
  have hquestion : '?' ∉ (location baseUrl path skipApiPrefix).toList := fun hc => (h _ hc).1 rfl
  have hhash : '#' ∉ (location baseUrl path skipApiPrefix).toList := fun hc => (h _ hc).2 rfl
  have hquery : '#' ∉ Percent.writeForm params.entries :=
    Percent.notMem_writeForm (by decide) (by decide) (by decide) (by decide) (by decide) _
  have htext : (location baseUrl path skipApiPrefix ++ "?" ++ urlencode params).toList =
      (location baseUrl path skipApiPrefix).toList ++ '?' :: Percent.writeForm params.entries := by
    rw [String.toList_append, String.toList_append, urlencode, List.append_assoc]
    exact congrArg (_ ++ '?' :: ·) String.toList_ofList
  have hall : '#' ∉
      (location baseUrl path skipApiPrefix).toList ++ '?' :: Percent.writeForm params.entries := by
    simp [hhash, hquery]
  rw [readUrl, htext, Percent.cutAt_of_notMem hall, Percent.cutAt_append hquestion,
    Percent.readForm_writeForm]

/-- A server finds in the URL of a request the parameters that are not `None`, each under its
snake_case name with the text of its last value, and nothing else. -/
theorem readUrl_buildUrl (params : List (String × QueryValue))
    (h : ∀ c ∈ (location baseUrl path skipApiPrefix).toList, c ≠ '?' ∧ c ≠ '#') :
    ∃ sent : Dict String String, readUrl (buildUrl baseUrl path params skipApiPrefix) =
        some sent.entries ∧ ∀ name, sent.get? name = lastText name params := by
  refine ⟨convertQueryParams params, ?_, get?_convertQueryParams params⟩
  rw [buildUrl]
  split
  · rename_i hempty
    have hquestion : '?' ∉ (location baseUrl path skipApiPrefix).toList :=
      fun hc => (h _ hc).1 rfl
    have hhash : '#' ∉ (location baseUrl path skipApiPrefix).toList := fun hc => (h _ hc).2 rfl
    rw [readUrl, Percent.cutAt_of_notMem hhash, Percent.cutAt_of_notMem hquestion,
      List.isEmpty_iff.mp hempty]
    rfl
  · exact readUrl_location _ h

theorem readUrl_buildUrl_sample : ∃ sent : Dict String String,
    readUrl (buildUrl "h" "/jobs" [("queueName", .str "a&b=c d"), ("limit", .int 5)] true) =
        some sent.entries ∧
      ∀ name, sent.get? name =
        lastText name [("queueName", .str "a&b=c d"), ("limit", .int 5)] :=
  readUrl_buildUrl _ (by simp [location])

end SpooledSdk.Http

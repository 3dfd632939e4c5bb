/-
What the URL of a stream says.

A stream is for one job, for the events of one queue, or for all events.  Its URL tells these
apart, whatever the queue or the job is called (`buildSseUrl_eq_iff`), and `"/events/jobs/" in url`
finds out the streams for a job (`isJobStream_iff`).
-/
import SpooledSdk.Realtime.Subscription

namespace SpooledSdk.Realtime

/-- What a stream is for. -/
inductive Target
  | all
  | queue (name : String)
  | job (id : String)
  deriving DecidableEq, Repr

/-- A filter with a job is for that job, whatever its queue. -/
def SubscriptionFilter.target (filter : SubscriptionFilter) : Target :=
  match truthy? filter.jobId, truthy? filter.queue with
  | some id, _ => .job id
  | none, some name => .queue name
  | none, none => .all

/-- The target of a stream that is opened with the given subscriptions and filter. -/
def streamTarget (subscriptions : Subscriptions) (filter : Option SubscriptionFilter) : Target :=
  (effective subscriptions filter).elim .all SubscriptionFilter.target

/-- What stands after `/api/v1/events` in the URL. -/
def Target.suffix : Target → List Char
  | .all => []
  | .queue name => "?queue=".toList ++ Percent.quote false name
  | .job id => "/jobs/".toList ++ id.toList

variable {baseUrl : String} {subscriptions subscriptions' : Subscriptions}
  {filter filter' : Option SubscriptionFilter} {target target' : Target}

private theorem jobs_eq : "/api/v1/events/jobs/" = "/api/v1/events" ++ "/jobs/" := rfl

private theorem queue_eq : "/api/v1/events?queue=" = "/api/v1/events" ++ "?queue=" := rfl

theorem toList_buildSseUrl (baseUrl : String) (subscriptions : Subscriptions)
    (filter : Option SubscriptionFilter) :
    (buildSseUrl baseUrl subscriptions filter).toList =
      (baseUrl ++ "/api/v1/events").toList ++ (streamTarget subscriptions filter).suffix := by
  rw [buildSseUrl, streamTarget]
  generalize effective subscriptions filter = f
  cases f with
  | none => exact (List.append_nil _).symm
  | some f =>
    rw [Option.elim_some, SubscriptionFilter.target]
    dsimp only
    generalize truthy? f.jobId = jobId
    generalize truthy? f.queue = queue
    cases jobId with
    | some id =>
      dsimp only
      rw [jobs_eq, ← String.append_assoc, String.toList_append, String.toList_append,
        List.append_assoc]
      rfl
    | none =>
      cases queue with
      | some name =>
        dsimp only
        rw [queue_eq, ← String.append_assoc, String.toList_append, String.toList_append,
          List.append_assoc, toList_quote]
        rfl
      | none => exact (List.append_nil _).symm

/-- The first character after `/api/v1/events` tells the kinds of targets apart. -/
theorem head?_suffix (target : Target) : target.suffix.head? =
    match target with
    | .all => none
    | .queue _ => some '?'
    | .job _ => some '/' := by
  cases target <;> rfl

theorem suffix_injective : Function.Injective Target.suffix := by
  intro target target' h
  have hhead := congrArg List.head? h
  rw [head?_suffix, head?_suffix] at hhead
  cases target with
  | all => cases target' <;> first | rfl | cases hhead
  | queue name =>
    cases target' with
    | queue name' =>
      exact congrArg Target.queue (Percent.quote_injective false (List.append_cancel_left h))
    | all => cases hhead
    | job id => simp at hhead
  | job id =>
    cases target' with
    | job id' => exact congrArg Target.job (String.toList_inj.mp (List.append_cancel_left h))
    | all => cases hhead
    | queue name => simp at hhead

/-- Two streams of one server have the same URL exactly when they are for the same. -/
theorem buildSseUrl_eq_iff : buildSseUrl baseUrl subscriptions filter =
      buildSseUrl baseUrl subscriptions' filter' ↔
    streamTarget subscriptions filter = streamTarget subscriptions' filter' := by
  rw [← String.toList_inj, toList_buildSseUrl, toList_buildSseUrl, List.append_right_inj]
  exact suffix_injective.eq_iff

/-! ### Streams for a job -/

variable {α : Type*} {c : α} {text before after : List α}

/-- A text without `c` with which a text with a `c` starts ends before that. -/
theorem prefix_of_prefix_append_cons (before : List α) (hc : c ∉ text)
    (h : text <+: before ++ c :: after) : text <+: before := by
  induction before generalizing text with
  | nil =>
    cases text with
    | nil => exact List.nil_prefix
    | cons d text => exact absurd ((List.cons_prefix_cons.mp h).1 ▸ List.mem_cons_self) hc
  | cons b before ih =>
    cases text with
    | nil => exact List.nil_prefix
    | cons d text =>
      obtain ⟨hd, htext⟩ := List.cons_prefix_cons.mp h
      exact List.cons_prefix_cons.mpr ⟨hd, ih (mt (List.mem_cons_of_mem d) hc) htext⟩

/-- A text without `c` that stands in a text with a `c` stands on one side of it. -/
theorem infix_append_cons_iff (hc : c ∉ text) :
    text <:+: before ++ c :: after ↔ text <:+: before ∨ text <:+: after := by
  constructor
  · intro h
    induction before with
    | nil =>
      rcases List.infix_cons_iff.mp h with h | h
      · exact .inl (prefix_of_prefix_append_cons [] hc h).isInfix
      · exact .inr h
    | cons b before ih =>
      rcases List.infix_cons_iff.mp h with h | h
      · exact .inl (prefix_of_prefix_append_cons (b :: before) hc h).isInfix
      · exact (ih h).imp_left List.infix_cons
  · rintro (h | h)
    · exact h.trans (List.prefix_append _ _).isInfix
    · exact h.trans ((List.suffix_cons c after).trans (List.suffix_append _ _)).isInfix

/-- `/events/jobs/`, of which the URL of a stream has the first part in any case. -/
private theorem jobs_path : "/events/jobs/".toList = "/events".toList ++ "/jobs/".toList := by
  decide

private theorem events_path : "/api/v1/events" = "/api/v1" ++ "/events" := rfl

/-- The URL for a queue has `/events/jobs/` only in its base URL, and the URL for a job has it. -/
theorem infix_suffix_iff (target : Target)
    (hbase : ¬ "/events/jobs/".toList <:+: (baseUrl ++ "/api/v1/events").toList) :
    "/events/jobs/".toList <:+: (baseUrl ++ "/api/v1/events").toList ++ target.suffix ↔
      ∃ id, target = .job id := by
  cases target with
  | all =>
    refine iff_of_false ?_ (by simp)
    rwa [show Target.suffix .all = [] from rfl, List.append_nil]
  | queue name =>
    have hslash : '/' ∈ "/events/jobs/".toList := by decide
    have hmark : '?' ∉ "/events/jobs/".toList := by decide
    have hsuffix : Target.suffix (.queue name) =
        '?' :: ("queue=".toList ++ Percent.quote false name) := rfl
    have hquery : ¬ "/events/jobs/".toList <:+: "queue=".toList ++ Percent.quote false name := by
      intro h
      rcases List.mem_append.mp (h.subset hslash) with h | h
      · exact absurd h (by decide)
      · exact Percent.notMem_quote (by decide) (by decide) (by decide) h
    rw [hsuffix]
    refine iff_of_false (fun h => ?_) (by simp)
    exact ((infix_append_cons_iff hmark).mp h).elim hbase hquery
  | job id =>
    have hsuffix : Target.suffix (.job id) = "/jobs/".toList ++ id.toList := rfl
    refine iff_of_true ⟨(baseUrl ++ "/api/v1").toList, id.toList, ?_⟩ ⟨id, rfl⟩
    rw [hsuffix, jobs_path, events_path, ← String.append_assoc]
    simp only [String.toList_append, List.append_assoc]

/-- `"/events/jobs/" in url` picks the streams for a job, and these only, exactly when it does not
stand in the URL of the stream of all events. -/
theorem isJobStream_iff : (∀ (subscriptions : Subscriptions) (filter : Option SubscriptionFilter),
      isJobStream (buildSseUrl baseUrl subscriptions filter) = true ↔
        ∃ id, streamTarget subscriptions filter = .job id) ↔
    isJobStream (baseUrl ++ "/api/v1/events") = false := by
  have hiff : ∀ url : String, isJobStream url = true ↔ "/events/jobs/".toList <:+: url.toList :=
    fun url => decide_eq_true_iff
  rw [← Bool.not_eq_true, hiff]
  constructor
  · intro h
    -- a client without subscriptions that is given no filter
    have hall := h Dict.empty none
    have htarget : streamTarget Dict.empty none = .all := by
      simp [streamTarget, effective, Dict.values, Dict.empty]
    rw [hiff, toList_buildSseUrl, htarget] at hall
    intro hbase
    obtain ⟨id, hid⟩ := hall.mp (hbase.trans (List.prefix_append _ _).isInfix)
    cases hid
  · intro hbase subscriptions filter
    rw [hiff, toList_buildSseUrl]
    exact infix_suffix_iff _ hbase

end SpooledSdk.Realtime

/-
The bodies of the requests that carry a payload: `jobs.create`, `jobs.bulk_enqueue`,
`workflows.create`, `schedules.create` and `ingest.custom`, sync and async alike.

The parameters are models as pydantic has validated them, a date written as it is dumped;
`modelDump` is `model_dump(exclude_none=True)`, and `post` converts what it is given.
-/
import SpooledSdk.CasingLaw

namespace SpooledSdk

namespace Json

def isNull : Json → Bool
  | .null => true
  | _ => false

/-- `None` for a field that is not there. -/
def ofOption {α : Type} (toJson : α → Json) (value : Option α) : Json := value.elim .null toJson

/-- `data.get(key)` of a dict. -/
def member? (key : String) : Json → Option Json
  | .obj members => get? key members
  | _ => none

def items : Json → List Json
  | .arr items => items
  | _ => []

end Json

namespace Resources

/-! ### Models -/

/-- `model_dump(exclude_none=True)` of the fields of a model; `fieldsSet` is given with
`exclude_unset=True`, and lists the fields that were set. -/
def modelDump (fields : List (String × Json)) (fieldsSet : Option (List String) := none) : Json :=
  .obj (fields.filter fun field =>
    !field.2.isNull && fieldsSet.all fun names => names.contains field.1)

structure CreateJobParams where
  queueName : String
  payload : Json
  priority : ℤ := 0
  maxRetries : ℤ := 3
  timeoutSeconds : ℤ := 300
  scheduledAt : Option String := none
  expiresAt : Option String := none
  idempotencyKey : Option String := none
  tags : Json := .null
  parentJobId : Option String := none
  completionWebhook : Option String := none
  completionWebhookSecret : Option String := none
  /-- `model_fields_set`; validation refuses a model without its required fields. -/
  fieldsSet : List String := ["queue_name", "payload"]
  required : "queue_name" ∈ fieldsSet ∧ "payload" ∈ fieldsSet := by decide

def CreateJobParams.fields (params : CreateJobParams) : List (String × Json) :=
  [("queue_name", .str params.queueName), ("payload", params.payload),
    ("priority", .int params.priority), ("max_retries", .int params.maxRetries),
    ("timeout_seconds", .int params.timeoutSeconds),
    ("scheduled_at", .ofOption .str params.scheduledAt),
    ("expires_at", .ofOption .str params.expiresAt),
    ("idempotency_key", .ofOption .str params.idempotencyKey), ("tags", params.tags),
    ("parent_job_id", .ofOption .str params.parentJobId),
    ("completion_webhook", .ofOption .str params.completionWebhook),
    ("completion_webhook_secret", .ofOption .str params.completionWebhookSecret)]

structure BulkJobItem where
  payload : Json
  priority : Option ℤ := none
  idempotencyKey : Option String := none
  scheduledAt : Option String := none

def BulkJobItem.fields (item : BulkJobItem) : List (String × Json) :=
  [("payload", item.payload), ("priority", .ofOption .int item.priority),
    ("idempotency_key", .ofOption .str item.idempotencyKey),
    ("scheduled_at", .ofOption .str item.scheduledAt)]

structure BulkEnqueueParams where
  queueName : String
  jobs : List BulkJobItem
  defaultPriority : Option ℤ := none
  defaultMaxRetries : Option ℤ := none
  defaultTimeoutSeconds : Option ℤ := none

def BulkEnqueueParams.fields (params : BulkEnqueueParams) : List (String × Json) :=
  [("queue_name", .str params.queueName),
    ("jobs", .arr (params.jobs.map fun item => modelDump item.fields)),
    ("default_priority", .ofOption .int params.defaultPriority),
    ("default_max_retries", .ofOption .int params.defaultMaxRetries),
    ("default_timeout_seconds", .ofOption .int params.defaultTimeoutSeconds)]

structure WorkflowJobDefinition where
  key : String
  queueName : String
  payload : Json
  dependsOn : Option (List String) := none
  dependencyMode : Option String := none
  priority : Option ℤ := none
  maxRetries : Option ℤ := none
  timeoutSeconds : Option ℤ := none

def WorkflowJobDefinition.fields (job : WorkflowJobDefinition) : List (String × Json) :=
  [("key", .str job.key), ("queue_name", .str job.queueName), ("payload", job.payload),
    ("depends_on", .ofOption (fun keys => .arr (keys.map .str)) job.dependsOn),
    ("dependency_mode", .ofOption .str job.dependencyMode),
    ("priority", .ofOption .int job.priority), ("max_retries", .ofOption .int job.maxRetries),
    ("timeout_seconds", .ofOption .int job.timeoutSeconds)]

structure CreateWorkflowParams where
  name : String
  description : Option String := none
  jobs : List WorkflowJobDefinition
  metadata : Json := .null

def CreateWorkflowParams.fields (params : CreateWorkflowParams) : List (String × Json) :=
  [("name", .str params.name), ("description", .ofOption .str params.description),
    ("jobs", .arr (params.jobs.map fun job => modelDump job.fields)),
    ("metadata", params.metadata)]

structure CreateScheduleParams where
  name : String
  description : Option String := none
  cronExpression : String
  timezone : String := "UTC"
  queueName : String
  payloadTemplate : Json
  priority : ℤ := 0
  maxRetries : ℤ := 3
  timeoutSeconds : ℤ := 300
  tags : Json := .null
  metadata : Json := .null
  fieldsSet : List String := ["name", "cron_expression", "queue_name", "payload_template"]
  required : ∀ name ∈ ["name", "cron_expression", "queue_name", "payload_template"],
    name ∈ fieldsSet := by decide

def CreateScheduleParams.fields (params : CreateScheduleParams) : List (String × Json) :=
  [("name", .str params.name), ("description", .ofOption .str params.description),
    ("cron_expression", .str params.cronExpression), ("timezone", .str params.timezone),
    ("queue_name", .str params.queueName), ("payload_template", params.payloadTemplate),
    ("priority", .int params.priority), ("max_retries", .int params.maxRetries),
    ("timeout_seconds", .int params.timeoutSeconds), ("tags", params.tags),
    ("metadata", params.metadata)]

structure CustomWebhookParams where
  queueName : String
  eventType : Option String := none
  payload : Json
  idempotencyKey : Option String := none
  priority : Option ℤ := none

def CustomWebhookParams.fields (params : CustomWebhookParams) : List (String × Json) :=
  [("queue_name", .str params.queueName), ("event_type", .ofOption .str params.eventType),
    ("payload", params.payload), ("idempotency_key", .ofOption .str params.idempotencyKey),
    ("priority", .ofOption .int params.priority)]

/-! ### Bodies -/

/-- The JSON body that `http.post` sends for `body`. -/
def post (body : Json) : Json := Casing.convertRequest body

/-- `jobs.create` -/
def createJob (params : CreateJobParams) : Json :=
  post (modelDump params.fields (some params.fieldsSet))

/-- `jobs.bulk_enqueue` -/
def bulkEnqueue (params : BulkEnqueueParams) : Json := post (modelDump params.fields)

/-- `workflows.create` -/
def createWorkflow (params : CreateWorkflowParams) : Json := post (modelDump params.fields)

/-- `schedules.create` -/
def createSchedule (params : CreateScheduleParams) : Json :=
  post (modelDump params.fields (some params.fieldsSet))

/-- `ingest.custom` -/
def customWebhook (params : CustomWebhookParams) : Json := post (modelDump params.fields)

/-! ### What is under a field -/

/-- The names of a model's fields stand for themselves. -/
def PlainNames (fields : List (String × Json)) : Prop :=
  (fields.map Prod.fst).Nodup ∧ ∀ name ∈ fields.map Prod.fst, Casing.snakeRule name = name

theorem get?_of_mem {members : List (String × Json)} {name : String} {value : Json}
    (hnodup : (members.map Prod.fst).Nodup) (hmem : (name, value) ∈ members) :
    Json.get? name members = some value := by
  induction members with
  | nil => cases hmem
  | cons member members ih =>
    rw [List.map_cons, List.nodup_cons] at hnodup
    rw [Json.get?, List.find?_cons]
    rcases List.mem_cons.mp hmem with rfl | hmem
    · simp
    · have hne : (member.1 == name) = false := by
        rw [beq_eq_false_iff_ne]
        intro heq
        exact hnodup.1 (List.mem_map.mpr ⟨_, hmem, heq.symm⟩)
      rw [hne]
      exact ih hnodup.2 hmem

theorem get?_of_notMem {members : List (String × Json)} {name : String}
    (h : name ∉ members.map Prod.fst) : Json.get? name members = none := by
  rw [Json.get?, List.find?_eq_none.mpr, Option.map_none]
  intro member hmem heq
  exact h (eq_of_beq heq ▸ List.mem_map_of_mem hmem)

/-- A field is sent unless it is `None` or left out, and converted unless it is kept as it is. -/
theorem member?_post_modelDump {fields : List (String × Json)} {fieldsSet : Option (List String)}
    {name : String} {value : Json} (hplain : PlainNames fields) (hmem : (name, value) ∈ fields)
    (hset : ∀ names, fieldsSet = some names → name ∈ names) :
    Json.member? name (post (modelDump fields fieldsSet)) =
      if value.isNull then none
      else some (if Casing.verbatim name then value else Casing.convertRequest value) := by
  obtain ⟨hnodup, hnames⟩ := hplain
  -- no key is changed, so those of the members that are sent stay distinct
  have hkeys : ∀ (sent : List (String × Json)), sent.Sublist fields →
      (sent.map Casing.renamedMember).map Prod.fst = sent.map Prod.fst := by
    intro sent hsent
    rw [List.map_map]
    exact List.map_congr_left fun member hmember =>
      hnames _ (List.mem_map_of_mem (hsent.subset hmember))
  have hsub := List.filter_sublist (l := fields) (p := fun field =>
    !field.2.isNull && fieldsSet.all fun names => names.contains field.1)
  have hsent := hnodup.sublist (hsub.map Prod.fst)
  rw [post, modelDump, Casing.convertRequest_obj,
    Json.ofPairs_of_nodup (by rw [hkeys _ hsub]; exact hsent), Json.member?]
  cases hnull : value.isNull with
  | true =>
    -- the one field of this name is not sent
    refine get?_of_notMem fun hin => ?_
    rw [hkeys _ hsub] at hin
    obtain ⟨⟨name', value'⟩, hfield, rfl⟩ := List.mem_map.mp hin
    obtain ⟨hfield, hkept⟩ := List.mem_filter.mp hfield
    have : value' = value := by
      have h₁ := get?_of_mem hnodup hfield
      rw [get?_of_mem hnodup hmem] at h₁
      exact (Option.some.inj h₁).symm
    rw [this, hnull] at hkept
    cases hkept
  | false =>
    have hfield : (name, value) ∈ fields.filter fun field =>
        !field.2.isNull && fieldsSet.all fun names => names.contains field.1 := by
      refine List.mem_filter.mpr ⟨hmem, ?_⟩
      cases fieldsSet with
      | none => simp [hnull]
      | some names => simpa [hnull] using hset names rfl
    refine get?_of_mem (by rw [hkeys _ hsub]; exact hsent) (List.mem_map.mpr ⟨_, hfield, ?_⟩)
    rw [Casing.renamedMember, hnames name (List.mem_map_of_mem hmem)]

/-- A payload is sent as it is, unless it is `None`. -/
theorem payload_sent_iff {fields : List (String × Json)} {fieldsSet : Option (List String)}
    {name : String} {value : Json} (hplain : PlainNames fields) (hmem : (name, value) ∈ fields)
    (hset : ∀ names, fieldsSet = some names → name ∈ names)
    (hkept : Casing.verbatim name = true) :
    Json.member? name (post (modelDump fields fieldsSet)) = some value ↔ value ≠ .null := by
  rw [member?_post_modelDump hplain hmem hset, hkept]
  cases value with
  | null => exact ⟨fun h => (nomatch h), fun h => absurd rfl h⟩
  | bool | int | float | str | arr | obj => exact ⟨fun _ h => (nomatch h), fun _ => rfl⟩

/-- The items of a list field are converted one by one. -/
theorem items_post_modelDump {fields : List (String × Json)} {name : String} {items : List Json}
    (hplain : PlainNames fields) (hmem : (name, .arr items) ∈ fields)
    (hkept : Casing.verbatim name = false) :
    Json.member? name (post (modelDump fields)) = some (.arr (items.map post)) := by
  have hsent : Json.member? name (post (modelDump fields)) = _ :=
    member?_post_modelDump hplain hmem fun _ h => nomatch h
  rw [hsent, hkept]
  show some (Casing.convertRequest (.arr items)) = _
  rw [Casing.convertRequest_arr]
  rfl

/-- No name of a field is changed by the rule for keys. -/
theorem fields_plain :
    (∀ params : CreateJobParams, PlainNames params.fields) ∧
    (∀ item : BulkJobItem, PlainNames item.fields) ∧
    (∀ params : BulkEnqueueParams, PlainNames params.fields) ∧
    (∀ job : WorkflowJobDefinition, PlainNames job.fields) ∧
    (∀ params : CreateWorkflowParams, PlainNames params.fields) ∧
    (∀ params : CreateScheduleParams, PlainNames params.fields) ∧
    ∀ params : CustomWebhookParams, PlainNames params.fields := by
  refine ⟨fun _ => ?_, fun _ => ?_, fun _ => ?_, fun _ => ?_, fun _ => ?_, fun _ => ?_,
    fun _ => ?_⟩
  all_goals
    simp only [PlainNames, CreateJobParams.fields, BulkJobItem.fields, BulkEnqueueParams.fields,
      WorkflowJobDefinition.fields, CreateWorkflowParams.fields, CreateScheduleParams.fields,
      CustomWebhookParams.fields, List.map_cons, List.map_nil]
    decide +kernel

theorem verbatim_payload : Casing.verbatim "payload" = true := by
  simp [Casing.verbatim, Casing.skipConversionKeys]

theorem verbatim_payloadTemplate : Casing.verbatim "payload_template" = true := by
  simp [Casing.verbatim, Casing.skipConversionKeys]

/-- The items of `jobs` are converted like any other. -/
theorem verbatim_jobs {fields : List (String × Json)} {value : Json} (hplain : PlainNames fields)
    (hmem : ("jobs", value) ∈ fields) : Casing.verbatim "jobs" = false := by
  rw [Casing.verbatim, hplain.2 "jobs" (List.mem_map_of_mem hmem)]
  simp [Casing.skipConversionKeys]

/-- The body of the `i`th item under `jobs`. -/
def job? (i : ℕ) (body : Json) : Option Json :=
  (Json.member? "jobs" body).bind fun jobs => jobs.items[i]?

theorem job?_post_modelDump {α : Type} {fields : List (String × Json)} {jobs : List α}
    (toFields : α → List (String × Json)) {i : ℕ} {job : α} (hplain : PlainNames fields)
    (hmem : ("jobs", Json.arr (jobs.map fun job => modelDump (toFields job))) ∈ fields)
    (hjob : jobs[i]? = some job) :
    job? i (post (modelDump fields)) = some (post (modelDump (toFields job))) := by
  rw [job?, items_post_modelDump hplain hmem (verbatim_jobs hplain hmem), Option.bind_some,
    Json.items, List.getElem?_map, List.getElem?_map, hjob]
  rfl

/-- Every payload is on the wire as it was given, exactly if it is not `None`. -/
theorem payload_verbatim_iff (job : CreateJobParams) (bulk : BulkEnqueueParams)
    (workflow : CreateWorkflowParams) (schedule : CreateScheduleParams)
    (webhook : CustomWebhookParams) :
    (Json.member? "payload" (createJob job) = some job.payload ↔ job.payload ≠ .null) ∧
    (∀ i item, bulk.jobs[i]? = some item →
      ((job? i (bulkEnqueue bulk)).bind (Json.member? "payload") = some item.payload ↔
        item.payload ≠ .null)) ∧
    (∀ i job, workflow.jobs[i]? = some job →
      ((job? i (createWorkflow workflow)).bind (Json.member? "payload") = some job.payload ↔
        job.payload ≠ .null)) ∧
    (Json.member? "payload_template" (createSchedule schedule) = some schedule.payloadTemplate ↔
      schedule.payloadTemplate ≠ .null) ∧
    (Json.member? "payload" (customWebhook webhook) = some webhook.payload ↔
      webhook.payload ≠ .null) := by
  obtain ⟨hcreate, hitem, hbulk, hjob, hworkflow, hschedule, hwebhook⟩ := fields_plain
  refine ⟨?_, fun i item hi => ?_, fun i job hi => ?_, ?_, ?_⟩
  · exact payload_sent_iff (hcreate job) (by simp [CreateJobParams.fields])
      (fun names hnames => Option.some.inj hnames ▸ job.required.2) verbatim_payload
  · rw [bulkEnqueue, job?_post_modelDump BulkJobItem.fields (hbulk bulk)
      (by simp [BulkEnqueueParams.fields]) hi, Option.bind_some]
    exact payload_sent_iff (hitem item) (by simp [BulkJobItem.fields]) nofun verbatim_payload
  · rw [createWorkflow, job?_post_modelDump WorkflowJobDefinition.fields (hworkflow workflow)
      (by simp [CreateWorkflowParams.fields]) hi, Option.bind_some]
    exact payload_sent_iff (hjob job) (by simp [WorkflowJobDefinition.fields]) nofun
      verbatim_payload
  · exact payload_sent_iff (hschedule schedule) (by simp [CreateScheduleParams.fields])
      (fun names hnames => Option.some.inj hnames ▸ schedule.required _ (by simp))
      verbatim_payloadTemplate
  · exact payload_sent_iff (hwebhook webhook) (by simp [CustomWebhookParams.fields]) nofun
      verbatim_payload

/-- Two items of one request, the second without a payload. -/
theorem payload_verbatim_sample :
    let bulk : BulkEnqueueParams :=
      { queueName := "emails"
        jobs := [{ payload := .obj [("userId", .int 7)] }, { payload := .null }] }
    (job? 0 (bulkEnqueue bulk)).bind (Json.member? "payload") =
        some (.obj [("userId", .int 7)]) ∧
      (job? 1 (bulkEnqueue bulk)).bind (Json.member? "payload") ≠ some .null := by
  intro bulk
  obtain ⟨-, hbulk, -⟩ := payload_verbatim_iff { queueName := "emails", payload := .null } bulk
    { name := "welcome", jobs := [] }
    { name := "nightly", cronExpression := "0 0 * * *", queueName := "emails",
      payloadTemplate := .null }
    { queueName := "emails", payload := .null }
  have h₀ := hbulk 0 { payload := .obj [("userId", .int 7)] } rfl
  have h₁ := hbulk 1 { payload := .null } rfl
  exact ⟨h₀.mpr fun h => (nomatch h), fun h => h₁.mp h rfl⟩

/-- A job with the payload `None` is sent without one. -/
theorem null_payload_dropped :
    ¬ ∀ params : CreateJobParams,
      Json.member? "payload" (createJob params) = some params.payload := by
  intro h
  have hplain : PlainNames (CreateJobParams.fields ⟨"emails", .null, 0, 3, 300, none, none, none,
    .null, none, none, none, ["queue_name", "payload"], by decide⟩) := fields_plain.1 _
  have := h ⟨"emails", .null, 0, 3, 300, none, none, none, .null, none, none, none,
    ["queue_name", "payload"], by decide⟩
  rw [createJob, member?_post_modelDump hplain (List.mem_cons_of_mem _ List.mem_cons_self)
    (fun names hnames => Option.some.inj hnames ▸ by simp)] at this
  cases this

end Resources

end SpooledSdk

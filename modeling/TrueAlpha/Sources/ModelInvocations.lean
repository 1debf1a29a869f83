import Mathlib.Data.List.Infix
import TrueAlpha.Lib.AskOnce
import TrueAlpha.Lib.Json
import TrueAlpha.Time

/-!
# Model invocations

The embedding of `invoke` of `sources.llm`: the request of a task, the lock, the replay of a stored answer, and the row that an
ask records.  `Texts` holds digests and texts; the answer of a provider is an input.
-/

namespace TrueAlpha.Sources

structure Texts where
  sha256 : String → String
  canonicalSha256 : Json → String
  hashtextextended : String → ℤ
  dumps : Json → String
  loads : String → Option Json
  str : Json → String
  repr : String → String
  strip : String → String
  lower : String → String

structure ModelTask where
  promptVersion : String
  instructions : String
  maxTokens : ℕ
  maxContextTokens : ℕ
  answerRequired : Bool

/-- A decoding version of `sources.model_decoding`. -/
structure DecodingVersion where
  name : String
  thinking : String
  reasoningEffort : Option String
  deriving DecidableEq

def DecodingVersion.v1 : DecodingVersion := ⟨"v1", "disabled", none⟩

def DecodingVersion.v2 : DecodingVersion := ⟨"v2", "enabled", some "low"⟩

def DecodingVersion.known : List DecodingVersion := [v1, v2]

def DecodingVersion.parameters (version : DecodingVersion) : List (String × Json) :=
  ("thinking", .dict [("type", .text version.thinking)]) ::
    match version.reasoningEffort with
    | some effort => [("reasoning_effort", .text effort)]
    | none => []

def buildChatRequest (task : ModelTask) (userContent model : String) (decoding : DecodingVersion) : Json :=
  .dict ([("model", .text model), ("messages", .array [.dict [("role", .text "system"), ("content", .text task.instructions)],
      .dict [("role", .text "user"), ("content", .text userContent)]]),
    ("max_tokens", .number task.maxTokens), ("temperature", .number 0),
    ("response_format", .dict [("type", .text "json_object")])] ++ decoding.parameters)

def compactRequestByteThreshold : ℕ := 16384

def compactMessage (texts : Texts) (message : Json) : Json :=
  match message.get? "content" with
  | some (.text content) =>
    if message.get? "role" = some (.text "user") ∧ compactRequestByteThreshold < content.utf8ByteSize then
      .dict [("role", .text "user"), ("content_sha256", .text (texts.sha256 content)),
        ("content_chars", .number content.length), ("content_bytes", .number content.utf8ByteSize)]
    else message
  | _ => message

def storedRequest (texts : Texts) (request : Json) : Json := request.modify "messages" (Json.mapItems (compactMessage texts))

def withoutModel (texts : Texts) (request : Json) : Json := (storedRequest texts request).without "model"

/-- The text that the lock hashes. -/
def question (texts : Texts) (request : Json) : String := texts.dumps (withoutModel texts request)

def requestSha256 (texts : Texts) (request : Json) : String := texts.sha256 (texts.dumps request)

structure Question where
  task : ModelTask
  cik : ℤ
  accession : String
  userContent : String

def Question.request (asked : Question) (model : String) (decoding : DecodingVersion) : Json :=
  buildChatRequest asked.task asked.userContent model decoding

/-- A row of `staging.model_invocations`. -/
structure InvocationRow where
  invocationId : String
  provider : String
  model : String
  subjectCik : ℤ
  accession : String
  promptSha256 : String
  requestSha256 : String
  responseSha256 : Option String
  statusCode : Option ℤ
  promptTokens : Json
  completionTokens : Json
  decision : Json
  request : Json
  response : Option Json
  servedModel : Option String
  deriving DecidableEq

def finishReasonCutOff : String := "length"

def firstItem : Json → Option Json
  | .cons head _ => some head
  | _ => none

/-- `response -> 'choices' -> 0 ->> 'finish_reason'` is that of an answer that was cut off. -/
def InvocationRow.CutOff (row : InvocationRow) : Prop :=
  (((row.response.bind (·.get? "choices")).bind firstItem).bind (·.get? "finish_reason")) = some (.text finishReasonCutOff)

def InvocationRow.Answered (row : InvocationRow) : Prop := (∃ status ∈ row.statusCode, status < 400) ∧ ¬ row.CutOff

instance (row : InvocationRow) : Decidable row.CutOff := inferInstanceAs (Decidable (_ = _))

instance (row : InvocationRow) : Decidable row.Answered := inferInstanceAs (Decidable ((∃ status ∈ _, _) ∧ _))

def Question.AskedOf (texts : Texts) (asked : Question) (model : String) (row : InvocationRow) : Prop :=
  ∃ version ∈ DecodingVersion.known, row.requestSha256 = requestSha256 texts (asked.request model version) ∧ row.model = model

def Question.ServedBy (texts : Texts) (asked : Question) (model : String) (row : InvocationRow) : Prop :=
  row.servedModel = some model ∧
    ∃ version ∈ DecodingVersion.known, row.request.without "model" = withoutModel texts (asked.request model version)

/-- The condition of `_replay_sql`. -/
def Question.Matches (texts : Texts) (asked : Question) (model : String) (row : InvocationRow) : Prop :=
  row.subjectCik = asked.cik ∧ row.accession = asked.accession ∧ row.Answered ∧
    (asked.AskedOf texts model row ∨ asked.ServedBy texts model row)

instance (texts : Texts) (asked : Question) (model : String) (row : InvocationRow) :
    Decidable (asked.AskedOf texts model row) :=
  inferInstanceAs (Decidable (∃ version ∈ DecodingVersion.known, _ = _ ∧ _ = _))

instance (texts : Texts) (asked : Question) (model : String) (row : InvocationRow) :
    Decidable (asked.ServedBy texts model row) :=
  inferInstanceAs (Decidable (_ = _ ∧ ∃ version ∈ DecodingVersion.known, _ = _))

instance (texts : Texts) (asked : Question) (model : String) (row : InvocationRow) :
    Decidable (asked.Matches texts model row) :=
  inferInstanceAs (Decidable (_ = _ ∧ _ = _ ∧ _ ∧ (_ ∨ _)))

/-- One call of `invoke` for a question, with the settings of its process. -/
structure Invocation where
  model : String
  provider : String
  decoding : DecodingVersion
  known : decoding ∈ DecodingVersion.known
  standard : String
  parse : String → Json
  refusal : String → Json

/-- The key of `_lock_question`: the question in the oldest version. -/
def Question.lockKey (texts : Texts) (asked : Question) (call : Invocation) : ℤ :=
  let digest := texts.sha256 (question texts (asked.request call.model DecodingVersion.v1))
  texts.hashtextextended s!"staging.model_invocations:{asked.cik}:{asked.accession}:{digest}"

def ModelTask.promptSha256 (texts : Texts) (task : ModelTask) : String :=
  texts.sha256 (task.promptVersion ++ "\n" ++ task.instructions)

structure ModelInvocation where
  decision : Json
  model : String
  provider : String
  promptSha256 : String
  requestSha256 : String
  responseSha256 : Option String
  promptTokens : Json
  completionTokens : Json
  invocationId : String
  replayed : Bool
  servedModel : Option String

/-- What `_replay` returns for the row it read. -/
def Question.replayOf (texts : Texts) (asked : Question) (row : InvocationRow) : ModelInvocation where
  decision := row.decision
  model := row.model
  provider := row.provider
  promptSha256 := asked.task.promptSha256 texts
  requestSha256 := row.requestSha256
  responseSha256 := row.responseSha256
  promptTokens := row.promptTokens
  completionTokens := row.completionTokens
  invocationId := row.invocationId
  replayed := true
  servedModel := row.servedModel

/-! ## An ask -/

def contextLimitCodes : List String :=
  ["context_length_exceeded", "context_window_exceeded", "tokens_limit_reached", "prompt_too_long"]

def contextLimitPhrases : List String :=
  ["context_length_exceeded", "context window", "maximum context length", "prompt is too long", "tokens_limit_reached",
    "maximum input length", "exceeds the maximum number of tokens"]

def isDict : Json → Bool
  | .empty => true
  | .field _ _ _ => true
  | _ => false

def isFalsy : Json → Bool
  | .null => true
  | .text value => value = ""
  | .number value => value = 0
  | .decimal value => value = 0
  | .nil => true
  | .empty => true
  | _ => false

def getOr (value : Json) (key : String) (default : Json) : Json :=
  match value.get? key with
  | some found => if isFalsy found then default else found
  | none => default

def isContextLimitResponse (texts : Texts) (status : ℤ) (body : String) : Bool :=
  if status = 413 then true
  else if status ≠ 400 then false
  else
    let byCode :=
      match texts.loads body with
      | some parsed =>
        isDict parsed &&
          let nested := (parsed.get? "error").getD .null
          let error := if isDict nested then nested else parsed
          contextLimitCodes.contains (texts.lower (texts.strip (texts.str (getOr error "code" (.text "")))))
      | none => false
    byCode || contextLimitPhrases.any fun phrase => decide (phrase.toList <:+: (texts.lower body).toList)

/-- Two and a half characters for each token. -/
def estimatePromptTokens (task : ModelTask) (userContent : String) : ℕ := (task.instructions.length + userContent.length) * 2 / 5

/-- `(payload.get("choices") or [{}])[0]`, where it is an object. -/
def firstChoice (payload : Json) : Option Json := (firstItem (getOr payload "choices" (.array [.dict []]))).filter isDict

def cutOff (payload : Json) : Option Bool :=
  (firstChoice payload).map fun choice => choice.get? "finish_reason" = some (.text finishReasonCutOff)

/-- Nothing where the payload is of another shape. -/
def answerDecision (call : Invocation) (task : ModelTask) (payload : Json) : Option Json := do
  if task.answerRequired && (← cutOff payload) then
    return call.refusal s!"truncated: finish_reason={finishReasonCutOff} at max_tokens {task.maxTokens}"
  else
    let message := getOr (← firstChoice payload) "message" (.dict [])
    guard (isDict message)
    match getOr message "content" (.text "") with
    | .text content => return call.parse content
    | _ => none

structure ProviderAnswer where
  startedAt : Instant
  outcome : Option (ℤ × String)

/-- What `_ask` reads from an outcome: status, body, tokens, served model and decision. -/
structure Reading where
  status : ℤ
  body : String
  promptTokens : Json
  completionTokens : Json
  servedModel : Option String
  decision : Json

def Question.tooLong (texts : Texts) (asked : Question) (call : Invocation) : Reading :=
  let estimated := estimatePromptTokens asked.task asked.userContent
  let message := s!"context_window_exceeded: cik={asked.cik} accession={asked.accession} standard={call.standard} " ++
    s!"estimated_tokens={estimated} exceeds max_context_tokens={asked.task.maxContextTokens} " ++
    s!"(chars={asked.userContent.length})"
  { status := 413
    body := texts.dumps (.dict [("error", .dict [("code", .text "context_window_exceeded"), ("message", .text message),
      ("estimated_tokens", .number estimated), ("max_context_tokens", .number asked.task.maxContextTokens)])])
    promptTokens := .number estimated
    completionTokens := .number 0
    servedModel := none
    decision := call.refusal message }

def Question.reading (texts : Texts) (asked : Question) (call : Invocation) (status : ℤ) (body : String) : Option Reading := do
  let payload ← if status ≥ 400 then some (.dict []) else texts.loads body
  guard (isDict payload)
  let usage := getOr payload "usage" (.dict [])
  guard (isDict usage)
  let decision ←
    if status ≥ 400 then
      if isContextLimitResponse texts status body then
        some (call.refusal (s!"context_window_exceeded: cik={asked.cik} accession={asked.accession} " ++
          s!"standard={call.standard} HTTP {status}: {texts.repr body}"))
      else some (call.refusal s!"HTTP {status}: {texts.repr body}")
    else answerDecision call asked.task payload
  return {
    status
    body
    promptTokens := (usage.get? "prompt_tokens").getD .null
    completionTokens := (usage.get? "completion_tokens").getD .null
    servedModel := if isFalsy (getOr payload "model" .null) then none else (payload.get? "model").map texts.str
    decision }

def Question.row (texts : Texts) (asked : Question) (call : Invocation) (startedAt : Instant) (reading : Reading) :
    InvocationRow :=
  let request := asked.request call.model call.decoding
  let promptSha256 := asked.task.promptSha256 texts
  let requestDigest := requestSha256 texts request
  let responseSha256 := texts.sha256 reading.body
  let served := match reading.servedModel with
    | some served => if served = "" then [] else [("served_model", Json.text served)]
    | none => []
  { invocationId := "model-invocation:" ++ texts.canonicalSha256 (.dict ([("provider", .text call.provider),
      ("model", .text call.model), ("prompt_sha256", .text promptSha256), ("request_sha256", .text requestDigest),
      ("response_sha256", .text responseSha256), ("started_at", .number startedAt)] ++ served))
    provider := call.provider
    model := call.model
    subjectCik := asked.cik
    accession := asked.accession
    promptSha256
    requestSha256 := requestDigest
    responseSha256 := some responseSha256
    statusCode := some reading.status
    promptTokens := reading.promptTokens
    completionTokens := reading.completionTokens
    decision := reading.decision
    request := storedRequest texts request
    response := texts.loads reading.body
    servedModel := reading.servedModel }

/-- `_ask` on a connection: the row it inserts, or nothing where it raised before. -/
def Question.ask (texts : Texts) (asked : Question) (call : Invocation) (answer : ProviderAnswer) : Option InvocationRow :=
  if estimatePromptTokens asked.task asked.userContent > asked.task.maxContextTokens then
    some (asked.row texts call answer.startedAt (asked.tooLong texts call))
  else do
    let (status, body) ← answer.outcome
    return asked.row texts call answer.startedAt (← asked.reading texts call status body)

/-- `invoke` with a connection: the lock, the replay, and the ask with its insert. -/
def Question.protocol (texts : Texts) (asked : Question) : AskOnce.Protocol Invocation String ℤ ProviderAnswer InvocationRow where
  query := Invocation.model
  key := asked.lockKey texts
  answers model row := decide (asked.Matches texts model row)
  record := asked.ask texts
  stores visible row := !visible.any fun stored => stored.2.invocationId = row.invocationId

end TrueAlpha.Sources

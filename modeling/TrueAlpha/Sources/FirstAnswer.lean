import TrueAlpha.Sources.ModelInvocations

/-!
# The first answer of the model is the answer

Calls of one question run in any interleaving under one lock, since its key leaves the model out.  So the first committed answer
that matches a model is what every later call under that name returns.
-/

namespace TrueAlpha.Sources

variable (texts : Texts) (asked : Question)

theorem withoutModel_buildChatRequest (task : ModelTask) (userContent model model' : String) (decoding : DecodingVersion) :
    withoutModel texts (buildChatRequest task userContent model decoding) =
      withoutModel texts (buildChatRequest task userContent model' decoding) := by
  simp only [withoutModel, storedRequest, buildChatRequest, Json.modify_dict, Json.without_dict]
  congr 1

theorem Question.lockKey_eq (call call' : Invocation) : asked.lockKey texts call = asked.lockKey texts call' := by
  simp only [Question.lockKey, question, Question.request,
    withoutModel_buildChatRequest texts asked.task asked.userContent call.model call'.model]

theorem Question.covers : (asked.protocol texts).Covers := fun call _ _ call' _ _ => asked.lockKey_eq texts call call'

variable {answer : ProviderAnswer}

theorem Question.ask_eq_some {call : Invocation} {row : InvocationRow} (h : asked.ask texts call answer = some row) :
    ∃ reading, row = asked.row texts call answer.startedAt reading := by
  rw [Question.ask] at h
  split at h
  · exact ⟨_, (Option.some.inj h).symm⟩
  · simp only [Option.bind_eq_bind, Option.bind_eq_some_iff, Option.pure_def, Option.some.injEq] at h
    obtain ⟨_, _, reading, _, heq⟩ := h
    exact ⟨reading, heq.symm⟩

def Question.AnsweredAsk (model : String) (row : InvocationRow) : Prop :=
  row.subjectCik = asked.cik ∧ row.accession = asked.accession ∧ row.Answered ∧ asked.AskedOf texts model row

instance (model : String) (row : InvocationRow) : Decidable (asked.AnsweredAsk texts model row) :=
  inferInstanceAs (Decidable (_ = _ ∧ _ = _ ∧ _ ∧ _))

theorem Question.owns (call : Invocation) :
    (asked.protocol texts).Owns call fun row => decide (asked.AnsweredAsk texts call.model row) where
  answers row hown := by
    obtain ⟨hcik, haccession, hanswered, hasked⟩ := of_decide_eq_true hown
    exact decide_eq_true ⟨hcik, haccession, hanswered, .inl hasked⟩
  asker caller answer row hrecord hown := by
    obtain ⟨-, -, -, version, -, -, hmodel⟩ := of_decide_eq_true hown
    obtain ⟨reading, rfl⟩ := asked.ask_eq_some texts hrecord
    exact hmodel

theorem Question.answeredAsk_of_ask {call : Invocation} {row : InvocationRow}
    (h : asked.ask texts call answer = some row) {model : String} (hmodel : row.model = model) (hanswered : row.Answered) :
    asked.AnsweredAsk texts model row := by
  obtain ⟨reading, rfl⟩ := asked.ask_eq_some texts h
  subst hmodel
  exact ⟨rfl, rfl, hanswered, call.decoding, call.known, rfl, rfl⟩

def Question.results {Session : Type} (state : AskOnce.State Session Invocation ℤ InvocationRow) :
    List (Invocation × ModelInvocation) :=
  state.returned.map fun entry => (entry.1, asked.replayOf texts entry.2.2)

abbrev Question.step {Session : Type} [DecidableEq Session] :
    AskOnce.State Session Invocation ℤ InvocationRow → AskOnce.Event Session Invocation ProviderAnswer →
      Except AskOnce.Blocked (AskOnce.State Session Invocation ℤ InvocationRow) :=
  AskOnce.step (asked.protocol texts)

def Invocation.ofModel (model : String) : Invocation where
  model
  provider := ""
  decoding := .v1
  known := by decide
  standard := ""
  parse := .text
  refusal := .text

/-- Once an answered row that matches a model is committed, its calls return the decision of the least such id and do not ask; at
most one answered ask is committed. -/
theorem first_answer_is_the_answer {Session : Type} [DecidableEq Session] (table : AskOnce.Table InvocationRow)
    (events : List (AskOnce.Event Session Invocation ProviderAnswer))
    (state : AskOnce.State Session Invocation ℤ InvocationRow)
    (hrun : events.foldlM (asked.step texts) table.start = .ok state) (model : String) :
    ((∃ row ∈ state.rows, asked.Matches texts model row.2) → ∃ first ∈ state.rows, asked.Matches texts model first.2 ∧
        (∀ row ∈ state.rows, asked.Matches texts model row.2 → first.1 ≤ row.1) ∧
        ∀ (later : List (AskOnce.Event Session Invocation ProviderAnswer))
          (state' : AskOnce.State Session Invocation ℤ InvocationRow),
          later.foldlM (asked.step texts) state = .ok state' →
          (∃ results, asked.results texts state' = asked.results texts state ++ results ∧
            ∀ result ∈ results, result.1.model = model → result.2 = asked.replayOf texts first.2) ∧
          ∃ asks, state'.asked = state.asked ++ asks ∧ ∀ call ∈ asks, call.model ≠ model) ∧
    ∃ new, state.rows = table.rows ++ new ∧ new.countP (fun row => row.2.model = model ∧ row.2.Answered) ≤ 1 := by
  have horderly := AskOnce.orderly_run (AskOnce.orderly_start table) (asked.covers texts) hrun
  refine ⟨fun ⟨row, hrow, hmatches⟩ => ?_, ?_⟩
  · rcases hfirst : (asked.protocol texts).first model state.rows with _ | first
    · have hnone := AskOnce.Protocol.first_eq_none_iff.mp hfirst row hrow
      exact absurd hmatches (of_decide_eq_false hnone)
    · obtain ⟨hmem, hanswers, hleast⟩ := AskOnce.Protocol.first_eq_some hfirst
      refine ⟨first, hmem, of_decide_eq_true hanswers, fun row hrow h => hleast row hrow (decide_eq_true h),
        fun later state' hlater => ?_⟩
      obtain ⟨⟨results, hresults, hsame⟩, hasks⟩ := horderly.log_run (asked.covers texts) hlater
          (show (asked.protocol texts).first ((asked.protocol texts).query (.ofModel model)) state.rows = some first
            from hfirst)
      refine ⟨⟨results.map fun entry => (entry.1, asked.replayOf texts entry.2.2), ?_, fun result hresult hmodel => ?_⟩, hasks⟩
      · rw [Question.results, hresults, List.map_append, Question.results]
      · obtain ⟨entry, hentry, rfl⟩ := List.mem_map.mp hresult
        rw [hsame entry hentry hmodel]
  · obtain ⟨new, hone⟩ := AskOnce.oneOwn_run (asked.covers texts) hrun (asked.owns texts (.ofModel model))
    refine ⟨new, hone.rows, le_trans (List.countP_mono_left fun row hrow h => ?_) hone.committed⟩
    obtain ⟨hmodel, hanswered⟩ := of_decide_eq_true h
    obtain ⟨call, answer, hrecord⟩ := hone.recorded row hrow
    exact decide_eq_true (asked.answeredAsk_of_ask texts hrecord hmodel hanswered)

/-! ### Two names of one model -/

/-- The characters that `json.dumps` writes for a value whose texts need no escapes. -/
def sampleDumps : Json → List Char
  | .null => "null".toList
  | .text value => '"' :: value.toList ++ ['"']
  | .number value => (toString value).toList
  | .decimal value => (toString value.num).toList
  | .nil => ['[', ']']
  | .cons head .nil => '[' :: sampleDumps head ++ [']']
  | .cons head tail => '[' :: sampleDumps head ++ ", ".toList ++ (sampleDumps tail).tail
  | .empty => ['\x7b', '\x7d']
  | .field key value .empty => '\x7b' :: '"' :: key.toList ++ "\": ".toList ++ sampleDumps value ++ ['\x7d']
  | .field key value rest =>
    '\x7b' :: '"' :: key.toList ++ "\": ".toList ++ sampleDumps value ++ ", ".toList ++ (sampleDumps rest).tail

def chooseOne : Question where
  task := ⟨"p1", "Choose one.", 300, 1000000, true⟩
  cik := 320193
  accession := "0000320193-25-000079"
  userContent := "Candidates: 164000"

def chosen : Json :=
  .dict [("choices", .array [.dict [("finish_reason", .text "stop"), ("message", .dict [("content", .text "164000")])]]),
    ("model", .text "glm-5.3-flash")]

def requestText (names thinking : String) : String :=
  String.ofList ("\x7b\"max_tokens\": 300, \"messages\": [\x7b\"content\": \"Choose one.\", \"role\": \"system\"\x7d, ".toList ++
    "\x7b\"content\": \"Candidates: 164000\", \"role\": \"user\"\x7d], ".toList ++ names.toList ++
    "\"response_format\": \x7b\"type\": \"json_object\"\x7d, \"temperature\": 0, ".toList ++
    "\"thinking\": \x7b\"type\": \"".toList ++ thinking.toList ++ "\"\x7d\x7d".toList)

def sampleDigests : List (String × String) :=
  [("p1\nChoose one.", "af6a55e106ed466dc207e8d7a7a58078437059f292280b9fe83a99be328993e8"),
    (requestText "\"model\": \"glm-4.7\", " "disabled", "d9583a983ee6f86779227330909940c445cebf5754b1069790f83499269be550"),
    (requestText "\"model\": \"glm-4.7\", \"reasoning_effort\": \"low\", " "enabled",
      "adb5bc43b7aaa94eedc694c9632b9e32ef49df47885eaa143da37b25bf4a6b4c"),
    (requestText "\"model\": \"glm-5.3-flash\", " "disabled", "e6768c07fdc7888d12ef28a9e9dfc095805a112f510646652b435e6c77a71fda"),
    (requestText "\"model\": \"glm-5.3-flash\", \"reasoning_effort\": \"low\", " "enabled",
      "5b3fc2a07ce73a15d02e871545509a64b9091d867c0fabbe9a4d6368ab0ebf74"),
    (requestText "" "disabled", "e6909e1a9b0654565e59cff9819b82dc9fcd960c2beea2dde619eb9cfd78855b"),
    (String.ofList (sampleDumps chosen), "ed42677ac89b98831affbd9a50beb4b6a5f1046223934df8ca6e8ab81369c277")]

def sampleTexts : Texts where
  sha256 text := (sampleDigests.lookup text).getD ""
  canonicalSha256 _ := "6794cce5f80249d23cd30e07f03e1a0a29954d22e230cbaacf56522227424aff"
  hashtextextended _ := -4191226852554758225
  dumps value := String.ofList (sampleDumps value)
  loads text := if text = String.ofList (sampleDumps chosen) then some chosen else none
  str
    | .text value => value
    | value => String.ofList (sampleDumps value)
  repr text := "b'" ++ text ++ "'"
  strip text := String.ofList ((text.toList.dropWhile (· = ' ')).reverse.dropWhile (· = ' ')).reverse
  lower text := String.ofList (text.toList.map Char.toLower)

def sampleCall (model : String) (decoding : DecodingVersion) (h : decoding ∈ DecodingVersion.known) : Invocation where
  model
  provider := "zai"
  decoding
  known := h
  standard := "employees_total"
  parse content := .dict [("value", .text content)]
  refusal reason := .dict [("value", .null), ("reason", .text reason)]

def aliasRun : List (AskOnce.Event ℕ Invocation ProviderAnswer) :=
  [.lock 0 (sampleCall "glm-4.7" .v1 (by decide)), .read 0,
    .ask 0 ⟨739617 * microsPerDay, some (200, String.ofList (sampleDumps chosen))⟩ 1, .commit 0,
    .lock 1 (sampleCall "glm-5.3-flash" .v2 (by decide))]

/-- The answer to the alias is what the calls under the served name return. -/
theorem alias_answer_is_replayed : ∃ state : AskOnce.State ℕ Invocation ℤ InvocationRow,
      aliasRun.foldlM (chooseOne.step sampleTexts) (AskOnce.Table.start ⟨[], 1, List.forall_mem_nil _⟩) = .ok state ∧
      ∃ first ∈ state.rows, chooseOne.Matches sampleTexts "glm-5.3-flash" first.2 ∧ first.2.model = "glm-4.7" ∧
        ∀ (later : List (AskOnce.Event ℕ Invocation ProviderAnswer)) (state' : AskOnce.State ℕ Invocation ℤ InvocationRow),
          later.foldlM (chooseOne.step sampleTexts) state = .ok state' →
          ∃ results, chooseOne.results sampleTexts state' = chooseOne.results sampleTexts state ++ results ∧
            ∀ result ∈ results, result.1.model = "glm-5.3-flash" → result.2.decision = .dict [("value", .text "164000")] := by
  have hrun : (aliasRun.foldlM (chooseOne.step sampleTexts) (AskOnce.Table.start ⟨[], 1, List.forall_mem_nil _⟩ :
      AskOnce.State ℕ Invocation ℤ InvocationRow)).toOption.any fun state =>
        (∃ row ∈ state.rows, row.2.subjectCik = chooseOne.cik ∧ row.2.accession = chooseOne.accession ∧
          row.2.Answered ∧ chooseOne.ServedBy sampleTexts "glm-5.3-flash" row.2) ∧
        ∀ row ∈ state.rows, row.2.model = "glm-4.7" ∧ row.2.decision = .dict [("value", .text "164000")] := by
    decide +kernel
  obtain ⟨state, hstate, hrow⟩ := exists_ok_of_any hrun
  obtain ⟨⟨row, hmem, hcik, haccession, hanswered, hserved⟩, hrows⟩ := of_decide_eq_true hrow
  obtain ⟨first, hfirst, hmatch, -, hlater⟩ :=
    (first_answer_is_the_answer sampleTexts chooseOne _ aliasRun state hstate "glm-5.3-flash").1
      ⟨row, hmem, hcik, haccession, hanswered, .inr hserved⟩
  refine ⟨state, hstate, first, hfirst, hmatch, (hrows first hfirst).1, fun later state' hrun => ?_⟩
  obtain ⟨⟨results, hresults, hsame⟩, -⟩ := hlater later state' hrun
  refine ⟨results, hresults, fun result hresult hmodel => ?_⟩
  rw [hsame result hresult hmodel]
  exact (hrows first hfirst).2

end TrueAlpha.Sources

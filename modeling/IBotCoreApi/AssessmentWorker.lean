import IBotCoreApi.AnalysisAttempts
import IBotCoreApi.TaskArguments

namespace IBotCoreApi
open Python Pydantic Outcomes Runs AssessmentRepository

/-- The system prompt of `format_jd_to_markdown`. -/
def jdFormatSystemPrompt : String :=
  "You are a formatting assistant for a hiring platform. You receive a raw job " ++
    "description that may be messy, unformatted, or extracted from a PDF. Rewrite it " ++
    "as clean, well-structured GitHub-Flavored Markdown so it is easy for a recruiter " ++
    "to read.\n\n" ++
    "STRICT RULES:\n" ++
    "- Preserve ALL original information, wording, and meaning. Do NOT invent, add, " ++
    "remove, or summarize content.\n" ++
    "- Only fix structure and formatting: use headings (##), bold for labels, bullet " ++
    "lists for responsibilities/requirements/qualifications, and paragraphs where " ++
    "appropriate.\n" ++
    "- Fix obvious artifacts from PDF extraction such as broken line wraps, stray " ++
    "hyphenation, and duplicated whitespace.\n" ++
    "- Do NOT wrap the output in a code fence. Do NOT add any commentary, preamble, " ++
    "or explanation.\n" ++
    "- Return ONLY the formatted Markdown of the job description."

abbrev Formatter := List ChatMessage → Except AttemptError (Option String)

def fence : List Char := "```".toList

/-- The substitution of an opening fence with the white space after it. -/
def withoutOpeningFence (text : List Char) : List Char :=
  match fence.isPrefixOf? text with
  | none => text
  | some rest => (("markdown".toList.isPrefixOf? rest).getD rest).dropWhile isSpace

/-- The substitution of a closing fence with the line break before it and the white space after. -/
def withoutClosingFence (text : List Char) : List Char :=
  let body := text.rdropWhile isSpace
  if ('\n' :: fence) <:+ body then body.rdrop 4
  else if fence <:+ body then body.rdrop 3
  else text

def formatJdToMarkdown (rawJdText : String) (groqClient : Formatter) : String :=
  let source := strip rawJdText
  if source = "" then source
  else
    match groqClient [⟨"system", jdFormatSystemPrompt⟩,
      ⟨"user", "Reformat the following job description into clean Markdown:\n\n" ++ source⟩] with
    | .error _ => source
    | .ok content =>
      let formatted := strip (content.getD "")
      if formatted = "" then source
      else
        let formatted := withoutClosingFence (withoutOpeningFence formatted.toList)
        let formatted := strip (String.ofList formatted)
        if formatted = "" then source else formatted

-- four back quotes are a fence after another character
example : (withoutOpeningFence "```markdown\n# Role\n```".toList,
    withoutClosingFence "# Role\n``` ".toList, withoutClosingFence "````".toList) =
      ("# Role\n```".toList, "# Role".toList, ['`']) := by
  decide

theorem dropWhile_strip (value : String) :
    (strip value).toList.dropWhile isSpace = (strip value).toList := by
  rw [strip, String.toList_ofList]
  exact Pydantic.dropWhile_dropEnds isSpace value.toList

theorem strip_strip (value : String) : strip (strip value) = strip value := by
  conv_lhs => rw [strip, dropWhile_strip]
  rw [strip, String.toList_ofList, List.rdropWhile_idempotent]

/-- The formatted text of a description that is not blank is not blank, whatever the model answers. -/
theorem formatJdToMarkdown_spec {rawJdText : String} (h : strip rawJdText ≠ "")
    (groqClient : Formatter) :
    formatJdToMarkdown rawJdText groqClient ≠ "" ∧
      strip (formatJdToMarkdown rawJdText groqClient) =
        formatJdToMarkdown rawJdText groqClient := by
  unfold formatJdToMarkdown
  dsimp only
  rw [if_neg h]
  have hsource : strip rawJdText ≠ "" ∧ strip (strip rawJdText) = strip rawJdText :=
    ⟨h, strip_strip rawJdText⟩
  split
  · exact hsource
  · split_ifs with hblank hunfenced
    · exact hsource
    · exact hsource
    · exact ⟨hunfenced, strip_strip _⟩

section Machine

/-- A request that reaches the service from outside the task: the statements of `_process_assessment`
are left to its executions, and focus areas have been validated. -/
def ServiceRequest.Outer : ServiceRequest → Prop
  | .activateAssessment _ _ _ _ | .closeAssessmentOnFailure _ => False
  | .createAssessment _ _ request _ _ => ∀ o ∈ request.focusAreas, Trimmed o.skill
  | _ => True

structure OuterCall extends ServiceCall where
  outer : request.Outer

structure WorkerOutcome where
  commits : Bool
  parsedPdf : Option String
  analyst : LanguageModel
  formatter : Formatter
  published : Bool

/-- The outcome as the executions are given it, with the answers of the language model. -/
def WorkerOutcome.outcome (o : WorkerOutcome) (analysis : Option JDAnalysisAndInterviewPlan)
    (formattedJdText : String) : Outcome :=
  ⟨o.commits, o.parsedPdf, analysis, formattedJdText, o.published⟩

/-- The executions with the queue of `core.process_assessment`. -/
structure Worker extends Processing where
  queue : List TaskArguments

inductive WorkerEvent where
  /-- A request, and whether the broker takes what it publishes. -/
  | serve (call : OuterCall) (published : Bool)
  /-- The broker delivers a message, for the first time or again. -/
  | deliver (position : ℕ)
  | advance (execution : ℕ) (clock : Clock) (outcome : WorkerOutcome)

def afterCommit : ServiceRequest → Option TaskArguments
  | .createAssessment newId _ request jdFileBytes jdFilename =>
    some (enqueueAssessmentProcessing newId request.jdText jdFileBytes jdFilename
      (some request.focusAreas))
  | _ => none

variable [Runtime] [NumberText] [AnalysisPrompts] [UuidText]

/-- The two calls of the language model, `none` where the first raises. -/
def generate (message : ProcessMessage) (info : AssessmentInfo) (o : WorkerOutcome) :
    Option (String × JDAnalysisAndInterviewPlan) := do
  let parsed ← parsedJdText message (o.outcome none "")
  let generated ← (runJdAnalysisAndInterviewPlan parsed info.durationMins message.focusAreas
    o.analyst).toOption
  return (formatJdToMarkdown parsed o.formatter, generated)

def workerAdvance (store : Store) (clock : Clock) (o : WorkerOutcome) (message : ProcessMessage) :
    Phase → ProcessingResult × Phase × Store
  | .informed info =>
    match generate message info o with
    | none => (.quiet, .raised, store)
    | some (formatted, generated) => (.quiet, .generated info formatted generated, store)
  | phase => advance store clock (o.outcome none "") message phase

/-- The machine of the requests, the broker and the executions. -/
def worker : Machine Worker WorkerEvent ProcessingResult := fun s event =>
  match event with
  | .serve call published =>
    let (result, store) := service s.store call.toServiceCall
    let sent := if published && result.isOk then (afterCommit call.request).toList else []
    (.served result, { s with store := store, queue := s.queue ++ sent })
  | .deliver position =>
    match s.queue[position]?.bind TaskArguments.decoded with
    | none => (.quiet, s)
    | some message => (.quiet, { s with executions := s.executions ++ [(message, .delivered)] })
  | .advance execution clock outcome =>
    match s.executions[execution]? with
    | none => (.quiet, s)
    | some (message, phase) =>
      let (result, phase, store) := workerAdvance s.store clock outcome message phase
      (result, { s with
        store := store, executions := s.executions.set execution (message, phase) })

end Machine

section Refinement

variable [Runtime] [NumberText] [AnalysisPrompts]

/-- Some answer of the language model explains what an execution generates. -/
theorem exists_generatedAnalysis (message : ProcessMessage) (info : AssessmentInfo)
    (o : WorkerOutcome) : ∃ analysis, ∀ formatted,
      generatedAnalysis message info (o.outcome analysis formatted) =
        (generate message info o).map Prod.snd := by
  have hparsed (analysis : Option JDAnalysisAndInterviewPlan) (formatted : String) :
      parsedJdText message (o.outcome analysis formatted) =
        parsedJdText message (o.outcome none "") := rfl
  have hanalysis (analysis : Option JDAnalysisAndInterviewPlan) (formatted : String) :
      (o.outcome analysis formatted).analysis = analysis := rfl
  simp only [generatedAnalysis, generate, hparsed, hanalysis]
  cases parsedJdText message (o.outcome none "") with
  | none => exact ⟨none, fun _ => rfl⟩
  | some parsed =>
    cases hrun : runJdAnalysisAndInterviewPlan parsed info.durationMins message.focusAreas
        o.analyst with
    | error e => exact ⟨none, fun _ => by simp [hrun, Except.toOption]⟩
    | ok generated =>
      obtain ⟨combined, _, hcombined⟩ := runJdAnalysisAndInterviewPlan_finalizes hrun
      exact ⟨some combined, fun _ => by simp [hrun, hcombined, Except.toOption]⟩

variable [UuidText]

/-- One step of the worker is one step of the executions. -/
theorem worker_step (s : Worker) (event : WorkerEvent) : ∃ event',
    process s.toProcessing event' = ((worker s event).1, (worker s event).2.toProcessing) := by
  have hidle : ∃ event', process s.toProcessing event' = (.quiet, s.toProcessing) :=
    ⟨.advance s.executions.length ⟨0, 0⟩ ⟨true, none, none, "", true⟩, by simp [process]⟩
  cases event with
  | serve call published => exact ⟨.serve call.toServiceCall, rfl⟩
  | deliver position =>
    cases hmessage : s.queue[position]?.bind TaskArguments.decoded with
    | none =>
      simp only [worker, hmessage]
      exact hidle
    | some message => exact ⟨.deliver message, by simp only [process, worker, hmessage]⟩
  | advance execution clock o =>
    cases hexecution : s.executions[execution]? with
    | none =>
      simp only [worker, hexecution]
      exact hidle
    | some running =>
      obtain ⟨message, phase⟩ := running
      have hsame (event' : Outcome)
          (h : advance s.store clock event' message phase =
            workerAdvance s.store clock o message phase) :
          process s.toProcessing (.advance execution clock event') =
            ((worker s (.advance execution clock o)).1,
              (worker s (.advance execution clock o)).2.toProcessing) := by
        simp only [process, worker, hexecution, h]
      cases phase with
      | informed info =>
        obtain ⟨analysis, hanalysis⟩ := exists_generatedAnalysis message info o
        cases hgenerate : generate message info o with
        | none =>
          refine ⟨_, hsame (o.outcome analysis "") ?_⟩
          simp only [advance, workerAdvance, hanalysis, hgenerate, Option.map_none]
        | some result =>
          obtain ⟨formatted, generated⟩ := result
          refine ⟨_, hsame (o.outcome analysis formatted) ?_⟩
          simp only [advance, workerAdvance, hanalysis, hgenerate, Option.map_some]
          rfl
      | delivered | generated | activated | raised | closedOnFailure | finished =>
        exact ⟨_, hsame (o.outcome none "") rfl⟩

/-- Every run of the worker is a run of the executions with the same results and rows. -/
theorem worker_refines_process (s : Worker) (events : List WorkerEvent) :
    ∃ events', (trace process s.toProcessing events').map (fun t => (t.output, t.post)) =
      (trace worker s events).map fun t => (t.output, t.post.toProcessing) :=
  exists_trace_view Worker.toProcessing worker_step s events

end Refinement

end IBotCoreApi

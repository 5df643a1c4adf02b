import IBotCoreApi.AfterCommitCallbacks
import IBotCoreApi.ScheduledResumes

namespace IBotCoreApi
open Python Transactions Runs RecruiterRequests

namespace ResumeUrls

/-- `[a-zA-Z0-9_-]`. -/
def isIdChar (c : Char) : Bool :=
  ('a' ≤ c && c ≤ 'z') || ('A' ≤ c && c ≤ 'Z') || ('0' ≤ c && c ≤ '9') || c == '_' || c == '-'

/-- The file id that follows a marker at the start of a text. -/
def idAfter (marker text : List Char) : Option (List Char) :=
  ((marker.isPrefixOf? text).map (·.takeWhile isIdChar)).filter (! ·.isEmpty)

/-- `re.search` of a marker with an id. -/
def searchId (marker text : List Char) : Option (List Char) := text.tails.findSome? (idAfter marker)

/-- `.*id=([a-zA-Z0-9_-]+)`: the last such parameter of the line. -/
def lastIdParameter (text : List Char) : Option (List Char) :=
  (text.takeWhile (· != '\n')).tails.reverse.findSome? (idAfter "id=".toList)

def getDirectDownloadUrl (url : String) : String :=
  let shared := searchId "drive.google.com/file/d/".toList url.toList
  let queried := url.toList.tails.findSome? fun rest =>
    ("drive.google.com/".toList.isPrefixOf? rest).bind lastIdParameter
  match shared.or queried with
  | some fileId => "https://drive.google.com/uc?export=download&id=" ++ String.ofList fileId
  | none => url

example : getDirectDownloadUrl "https://drive.google.com/open?id=1aB&usp=id=" =
    "https://drive.google.com/uc?export=download&id=1aB" := by
  decide +kernel

end ResumeUrls

/-- The temporary resumes, each under the enrollment that names its path. -/
abbrev TemporaryResumes := Uuid → Option (List UInt8)

inductive ResumeSource where
  | url (resumeUrl : String)
  | file

/-- The arguments of `process_candidate_resume_in_background`. -/
structure ResumeTask where
  candidateAssessmentId : Uuid
  source : ResumeSource

/-- `get_realtime_context`. -/
structure RealtimeContext where
  candidateAssessmentId : String
  assessmentId : String
  recruiterId : String
  candidateName : String

/-- Where a task stands: each phase but the last names the next piece of work.  The later phases know
which status has been committed, the last one also whether the file was removed. -/
inductive ResumePhase where
  | started
  | fetched
  | parsed (resumeParsed : Json)
  | raised (text : String)
  | committed (status : String) (context : Option RealtimeContext)
  | cleanup (status : Option String)
  | ended (status : Option String) (removed : Bool)

/-- What the outside decides about one step of a task; an error is the text of an exception. -/
structure ResumeOutcome where
  /-- The body of the response to a request for a URL. -/
  download : String → Except String (List UInt8)
  /-- The text of all pages of the file, which may be missing. -/
  extractText : Option (List UInt8) → Except String String
  /-- The choices of the completion with the primary key, and with the fallback key. -/
  primary : Except String (List (Option String))
  fallback : Except String (List (Option String))
  loads : String → Except String Json
  /-- The transaction of the step commits, or raises. -/
  commit : Except String Unit
  /-- Redis took the event. -/
  published : Bool
  /-- The file was removed. -/
  unlinked : Bool

def parseResumeFromFile (content : Option (List UInt8)) (o : ResumeOutcome) : Except String Json := do
  let resumeText ← o.extractText content
  if strip resumeText = "" then throw "Parsed resume text is empty"
  let completion ←
    match o.primary with
    | .ok choices => .ok choices
    | .error _ => o.fallback
  match completion with
  | [] => throw "list index out of range"
  | rawContent :: _ => o.loads (rawContent.getD "")

/-- The bytes that `download_resume` writes. -/
def downloadResume (resumeUrl : String) (o : ResumeOutcome) : Except String (List UInt8) :=
  if "http".toList <+: resumeUrl.toList then
    o.download (ResumeUrls.getDirectDownloadUrl resumeUrl)
  else throw ("Invalid resume URL (not HTTP/HTTPS): " ++ resumeUrl)

/-- `update_resume_parsing_result`. -/
def resumeStored (status : String) (parsedData : Json) : Tables.Update RecruiterEnrollment.keys where
  set e := { e with resumeParseStatus := status, resumeParsed := some parsedData }

def updateResume (db : RecruiterDatabase) (candidateAssessmentId : Uuid) (status : String)
    (parsedData : Json) : RecruiterDatabase :=
  { db with
    enrollments := Tables.updateWhere (·.id == candidateAssessmentId)
      (resumeStored status parsedData) db.enrollments }

/-- The data of `save_parsed_resume_failed`. -/
def failedResume (errorMsg : String) : Json :=
  .dict [("error", .str errorMsg), ("summary", .str "Failed to parse resume."),
    ("skills", .list []), ("experience_years", .int 0)]

def getRealtimeContext (db : RecruiterDatabase) (candidateAssessmentId : Uuid) :
    Except String (Option RealtimeContext) :=
  match getEnrollmentById db candidateAssessmentId with
  | none => .ok none
  | some (_, none, _) => .error "'NoneType' object has no attribute 'recruiter_id'"
  | some (_, some _, none) => .error "'NoneType' object has no attribute 'full_name'"
  | some (e, some assessment, some candidate) =>
    .ok (some ⟨e.id.str, e.assessmentId.str, assessment.recruiterId.str, candidate.fullName⟩)

/-- The transaction that stores an outcome and reads whom to tell. -/
def storeOutcome (db : RecruiterDatabase) (candidateAssessmentId : Uuid) (status : String)
    (parsedData : Json) (o : ResumeOutcome) :
    Except String (Option RealtimeContext × RecruiterDatabase) := do
  let after := updateResume db candidateAssessmentId status parsedData
  let context ← getRealtimeContext after candidateAssessmentId
  o.commit
  return (context, after)

structure ResumeSystem where
  db : RecruiterDatabase
  files : TemporaryResumes
  tasks : List (ResumeTask × ResumePhase)

inductive ResumeSystemEvent where
  /-- A recruiter's request, whether its commit raises, and how its callbacks end. -/
  | request (recruiterId : Uuid) (request : RecruiterRequest) (commit : Option Unit)
      (raises : ℕ → Option Unit)
  | advance (task : ℕ) (outcome : ResumeOutcome)
  /-- The process is replaced: its tasks are lost, its files are not. -/
  | restart

inductive ResumeResult where
  | quiet
  | stored (candidateAssessmentId : Uuid) (status : String)
  /-- `publish_recruiter_event`, and whether it could publish. -/
  | event (context : RealtimeContext) (status : String) (published : Bool)

def ResumeTask.ofCallback : RecruiterEffect → Option ResumeTask
  | .resumeFromUrl candidateAssessmentId resumeUrl => some ⟨candidateAssessmentId, .url resumeUrl⟩
  | .resumeFromFile candidateAssessmentId => some ⟨candidateAssessmentId, .file⟩
  | _ => none

def writeTemporaryResume (files : TemporaryResumes) : RecruiterEffect → TemporaryResumes
  | .temporaryResume candidateAssessmentId content =>
    Function.update files candidateAssessmentId (some content)
  | _ => files

/-- One step of a task: its phase, the rows and the files after it. -/
def advanceTask (db : RecruiterDatabase) (files : TemporaryResumes) (task : ResumeTask)
    (o : ResumeOutcome) : ResumePhase →
      ResumeResult × ResumePhase × RecruiterDatabase × TemporaryResumes
  | .started =>
    match task.source with
    | .file => (.quiet, .fetched, db, files)
    -- without a URL there is no path, and nothing to remove
    | .url "" => (.quiet, .ended none false, db, files)
    | .url resumeUrl =>
      match downloadResume resumeUrl o with
      | .error text => (.quiet, .raised text, db, files)
      | .ok content =>
        (.quiet, .fetched, db, Function.update files task.candidateAssessmentId (some content))
  | .fetched =>
    match parseResumeFromFile (files task.candidateAssessmentId) o with
    | .error text => (.quiet, .raised text, db, files)
    | .ok resumeParsed => (.quiet, .parsed resumeParsed, db, files)
  | .parsed resumeParsed =>
    match storeOutcome db task.candidateAssessmentId "COMPLETED" resumeParsed o with
    | .error text => (.quiet, .raised text, db, files)
    | .ok (context, after) => (.stored task.candidateAssessmentId "COMPLETED",
        .committed "COMPLETED" context, after, files)
  | .raised text =>
    match storeOutcome db task.candidateAssessmentId "FAILED" (failedResume text) o with
    | .error _ => (.quiet, .cleanup none, db, files)
    | .ok (context, after) => (.stored task.candidateAssessmentId "FAILED",
        .committed "FAILED" context, after, files)
  | .committed status context =>
    (context.elim .quiet fun context => .event context status o.published,
      .cleanup (some status), db, files)
  | .cleanup status =>
    (.quiet, .ended status o.unlinked, db,
      if o.unlinked then Function.update files task.candidateAssessmentId none else files)
  | .ended status removed => (.quiet, .ended status removed, db, files)

section Machine

variable [Runtime]

def resumeSystem : Machine ResumeSystem ResumeSystemEvent ResumeResult := fun s event =>
  match event with
  | .request recruiterId request commit raises =>
    let program := request.program recruiterId
    let outcome := asyncSessionScope recruiterEngine commit raises program s.db
    (.quiet, {
      db := outcome.database
      files := (program.emitted recruiterEngine s.db).foldl writeTemporaryResume s.files
      tasks := s.tasks ++ (outcome.invoked.filterMap ResumeTask.ofCallback).map (·, .started) })
  | .advance i o =>
    match s.tasks[i]? with
    | none => (.quiet, s)
    | some (task, phase) =>
      let (result, phase, db, files) := advanceTask s.db s.files task o phase
      (result, ⟨db, files, s.tasks.set i (task, phase)⟩)
  | .restart => (.quiet, { s with tasks := [] })

end Machine

end IBotCoreApi

import IBotCoreApi.RecruiterViews
import IBotCoreApi.TranscriptDisplay

namespace IBotCoreApi
open Python Pydantic RecruiterRequests EvaluationService

/-- What the rows leave out: when an assessment was created, and the place of a text in the collation
of the database. -/
class ReadColumns where
  createdAt : Uuid → Time
  collate : String → ℚ

structure AssessmentSummaryResponse where
  id : Uuid
  title : String
  roleName : String
  status : AssessmentStatus
  interviewDurationMins : ℤ
  windowStart : Time
  windowEnd : Time
  createdAt : Time

structure CandidateAssessmentListItem where
  id : Uuid
  fullName : String
  email : String
  status : CandidateStatus
  resumeParseStatus : String
  interviewStartedAt : Option Time
  interviewEndedAt : Option Time
  recruiterDecision : String
  assessmentId : Uuid
  roleName : String
  resumeParsed : Option Json
  resumeFilePath : String
  jdText : String

structure ExistingCandidateListItem where
  id : Uuid
  fullName : String
  email : String

structure RecruiterDashboardNotification where
  id : Uuid
  candidateAssessmentId : Uuid
  notificationType : String
  title : String
  message : String
  candidateName : String
  assessmentTitle : String
  roleName : String
  sentAt : Time

namespace RecruiterReads

variable (db : RecruiterDatabase) (recruiterId : Uuid)

def getAssessmentById (assessmentId : Uuid) : Except EvaluationException Assessment :=
  match db.assessment? assessmentId with
  | none => .error (.api .assessmentNotFound)
  | some assessment =>
    if assessment.recruiterId ≠ recruiterId then .error (.api .assessmentAccessDenied)
    else .ok assessment

def getAllByAssessment (assessmentId : Uuid) : List RecruiterEnrollment :=
  Sorting.sortedDown (·.createdAt) (db.enrollments.filter (·.assessmentId == assessmentId))

def getAllByRecruiter : List RecruiterEnrollment :=
  Sorting.sortedDown (·.createdAt) (db.enrollments.filter (db.owns recruiterId))

/-- `get_candidates_for_assessment`, or `get_all_candidates_for_recruiter` without an assessment. -/
def listedEnrollments : Option Uuid → Except EvaluationException (List RecruiterEnrollment)
  | none => .ok (getAllByRecruiter db recruiterId)
  | some assessmentId =>
    (getAssessmentById db recruiterId assessmentId).map fun _ => getAllByAssessment db assessmentId

/-- `from_orm_with_candidate`: a parsed resume is a dict. -/
def listItem (ca : RecruiterEnrollment) : Except EvaluationException CandidateAssessmentListItem :=
  let candidate := db.candidate? ca.candidateId
  let assessment := db.assessment? ca.assessmentId
  let item : CandidateAssessmentListItem := {
    id := ca.id
    fullName := (candidate.map (·.fullName)).getD ""
    email := (candidate.map (·.email)).getD ""
    status := ca.status
    resumeParseStatus := ca.resumeParseStatus
    interviewStartedAt := ca.interviewStartedAt
    interviewEndedAt := ca.interviewEndedAt
    recruiterDecision := ca.recruiterDecision
    assessmentId := ca.assessmentId
    roleName := (assessment.map (·.roleName)).getD ""
    resumeParsed := ca.resumeParsed
    resumeFilePath := ca.resumeFilePath
    jdText := (assessment.map (·.jdText)).getD "" }
  match ca.resumeParsed with
  | none | some .null | some (.dict _) => .ok item
  | some _ => .error .validationError

def enrolledHere (c : CandidateProfile) : Bool :=
  db.enrollments.any fun e => e.candidateId == c.id && db.owns recruiterId e

def reportReady (log : NotificationLog) : Option RecruiterDashboardNotification := do
  let enrollment ← db.enrollment? log.candidateAssessmentId
  let candidate ← db.candidate? enrollment.candidateId
  let assessment ← db.assessment? enrollment.assessmentId
  guard (assessment.recruiterId = recruiterId ∧ log.notificationType = "REPORT_READY" ∧
    log.deliveryStatus = "SENT")
  return {
    id := log.id
    candidateAssessmentId := log.candidateAssessmentId
    notificationType := trim log.notificationType
    title := "Interview evaluation ready"
    message := trim (candidate.fullName ++ "'s evaluation for " ++ assessment.title ++
      " is ready to review.")
    candidateName := trim candidate.fullName
    assessmentTitle := trim assessment.title
    roleName := trim assessment.roleName
    sentAt := log.sentAt }

/-- `list_report_ready_for_recruiter`: the newest thirty. -/
def listForRecruiter : List RecruiterDashboardNotification :=
  (Sorting.sortedDown (·.sentAt) (db.notificationLogs.filterMap (reportReady db recruiterId))).take
    30

variable [ReadColumns]

/-- `get_recruiter_assessments` as the summary list. -/
def getRecruiterAssessments : List AssessmentSummaryResponse :=
  (Sorting.sortedDown (ReadColumns.createdAt ·.id)
    (db.assessments.filter (·.recruiterId == recruiterId))).map fun a => {
      id := a.id
      title := a.title
      roleName := a.roleName
      status := a.status
      interviewDurationMins := a.interviewDurationMins
      windowStart := a.windowStart
      windowEnd := a.windowEnd
      createdAt := ReadColumns.createdAt a.id }

/-- `get_unique_candidates_for_recruiter`, by name. -/
def listUniqueCandidates : List ExistingCandidateListItem :=
  ((db.candidates.filter (enrolledHere db recruiterId)).insertionSort fun c c' =>
    ReadColumns.collate c.fullName ≤ ReadColumns.collate c'.fullName).map fun c => {
      id := c.id
      fullName := trim c.fullName
      email := trim c.email }

end RecruiterReads

inductive RecruiterRead where
  | listAssessments
  | getAssessment (assessmentId : Uuid)
  | listCandidates (assessmentId : Option Uuid)
  | listUniqueCandidates
  | listRecruiterEvaluations
  | getCandidateEvaluation (caId : Uuid)
  | getInterviewTranscript (caId : Uuid)
  | listNotifications

/-- The data of a response; the detailed view of an assessment is made of its row. -/
inductive ReadResponse where
  | assessments (items : List AssessmentSummaryResponse)
  | assessment (row : Assessment)
  | candidates (items : List CandidateAssessmentListItem)
  | uniqueCandidates (items : List ExistingCandidateListItem)
  | evaluations (items : List RecruiterEvaluationListItem)
  | evaluation (response : InterviewEvaluationResponse)
  | transcript (response : InterviewTranscriptResponse)
  | notifications (items : List RecruiterDashboardNotification)

section Reads

variable [Runtime] [NumberText] [ReadColumns]

open RecruiterReads in
def RecruiterRead.run (db : RecruiterDatabase) (recruiterId : Uuid) :
    RecruiterRead → Except EvaluationException ReadResponse
  | listAssessments => .ok (.assessments (getRecruiterAssessments db recruiterId))
  | getAssessment assessmentId =>
    (getAssessmentById db recruiterId assessmentId).map .assessment
  | listCandidates assessmentId => do
    let enrollments ← listedEnrollments db recruiterId assessmentId
    return .candidates (← enrollments.mapM (listItem db))
  | listUniqueCandidates =>
    .ok (.uniqueCandidates (RecruiterReads.listUniqueCandidates db recruiterId))
  | listRecruiterEvaluations =>
    (EvaluationService.listRecruiterEvaluations db recruiterId).map .evaluations
  | getCandidateEvaluation caId =>
    (EvaluationService.getCandidateEvaluation db caId recruiterId).map .evaluation
  | getInterviewTranscript caId =>
    (EvaluationService.getInterviewTranscript db caId recruiterId).map .transcript
  | listNotifications => .ok (.notifications (listForRecruiter db recruiterId))

end Reads

def RecruiterDatabase.restrictTo (db : RecruiterDatabase) (recruiterId : Uuid) :
    RecruiterDatabase :=
  let mine (id : Uuid) : Bool := (db.enrollment? id).any (db.owns recruiterId)
  { recruiters := db.recruiters.filter (·.id == recruiterId)
    candidates := db.candidates.filter (RecruiterReads.enrolledHere db recruiterId)
    assessments := db.assessments.filter (·.recruiterId == recruiterId)
    enrollments := db.enrollments.filter (db.owns recruiterId)
    interviewSessions := db.interviewSessions.filter (mine ·.candidateAssessmentId)
    interviewEvaluations := db.interviewEvaluations.filter (mine ·.candidateAssessmentId)
    notificationLogs := db.notificationLogs.filter (mine ·.candidateAssessmentId)
    eventLogs := [] }

def RecruiterRead.Foreign (db : RecruiterDatabase) (recruiterId : Uuid) : RecruiterRead → Prop
  | getAssessment assessmentId | listCandidates (some assessmentId) =>
    ∃ a, db.assessment? assessmentId = some a ∧ a.recruiterId ≠ recruiterId
  | getCandidateEvaluation caId | getInterviewTranscript caId =>
    ∃ e, db.enrollment? caId = some e ∧ db.owns recruiterId e = false
  | _ => False

/-- The exception that tells nothing but that the row is not the recruiter's. -/
def RecruiterRead.denied : RecruiterRead → EvaluationException
  | getCandidateEvaluation _ => .accessDenied "You do not have access to this evaluation."
  | getInterviewTranscript _ => .accessDenied "You do not have access to this transcript."
  | _ => .api .assessmentAccessDenied

section Restricted

variable {db : RecruiterDatabase} {recruiterId : Uuid}

/-- The foreign keys that the reads follow. -/
structure RecruiterDatabase.Referenced (db : RecruiterDatabase) : Prop where
  keyed : db.Keyed
  assessments : ∀ e ∈ db.enrollments, (db.assessment? e.assessmentId).isSome

namespace RecruiterDatabase.Referenced

theorem assessment? (h : db.Referenced) (id : Uuid) :
    (db.restrictTo recruiterId).assessment? id =
      (db.assessment? id).filter (·.recruiterId == recruiterId) :=
  Tables.lookup_filter_eq h.keyed.assessmentIds

theorem enrollment? (h : db.Referenced) (id : Uuid) :
    (db.restrictTo recruiterId).enrollment? id =
      (db.enrollment? id).filter (db.owns recruiterId) :=
  Tables.lookup_filter_eq h.keyed.enrollmentIds

theorem owns (h : db.Referenced) : (db.restrictTo recruiterId).owns recruiterId =
    db.owns recruiterId := by
  apply owns_congr
  intro id
  rw [h.assessment?]
  cases db.assessment? id with
  | none => rfl
  | some a =>
    rw [Option.filter_some]
    split
    · rfl
    · next hother => simpa using hother

theorem owns_iff {e : RecruiterEnrollment} : db.owns recruiterId e ↔
    ∃ a, db.assessment? e.assessmentId = some a ∧ a.recruiterId = recruiterId := by
  unfold RecruiterDatabase.owns
  rw [Option.any_eq_true]
  simp only [beq_iff_eq]

theorem assessment?_of_owns (h : db.Referenced) {e : RecruiterEnrollment}
    (howned : db.owns recruiterId e) : (db.restrictTo recruiterId).assessment? e.assessmentId =
      db.assessment? e.assessmentId := by
  obtain ⟨a, ha, hmine⟩ := owns_iff.mp howned
  rw [h.assessment?, ha, Option.filter_some, if_pos (beq_iff_eq.mpr hmine)]

theorem candidate?_of_owns {e : RecruiterEnrollment} (he : e ∈ db.enrollments)
    (howned : db.owns recruiterId e) : (db.restrictTo recruiterId).candidate? e.candidateId =
      db.candidate? e.candidateId := by
  refine Tables.lookup_filter fun c _ hc => ?_
  refine List.any_eq_true.mpr ⟨e, he, ?_⟩
  simp [hc, howned]

theorem filter_enrollments (p : RecruiterEnrollment → Bool)
    (hp : ∀ e ∈ db.enrollments, p e → db.owns recruiterId e) :
    (db.restrictTo recruiterId).enrollments.filter p = db.enrollments.filter p := by
  change (db.enrollments.filter (db.owns recruiterId)).filter p = _
  rw [List.filter_filter]
  refine List.filter_congr fun e he => ?_
  cases hpe : p e with
  | false => rfl
  | true => simpa using hp e he hpe

end RecruiterDatabase.Referenced

namespace RecruiterReads
open RecruiterDatabase.Referenced

theorem getAssessmentById_eq_ok {assessmentId : Uuid} {a : Assessment} :
    getAssessmentById db recruiterId assessmentId = .ok a ↔
      db.assessment? assessmentId = some a ∧ a.recruiterId = recruiterId := by
  unfold getAssessmentById
  cases db.assessment? assessmentId with
  | none => simp
  | some found =>
    dsimp only
    split
    · next hother =>
      refine iff_of_false (by simp) ?_
      rintro ⟨hfound, hmine⟩
      cases hfound
      exact hother hmine
    · next hmine =>
      constructor
      · intro hfound
        cases hfound
        exact ⟨rfl, not_not.mp hmine⟩
      · rintro ⟨hfound, _⟩
        cases hfound
        rfl

theorem getAssessmentById_restrictTo (h : db.Referenced) {assessmentId : Uuid}
    (hmine : ∀ a, db.assessment? assessmentId = some a → a.recruiterId = recruiterId) :
    getAssessmentById (db.restrictTo recruiterId) recruiterId assessmentId =
      getAssessmentById db recruiterId assessmentId := by
  unfold getAssessmentById
  rw [h.assessment?]
  cases hfound : db.assessment? assessmentId with
  | none => rfl
  | some a => rw [Option.filter_some, if_pos (beq_iff_eq.mpr (hmine a hfound))]

theorem listedEnrollments_restrictTo (h : db.Referenced) {assessmentId : Option Uuid}
    (hmine : ∀ id a, assessmentId = some id → db.assessment? id = some a →
      a.recruiterId = recruiterId) :
    listedEnrollments (db.restrictTo recruiterId) recruiterId assessmentId =
      listedEnrollments db recruiterId assessmentId := by
  cases assessmentId with
  | none =>
    unfold listedEnrollments getAllByRecruiter
    rw [h.owns, filter_enrollments _ fun _ _ howned => howned]
  | some id =>
    dsimp only [listedEnrollments]
    rw [getAssessmentById_restrictTo h fun a ha => hmine id a rfl ha]
    cases hassessment : getAssessmentById db recruiterId id with
    | error => rfl
    | ok a =>
      have howned (e : RecruiterEnrollment) (hin : e.assessmentId == id) :
          db.owns recruiterId e := by
        obtain ⟨hfound, hmine⟩ := getAssessmentById_eq_ok.mp hassessment
        exact owns_iff.mpr ⟨a, by rw [beq_iff_eq.mp hin, hfound], hmine⟩
      simp only [Except.map, getAllByAssessment]
      rw [filter_enrollments _ fun e _ hin => howned e hin]

theorem owns_of_listed {assessmentId : Option Uuid} {enrollments : List RecruiterEnrollment}
    (hlisted : listedEnrollments db recruiterId assessmentId = .ok enrollments) :
    ∀ e ∈ enrollments, e ∈ db.enrollments ∧ db.owns recruiterId e := by
  intro e he
  cases assessmentId with
  | none =>
    cases hlisted
    rw [getAllByRecruiter, Sorting.mem_sortedDown, List.mem_filter] at he
    exact he
  | some id =>
    obtain ⟨a, hassessment, hall⟩ := Outcomes.map_eq_ok.mp hlisted
    subst hall
    obtain ⟨hfound, hmine⟩ := getAssessmentById_eq_ok.mp hassessment
    rw [getAllByAssessment, Sorting.mem_sortedDown, List.mem_filter] at he
    exact ⟨he.1, owns_iff.mpr ⟨a, by rw [beq_iff_eq.mp he.2, hfound], hmine⟩⟩

theorem listItem_restrictTo (h : db.Referenced) {e : RecruiterEnrollment}
    (he : e ∈ db.enrollments) (howned : db.owns recruiterId e) :
    listItem (db.restrictTo recruiterId) e = listItem db e := by
  unfold listItem
  rw [h.assessment?_of_owns howned, candidate?_of_owns he howned]

theorem enrolledHere_restrictTo (h : db.Referenced) :
    enrolledHere (db.restrictTo recruiterId) recruiterId = enrolledHere db recruiterId := by
  funext c
  unfold enrolledHere
  rw [h.owns, Bool.eq_iff_iff, List.any_eq_true, List.any_eq_true]
  constructor
  · rintro ⟨e, he, hboth⟩
    exact ⟨e, List.mem_of_mem_filter he, hboth⟩
  · rintro ⟨e, he, hboth⟩
    exact ⟨e, List.mem_filter.mpr ⟨he, (Bool.and_eq_true_iff.mp hboth).2⟩, hboth⟩

theorem joined_restrictTo (h : db.Referenced) (evaluation : InterviewEvaluation) :
    (joined db evaluation).filter (·.assessment.recruiterId == recruiterId) =
      if (db.enrollment? evaluation.candidateAssessmentId).any (db.owns recruiterId) then
        (joined (db.restrictTo recruiterId) evaluation).filter
          (·.assessment.recruiterId == recruiterId)
      else none := by
  unfold joined
  rw [h.enrollment?]
  cases hfound : db.enrollment? evaluation.candidateAssessmentId with
  | none => rfl
  | some e =>
    have he : e ∈ db.enrollments := Tables.lookup_mem hfound
    rw [Option.filter_some, Option.any_some]
    cases howned : db.owns recruiterId e with
    | true =>
      simp only [if_pos, Option.bind_eq_bind, Option.bind_some]
      rw [h.assessment?_of_owns howned, candidate?_of_owns he howned]
    | false =>
      -- the row of the join names the assessment of another recruiter
      rw [if_neg (by simp), Option.filter_eq_none_iff]
      intro row hrow hmine
      simp only [Option.bind_eq_bind, Option.bind_some, Option.bind_eq_some_iff, Option.pure_def,
        Option.some.injEq] at hrow
      obtain ⟨c, _, a, ha, rfl⟩ := hrow
      rw [owns_iff.mpr ⟨a, ha, beq_iff_eq.mp hmine⟩] at howned
      cases howned

theorem listByRecruiter_restrictTo (h : db.Referenced) :
    listByRecruiter (db.restrictTo recruiterId) recruiterId = listByRecruiter db recruiterId := by
  unfold listByRecruiter
  congr 1
  rw [List.filter_filterMap, List.filter_filterMap]
  change (db.interviewEvaluations.filter _).filterMap _ = _
  rw [List.filterMap_filter]
  exact List.filterMap_congr fun evaluation _ => (joined_restrictTo h evaluation).symm

theorem reportReady_restrictTo (h : db.Referenced) (log : NotificationLog) :
    reportReady db recruiterId log =
      if (db.enrollment? log.candidateAssessmentId).any (db.owns recruiterId) then
        reportReady (db.restrictTo recruiterId) recruiterId log
      else none := by
  unfold reportReady
  rw [h.enrollment?]
  cases hfound : db.enrollment? log.candidateAssessmentId with
  | none => rfl
  | some e =>
    have he : e ∈ db.enrollments := Tables.lookup_mem hfound
    rw [Option.filter_some, Option.any_some]
    cases howned : db.owns recruiterId e with
    | true =>
      simp only [if_pos, Option.bind_eq_bind, Option.bind_some]
      rw [h.assessment?_of_owns howned, candidate?_of_owns he howned]
    | false =>
      rw [if_neg (by simp), Option.eq_none_iff_forall_ne_some]
      intro item hitem
      simp only [Option.bind_eq_bind, Option.bind_some, Option.bind_eq_some_iff] at hitem
      obtain ⟨c, _, a, ha, _, hguard, _⟩ := hitem
      have hmine : a.recruiterId = recruiterId := by
        unfold guard at hguard
        split at hguard
        · next hall => exact hall.1
        · cases hguard
      rw [owns_iff.mpr ⟨a, ha, hmine⟩] at howned
      cases howned

theorem listForRecruiter_restrictTo (h : db.Referenced) :
    listForRecruiter (db.restrictTo recruiterId) recruiterId = listForRecruiter db recruiterId := by
  unfold listForRecruiter
  congr 2
  change (db.notificationLogs.filter _).filterMap _ = _
  rw [List.filterMap_filter]
  exact List.filterMap_congr fun log _ => (reportReady_restrictTo h log).symm

theorem getOwnedCandidateAssessment_restrictTo (h : db.Referenced) {caId : Uuid} {name : String}
    (hmine : ∀ e, db.enrollment? caId = some e → db.owns recruiterId e) :
    getOwnedCandidateAssessment (db.restrictTo recruiterId) caId recruiterId name =
      getOwnedCandidateAssessment db caId recruiterId name := by
  unfold getOwnedCandidateAssessment
  rw [h.enrollment?]
  cases hfound : db.enrollment? caId with
  | none => rfl
  | some e =>
    have howned := hmine e hfound
    rw [Option.filter_some, if_pos howned]
    dsimp only
    rw [h.assessment?_of_owns howned]

theorem getOwnedCandidateAssessment_foreign (h : db.Referenced) {caId : Uuid} {name : String}
    {e : RecruiterEnrollment} (hfound : db.enrollment? caId = some e)
    (hforeign : db.owns recruiterId e = false) :
    getOwnedCandidateAssessment db caId recruiterId name =
      .error (.accessDenied ("You do not have access to this " ++ name ++ ".")) := by
  obtain ⟨a, ha⟩ := Option.isSome_iff_exists.mp (h.assessments e (Tables.lookup_mem hfound))
  unfold getOwnedCandidateAssessment
  rw [hfound]
  dsimp only
  rw [ha]
  dsimp only
  rw [if_pos]
  intro hmine
  rw [owns_iff.mpr ⟨a, ha, hmine⟩] at hforeign
  cases hforeign

theorem evaluationOf?_restrictTo {caId : Uuid} {e : RecruiterEnrollment}
    (hfound : db.enrollment? caId = some e) (howned : db.owns recruiterId e) :
    evaluationOf? (db.restrictTo recruiterId) caId = evaluationOf? db caId := by
  refine Tables.lookup_filter fun evaluation _ hkey => ?_
  rw [hkey]
  dsimp only
  rw [hfound]
  exact howned

theorem sessionOf?_restrictTo {caId : Uuid} {e : RecruiterEnrollment}
    (hfound : db.enrollment? caId = some e) (howned : db.owns recruiterId e) :
    (db.restrictTo recruiterId).toDatabase.sessionOf? caId = db.toDatabase.sessionOf? caId := by
  refine Tables.lookup_filter fun session _ hkey => ?_
  rw [hkey]
  dsimp only
  rw [hfound]
  exact howned

theorem getOwnedCandidateAssessment_eq_ok {caId : Uuid} {name : String}
    {found : RecruiterEnrollment × Assessment}
    (h : getOwnedCandidateAssessment db caId recruiterId name = .ok found) :
    db.enrollment? caId = some found.1 ∧ db.owns recruiterId found.1 := by
  unfold getOwnedCandidateAssessment at h
  cases hfound : db.enrollment? caId with
  | none => simp [hfound] at h
  | some e =>
    rw [hfound] at h
    dsimp only at h
    cases hassessment : db.assessment? e.assessmentId with
    | none => simp [hassessment] at h
    | some a =>
      rw [hassessment] at h
      dsimp only at h
      split at h
      · cases h
      · next hmine =>
        cases h
        exact ⟨rfl, owns_iff.mpr ⟨a, hassessment, not_not.mp hmine⟩⟩

end RecruiterReads

end Restricted

section Confined

open RecruiterReads RecruiterDatabase.Referenced

variable [Runtime] [NumberText] [ReadColumns] {db : RecruiterDatabase} {recruiterId : Uuid}

omit [ReadColumns] in
theorem getCandidateEvaluation_restrictTo (h : db.Referenced) {caId : Uuid}
    (hmine : ∀ e, db.enrollment? caId = some e → db.owns recruiterId e) :
    getCandidateEvaluation (db.restrictTo recruiterId) caId recruiterId =
      getCandidateEvaluation db caId recruiterId := by
  unfold getCandidateEvaluation
  rw [getOwnedCandidateAssessment_restrictTo h hmine]
  cases hfound : getOwnedCandidateAssessment db caId recruiterId "evaluation" with
  | error => rfl
  | ok found =>
    obtain ⟨hrow, howned⟩ := getOwnedCandidateAssessment_eq_ok hfound
    simp only [Outcomes.ok_bind]
    rw [candidate?_of_owns (Tables.lookup_mem hrow) howned, evaluationOf?_restrictTo hrow howned]

omit [NumberText] [ReadColumns] in
theorem getInterviewTranscript_restrictTo (h : db.Referenced) {caId : Uuid}
    (hmine : ∀ e, db.enrollment? caId = some e → db.owns recruiterId e) :
    getInterviewTranscript (db.restrictTo recruiterId) caId recruiterId =
      getInterviewTranscript db caId recruiterId := by
  unfold getInterviewTranscript
  rw [getOwnedCandidateAssessment_restrictTo h hmine]
  cases hfound : getOwnedCandidateAssessment db caId recruiterId "transcript" with
  | error => rfl
  | ok found =>
    obtain ⟨hrow, howned⟩ := getOwnedCandidateAssessment_eq_ok hfound
    simp only [Outcomes.ok_bind]
    rw [candidate?_of_owns (Tables.lookup_mem hrow) howned, sessionOf?_restrictTo hrow howned]

omit [Runtime] [NumberText] [ReadColumns] in
theorem getAssessmentById_foreign {id : Uuid} {a : Assessment} (ha : db.assessment? id = some a)
    (hother : a.recruiterId ≠ recruiterId) :
    RecruiterReads.getAssessmentById db recruiterId id = .error (.api .assessmentAccessDenied) := by
  unfold RecruiterReads.getAssessmentById
  rw [ha]
  exact if_pos hother

theorem RecruiterRead.run_foreign (h : db.Referenced) {read : RecruiterRead}
    (hforeign : read.Foreign db recruiterId) :
    read.run db recruiterId = .error read.denied := by
  cases read with
  | listAssessments | listUniqueCandidates | listRecruiterEvaluations | listNotifications =>
    exact hforeign.elim
  | getAssessment assessmentId =>
    obtain ⟨a, ha, hother⟩ := hforeign
    simp only [RecruiterRead.run, getAssessmentById_foreign ha hother]
    rfl
  | listCandidates assessmentId =>
    cases assessmentId with
    | none => exact hforeign.elim
    | some id =>
      obtain ⟨a, ha, hother⟩ := hforeign
      simp only [RecruiterRead.run, listedEnrollments, getAssessmentById_foreign ha hother]
      rfl
  | getCandidateEvaluation caId =>
    obtain ⟨e, he, hother⟩ := hforeign
    simp only [RecruiterRead.run, EvaluationService.getCandidateEvaluation,
      getOwnedCandidateAssessment_foreign h he hother]
    rfl
  | getInterviewTranscript caId =>
    obtain ⟨e, he, hother⟩ := hforeign
    simp only [RecruiterRead.run, EvaluationService.getInterviewTranscript,
      getOwnedCandidateAssessment_foreign h he hother]
    rfl

/-- Any other route reads the rows of the recruiter only. -/
theorem RecruiterRead.run_restrictTo (h : db.Referenced) {read : RecruiterRead}
    (hnot : ¬ read.Foreign db recruiterId) :
    read.run db recruiterId = read.run (db.restrictTo recruiterId) recruiterId := by
  have hassessment {id : Uuid} (hnot : ¬ ∃ a, db.assessment? id = some a ∧
      a.recruiterId ≠ recruiterId) (a : Assessment) (ha : db.assessment? id = some a) :
      a.recruiterId = recruiterId := by
    by_contra hother
    exact hnot ⟨a, ha, hother⟩
  have henrollment {id : Uuid} (hnot : ¬ ∃ e, db.enrollment? id = some e ∧
      db.owns recruiterId e = false) (e : RecruiterEnrollment) (he : db.enrollment? id = some e) :
      db.owns recruiterId e := by
    by_contra hother
    exact hnot ⟨e, he, Bool.eq_false_iff.mpr hother⟩
  cases read with
  | listAssessments =>
    simp only [RecruiterRead.run, getRecruiterAssessments, RecruiterDatabase.restrictTo,
      List.filter_filter, Bool.and_self]
  | getAssessment assessmentId =>
    simp only [RecruiterRead.run]
    rw [getAssessmentById_restrictTo h (hassessment hnot)]
  | listCandidates assessmentId =>
    have hmine (id : Uuid) (a : Assessment) (hid : assessmentId = some id)
        (ha : db.assessment? id = some a) : a.recruiterId = recruiterId := by
      subst hid
      exact hassessment hnot a ha
    simp only [RecruiterRead.run, listedEnrollments_restrictTo h hmine]
    cases hlisted : listedEnrollments db recruiterId assessmentId with
    | error => rfl
    | ok enrollments =>
      have hitems : enrollments.mapM (listItem (db.restrictTo recruiterId)) =
          enrollments.mapM (listItem db) := by
        refine Outcomes.mapM_congr fun e he => ?_
        obtain ⟨hmem, howned⟩ := owns_of_listed hlisted e he
        exact listItem_restrictTo h hmem howned
      simp only [Outcomes.ok_bind, hitems]
  | listUniqueCandidates =>
    simp only [RecruiterRead.run, RecruiterReads.listUniqueCandidates, enrolledHere_restrictTo h]
    simp only [RecruiterDatabase.restrictTo, List.filter_filter, Bool.and_self]
  | listRecruiterEvaluations =>
    simp only [RecruiterRead.run, EvaluationService.listRecruiterEvaluations,
      listByRecruiter_restrictTo h]
  | getCandidateEvaluation caId =>
    simp only [RecruiterRead.run, getCandidateEvaluation_restrictTo h (henrollment hnot)]
  | getInterviewTranscript caId =>
    simp only [RecruiterRead.run, getInterviewTranscript_restrictTo h (henrollment hnot)]
  | listNotifications => simp only [RecruiterRead.run, listForRecruiter_restrictTo h]

/-- What a route returns to a recruiter is what it returns on the recruiter's own rows, unless it
names a row of another recruiter: then it is refused. -/
theorem reads_confined (h : db.Referenced) (read : RecruiterRead) :
    (read.Foreign db recruiterId → read.run db recruiterId = .error read.denied) ∧
      (¬ read.Foreign db recruiterId →
        read.run db recruiterId = read.run (db.restrictTo recruiterId) recruiterId) :=
  ⟨RecruiterRead.run_foreign h, RecruiterRead.run_restrictTo h⟩

end Confined

section Samples

/-- The second recruiter reads all candidates; the first one may not read the transcript. -/
theorem reads_confined_sample :
    let _ : Runtime := .ascii
    let _ : NumberText := .ascii
    let _ : ReadColumns := ⟨fun _ => 0, fun _ => 0⟩
    RecruiterRead.run sharedCandidate 2 (.listCandidates none) =
        RecruiterRead.run (sharedCandidate.restrictTo 2) 2 (.listCandidates none) ∧
      RecruiterRead.run sharedCandidate 1 (.getInterviewTranscript 40) =
        .error (.accessDenied "You do not have access to this transcript.") := by
  intro runtime numberText readColumns
  have h : sharedCandidate.Referenced := ⟨⟨by decide, by decide, by decide, by decide, by decide⟩,
    by decide⟩
  refine ⟨(reads_confined h (.listCandidates none)).2 not_false, ?_⟩
  exact (reads_confined h (.getInterviewTranscript 40)).1 ⟨_, rfl, rfl⟩

end Samples

end IBotCoreApi

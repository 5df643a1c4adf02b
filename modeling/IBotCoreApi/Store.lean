import IBotCoreApi.Assessments
import IBotCoreApi.InternalInterview

namespace IBotCoreApi
open Python

structure Database.WellFormed (db : Database) : Prop where
  sessionIds : (db.interviewSessions.map (·.id)).Nodup
  sessionKeys : (db.interviewSessions.map (·.candidateAssessmentId)).Nodup
  sessionTokens : ∀ s ∈ db.interviewSessions, ∀ s' ∈ db.interviewSessions, ∀ token,
    s.sessionToken = some token → s'.sessionToken = some token → s.id = s'.id
  candidateAssessmentIds : (db.candidateAssessments.map (·.id)).Nodup
  invitationTokens : (db.candidateAssessments.map (·.invitationToken)).Nodup
  candidates : ∀ ca ∈ db.candidateAssessments, (db.candidate? ca.candidateId).isSome
  assessments : ∀ ca ∈ db.candidateAssessments, (db.assessment? ca.assessmentId).isSome
  enrolled : ∀ s ∈ db.interviewSessions, (db.candidateAssessment? s.candidateAssessmentId).isSome

structure Store where
  db : Database
  wellFormed : db.WellFormed

namespace Database.WellFormed

variable {db : Database}

theorem session?_of_mem (h : db.WellFormed) {s : InterviewSession} (hs : s ∈ db.interviewSessions) :
    db.session? s.id = some s :=
  Tables.lookup_of_mem h.sessionIds hs

theorem sessionOf?_of_mem (h : db.WellFormed) {s : InterviewSession}
    (hs : s ∈ db.interviewSessions) : db.sessionOf? s.candidateAssessmentId = some s :=
  Tables.lookup_of_mem h.sessionKeys hs

theorem find?_of_mem (h : db.WellFormed) {s : InterviewSession} (hs : s ∈ db.interviewSessions)
    {p : InterviewSession → Bool} (hp : p s) (hid : ∀ r, p r → r.id = s.id) :
    db.interviewSessions.find? p = some s := by
  cases hfind : db.interviewSessions.find? p with
  | none => exact absurd hp (List.find?_eq_none.mp hfind s hs)
  | some r =>
    have hr := h.session?_of_mem (List.mem_of_find?_eq_some hfind)
    rw [hid r (List.find?_some hfind), h.session?_of_mem hs] at hr
    exact hr.symm

/-- The two unique keys of a session find the same row. -/
theorem session?_of_sessionOf? (h : db.WellFormed) {ca : Uuid} {s : InterviewSession}
    (hs : db.sessionOf? ca = some s) : db.session? s.id = some s :=
  h.session?_of_mem (Tables.lookup_mem hs)

theorem eq_of_sessionToken (h : db.WellFormed) {s s' : InterviewSession} {token : String}
    (hs : s ∈ db.interviewSessions) (hs' : s' ∈ db.interviewSessions)
    (ht : s.sessionToken = some token) (ht' : s'.sessionToken = some token) : s = s' := by
  have hid := h.sessionTokens s hs s' hs' token ht ht'
  have h1 := h.session?_of_mem hs
  have h2 := h.session?_of_mem hs'
  rw [hid, h2] at h1
  exact (Option.some.inj h1).symm

theorem of_tables (h : db.WellFormed) {db' : Database}
    (hs : db'.interviewSessions = db.interviewSessions)
    (hca : db'.candidateAssessments = db.candidateAssessments)
    (hc : db'.candidates = db.candidates) (ha : db'.assessments = db.assessments) :
    db'.WellFormed := by
  cases db
  cases db'
  simp only at hs hca hc ha
  subst hs hca hc ha
  exact ⟨h.sessionIds, h.sessionKeys, h.sessionTokens, h.candidateAssessmentIds,
    h.invitationTokens, h.candidates, h.assessments, h.enrolled⟩

theorem recordEvent (h : db.WellFormed) (event : EventLog) : (db.recordEvent event).WellFormed :=
  h.of_tables rfl rfl rfl rfl

/-- An update of sessions keeps the constraints when the new tokens stay distinct. -/
theorem updateSessions (h : db.WellFormed) {p : InterviewSession → Bool} {u : SessionUpdate}
    (htoken : ∀ s ∈ db.interviewSessions, ∀ s' ∈ db.interviewSessions, ∀ token,
      (u.onRow p s).sessionToken = some token → (u.onRow p s').sessionToken = some token →
      s.id = s'.id) : (db.updateSessions p u).WellFormed where
  sessionIds := by
    have hmap := Tables.map_proj_updateWhere (p := p) u Prod.fst db.interviewSessions
    exact hmap ▸ h.sessionIds
  sessionKeys := by
    have hmap := Tables.map_proj_updateWhere (p := p) u Prod.snd db.interviewSessions
    exact hmap ▸ h.sessionKeys
  sessionTokens := by
    intro s hs s' hs' token ht ht'
    obtain ⟨s₀, hs₀, rfl⟩ := Tables.mem_updateWhere.mp hs
    obtain ⟨s₁, hs₁, rfl⟩ := Tables.mem_updateWhere.mp hs'
    rw [onRow_id, onRow_id]
    exact htoken s₀ hs₀ s₁ hs₁ token ht ht'
  candidateAssessmentIds := h.candidateAssessmentIds
  invitationTokens := h.invitationTokens
  candidates := h.candidates
  assessments := h.assessments
  enrolled := by
    intro s hs
    obtain ⟨s₀, hs₀, rfl⟩ := Tables.mem_updateWhere.mp hs
    rw [onRow_candidateAssessmentId]
    exact h.enrolled s₀ hs₀

theorem updateSessions_of_token (h : db.WellFormed) {p : InterviewSession → Bool}
    {u : SessionUpdate} (htoken : ∀ s, (u.set s).sessionToken = s.sessionToken) :
    (db.updateSessions p u).WellFormed := by
  have honRow (s : InterviewSession) : (u.onRow p s).sessionToken = s.sessionToken :=
    Tables.Update.onRow_column htoken s
  apply h.updateSessions
  intro s hs s' hs' token ht ht'
  exact h.sessionTokens s hs s' hs' token (honRow s ▸ ht) (honRow s' ▸ ht')

theorem updateCandidateAssessments (h : db.WellFormed) (q : CandidateAssessment → Bool)
    (v : CandidateUpdate) : (db.updateCandidateAssessments q v).WellFormed where
  sessionIds := h.sessionIds
  sessionKeys := h.sessionKeys
  sessionTokens := h.sessionTokens
  candidateAssessmentIds := by
    have hmap := Tables.map_proj_updateWhere (p := q) v Prod.fst db.candidateAssessments
    exact hmap ▸ h.candidateAssessmentIds
  invitationTokens := by
    have hmap := Tables.map_proj_updateWhere (p := q) v (fun k => k.2.2.2) db.candidateAssessments
    exact hmap ▸ h.invitationTokens
  candidates := by
    intro ca hca
    obtain ⟨ca₀, hca₀, rfl⟩ := Tables.mem_updateWhere.mp hca
    rw [candidate_onRow_candidateId]
    exact h.candidates ca₀ hca₀
  assessments := by
    intro ca hca
    obtain ⟨ca₀, hca₀, rfl⟩ := Tables.mem_updateWhere.mp hca
    rw [candidate_onRow_assessmentId]
    exact h.assessments ca₀ hca₀
  enrolled := by
    intro s hs
    rw [candidateAssessment?_updateCandidateAssessments, Option.isSome_map]
    exact h.enrolled s hs

theorem insertSession (h : db.WellFormed) {s : InterviewSession}
    (hid : db.session? s.id = none) (hkey : db.sessionOf? s.candidateAssessmentId = none)
    (htoken : s.sessionToken = none)
    (hca : (db.candidateAssessment? s.candidateAssessmentId).isSome) :
    Database.WellFormed { db with interviewSessions := db.interviewSessions ++ [s] } where
  sessionIds := Tables.nodup_map_append h.sessionIds fun _ hr =>
    Tables.key_ne_of_lookup_eq_none hid hr
  sessionKeys := Tables.nodup_map_append h.sessionKeys fun _ hr =>
    Tables.key_ne_of_lookup_eq_none hkey hr
  sessionTokens := by
    intro s₀ hs₀ s₁ hs₁ token ht₀ ht₁
    have hold {r : InterviewSession} (hr : r ∈ db.interviewSessions ++ [s])
        (ht : r.sessionToken = some token) : r ∈ db.interviewSessions := by
      rcases List.mem_append.mp hr with hr | hr
      · exact hr
      · simp [List.mem_singleton.mp hr, htoken] at ht
    exact h.sessionTokens s₀ (hold hs₀ ht₀) s₁ (hold hs₁ ht₁) token ht₀ ht₁
  candidateAssessmentIds := h.candidateAssessmentIds
  invitationTokens := h.invitationTokens
  candidates := h.candidates
  assessments := h.assessments
  enrolled := by
    intro s₀ hs₀
    rcases List.mem_append.mp hs₀ with hs₀ | hs₀
    · exact h.enrolled s₀ hs₀
    · exact List.mem_singleton.mp hs₀ ▸ hca

end Database.WellFormed

def Database.single (recruiter : Recruiter) (candidate : Candidate) (assessment : Assessment)
    (ca : CandidateAssessment) (session : Option InterviewSession) : Database where
  recruiters := [recruiter]
  candidates := [candidate]
  assessments := [assessment]
  candidateAssessments := [ca]
  interviewSessions := session.toList
  interviewEvaluations := []
  notificationLogs := []
  eventLogs := []

theorem Database.single_wellFormed {recruiter : Recruiter} {candidate : Candidate}
    {assessment : Assessment} {ca : CandidateAssessment} {session : Option InterviewSession}
    (hcandidate : ca.candidateId = candidate.id) (hassessment : ca.assessmentId = assessment.id)
    (hsession : ∀ s, session = some s → s.candidateAssessmentId = ca.id) :
    (Database.single recruiter candidate assessment ca session).WellFormed where
  sessionIds := by cases session <;> simp [Database.single]
  sessionKeys := by cases session <;> simp [Database.single]
  sessionTokens := by cases session <;> simp_all [Database.single]
  candidateAssessmentIds := List.nodup_singleton _
  invitationTokens := List.nodup_singleton _
  candidates := by
    simp [Database.single, Database.candidate?, Tables.lookup_singleton, hcandidate]
  assessments := by
    simp [Database.single, Database.assessment?, Tables.lookup_singleton, hassessment]
  enrolled := by
    intro s hs
    have hid := hsession s (by simpa [Database.single] using hs)
    simp [Database.single, Database.candidateAssessment?, Tables.lookup_singleton, hid]

def sampleRequest : AssessmentCreateRequest where
  title := "Backend engineer"
  roleName := "Backend"
  jdText := some "Build the API."
  interviewDurationMins := 30
  windowStart := 0
  windowEnd := 1000 * Time.second
  focusAreas := []
  title_length := by decide
  roleName_length := by decide
  duration_bounds := by decide
  window_order := by decide

def sampleAssessment : Assessment := AssessmentService.newAssessment ⟨0, 0⟩ 3 1 sampleRequest none

def sampleEnrollment : CandidateAssessment :=
  CandidateAssessmentRepository.newCandidateAssessment ⟨0, 0⟩ ⟨4, 5⟩ 2 3 "resume.pdf" "PENDING" none

def sampleStore : Store where
  db := .single ⟨1, "Acme"⟩ ⟨2, "Ada"⟩ sampleAssessment sampleEnrollment none
  wellFormed := Database.single_wellFormed rfl rfl (by simp)

def sampleInterviewed : CandidateAssessment :=
  { sampleEnrollment with inviteConsumed := true, status := .inProgress }

def sampleSession : InterviewSession :=
  { InterviewSession.fresh 10 4 ⟨0, 0⟩ with
    status := .inProgress
    sessionToken := some "session-token"
    sessionTokenExpiresAt := some (5400 * Time.second)
    activeConnectionId := some "first-connection" }

def runningStore : Store where
  db := .single ⟨1, "Acme"⟩ ⟨2, "Ada"⟩ sampleAssessment sampleInterviewed (some sampleSession)
  wellFormed := Database.single_wellFormed rfl rfl (by
    rintro s ⟨⟩
    rfl)

theorem transact_wellFormed {α : Type} {db : Database}
    {body : Except ApiException (α × Database)} (h : db.WellFormed)
    (hbody : ∀ a db', body = .ok (a, db') → db'.WellFormed) :
    (transact db body).2.WellFormed := by
  match body with
  | .ok (a, db') => exact hbody a db' rfl
  | .error e => exact h

end IBotCoreApi

import IBotCoreApi.Connection
import IBotCoreApi.EvaluationRegister
import IBotCoreApi.GeneratedPlans

namespace IBotCoreApi
open Python Pydantic Outcomes Runs InternalInterview InterviewSessionService
  CandidateSessionRepository

/-- `GET /interview/validate-token` response. -/
structure TokenValidationResponse where
  candidateName : String
  companyName : String
  assessmentTitle : String
  interviewDurationMins : ℤ
  windowEnd : Time
  status : CandidateStatus
  sectionsOverview : List String

/-- The exceptions of `validate_token`. -/
inductive ValidateTokenException where
  | invitationNotFound (message : String)
  | python (error : PyError)
  /-- The response is not one of its schema. -/
  | responseValidation

namespace InterviewRoutes

/-- `"sections" in plan`. -/
def containsSections : Json → Except PyError Bool
  | .dict entries => .ok (entries.lookup "sections").isSome
  | .list items => .ok (items.any (·.eqStr "sections"))
  | .str text => .ok (decide ("sections".toList <:+: text.toList))
  | _ => .error .typeError

/-- The items of `plan["sections"]`. -/
def sectionItems : Json → Except PyError (List Json)
  | .dict entries =>
    match Json.get entries "sections" with
    | .list items => .ok items
    | .dict sections => .ok (sections.map fun entry => .str entry.1)
    | .str text => .ok (text.toList.map fun c => .str (String.ofList [c]))
    | _ => .error .typeError
  | _ => .error .typeError

/-- `s.get("section_name")`. -/
def sectionName : Json → Except PyError Json
  | .dict entries => .ok (Json.get entries "section_name")
  | _ => .error .attributeError

def planOverview (interviewPlan : Option Json) : Except PyError (List Json) := do
  let plan := interviewPlan.getD .null
  if !plan.truthy then return []
  else if !(← containsSections plan) then return []
  else
    let names ← (← sectionItems plan).mapM sectionName
    return names.filter Json.truthy

def validateToken (db : Database) (token : Uuid) :
    Except ValidateTokenException TokenValidationResponse :=
  match Tables.lookup (·.invitationToken) token db.candidateAssessments with
  | none => .error (.invitationNotFound "Candidate invitation token not found.")
  | some ca =>
    match db.candidate? ca.candidateId, db.assessment? ca.assessmentId with
    | some candidate, some assessment =>
      match planOverview assessment.interviewPlan with
      | .error error => .error (.python error)
      | .ok overview =>
        match items str overview with
        | none => .error .responseValidation
        | some sectionsOverview => .ok {
            candidateName := trim candidate.fullName
            companyName := trim (((db.recruiter? assessment.recruiterId).map
              (·.companyName)).getD "the company")
            assessmentTitle := trim assessment.title
            interviewDurationMins := assessment.interviewDurationMins
            windowEnd := assessment.windowEnd
            status := ca.status
            sectionsOverview := sectionsOverview }
    | _, _ =>
      .error (.invitationNotFound "Candidate or assessment not found for this invitation.")

end InterviewRoutes

open InterviewRoutes

section Overviews

/-- The `section_name` of a section. -/
def InterviewSection.shownName : InterviewSection → String
  | selfIntro _ => "self_intro"
  | technical s => s.sectionName
  | behaviouralCultural _ => "behavioural_cultural"

def InterviewPlan.overview (plan : InterviewPlan) : List String :=
  (plan.sections.map InterviewSection.shownName).filter (· ≠ "")

theorem sectionName_modelDump (s : InterviewSection) :
    ∃ entries, s.modelDump = .dict entries ∧
      Json.get entries "section_name" = .str s.shownName := by
  cases s with
  | selfIntro s => exact ⟨_, rfl, rfl⟩
  | technical s => exact ⟨_, rfl, rfl⟩
  | behaviouralCultural s => exact ⟨_, rfl, rfl⟩

theorem InterviewSection.Admitted.trimmed {s : InterviewSection} (h : s.Admitted) :
    Trimmed s.shownName := by
  cases s with
  | selfIntro => exact (by decide : Trimmed "self_intro")
  | technical s =>
    have htechnical : s.Admitted := h
    change Trimmed s.sectionName
    rw [htechnical.sectionName]
    exact htechnical.skill
  | behaviouralCultural => exact (by decide : Trimmed "behavioural_cultural")

theorem planOverview_modelDump (plan : InterviewPlan) :
    planOverview (some plan.modelDump) = .ok (plan.overview.map .str) := by
  have hitems : sectionItems plan.modelDump =
      .ok (plan.sections.map InterviewSection.modelDump) := rfl
  have hnames : (plan.sections.map InterviewSection.modelDump).mapM sectionName =
      .ok (plan.sections.map fun s => .str s.shownName) := by
    induction plan.sections with
    | nil => rfl
    | cons s rest ih =>
      obtain ⟨entries, hdump, hname⟩ := sectionName_modelDump s
      rw [List.map_cons, List.mapM_cons, ih, hdump]
      simp only [sectionName, hname, ok_bind]
      rfl
  have htruthy : Json.truthy ∘ Json.str = fun name => decide (name ≠ "") := by
    funext name
    by_cases hempty : name = ""
    · simp [hempty, Json.truthy]
    · simp [hempty, Json.truthy]
  have hfilter (names : List String) :
      (names.map Json.str).filter Json.truthy = (names.filter (· ≠ "")).map Json.str := by
    rw [List.filter_map, htruthy]
  have hshown : plan.sections.map (fun s => Json.str s.shownName) =
      (plan.sections.map InterviewSection.shownName).map Json.str := by
    rw [List.map_map]
    rfl
  have hread : planOverview (some plan.modelDump) = (do
      let names ← (← sectionItems plan.modelDump).mapM sectionName
      return names.filter Json.truthy) := rfl
  rw [hread, hitems, ok_bind, hnames, ok_bind, hshown, hfilter]
  rfl

theorem items_str_of_trimmed {names : List String} (h : ∀ name ∈ names, Trimmed name) :
    items str (names.map .str) = some names := by
  induction names with
  | nil => rfl
  | cons name rest ih =>
    have hname : str (.str name) = some name := congrArg some (h name List.mem_cons_self)
    rw [List.map_cons, items, hname, ih fun other hother => h other (List.mem_cons_of_mem _ hother)]
    rfl

theorem sectionsOverview_modelDump [Runtime] (plan : InterviewPlan) :
    sectionsOverview (some plan.modelDump) = plan.overview := by
  change (plan.sections.map InterviewSection.modelDump).filterMap _ = _
  unfold InterviewPlan.overview
  induction plan.sections with
  | nil => rfl
  | cons s rest ih =>
    obtain ⟨entries, hdump, hname⟩ := sectionName_modelDump s
    rw [List.map_cons, List.map_cons, List.filterMap_cons, ih, hdump]
    simp only [Json.field, hname]
    by_cases hempty : s.shownName = ""
    · simp [hempty, Json.truthy]
    · simp [hempty, Json.truthy, Json.pyStr]

end Overviews

section Responses

structure InterviewOffer where
  companyName : String
  assessmentTitle : String
  interviewDurationMins : ℤ
  windowEnd : Time

/-- The offer and whom it is made to, as the rows behind an invitation say. -/
structure InvitationTerms extends InterviewOffer where
  candidateName : String

def Database.invitationTerms? (db : Database) (ca : CandidateAssessment) :
    Option InvitationTerms := do
  let candidate ← db.candidate? ca.candidateId
  let assessment ← db.assessment? ca.assessmentId
  let recruiter ← db.recruiter? assessment.recruiterId
  return {
    candidateName := candidate.fullName
    companyName := recruiter.companyName
    assessmentTitle := assessment.title
    interviewDurationMins := assessment.interviewDurationMins
    windowEnd := assessment.windowEnd }

structure TokenValidationResponse.Shows (v : TokenValidationResponse) (t : InvitationTerms) :
    Prop where
  candidateName : v.candidateName = trim t.candidateName
  companyName : v.companyName = trim t.companyName
  assessmentTitle : v.assessmentTitle = trim t.assessmentTitle
  interviewDurationMins : v.interviewDurationMins = t.interviewDurationMins
  windowEnd : v.windowEnd = t.windowEnd

structure CandidateSessionBootstrapResponse.Tells (r : CandidateSessionBootstrapResponse)
    (t : InvitationTerms) : Prop where
  candidateName : r.candidateName = trim (orText t.candidateName "Candidate")
  companyName : r.companyName = trim (orText t.companyName "the company")
  assessmentTitle : r.assessmentTitle = trim (orText t.assessmentTitle "Interview")
  interviewDurationMins : r.interviewDurationMins = t.interviewDurationMins
  windowEnd : r.windowEnd = t.windowEnd

/-- The same text, up to the default for an empty one. -/
def SameText (default shown told : String) : Prop :=
  shown = told ∨ shown = "" ∧ told = default

structure TokenValidationResponse.Agrees (v : TokenValidationResponse)
    (r : CandidateSessionBootstrapResponse) : Prop where
  companyName : SameText "the company" v.companyName r.companyName
  assessmentTitle : SameText "Interview" v.assessmentTitle r.assessmentTitle
  interviewDurationMins : v.interviewDurationMins = r.interviewDurationMins
  windowEnd : v.windowEnd = r.windowEnd

theorem sameText_orText (text : String) {default : String} (hdefault : Trimmed default) :
    SameText default (trim text) (trim (orText text default)) := by
  unfold orText
  split_ifs with hempty
  · rw [hempty]
    exact .inr ⟨by decide, hdefault⟩
  · exact .inl rfl

theorem TokenValidationResponse.Shows.agrees {v : TokenValidationResponse}
    {r : CandidateSessionBootstrapResponse} {t t' : InvitationTerms} (hshows : v.Shows t)
    (htells : r.Tells t') (hoffer : t'.toInterviewOffer = t.toInterviewOffer) : v.Agrees r where
  companyName := by
    rw [hshows.companyName, htells.companyName, hoffer]
    exact sameText_orText _ (by decide)
  assessmentTitle := by
    rw [hshows.assessmentTitle, htells.assessmentTitle, hoffer]
    exact sameText_orText _ (by decide)
  interviewDurationMins := by
    rw [hshows.interviewDurationMins, htells.interviewDurationMins, hoffer]
  windowEnd := by rw [hshows.windowEnd, htells.windowEnd, hoffer]

variable {db : Database} {ca : CandidateAssessment} {r : CandidateSessionBootstrapResponse}
  {t : InvitationTerms} {a : Assessment}

theorem invitationTerms?_eq_some : db.invitationTerms? ca = some t ↔
    ∃ candidate assessment recruiter, db.candidate? ca.candidateId = some candidate ∧
      db.assessment? ca.assessmentId = some assessment ∧
      db.recruiter? assessment.recruiterId = some recruiter ∧
      t = ⟨⟨recruiter.companyName, assessment.title, assessment.interviewDurationMins,
        assessment.windowEnd⟩, candidate.fullName⟩ := by
  simp only [Database.invitationTerms?, Option.bind_eq_bind, Option.bind_eq_some_iff,
    Option.pure_def, Option.some.injEq]
  constructor
  · rintro ⟨candidate, hcandidate, assessment, hassessment, recruiter, hrecruiter, rfl⟩
    exact ⟨candidate, assessment, recruiter, hcandidate, hassessment, hrecruiter, rfl⟩
  · rintro ⟨candidate, assessment, recruiter, hcandidate, hassessment, hrecruiter, rfl⟩
    exact ⟨candidate, hcandidate, assessment, hassessment, recruiter, hrecruiter, rfl⟩

theorem validateToken_of_mem [Runtime] (h : db.WellFormed) (hplans : db.PlansFit)
    (hca : ca ∈ db.candidateAssessments) (ha : db.assessment? ca.assessmentId = some a) :
    ∃ v, validateToken db ca.invitationToken = .ok v ∧ v.status = ca.status ∧
      v.sectionsOverview = (sectionsOverview a.interviewPlan).map trim ∧
      ∀ t, db.invitationTerms? ca = some t → v.Shows t := by
  have hlookup : Tables.lookup (·.invitationToken) ca.invitationToken db.candidateAssessments =
      some ca := Tables.lookup_of_mem h.invitationTokens hca
  obtain ⟨candidate, hcandidate⟩ := Option.isSome_iff_exists.mp (h.candidates ca hca)
  -- the overview that both read
  obtain ⟨names, hoverview, htrimmed, hnames⟩ : ∃ names : List String,
      planOverview a.interviewPlan = .ok (names.map .str) ∧ (∀ name ∈ names, Trimmed name) ∧
        sectionsOverview a.interviewPlan = names := by
    rcases hplans _ a ha with ⟨_, hnone⟩ | ⟨overrides, result, _, hgenerated, _, hplan⟩
    · rw [hnone]
      exact ⟨[], rfl, by simp, rfl⟩
    · rw [hplan]
      refine ⟨result.interviewPlan.overview, planOverview_modelDump _, ?_,
        sectionsOverview_modelDump _⟩
      intro name hname
      obtain ⟨section_, hmem, rfl⟩ := List.mem_map.mp (List.mem_filter.mp hname).1
      exact (hgenerated.sections section_ hmem).trimmed
  have hvalid := items_str_of_trimmed htrimmed
  have hstripped : names.map trim = names :=
    (List.map_congr_left htrimmed).trans (List.map_id names)
  simp only [validateToken, hlookup, hcandidate, ha, hoverview, hvalid]
  refine ⟨_, rfl, rfl, by rw [hnames, hstripped], fun t ht => ?_⟩
  obtain ⟨candidate', assessment', recruiter, hcandidate', hassessment', hrecruiter, rfl⟩ :=
    invitationTerms?_eq_some.mp ht
  cases hcandidate.symm.trans hcandidate'
  cases ha.symm.trans hassessment'
  exact ⟨rfl, by simp [hrecruiter], rfl, rfl, rfl⟩

variable [Runtime]

/-- A response is told about an enrollment: to an entry with its invitation, or for the token of its
session. -/
def Told (db : Database) (ca : CandidateAssessment) (r : CandidateSessionBootstrapResponse) : Prop :=
  (∃ clock draws, (enterWithInvitation db clock draws ca.invitationToken).1 = .ok r) ∨
    ∃ clock sessionToken, ∃ s ∈ db.interviewSessions, s.candidateAssessmentId = ca.id ∧
      s.sessionToken = some sessionToken ∧ getSessionContext db clock sessionToken = .ok r

theorem enterWithInvitation_bootstraps {clock : Clock} {draws : EntryDraws} {token : Uuid}
    (hrun : (enterWithInvitation db clock draws token).1 = .ok r) :
    ∃ context session reissued, lockInvitationContext db token = some context ∧
      bootstrapResponse context.toLifecycleContext session reissued = .ok r := by
  unfold enterWithInvitation entryTransaction at hrun
  cases hlock : lockInvitationContext db token with
  | none =>
    rw [hlock] at hrun
    cases hrun
  | some context =>
    rw [hlock] at hrun
    simp only [getOrCreateSessionForUpdate] at hrun
    cases hget : db.getOrCreateSession clock draws.sessionId context.candidateAssessmentId with
    | error e =>
      rw [hget] at hrun
      cases hrun
    | ok opened =>
      obtain ⟨session, opened⟩ := opened
      rw [hget] at hrun
      simp only [ok_bind] at hrun
      split_ifs at hrun
      · cases hrun
      · cases hrun
      · cases hrun
      · cases hadmitted : admitEntry opened clock draws context session with
        | error e =>
          rw [hadmitted] at hrun
          cases hrun
        | ok admitted =>
          obtain ⟨response, db'⟩ := admitted
          rw [hadmitted] at hrun
          cases hrun
          obtain ⟨⟨token, expiresAt, issued⟩, _, hadmitted⟩ := bind_eq_ok.mp hadmitted
          obtain ⟨response, hbootstrap, hadmitted⟩ := bind_eq_ok.mp hadmitted
          cases hadmitted
          exact ⟨context, _, _, rfl, hbootstrap⟩

/-- What is told about an enrollment is told from its row. -/
theorem Told.bootstraps (h : db.WellFormed) (hca : ca ∈ db.candidateAssessments)
    (htold : Told db ca r) : ∃ lifecycle session reissued,
      lifecycleContext db ca = some lifecycle ∧
        bootstrapResponse lifecycle session reissued = .ok r := by
  rcases htold with ⟨clock, draws, hrun⟩ | ⟨clock, sessionToken, s, hs, hid, htoken, hrun⟩
  · obtain ⟨context, session, reissued, hlock, hbootstrap⟩ := enterWithInvitation_bootstraps hrun
    simp only [lockInvitationContext, Option.bind_eq_bind, Option.bind_eq_some_iff] at hlock
    obtain ⟨row, hrow, lifecycle, hlifecycle, hcontext⟩ := hlock
    cases hcontext
    cases hrow.symm.trans (Tables.lookup_of_mem h.invitationTokens hca)
    exact ⟨lifecycle, session, reissued, hlifecycle, hbootstrap⟩
  · unfold getSessionContext at hrun
    cases hlock : lockSessionContextByToken db sessionToken with
    | none =>
      rw [hlock] at hrun
      cases hrun
    | some context =>
      rw [hlock] at hrun
      cases hvalid : validateActiveToken (some context) clock.utcNow with
      | some rejection =>
        simp only [hvalid] at hrun
        cases hrun
      | none =>
        simp only [hvalid] at hrun
        simp only [lockSessionContextByToken, Option.bind_eq_bind, Option.bind_eq_some_iff] at hlock
        obtain ⟨row, hrow, found, hfound, lifecycle, hlifecycle, hcontext⟩ := hlock
        cases hcontext
        have hsame := h.eq_of_sessionToken (Tables.lookup_mem hrow) hs (Tables.lookup_key hrow)
          htoken
        rw [hsame, hid] at hfound
        cases hfound.symm.trans (Tables.lookup_of_mem h.candidateAssessmentIds hca)
        exact ⟨lifecycle, _, _, hlifecycle, hrun⟩

theorem Told.tells (h : db.WellFormed) (hca : ca ∈ db.candidateAssessments) (htold : Told db ca r)
    (ha : db.assessment? ca.assessmentId = some a) :
    r.status = ca.status ∧ r.sectionsOverview = (sectionsOverview a.interviewPlan).map trim ∧
      ∀ t, db.invitationTerms? ca = some t → r.Tells t := by
  obtain ⟨lifecycle, session, reissued, hlifecycle, hbootstrap⟩ := htold.bootstraps h hca
  simp only [lifecycleContext, Option.bind_eq_bind, Option.bind_eq_some_iff] at hlifecycle
  obtain ⟨candidate, hcandidate, assessment, hassessment, hcontext⟩ := hlifecycle
  cases hcontext
  cases ha.symm.trans hassessment
  unfold bootstrapResponse at hbootstrap
  split at hbootstrap
  · cases hbootstrap
  · cases hbootstrap
    refine ⟨rfl, rfl, fun t ht => ?_⟩
    obtain ⟨candidate', assessment', recruiter, hcandidate', hassessment', hrecruiter, rfl⟩ :=
      invitationTerms?_eq_some.mp ht
    cases hcandidate.symm.trans hcandidate'
    cases ha.symm.trans hassessment'
    exact ⟨rfl, by simp [hrecruiter], rfl, rfl, rfl⟩

end Responses

section Kept

variable {Renamed : Uuid → Prop} {db db' db'' : Database} {id : Uuid} {ca : CandidateAssessment}
  {t : InvitationTerms}

def Assessment.offer (a : Assessment) : Uuid × String × ℤ × Time :=
  (a.recruiterId, a.title, a.interviewDurationMins, a.windowEnd)

def OfferKept (db db' : Database) : Prop :=
  ∀ id a, db.assessment? id = some a →
    ∃ a', db'.assessment? id = some a' ∧ a'.offer = a.offer

/-- The rows behind the invitation of an enrollment are there as before, up to the name of a
candidate that may be renamed. -/
structure InvitationKept (Renamed : Uuid → Prop) (id : Uuid) (db db' : Database) : Prop where
  recruiters : ∀ recruiterId recruiter, db.recruiter? recruiterId = some recruiter →
    db'.recruiter? recruiterId = some recruiter
  enrollment : ∀ ca, db.candidateAssessment? id = some ca →
    ∃ ca', db'.candidateAssessment? id = some ca' ∧ ca'.keys = ca.keys
  candidate : ∀ ca candidate, db.candidateAssessment? id = some ca →
    db.candidate? ca.candidateId = some candidate →
    ∃ candidate', db'.candidate? ca.candidateId = some candidate' ∧
      (¬ Renamed ca.candidateId → candidate'.fullName = candidate.fullName)
  offers : OfferKept db db'

theorem OfferKept.of_same (h : db'.assessments = db.assessments) : OfferKept db db' := by
  intro id a ha
  refine ⟨a, ?_, rfl⟩
  rw [Database.assessment?, h]
  exact ha

theorem OfferKept.of_update {p : Assessment → Bool} {u : AssessmentUpdate}
    (hset : ∀ a, (u.set a).offer = a.offer) : OfferKept db (db.updateAssessments p u) :=
  fun id a ha => ⟨u.onRow p a, by simp [ha], u.onRow_column hset a⟩

theorem OfferKept.trans (h : OfferKept db db') (h' : OfferKept db' db'') : OfferKept db db'' := by
  intro id a ha
  obtain ⟨a', ha', hoffer⟩ := h id a ha
  obtain ⟨a'', ha'', hoffer'⟩ := h' id a' ha'
  exact ⟨a'', ha'', hoffer'.trans hoffer⟩

theorem InvitationKept.refl (id : Uuid) (db : Database) : InvitationKept Renamed id db db where
  recruiters _ _ h := h
  enrollment ca hca := ⟨ca, hca, rfl⟩
  candidate _ candidate _ h := ⟨candidate, h, fun _ => rfl⟩
  offers := .of_same rfl

theorem InvitationKept.trans (h : InvitationKept Renamed id db db')
    (h' : InvitationKept Renamed id db' db'') : InvitationKept Renamed id db db'' where
  recruiters recruiterId recruiter hrow :=
    h'.recruiters recruiterId recruiter (h.recruiters recruiterId recruiter hrow)
  enrollment ca hca := by
    obtain ⟨ca', hca', hkeys⟩ := h.enrollment ca hca
    obtain ⟨ca'', hca'', hkeys'⟩ := h'.enrollment ca' hca'
    exact ⟨ca'', hca'', hkeys'.trans hkeys⟩
  candidate ca candidate hca hcandidate := by
    obtain ⟨ca', hca', hkeys⟩ := h.enrollment ca hca
    have hid : ca'.candidateId = ca.candidateId := congrArg (fun keys => keys.2.1) hkeys
    obtain ⟨candidate', hcandidate', hname⟩ := h.candidate ca candidate hca hcandidate
    rw [← hid] at hcandidate' hname ⊢
    obtain ⟨candidate'', hcandidate'', hname'⟩ := h'.candidate ca' candidate' hca' hcandidate'
    exact ⟨candidate'', hcandidate'', fun hkept => (hname' hkept).trans (hname hkept)⟩
  offers := h.offers.trans h'.offers

theorem InvitationKept.of_assessments {assessments : List Assessment}
    (h : OfferKept db { db with assessments := assessments }) :
    InvitationKept Renamed id db { db with assessments := assessments } where
  recruiters _ _ h := h
  enrollment ca hca := ⟨ca, hca, rfl⟩
  candidate _ candidate _ h := ⟨candidate, h, fun _ => rfl⟩
  offers := h

theorem InvitationKept.of_renamed {p : Candidate → Bool} {u : CandidateRename}
    (hp : ∀ candidate, p candidate = true → Renamed candidate.id) :
    InvitationKept Renamed id db
      { db with candidates := Tables.updateWhere p u db.candidates } where
  recruiters _ _ h := h
  enrollment ca hca := ⟨ca, hca, rfl⟩
  candidate ca candidate _ hcandidate := by
    have hlookup : Tables.lookup (·.id) ca.candidateId (Tables.updateWhere p u db.candidates) =
        (db.candidate? ca.candidateId).map (u.onRow p) :=
      Tables.lookup_updateWhere u (fun id => id) ca.candidateId
    refine ⟨u.onRow p candidate, hlookup.trans (by rw [hcandidate, Option.map_some]), ?_⟩
    intro hkept
    rw [Tables.Update.onRow_of_false]
    rw [← Tables.lookup_key hcandidate] at hkept
    exact Bool.eq_false_iff.mpr fun htrue => hkept (hp candidate htrue)
  offers := .of_same rfl

theorem InvitationKept.invitationTerms? (h : InvitationKept Renamed id db db')
    {ca' : CandidateAssessment} (hca : db.candidateAssessment? id = some ca)
    (hkeys : ca'.keys = ca.keys) (ht : db.invitationTerms? ca = some t) :
    ∃ t', db'.invitationTerms? ca' = some t' ∧ t'.toInterviewOffer = t.toInterviewOffer ∧
      (¬ Renamed ca.candidateId → t'.candidateName = t.candidateName) := by
  have hcandidateId : ca'.candidateId = ca.candidateId := congrArg (fun keys => keys.2.1) hkeys
  have hassessmentId : ca'.assessmentId = ca.assessmentId :=
    congrArg (fun keys => keys.2.2.1) hkeys
  obtain ⟨candidate, assessment, recruiter, hcandidate, hassessment, hrecruiter, rfl⟩ :=
    invitationTerms?_eq_some.mp ht
  obtain ⟨assessment', hassessment', hoffer⟩ := h.offers _ assessment hassessment
  simp only [Assessment.offer, Prod.mk.injEq] at hoffer
  obtain ⟨howner, htitle, hduration, hend⟩ := hoffer
  obtain ⟨candidate', hcandidate', hname⟩ := h.candidate ca candidate hca hcandidate
  refine ⟨_, invitationTerms?_eq_some.mpr ⟨candidate', assessment', recruiter, ?_, ?_, ?_, rfl⟩, ?_,
    hname⟩
  · rw [hcandidateId]
    exact hcandidate'
  · rw [hassessmentId]
    exact hassessment'
  · rw [howner]
    exact h.recruiters _ _ hrecruiter
  · simp only [htitle, hduration, hend]

theorem enrollment_of_keys (hkeys : db'.enrollmentKeys = db.enrollmentKeys)
    (hca : db.candidateAssessment? id = some ca) :
    ∃ ca', db'.candidateAssessment? id = some ca' ∧ ca'.keys = ca.keys := by
  have hlookup (db : Database) : (db.candidateAssessment? id).map (·.keys) =
      Tables.lookup Prod.fst id db.enrollmentKeys := by
    rw [Database.candidateAssessment?, Tables.lookup, Tables.lookup, Database.enrollmentKeys,
      List.find?_map]
    rfl
  have hsame := (hlookup db').trans (hkeys ▸ (hlookup db).symm)
  rw [hca, Option.map_some, Option.map_eq_some_iff] at hsame
  exact hsame

variable [Runtime]

theorem handle_invitationKept (h : db.WellFormed) (call : Call) :
    InvitationKept Renamed id db (handle db call).2 := by
  have htables : (handle db call).2.recruiters = db.recruiters ∧
      (handle db call).2.candidates = db.candidates := by
    by_cases hsave : ∀ draws record email, call.request ≠ .saveFinalEvaluation draws record email
    · have hframe := handle_untouched h call hsave
      exact ⟨congrArg (fun db => db.recruiters) hframe, congrArg (fun db => db.candidates) hframe⟩
    · push Not at hsave
      obtain ⟨draws, record, email, hrequest⟩ := hsave
      obtain ⟨clock, request⟩ := call
      cases hrequest
      change (transact db (EvaluationRepository.saveFinalEvaluation db clock draws record
        email)).2.recruiters = _ ∧ (transact db (EvaluationRepository.saveFinalEvaluation db clock
          draws record email)).2.candidates = _
      cases hrun : EvaluationRepository.saveFinalEvaluation db clock draws record email with
      | error e => exact ⟨rfl, rfl⟩
      | ok saved =>
        obtain ⟨notification, db'⟩ := saved
        obtain ⟨evaluations, notifications, rfl⟩ := saveFinalEvaluation_cases hrun
        exact ⟨rfl, rfl⟩
  obtain ⟨hrecruiters, hcandidates⟩ := htables
  constructor
  · intro recruiterId recruiter hrow
    rw [Database.recruiter?, hrecruiters]
    exact hrow
  · exact fun ca hca => enrollment_of_keys (handle_enrollmentKeys h call) hca
  · intro ca candidate _ hrow
    refine ⟨candidate, ?_, fun _ => rfl⟩
    rw [Database.candidate?, hcandidates]
    exact hrow
  · exact .of_same (handle_assessments h call)

omit [Runtime] in
theorem deleteCandidateFromAssessment_invitationKept {candidateAssessmentId recruiterId : Uuid}
    (hne : candidateAssessmentId ≠ id)
    (hrun : CandidateService.deleteCandidateFromAssessment db candidateAssessmentId recruiterId =
      .ok ((), db')) : InvitationKept Renamed id db db' := by
  unfold CandidateService.deleteCandidateFromAssessment at hrun
  split at hrun
  · rename_i gone hgone
    have hgoneId : gone.id = candidateAssessmentId := Tables.lookup_key hgone
    have hothers {ca : CandidateAssessment} (hca : db.candidateAssessment? id = some ca) :
        (CandidateAssessmentRepository.delete db gone).candidateAssessment? id = some ca := by
      rw [← hca]
      refine Tables.lookup_filter fun row _ hrow => ?_
      rw [bne_iff_ne, hrow, hgoneId]
      exact hne.symm
    split at hrun
    · split at hrun
      · cases hrun
      · cases hrun
        split
        · exact ⟨fun _ _ h => h, fun ca hca => ⟨ca, hothers hca, rfl⟩,
            fun _ candidate _ h => ⟨candidate, h, fun _ => rfl⟩, .of_same rfl⟩
        · rename_i hnone
          refine ⟨fun _ _ h => h, fun ca hca => ⟨ca, hothers hca, rfl⟩, ?_, .of_same rfl⟩
          intro ca candidate hca hcandidate
          refine ⟨candidate, ?_, fun _ => rfl⟩
          rw [← hcandidate]
          refine Tables.lookup_filter fun row _ hrow => ?_
          rw [bne_iff_ne, hrow]
          intro hsame
          exact hnone (List.any_eq_true.mpr ⟨ca, Tables.lookup_mem (hothers hca),
            beq_iff_eq.mpr hsame⟩)
    · cases hrun
  · cases hrun

omit [Runtime] in
theorem transact_invitationKept {α : Type} {body : Except ApiException (α × Database)}
    (hbody : ∀ a db', body = .ok (a, db') → InvitationKept Renamed id db db') :
    InvitationKept Renamed id db (transact db body).2 := by
  match body with
  | .ok (a, db') => exact hbody a db' rfl
  | .error _ => exact .refl id db

theorem service_invitationKept (store : Store) (call : ServiceCall)
    (hdelete : ∀ recruiterId, call.request ≠ .deleteCandidateFromAssessment id recruiterId)
    (hrename : ∀ candidateId name, call.request = .renameCandidate candidateId name →
      Renamed candidateId) : InvitationKept Renamed id store.db (service store call).2.db := by
  obtain ⟨clock, request⟩ := call
  change InvitationKept Renamed id store.db (operate store.db ⟨clock, request⟩).2
  cases request with
  | session request => exact handle_invitationKept store.wellFormed _
  | createRecruiter newId companyName =>
    simp only [operate, respond]
    refine transact_invitationKept fun recruiter db' hrun => ?_
    unfold createRecruiter at hrun
    split_ifs at hrun
    cases hrun
    exact ⟨fun _ _ hrow => Tables.lookup_append_of_some hrow, fun ca hca => ⟨ca, hca, rfl⟩,
      fun _ candidate _ h => ⟨candidate, h, fun _ => rfl⟩, .of_same rfl⟩
  | renameCandidate candidateId name =>
    refine .of_renamed fun candidate hcandidate => ?_
    rw [Bool.and_eq_true, beq_iff_eq] at hcandidate
    exact hcandidate.1 ▸ hrename candidateId name rfl
  | createCandidate newId fullName =>
    simp only [operate, respond]
    refine transact_invitationKept fun candidate db' hrun => ?_
    unfold createCandidate at hrun
    split_ifs at hrun
    cases hrun
    exact ⟨fun _ _ h => h, fun ca hca => ⟨ca, hca, rfl⟩,
      fun _ candidate _ hrow => ⟨candidate, Tables.lookup_append_of_some hrow, fun _ => rfl⟩,
      .of_same rfl⟩
  | createAssessment newId recruiterId request jdFileBytes jdFilename =>
    simp only [operate, respond]
    refine transact_invitationKept fun assessment db' hrun => ?_
    unfold AssessmentService.createAssessment AssessmentRepository.createAssessment at hrun
    split_ifs at hrun
    cases hrun
    exact .of_assessments fun _ a ha => ⟨a, Tables.lookup_append_of_some ha, rfl⟩
  | activateAssessment assessmentId jdText jdAnalysis interviewPlan =>
    simp only [operate, AssessmentRepository.activateAssessment]
    split
    · exact .refl id store.db
    · exact .of_assessments (.of_update fun _ => rfl)
  | updateStatus assessmentId recruiterId newStatus =>
    simp only [operate, respond]
    refine transact_invitationKept fun assessment db' hrun => ?_
    obtain ⟨_, _, _, rfl⟩ := updateStatus_cases hrun
    exact .of_assessments (.of_update fun _ => rfl)
  | closeAssessmentOnFailure | closeExpiredAssessments =>
    exact .of_assessments (.of_update fun _ => rfl)
  | enroll draws candidateId assessmentId resumeFilePath resumeParseStatus resumeParsed =>
    simp only [operate, respond]
    refine transact_invitationKept fun ca db' hrun => ?_
    unfold CandidateAssessmentRepository.create at hrun
    split_ifs at hrun
    cases hrun
    exact ⟨fun _ _ h => h, fun ca hca => ⟨ca, Tables.lookup_append_of_some hca, rfl⟩,
      fun _ candidate _ h => ⟨candidate, h, fun _ => rfl⟩, .of_same rfl⟩
  | updateResumeParsingResult | updateRecruiterDecision =>
    exact ⟨fun _ _ h => h, fun ca hca => enrollment_of_keys
      (enrollmentKeys_updateCandidateAssessments _ _) hca,
      fun _ candidate _ h => ⟨candidate, h, fun _ => rfl⟩, .of_same rfl⟩
  | deleteCandidateFromAssessment candidateAssessmentId recruiterId =>
    simp only [operate, respond]
    refine transact_invitationKept fun _ db' hrun => ?_
    refine deleteCandidateFromAssessment_invitationKept ?_ hrun
    rintro rfl
    exact hdelete recruiterId rfl

end Kept

section Recruiters

variable {db : Database}

def Database.RecruitersKnown (db : Database) : Prop :=
  ∀ a ∈ db.assessments, (db.recruiter? a.recruiterId).isSome

theorem Database.RecruitersKnown.update (h : db.RecruitersKnown) (p : Assessment → Bool)
    (u : AssessmentUpdate) : (db.updateAssessments p u).RecruitersKnown := by
  intro a ha
  obtain ⟨row, hrow, rfl⟩ := Tables.mem_updateWhere.mp ha
  have howner : (u.onRow p row).recruiterId = row.recruiterId :=
    congrArg Prod.snd (u.onRow_keeps row)
  rw [howner]
  exact h row hrow

theorem transact_recruitersKnown {α : Type} {body : Except ApiException (α × Database)}
    (h : db.RecruitersKnown) (hbody : ∀ a db', body = .ok (a, db') → db'.RecruitersKnown) :
    (transact db body).2.RecruitersKnown := by
  match body with
  | .ok (a, db') => exact hbody a db' rfl
  | .error _ => exact h

variable [Runtime]

theorem service_recruitersKnown (store : Store) (call : ServiceCall)
    (h : store.db.RecruitersKnown) : (service store call).2.db.RecruitersKnown := by
  obtain ⟨clock, request⟩ := call
  change (operate store.db ⟨clock, request⟩).2.RecruitersKnown
  cases request with
  | session request =>
    intro a ha
    rw [operate, handle_assessments store.wellFormed] at ha
    obtain ⟨recruiter, hrecruiter⟩ := Option.isSome_iff_exists.mp (h a ha)
    have hkept : InvitationKept (fun _ => False) a.id store.db
        (handle store.db ⟨clock, request⟩).2 :=
      handle_invitationKept store.wellFormed ⟨clock, request⟩
    exact Option.isSome_iff_exists.mpr ⟨recruiter, hkept.recruiters _ recruiter hrecruiter⟩
  | createRecruiter newId companyName =>
    simp only [operate, respond]
    refine transact_recruitersKnown h fun recruiter db' hrun => ?_
    unfold createRecruiter at hrun
    split_ifs at hrun
    cases hrun
    intro a ha
    obtain ⟨found, hfound⟩ := Option.isSome_iff_exists.mp (h a ha)
    exact Option.isSome_iff_exists.mpr ⟨found, Tables.lookup_append_of_some hfound⟩
  | createCandidate newId fullName =>
    simp only [operate, respond]
    refine transact_recruitersKnown h fun candidate db' hrun => ?_
    unfold createCandidate at hrun
    split_ifs at hrun
    cases hrun
    exact h
  | renameCandidate candidateId name => exact h
  | createAssessment newId recruiterId request jdFileBytes jdFilename =>
    simp only [operate, respond]
    refine transact_recruitersKnown h fun assessment db' hrun => ?_
    unfold AssessmentService.createAssessment AssessmentRepository.createAssessment at hrun
    split_ifs at hrun with _ hrefused
    cases hrun
    intro a ha
    rcases List.mem_append.mp ha with ha | ha
    · exact h a ha
    · rw [List.mem_singleton.mp ha]
      simp only [Bool.or_eq_true, not_or, Bool.not_eq_true, Option.isNone_eq_false_iff] at hrefused
      exact hrefused.1
  | activateAssessment assessmentId jdText jdAnalysis interviewPlan =>
    simp only [operate, AssessmentRepository.activateAssessment]
    split
    · exact h
    · exact h.update _ _
  | updateStatus assessmentId recruiterId newStatus =>
    simp only [operate, respond]
    refine transact_recruitersKnown h fun assessment db' hrun => ?_
    obtain ⟨_, _, _, rfl⟩ := updateStatus_cases hrun
    exact h.update _ _
  | closeAssessmentOnFailure | closeExpiredAssessments => exact h.update _ _
  | enroll draws candidateId assessmentId resumeFilePath resumeParseStatus resumeParsed =>
    simp only [operate, respond]
    refine transact_recruitersKnown h fun ca db' hrun => ?_
    unfold CandidateAssessmentRepository.create at hrun
    split_ifs at hrun
    cases hrun
    exact h
  | updateResumeParsingResult | updateRecruiterDecision => exact h
  | deleteCandidateFromAssessment candidateAssessmentId recruiterId =>
    simp only [operate, respond]
    refine transact_recruitersKnown h fun _ db' hrun => ?_
    obtain ⟨_, _, _, _, _, _, rfl⟩ := deleteCandidateFromAssessment_cases hrun
    exact h

end Recruiters

section Runs

/-- The event deletes the enrollment, if its recruiter asks for it. -/
def WorkerEvent.Deletes (id : Uuid) : WorkerEvent → Prop
  | .serve call _ => ∃ recruiterId, call.request = .deleteCandidateFromAssessment id recruiterId
  | .deliver _ | .advance _ _ _ => False

/-- A row of an upload names the candidate. -/
def WorkerEvent.Renames (candidateId : Uuid) : WorkerEvent → Prop
  | .serve call _ => ∃ name, call.request = .renameCandidate candidateId name
  | .deliver _ | .advance _ _ _ => False

variable [Runtime] [NumberText] [AnalysisPrompts] [UuidText] {Renamed : Uuid → Prop} {id : Uuid}

theorem worker_store (s : Worker) (event : WorkerEvent) :
    (worker s event).2.store = s.store ∨ ∃ call : ServiceCall,
      (worker s event).2.store = (service s.store call).2 ∧
        (∀ id recruiterId, call.request = .deleteCandidateFromAssessment id recruiterId →
          event.Deletes id) ∧
        ∀ candidateId name, call.request = .renameCandidate candidateId name →
          event.Renames candidateId := by
  cases event with
  | serve call published =>
    exact .inr ⟨call.toServiceCall, rfl, fun _ recruiterId hrequest => ⟨recruiterId, hrequest⟩,
      fun _ name hrequest => ⟨name, hrequest⟩⟩
  | deliver position =>
    left
    simp only [worker]
    split
    · rfl
    · rfl
  | advance execution clock o =>
    cases hexecution : s.executions[execution]? with
    | none =>
      left
      simp only [worker, hexecution]
    | some running =>
      obtain ⟨message, phase⟩ := running
      simp only [worker, hexecution]
      cases phase with
      | informed info =>
        left
        cases hgenerate : generate message info o with
        | none => simp only [workerAdvance, hgenerate]
        | some generated => simp only [workerAdvance, hgenerate]
      | generated info formatted result =>
        simp only [workerAdvance, advance]
        split
        · exact .inl rfl
        · exact .inr ⟨_, rfl, fun _ _ hrequest => ServiceRequest.noConfusion hrequest,
            fun _ _ hrequest => ServiceRequest.noConfusion hrequest⟩
      | raised =>
        simp only [workerAdvance, advance]
        split
        · exact .inl rfl
        · split
          · exact .inl rfl
          · exact .inr ⟨_, rfl, fun _ _ hrequest => ServiceRequest.noConfusion hrequest,
              fun _ _ hrequest => ServiceRequest.noConfusion hrequest⟩
      | delivered =>
        left
        simp only [workerAdvance, advance]
        split
        · rfl
        · split
          · rfl
          · rfl
      | activated | closedOnFailure | finished => exact .inl rfl

theorem worker_invitationKept (s : Worker) {event : WorkerEvent} (hdelete : ¬ event.Deletes id)
    (hrename : ∀ candidateId, event.Renames candidateId → Renamed candidateId) :
    InvitationKept Renamed id s.store.db (worker s event).2.store.db := by
  rcases worker_store s event with hsame | ⟨call, hcall, hdeletes, hrenames⟩
  · rw [hsame]
    exact .refl id s.store.db
  · rw [hcall]
    refine service_invitationKept s.store call ?_ ?_
    · exact fun recruiterId hrequest => hdelete (hdeletes id recruiterId hrequest)
    · exact fun candidateId name hrequest => hrename _ (hrenames candidateId name hrequest)

theorem worker_run [LawfulUuidText] (events : List WorkerEvent) :
    (exec worker ⟨⟨emptyStore, []⟩, []⟩ events).Consistent ∧
      (exec worker ⟨⟨emptyStore, []⟩, []⟩ events).store.db.RecruitersKnown := by
  have hstep (s : Worker) (event : WorkerEvent) (_ : True)
      (h : s.Consistent ∧ s.store.db.RecruitersKnown) :
      (worker s event).2.Consistent ∧ (worker s event).2.store.db.RecruitersKnown := by
    refine ⟨h.1.step event, ?_⟩
    rcases worker_store s event with hsame | ⟨call, hcall, _, _⟩
    · rw [hsame]
      exact h.2
    · rw [hcall]
      exact service_recruitersKnown s.store call h.2
  have hconsistent : Worker.Consistent ⟨⟨emptyStore, []⟩, []⟩ :=
    ⟨fun id a ha => (nomatch ha), by simp, by simp⟩
  have hknown : emptyStore.db.RecruitersKnown := fun a ha => (nomatch ha)
  have hstart : Worker.Consistent ⟨⟨emptyStore, []⟩, []⟩ ∧ emptyStore.db.RecruitersKnown :=
    ⟨hconsistent, hknown⟩
  exact exec_invariant hstep (fun _ _ => trivial) hstart

/-- In every run a token that belongs to no enrollment is refused, and any other one validates.  The
waiting room then shows the status and the sections that an entry or a session context tells at that
moment.  Unless the deletion of the enrollment is asked for in between, it shows the interview that
they offer at any later one, and the name that they tell if no upload names the candidate. -/
theorem waiting_room_agrees [LawfulUuidText] (before after : List WorkerEvent) (token : Uuid) :
    let s := exec worker ⟨⟨emptyStore, []⟩, []⟩ before
    let later := exec worker s after
    ((∀ ca ∈ s.store.db.candidateAssessments, ca.invitationToken ≠ token) →
      validateToken s.store.db token =
        .error (.invitationNotFound "Candidate invitation token not found.")) ∧
      ∀ ca ∈ s.store.db.candidateAssessments, ca.invitationToken = token →
        ∃ v, validateToken s.store.db token = .ok v ∧
          (∀ r, Told s.store.db ca r →
            r.status = v.status ∧ r.sectionsOverview = v.sectionsOverview) ∧
          ((∀ event ∈ after, ¬ event.Deletes ca.id) →
            ∃ ca' ∈ later.store.db.candidateAssessments, ca'.keys = ca.keys ∧
              ∀ r, Told later.store.db ca' r → v.Agrees r ∧
                ((∀ event ∈ after, ¬ event.Renames ca.candidateId) →
                  SameText "Candidate" v.candidateName r.candidateName)) := by
  intro s later
  obtain ⟨hconsistent, hknown⟩ := worker_run before
  constructor
  · intro hnone
    have hlookup : Tables.lookup (·.invitationToken) token s.store.db.candidateAssessments =
        none := by
      rw [Tables.lookup_eq_none_iff]
      intro hmem
      obtain ⟨ca, hca, htoken⟩ := List.mem_map.mp hmem
      exact hnone ca hca htoken
    simp only [validateToken, hlookup]
  · rintro ca hca rfl
    have hwell := s.store.wellFormed
    obtain ⟨a, ha⟩ := Option.isSome_iff_exists.mp (hwell.assessments ca hca)
    obtain ⟨candidate, hcandidate⟩ := Option.isSome_iff_exists.mp (hwell.candidates ca hca)
    obtain ⟨recruiter, hrecruiter⟩ :=
      Option.isSome_iff_exists.mp (hknown a (Tables.lookup_mem ha))
    have hterms : s.store.db.invitationTerms? ca = some ⟨⟨recruiter.companyName, a.title,
        a.interviewDurationMins, a.windowEnd⟩, candidate.fullName⟩ :=
      invitationTerms?_eq_some.mpr ⟨candidate, a, recruiter, hcandidate, ha, hrecruiter, rfl⟩
    obtain ⟨v, hvalid, hstatus, hsections, hshows⟩ :=
      validateToken_of_mem hwell hconsistent.plans hca ha
    refine ⟨v, hvalid, fun r htold => ?_, fun hdelete => ?_⟩
    · obtain ⟨hstatus', hsections', _⟩ := htold.tells hwell hca ha
      exact ⟨hstatus'.trans hstatus.symm, hsections'.trans hsections.symm⟩
    · let Renamed (candidateId : Uuid) : Prop := ∃ event ∈ after, event.Renames candidateId
      have hstep (s' : Worker) (event : WorkerEvent) (hevent : event ∈ after)
          (h : InvitationKept Renamed ca.id s.store.db s'.store.db) :
          InvitationKept Renamed ca.id s.store.db (worker s' event).2.store.db :=
        h.trans (worker_invitationKept s' (hdelete event hevent)
          fun _ hrenames => ⟨event, hevent, hrenames⟩)
      have hkept : InvitationKept Renamed ca.id s.store.db later.store.db :=
        exec_invariant hstep (fun _ hevent => hevent) (.refl ca.id s.store.db)
      have hfound := Tables.lookup_of_mem hwell.candidateAssessmentIds hca
      obtain ⟨ca', hca', hkeys⟩ := hkept.enrollment ca hfound
      obtain ⟨t', hterms', hoffer, hname⟩ := hkept.invitationTerms? hfound hkeys hterms
      have hmem := Tables.lookup_mem hca'
      obtain ⟨a', ha'⟩ := Option.isSome_iff_exists.mp (later.store.wellFormed.assessments ca' hmem)
      refine ⟨ca', hmem, hkeys, fun r htold => ?_⟩
      obtain ⟨_, _, htells⟩ := htold.tells later.store.wellFormed hmem ha'
      refine ⟨(hshows _ hterms).agrees (htells _ hterms') hoffer, fun hrename => ?_⟩
      have hsame : t'.candidateName = candidate.fullName :=
        hname fun hrenamed => hrenamed.elim fun event h => hrename event h.1 h.2
      rw [(hshows _ hterms).candidateName, (htells _ hterms').candidateName, hsame]
      exact sameText_orText _ (by decide)

end Runs

def invitedOnce : List WorkerEvent :=
  processedOnce ++ [.serve ⟨⟨⟨0, 0⟩, .createCandidate 2 "Ada"⟩, trivial⟩ true,
    .serve ⟨⟨⟨0, 0⟩, .enroll ⟨4, 5⟩ 2 3 "resume.pdf" "PENDING" none⟩, trivial⟩ true]

/-- Another upload names the candidate anew. -/
def renamedLater : List WorkerEvent :=
  [.serve ⟨⟨⟨0, 0⟩, .renameCandidate 2 "Ada Lovelace"⟩, trivial⟩ true]

theorem waiting_room_agrees_sample :
    let _ : Runtime := .ascii
    let _ : NumberText := .ascii
    let _ : AnalysisPrompts := .sample
    let _ : UuidText := .hexadecimal
    let db := (exec worker ⟨⟨emptyStore, []⟩, []⟩ invitedOnce).store.db
    let later := (exec worker ⟨⟨emptyStore, []⟩, []⟩ (invitedOnce ++ renamedLater)).store.db
    ∃ v r r', validateToken db 5 = .ok v ∧
      (enterWithInvitation db ⟨0, 0⟩ ⟨6, "session-token"⟩ 5).1 = .ok r ∧
      v.sectionsOverview = r.sectionsOverview ∧ r.sectionsOverview.head? = some "self_intro" ∧
      (enterWithInvitation later ⟨0, 0⟩ ⟨6, "session-token"⟩ 5).1 = .ok r' ∧
      r'.candidateName = "Ada Lovelace" ∧ v.Agrees r' := by
  intro runtime numberText prompts uuidText db later
  have htokens : db.candidateAssessments.map (·.invitationToken) = [5] := by decide +kernel
  have hentered : ((enterWithInvitation db ⟨0, 0⟩ ⟨6, "session-token"⟩ 5).1.toOption.bind
      (·.sectionsOverview.head?)) = some "self_intro" := by
    decide +kernel
  have hrenamed : (enterWithInvitation later ⟨0, 0⟩ ⟨6, "session-token"⟩ 5).1.toOption.map
      (·.candidateName) = some "Ada Lovelace" := by
    decide +kernel
  obtain ⟨r, hr, hhead⟩ := Option.bind_eq_some_iff.mp hentered
  obtain ⟨r', hr', hname⟩ := Option.map_eq_some_iff.mp hrenamed
  have hrun := toOption_eq_some.mp hr
  have hrun' := toOption_eq_some.mp hr'
  obtain ⟨ca, hca, htoken⟩ : ∃ ca ∈ db.candidateAssessments, ca.invitationToken = 5 :=
    List.mem_map.mp (htokens ▸ List.mem_singleton_self 5)
  obtain ⟨v, hvalid, hsame, hlater⟩ :=
    (waiting_room_agrees invitedOnce renamedLater 5).2 ca hca htoken
  obtain ⟨ca', hca', hkeys, hagrees⟩ := hlater fun event hevent => by
    obtain rfl := List.mem_singleton.mp hevent
    rintro ⟨recruiterId, hdeletion⟩
    cases hdeletion
  have htoken' : ca'.invitationToken = 5 := (congrArg (fun keys => keys.2.2.2) hkeys).trans htoken
  have htold : Told db ca r := .inl ⟨⟨0, 0⟩, ⟨6, "session-token"⟩, htoken.symm ▸ hrun⟩
  have htold' : Told later ca' r' := .inl ⟨⟨0, 0⟩, ⟨6, "session-token"⟩, by
    rw [htoken']
    exact hrun'⟩
  refine ⟨v, r, r', hvalid, hrun, (hsame r htold).2.symm, hhead, hrun', hname, ?_⟩
  exact (hagrees r' (by rw [← exec_append]; exact htold')).1

end IBotCoreApi

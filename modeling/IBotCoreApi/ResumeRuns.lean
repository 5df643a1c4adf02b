import IBotCoreApi.DrawnEnrollments
import IBotCoreApi.Library.KeyedLists

namespace IBotCoreApi
open Python Transactions Runs RecruiterRequests

def ResumePhase.stored : ResumePhase → Option String
  | .committed status _ => some status
  | .cleanup status | .ended status _ => status
  | _ => none

def ResumeColumns (e : RecruiterEnrollment) : Prop :=
  e.resumeParseStatus = "PENDING" ∧ e.resumeParsed = none ∨
    e.resumeParseStatus = "COMPLETED" ∧ e.resumeParsed.isSome ∨
    e.resumeParseStatus = "FAILED" ∧ ∃ text, e.resumeParsed = some (failedResume text)

theorem NewColumns.resumeColumns {e : RecruiterEnrollment} (h : NewColumns e) : ResumeColumns e :=
  h.imp_right .inl

theorem ResumeColumns.of_same {e₀ e : RecruiterEnrollment} (h : ResumeColumns e₀)
    (hsame : SameResume e₀ e) : ResumeColumns e := by
  unfold ResumeColumns
  rw [← hsame.status, ← hsame.parsed]
  exact h

namespace ResumeSystem

def taskIds (s : ResumeSystem) : List Uuid := s.tasks.map (·.1.candidateAssessmentId)

/-- What holds of the rows, the files and the tasks between any two steps. -/
structure Consistent (s : ResumeSystem) : Prop where
  keyed : s.db.Keyed
  columns : ∀ e ∈ s.db.enrollments, ResumeColumns e
  taskIds : s.taskIds.Nodup
  statuses : ∀ t ∈ s.tasks, ∀ e ∈ s.db.enrollments, e.id = t.1.candidateAssessmentId →
    e.resumeParseStatus = t.2.stored.getD "PENDING"
  removed : ∀ t ∈ s.tasks, ∀ status, t.2 = .ended status true →
    s.files t.1.candidateAssessmentId = none

/-- A request draws identifiers that no enrollment and no task has. -/
def FreshFor (s : ResumeSystem) : ResumeSystemEvent → Prop
  | .request _ request _ _ => ∀ id, request.Draws id →
      id ∉ s.db.enrollments.map (·.id) ∧ id ∉ s.taskIds
  | _ => True

end ResumeSystem

section Requests

variable [Runtime] {s : ResumeSystem}

/-- What a request leaves: rows from before and new ones, tasks for new rows that are pending, and
files of new rows. -/
structure Requested (D : Uuid → Prop) (s s' : ResumeSystem) : Prop where
  keyed : s'.db.Keyed
  rows : KeptOrDrawn D s.db s'.db
  tasks : ∃ started : List ResumeTask, s'.tasks = s.tasks ++ started.map (·, .started) ∧
    (started.map (·.candidateAssessmentId)).Nodup ∧
    ∀ task ∈ started, D task.candidateAssessmentId ∧ ∀ e ∈ s'.db.enrollments,
      e.id = task.candidateAssessmentId → e.resumeParseStatus = "PENDING"
  files : ∀ id, ¬ D id → s'.files id = s.files id

omit [Runtime] in
theorem writeTemporaryResumes_of_not_drawn {D : Uuid → Prop} {C S : Prop}
    {effects : List RecruiterEffect} (heffects : ∀ effect ∈ effects, DrawnEffect D C S effect)
    (files : TemporaryResumes) {id : Uuid}
    (hid : ¬ D id) : effects.foldl writeTemporaryResume files id = files id := by
  induction effects generalizing files with
  | nil => rfl
  | cons effect effects ih =>
    rw [List.forall_mem_cons] at heffects
    rw [List.foldl_cons, ih heffects.2]
    cases effect with
    | temporaryResume candidateAssessmentId content =>
      refine Function.update_of_ne ?_ _ _
      rintro rfl
      exact hid heffects.1
    | _ => rfl

theorem request_requested (hkeyed : s.db.Keyed) (recruiterId : Uuid) (request : RecruiterRequest)
    (commit : Option Unit) (raises : ℕ → Option Unit) :
    Requested request.Draws s
      (resumeSystem s (.request recruiterId request commit raises)).2 := by
  obtain ⟨R, honly⟩ := request.exists_only recruiterId
  let effects := (request.program recruiterId).emitted recruiterEngine s.db
  have heffects : ∀ effect ∈ effects, DrawnEffect request.Draws request.Decides request.SetsStatus
      effect := honly.emitted s.db
  have hfiles (id : Uuid) (hid : ¬ request.Draws id) :=
    writeTemporaryResumes_of_not_drawn heffects s.files hid
  rcases asyncSessionScope_cases recruiterEngine (request.program recruiterId) s.db commit raises with
    ⟨hdatabase, hinvoked⟩ | ⟨response, registered, hrun, hinvoked⟩
  · have hdb : (resumeSystem s (.request recruiterId request commit raises)).2.db = s.db := hdatabase
    refine ⟨hdb.symm ▸ hkeyed, hdb.symm ▸ .refl, ⟨[], ?_, by simp, by simp⟩, hfiles⟩
    exact congrArg (fun invoked => s.tasks ++ (invoked.filterMap ResumeTask.ofCallback).map
      fun task => (task, ResumePhase.started)) hinvoked
  · obtain ⟨hnodup, hscheduled⟩ := request.schedules hkeyed hrun
    have hids : (((asyncSessionScope recruiterEngine commit raises (request.program recruiterId)
        s.db).invoked.filterMap ResumeTask.ofCallback).map (·.candidateAssessmentId)).Sublist
          (registered.filterMap resumeTask) := by
      rw [List.map_filterMap, ← funext resumeTask_eq]
      exact hinvoked.sublist.filterMap resumeTask
    refine ⟨?_, request.kept hrun, ⟨_, rfl, hnodup.sublist hids, ?_⟩, hfiles⟩
    · exact Program.perform_invariant RecruiterDatabase.Keyed (fun _ _ hw hs => hs.apply hw) hrun
        hkeyed
    · exact fun task htask => hscheduled _ (hids.subset (List.mem_map_of_mem htask))

omit [Runtime] in
theorem Requested.consistent {D : Uuid → Prop} {s' : ResumeSystem} (h : Requested D s s')
    (hs : s.Consistent) (hfresh : ∀ id, D id → id ∉ s.taskIds) : s'.Consistent := by
  obtain ⟨started, htasks, hnodup, hstarted⟩ := h.tasks
  refine ⟨h.keyed, ?_, ?_, ?_, ?_⟩
  · intro e he
    rcases h.rows e he with ⟨_, hnew⟩ | ⟨e₀, he₀, hsame⟩
    · exact hnew.resumeColumns
    · exact (hs.columns e₀ he₀).of_same hsame
  · rw [ResumeSystem.taskIds, htasks, List.map_append, List.map_map, List.nodup_append]
    refine ⟨hs.taskIds, hnodup, ?_⟩
    rintro id hold _ hnew rfl
    obtain ⟨task, htask, rfl⟩ := List.mem_map.mp hnew
    exact hfresh _ (hstarted task htask).1 hold
  · intro t ht e he hid
    rw [htasks] at ht
    rcases List.mem_append.mp ht with hold | hnew
    · rcases h.rows e he with ⟨hdrawn, _⟩ | ⟨e₀, he₀, hsame⟩
      · exact absurd (List.mem_map.mpr ⟨t, hold, hid.symm⟩) (hfresh e.id hdrawn)
      · rw [← hsame.status]
        exact hs.statuses t hold e₀ he₀ (hsame.id.trans hid)
    · obtain ⟨task, htask, rfl⟩ := List.mem_map.mp hnew
      exact (hstarted task htask).2 e he hid
  · intro t ht status hended
    rw [htasks] at ht
    rcases List.mem_append.mp ht with hold | hnew
    · rw [h.files _ fun hdrawn => hfresh _ hdrawn (List.mem_map_of_mem hold)]
      exact hs.removed t hold status hended
    · obtain ⟨task, _, rfl⟩ := List.mem_map.mp hnew
      cases hended

end Requests

section Advance

variable {db after : RecruiterDatabase} {files files' : TemporaryResumes} {task : ResumeTask}
  {phase phase' : ResumePhase} {result : ResumeResult} {status : String}
  {context : Option RealtimeContext}

inductive Settled : String → Json → Prop
  | completed (resumeParsed : Json) : Settled "COMPLETED" resumeParsed
  | failed (text : String) : Settled "FAILED" (failedResume text)

/-- What one step of a task can do: work on, store an outcome with the recruiter to tell, tell them,
or remove the file. -/
inductive Advanced (db : RecruiterDatabase) (files : TemporaryResumes) (task : ResumeTask) :
    ResumePhase → ResumeResult → ResumePhase → RecruiterDatabase → TemporaryResumes → Prop
  | worked {phase phase' : ResumePhase} {files' : TemporaryResumes} (hbefore : phase.stored = none)
      (hafter : phase'.stored = none) (hopen : phase' ≠ .ended none true)
      (hfiles : ∀ id, id ≠ task.candidateAssessmentId → files' id = files id) :
      Advanced db files task phase .quiet phase' db files'
  | stored {phase : ResumePhase} {status : String} {parsedData : Json}
      {context : Option RealtimeContext} (hbefore : phase.stored = none)
      (hsettled : Settled status parsedData)
      (hcontext : getRealtimeContext (updateResume db task.candidateAssessmentId status parsedData)
        task.candidateAssessmentId = .ok context) :
      Advanced db files task phase (.stored task.candidateAssessmentId status)
        (.committed status context)
        (updateResume db task.candidateAssessmentId status parsedData) files
  | told {status : String} {context : Option RealtimeContext} {published : Bool} :
      Advanced db files task (.committed status context)
        (context.elim .quiet (.event · status published)) (.cleanup (some status)) db files
  | cleaned {status : Option String} {removed : Bool} :
      Advanced db files task (.cleanup status) .quiet (.ended status removed) db
        (if removed then Function.update files task.candidateAssessmentId none else files)
  | done {status : Option String} {removed : Bool} :
      Advanced db files task (.ended status removed) .quiet (.ended status removed) db files

theorem storeOutcome_eq_ok {parsedData : Json} {o : ResumeOutcome} {id : Uuid}
    (h : storeOutcome db id status parsedData o = .ok (context, after)) :
    after = updateResume db id status parsedData ∧ getRealtimeContext after id = .ok context := by
  unfold storeOutcome at h
  obtain ⟨found, hfound, hrest⟩ := Outcomes.bind_eq_ok.mp h
  obtain ⟨_, _, hreturn⟩ := Outcomes.bind_eq_ok.mp hrest
  cases hreturn
  exact ⟨rfl, hfound⟩

theorem advanceTask_advanced (o : ResumeOutcome) (phase : ResumePhase) :
    Advanced db files task phase (advanceTask db files task o phase).1
      (advanceTask db files task o phase).2.1 (advanceTask db files task o phase).2.2.1
      (advanceTask db files task o phase).2.2.2 := by
  cases phase with
  | started =>
    unfold advanceTask
    dsimp only
    split
    · exact .worked rfl rfl (by simp) fun _ _ => rfl
    · exact .worked rfl rfl (by simp) fun _ _ => rfl
    · split
      · exact .worked rfl rfl (by simp) fun _ _ => rfl
      · exact .worked rfl rfl (by simp) fun _ hid => Function.update_of_ne hid _ _
  | fetched =>
    unfold advanceTask
    dsimp only
    split
    · exact .worked rfl rfl (by simp) fun _ _ => rfl
    · exact .worked rfl rfl (by simp) fun _ _ => rfl
  | parsed resumeParsed =>
    unfold advanceTask
    dsimp only
    split
    · exact .worked rfl rfl (by simp) fun _ _ => rfl
    · rename_i hstore
      obtain ⟨rfl, hcontext⟩ := storeOutcome_eq_ok hstore
      exact .stored rfl (.completed resumeParsed) hcontext
  | raised text =>
    unfold advanceTask
    dsimp only
    split
    · exact .worked rfl rfl (by simp) fun _ _ => rfl
    · rename_i hstore
      obtain ⟨rfl, hcontext⟩ := storeOutcome_eq_ok hstore
      exact .stored rfl (.failed text) hcontext
  | committed status context => exact .told
  | cleanup status => exact .cleaned
  | ended status removed => exact .done

theorem updateResume_keyed (h : db.Keyed) (id : Uuid) (status : String) (parsedData : Json) :
    (updateResume db id status parsedData).Keyed where
  assessmentIds := h.assessmentIds
  candidateIds := h.candidateIds
  emails := h.emails
  enrollmentIds := by
    have hids : (Tables.updateWhere (·.id == id) (resumeStored status parsedData)
        db.enrollments).map (·.id) = db.enrollments.map (·.id) :=
      Tables.map_proj_updateWhere (resumeStored status parsedData) Prod.fst db.enrollments
    exact hids ▸ h.enrollmentIds
  candidates := by
    intro e he
    obtain ⟨e₀, he₀, rfl⟩ := Tables.mem_updateWhere.mp he
    have hcandidate : ((resumeStored status parsedData).onRow (·.id == id) e₀).candidateId =
        e₀.candidateId := by
      unfold Tables.Update.onRow
      split <;> rfl
    rw [hcandidate]
    exact h.candidates e₀ he₀

theorem mem_updateResume {id : Uuid} {parsedData : Json} {e : RecruiterEnrollment}
    (he : e ∈ (updateResume db id status parsedData).enrollments) :
    (e.id = id ∧ e.resumeParseStatus = status ∧ e.resumeParsed = some parsedData) ∨
      e.id ≠ id ∧ e ∈ db.enrollments := by
  obtain ⟨e₀, he₀, rfl⟩ := Tables.mem_updateWhere.mp he
  by_cases hid : e₀.id = id
  · have hset : (resumeStored status parsedData).onRow (·.id == id) e₀ =
        (resumeStored status parsedData).set e₀ := if_pos (beq_iff_eq.mpr hid)
    rw [hset]
    exact .inl ⟨hid, rfl, rfl⟩
  · have hsame : (resumeStored status parsedData).onRow (·.id == id) e₀ = e₀ :=
      if_neg fun hmine => hid (beq_iff_eq.mp hmine)
    rw [hsame]
    exact .inr ⟨hid, he₀⟩

/-- A step of a task takes it to its next phase, with the rows and the files. -/
theorem Advanced.consistent {s : ResumeSystem} {i : ℕ}
    (h : Advanced s.db s.files task phase result phase' after files') (hs : s.Consistent)
    (htask : s.tasks[i]? = some (task, phase)) :
    ResumeSystem.Consistent ⟨after, files', s.tasks.set i (task, phase')⟩ := by
  have hids : ((s.tasks.set i (task, phase')).map (·.1.candidateAssessmentId)).Nodup := by
    have hsame : (s.tasks.set i (task, phase')).map (·.1.candidateAssessmentId) = s.taskIds :=
      KeyedLists.map_set_of_key htask rfl
    rw [hsame]
    exact hs.taskIds
  have hother (t : ResumeTask × ResumePhase) (ht : t ∈ s.tasks.set i (task, phase')) :
      t = (task, phase') ∨ t ∈ s.tasks ∧ t.1.candidateAssessmentId ≠ task.candidateAssessmentId :=
    KeyedLists.mem_set_of_nodup hs.taskIds htask ht
  have hmem := List.mem_of_getElem? htask
  -- the statuses when the rows stay
  have hstatuses (hkept : phase'.stored = phase.stored) (t : ResumeTask × ResumePhase)
      (ht : t ∈ s.tasks.set i (task, phase')) (e : RecruiterEnrollment) (he : e ∈ s.db.enrollments)
      (hid : e.id = t.1.candidateAssessmentId) :
      e.resumeParseStatus = t.2.stored.getD "PENDING" := by
    rcases hother t ht with rfl | ⟨hold, _⟩
    · dsimp only
      rw [hkept]
      exact hs.statuses (task, phase) hmem e he hid
    · exact hs.statuses t hold e he hid
  cases h with
  | worked hbefore hafter hopen hfiles =>
    refine ⟨hs.keyed, hs.columns, hids, hstatuses (hafter.trans hbefore.symm), ?_⟩
    intro t ht status hended
    rcases hother t ht with rfl | ⟨hold, hne⟩
    · obtain rfl : phase' = .ended status true := hended
      obtain rfl : status = none := hafter
      exact absurd rfl hopen
    · exact (hfiles _ hne).trans (hs.removed t hold status hended)
  | stored hbefore hsettled hcontext =>
    refine ⟨updateResume_keyed hs.keyed _ _ _, ?_, hids, ?_, ?_⟩
    · intro e he
      rcases mem_updateResume he with ⟨_, hstatus, hparsed⟩ | ⟨_, hold⟩
      · unfold ResumeColumns
        rw [hstatus, hparsed]
        cases hsettled with
        | completed resumeParsed => exact .inr (.inl ⟨rfl, rfl⟩)
        | failed text => exact .inr (.inr ⟨rfl, text, rfl⟩)
      · exact hs.columns e hold
    · intro t ht e he hid
      rcases mem_updateResume he with ⟨hsame, hstatus, _⟩ | ⟨hne, hold⟩
      · rcases hother t ht with rfl | ⟨_, hne⟩
        · exact hstatus
        · exact absurd (hid.symm.trans hsame) hne
      · rcases hother t ht with rfl | ⟨ht, _⟩
        · exact absurd hid hne
        · exact hs.statuses t ht e hold hid
    · intro t ht status hended
      rcases hother t ht with rfl | ⟨hold, _⟩
      · cases hended
      · exact hs.removed t hold status hended
  | told =>
    refine ⟨hs.keyed, hs.columns, hids, hstatuses rfl, ?_⟩
    intro t ht status hended
    rcases hother t ht with rfl | ⟨hold, _⟩
    · cases hended
    · exact hs.removed t hold status hended
  | @cleaned status removed =>
    refine ⟨hs.keyed, hs.columns, hids, hstatuses rfl, ?_⟩
    intro t ht status hended
    rcases hother t ht with rfl | ⟨hold, hne⟩
    · cases hended
      exact Function.update_self _ _ _
    · cases removed with
      | true => exact (Function.update_of_ne hne _ _).trans (hs.removed t hold status hended)
      | false => exact hs.removed t hold status hended
  | done =>
    refine ⟨hs.keyed, hs.columns, hids, hstatuses rfl, ?_⟩
    intro t ht status hended
    rcases hother t ht with rfl | ⟨hold, _⟩
    · exact hs.removed _ hmem status hended
    · exact hs.removed t hold status hended

end Advance

section Runs

variable [Runtime]

theorem advance_cases (s : ResumeSystem) (i : ℕ) (o : ResumeOutcome) :
    resumeSystem s (.advance i o) = (.quiet, s) ∨
      ∃ task phase result phase' db files, s.tasks[i]? = some (task, phase) ∧
        Advanced s.db s.files task phase result phase' db files ∧
        resumeSystem s (.advance i o) = (result, ⟨db, files, s.tasks.set i (task, phase')⟩) := by
  cases htask : s.tasks[i]? with
  | none =>
    left
    simp only [resumeSystem, htask]
  | some t =>
    refine .inr ⟨t.1, t.2, _, _, _, _, rfl, advanceTask_advanced o t.2, ?_⟩
    simp only [resumeSystem, htask]

theorem resumeSystem_consistent {s : ResumeSystem} (hs : s.Consistent) {event : ResumeSystemEvent}
    (hfresh : s.FreshFor event) : (resumeSystem s event).2.Consistent := by
  cases event with
  | request recruiterId request commit raises =>
    exact (request_requested hs.keyed recruiterId request commit raises).consistent hs
      fun id hid => (hfresh id hid).2
  | advance i o =>
    rcases advance_cases s i o with hstep | ⟨task, phase, result, phase', db, files, htask,
      hadvanced, hstep⟩
    · rw [hstep]
      exact hs
    · rw [hstep]
      exact hadvanced.consistent hs htask
  | restart => exact ⟨hs.keyed, hs.columns, List.nodup_nil, by simp [resumeSystem], by
      simp [resumeSystem]⟩

/-- Between two steps an enrollment keeps its resume, unless it is pending and its own task has just
stored an outcome. -/
def ResumeSystem.Settles (t : Transition ResumeSystem ResumeSystemEvent ResumeResult) : Prop :=
  ∀ e ∈ t.pre.db.enrollments, ∀ e' ∈ t.post.db.enrollments, e'.id = e.id →
    SameResume e e' ∨ e.resumeParseStatus = "PENDING" ∧ e.id ∈ t.pre.taskIds ∧
      t.output = .stored e.id e'.resumeParseStatus

theorem resumeSystem_settles {s : ResumeSystem} (hs : s.Consistent) {event : ResumeSystemEvent}
    (hfresh : s.FreshFor event) : ResumeSystem.Settles (Transition.of resumeSystem s event) := by
  intro e he e' he' hid
  have hunique {e₀ : RecruiterEnrollment} (he₀ : e₀ ∈ s.db.enrollments) (hsame : e₀.id = e.id) :
      e₀ = e := List.inj_on_of_nodup_map hs.keyed.enrollmentIds he₀ he hsame
  cases event with
  | request recruiterId request commit raises =>
    rcases (request_requested hs.keyed recruiterId request commit raises).rows e' he' with
      ⟨hdrawn, _⟩ | ⟨e₀, he₀, hsame⟩
    · exact absurd (List.mem_map.mpr ⟨e, he, hid.symm⟩) (hfresh _ hdrawn).1
    · rw [← hunique he₀ (hsame.id.trans hid)]
      exact .inl hsame
  | advance i o =>
    have hstays (hmem : e' ∈ s.db.enrollments) : SameResume e e' := by
      rw [hunique hmem hid]
      exact ⟨rfl, rfl, rfl⟩
    rcases advance_cases s i o with hstep | ⟨task, phase, result, phase', db, files, htask,
      hadvanced, hstep⟩
    · exact .inl (hstays (by simpa only [Transition.of, hstep] using he'))
    · simp only [Transition.of, hstep] at he' ⊢
      cases hadvanced with
      | worked | told | cleaned | done => exact .inl (hstays he')
      | stored hbefore hsettled hcontext =>
        rcases mem_updateResume he' with ⟨hsame, hstatus, _⟩ | ⟨_, hold⟩
        · have hmem := List.mem_of_getElem? htask
          have hown := hid.symm.trans hsame
          have hpending := hs.statuses _ hmem e he hown
          rw [hbefore] at hpending
          refine .inr ⟨hpending, List.mem_map.mpr ⟨_, hmem, hown.symm⟩, ?_⟩
          rw [hown, hstatus]
        · exact .inl (hstays hold)
  | restart => exact .inl (by rw [hunique he' hid]; exact ⟨rfl, rfl, rfl⟩)

/-- A task that is about to tell the recruiter has stored the status with this context. -/
def StoredFirst (history : List (Transition ResumeSystem ResumeSystemEvent ResumeResult))
    (s : ResumeSystem) : Prop :=
  ∀ t ∈ s.tasks, ∀ status context, t.2 = .committed status context →
    ∃ earlier ∈ history, earlier.output = .stored t.1.candidateAssessmentId status ∧
      getRealtimeContext earlier.post.db t.1.candidateAssessmentId = .ok context

theorem StoredFirst.step {history : List (Transition ResumeSystem ResumeSystemEvent ResumeResult)}
    {s : ResumeSystem} (h : StoredFirst history s) (event : ResumeSystemEvent) :
    StoredFirst (history ++ [Transition.of resumeSystem s event]) (resumeSystem s event).2 := by
  have hold (t : ResumeTask × ResumePhase) (ht : t ∈ s.tasks) (status : String)
      (context : Option RealtimeContext) (hphase : t.2 = .committed status context) :
      ∃ earlier ∈ history ++ [Transition.of resumeSystem s event],
        earlier.output = .stored t.1.candidateAssessmentId status ∧
        getRealtimeContext earlier.post.db t.1.candidateAssessmentId = .ok context := by
    obtain ⟨earlier, hearlier, hstored⟩ := h t ht status context hphase
    exact ⟨earlier, List.mem_append_left _ hearlier, hstored⟩
  cases event with
  | request recruiterId request commit raises =>
    intro t ht status context hphase
    rcases List.mem_append.mp ht with ht | hnew
    · exact hold t ht status context hphase
    · obtain ⟨task, _, rfl⟩ := List.mem_map.mp hnew
      cases hphase
  | advance i o =>
    rcases advance_cases s i o with hstep | ⟨task, phase, result, phase', db, files, htask,
      hadvanced, hstep⟩
    · rw [hstep]
      exact hold
    · intro t ht status context hphase
      rw [hstep] at ht
      rcases List.mem_or_eq_of_mem_set ht with ht | rfl
      · exact hold t ht status context hphase
      · obtain rfl : phase' = .committed status context := hphase
        refine ⟨_, List.mem_append_right _ (List.mem_singleton.mpr rfl), ?_⟩
        simp only [Transition.of, hstep]
        cases hadvanced with
        | worked _ hafter => cases hafter
        | stored _ _ hcontext => exact ⟨rfl, hcontext⟩
  | restart =>
    intro t ht
    cases ht

theorem event_committed {history : List (Transition ResumeSystem ResumeSystemEvent ResumeResult)}
    {s : ResumeSystem} (h : StoredFirst history s) {event : ResumeSystemEvent}
    {context : RealtimeContext} {status : String} {published : Bool}
    (houtput : (resumeSystem s event).1 = .event context status published) :
    ∃ earlier ∈ history, ∃ id, earlier.output = .stored id status ∧
      getRealtimeContext earlier.post.db id = .ok (some context) := by
  cases event with
  | request | restart => cases houtput
  | advance i o =>
    rcases advance_cases s i o with hstep | ⟨task, phase, result, phase', db, files, htask,
      hadvanced, hstep⟩
    · rw [hstep] at houtput
      cases houtput
    · obtain rfl : result = .event context status published := by
        rw [hstep] at houtput
        exact houtput
      generalize htold : ResumeResult.event context status published = told at hadvanced
      cases hadvanced with
      | worked | stored | cleaned | done => cases htold
      | @told status' context' published' =>
        cases context' with
        | none => cases htold
        | some context' =>
          cases htold
          obtain ⟨earlier, hearlier, hstored⟩ := h _ (List.mem_of_getElem? htask) status
            (some context) rfl
          exact ⟨earlier, hearlier, _, hstored⟩

/-- In every run whose requests draw fresh identifiers the rows, the files and the tasks stay
consistent, a resume changes only from pending to the outcome that its own task stores, and the
recruiter is told a status after its commit, with the names that were stored then. -/
theorem resume_tasks_correct (store : RecruiterStore) (files : TemporaryResumes)
    (hcolumns : ∀ e ∈ store.db.enrollments, ResumeColumns e) {events : List ResumeSystemEvent}
    (hfresh : ∀ t ∈ trace resumeSystem ⟨store.db, files, []⟩ events, t.pre.FreshFor t.input) :
    (exec resumeSystem ⟨store.db, files, []⟩ events).Consistent ∧
      (∀ t ∈ trace resumeSystem ⟨store.db, files, []⟩ events, ResumeSystem.Settles t) ∧
      ∀ before event after context status published, events = before ++ event :: after →
        (resumeSystem (exec resumeSystem ⟨store.db, files, []⟩ before) event).1 =
          .event context status published →
        ∃ earlier ∈ trace resumeSystem ⟨store.db, files, []⟩ before, ∃ id,
          earlier.output = .stored id status ∧
          getRealtimeContext earlier.post.db id = .ok (some context) := by
  have hstart : ResumeSystem.Consistent ⟨store.db, files, []⟩ :=
    ⟨store.keyed, hcolumns, List.nodup_nil, by simp, by simp⟩
  have hconsistent {events : List ResumeSystemEvent}
      (hfresh : ∀ t ∈ trace resumeSystem ⟨store.db, files, []⟩ events, t.pre.FreshFor t.input) :
      (exec resumeSystem ⟨store.db, files, []⟩ events).Consistent := by
    refine exec_preserves (P := ResumeSystem.Consistent) (fun t ht hpre => ?_) hstart
    obtain ⟨before, event, after, rfl, rfl⟩ := mem_trace ht
    exact resumeSystem_consistent hpre (hfresh _ ht)
  refine ⟨hconsistent hfresh, fun t ht => ?_, ?_⟩
  · obtain ⟨before, event, after, rfl, rfl⟩ := mem_trace ht
    refine resumeSystem_settles (hconsistent fun t' ht' => hfresh t' ?_) (hfresh _ ht)
    rw [trace_append]
    exact List.mem_append_left _ ht'
  · intro before event after context status published _ houtput
    have hstored : StoredFirst (trace resumeSystem ⟨store.db, files, []⟩ before)
        (exec resumeSystem ⟨store.db, files, []⟩ before) :=
      history_preserves (fun earlier event later _ h => by
        rw [trace_snoc, exec_snoc]
        exact h.step event) (by simp [StoredFirst])
    exact event_committed hstored houtput

omit [Runtime] in
/-- Ada is enrolled with a new resume, and its task completes. -/
theorem resume_tasks_correct_sample :
    let _ : Runtime := .ascii
    let o : ResumeOutcome := {
      download := fun _ => .error "unreachable"
      extractText := fun _ => .ok "Analyst"
      primary := .ok [some "{}"]
      fallback := .error "no key"
      loads := fun _ => .ok (.dict [])
      commit := .ok ()
      published := true
      unlinked := true }
    let events : List ResumeSystemEvent :=
      .request 1 (.enroll (enrollAda (some [37]) (some "ada.pdf"))) none (fun _ => none) ::
        List.replicate 5 (.advance 0 o)
    let last := exec resumeSystem ⟨sharedStore.db, fun _ => none, []⟩ events
    last.Consistent ∧ last.tasks.map (·.2.stored) = [some "COMPLETED"] := by
  intro runtime o events last
  refine ⟨(resume_tasks_correct sharedStore (fun _ => none) ?_ ?_).1, by decide +kernel⟩
  · intro e he
    rw [List.mem_singleton.mp he]
    exact .inl ⟨rfl, rfl⟩
  · intro t ht
    rcases List.mem_cons.mp ht with rfl | ht
    · rintro id rfl
      exact ⟨by decide, List.not_mem_nil⟩
    · rw [List.eq_of_mem_replicate (mem_of_mem_trace ht)]
      trivial

end Runs

end IBotCoreApi

import IBotCoreApi.Library.Interleavings
import IBotCoreApi.RecruiterViews
import IBotCoreApi.WindowOverlap

namespace IBotCoreApi
open Python Transactions RecruiterRequests

abbrev RecruiterSession :=
  Session RecruiterDatabase RecruiterWrite OverlapCheck RecruiterEffect RecruiterException
    RecruiterResponse

abbrev RecruiterWorld (ι : Type) :=
  World RecruiterDatabase RecruiterWrite OverlapCheck RecruiterEffect RecruiterException
    RecruiterResponse ι

def RecruiterDatabase.NoOrphans (db : RecruiterDatabase) : Prop :=
  ∀ c ∈ db.candidates, ∃ e ∈ db.enrollments, e.candidateId = c.id

/-- The end of `deleteCandidateFromAssessment`, once the candidate has no enrollments left. -/
def removeOrphan (candidateId : Uuid) : RecruiterProgram :=
  .select [] (·.candidate? candidateId) fun
    | none => .finish .deleted
    | some candidate => deleteCandidate candidate.id (.finish .deleted)

/-- `deleteCandidateFromAssessment` after its deletion: count the remaining enrollments. -/
def removeIfOrphaned (candidateId : Uuid) : RecruiterProgram :=
  .select [] (·.enrollmentsOf candidateId) fun remainingEnrollments =>
    if remainingEnrollments.isEmpty then removeOrphan candidateId else .finish .deleted

namespace RecruiterWrite

def Removes (db : RecruiterDatabase) (candidateId : Uuid) : RecruiterWrite → Prop
  | deleteEnrollment enrollmentId =>
    ∀ e ∈ db.enrollments, e.id = enrollmentId → e.candidateId = candidateId
  | deleteCandidate removedId => removedId = candidateId
  | _ => False

end RecruiterWrite

section Deletions

variable {db db₀ : RecruiterDatabase} {candidateId : Uuid} {ws : List RecruiterWrite}

theorem mem_enrollments_deleteEnrollment {enrollmentId : Uuid} {e : RecruiterEnrollment} :
    e ∈ (RecruiterWrite.apply db (.deleteEnrollment enrollmentId)).enrollments ↔
      e ∈ db.enrollments ∧ e.id ≠ enrollmentId := by
  cases hfound : db.enrollment? enrollmentId with
  | none =>
    rw [apply_deleteEnrollment_none hfound]
    constructor
    · intro he
      have hne := Tables.key_ne_of_lookup_eq_none hfound he
      exact ⟨he, hne⟩
    · exact And.left
  | some found =>
    rw [apply_deleteEnrollment_some hfound]
    have hid := Tables.lookup_key hfound
    rw [← hid, ← bne_iff_ne]
    exact List.mem_filter

theorem candidates_deleteEnrollment {enrollmentId : Uuid} :
    (RecruiterWrite.apply db (.deleteEnrollment enrollmentId)).candidates = db.candidates := by
  cases hfound : db.enrollment? enrollmentId with
  | none => rw [apply_deleteEnrollment_none hfound]
  | some found =>
    rw [apply_deleteEnrollment_some hfound]
    rfl

variable (db) in
theorem applyAll_removes (h : ∀ w ∈ ws, w.Removes db₀ candidateId) :
    (∀ e, e ∈ (recruiterEngine.applyAll db ws).enrollments ↔
      e ∈ db.enrollments ∧ .deleteEnrollment e.id ∉ ws) ∧
    ∀ c, c ∈ (recruiterEngine.applyAll db ws).candidates ↔
      c ∈ db.candidates ∧ .deleteCandidate c.id ∉ ws := by
  induction ws generalizing db with
  | nil => simp
  | cons w ws ih =>
    have hrest := ih (recruiterEngine.apply db w) fun w' hw' =>
      h w' (List.mem_cons_of_mem w hw')
    rw [Engine.applyAll_cons]
    cases w with
    | deleteEnrollment enrollmentId =>
      constructor
      · intro e
        rw [hrest.1]
        change e ∈ (RecruiterWrite.apply db _).enrollments ∧ _ ↔ _
        rw [mem_enrollments_deleteEnrollment]
        simp [and_assoc]
      · intro c
        rw [hrest.2]
        change c ∈ (RecruiterWrite.apply db _).candidates ∧ _ ↔ _
        rw [candidates_deleteEnrollment]
        simp
    | deleteCandidate removedId =>
      constructor
      · intro e
        rw [hrest.1]
        change e ∈ db.enrollments ∧ _ ↔ _
        simp
      · intro c
        rw [hrest.2]
        change c ∈ db.candidates.filter _ ∧ _ ↔ _
        simp [and_assoc]
    | _ => exact absurd (h _ List.mem_cons_self) id

end Deletions

inductive DeletionPhase (db₀ : RecruiterDatabase) (request : Uuid × Uuid) : RecruiterSession → Prop
  | reading :
      DeletionPhase db₀ request ⟨deleteCandidateFromAssessment request.1 request.2, [], none⟩
  | refused {error : RecruiterException} {history : List RecruiterObservation}
      (hwritten : written history = []) : DeletionPhase db₀ request ⟨.raise error, history, none⟩
  | deleting {candidateId : Uuid} {history : List RecruiterObservation}
      {waiting : Option (ℕ × RecruiterDatabase)}
      (hremoves : (RecruiterWrite.deleteEnrollment request.1).Removes db₀ candidateId)
      (hwritten : written history = []) :
      DeletionPhase db₀ request
        ⟨.write (.deleteEnrollment request.1) (removeIfOrphaned candidateId), history, waiting⟩
  | counting {candidateId : Uuid} {history : List RecruiterObservation}
      (hremoves : (RecruiterWrite.deleteEnrollment request.1).Removes db₀ candidateId)
      (hwritten : written history = [.deleteEnrollment request.1]) :
      DeletionPhase db₀ request ⟨removeIfOrphaned candidateId, history, none⟩
  | orphaned {candidateId : Uuid} {history : List RecruiterObservation}
      (hremoves : (RecruiterWrite.deleteEnrollment request.1).Removes db₀ candidateId)
      (hwritten : written history = [.deleteEnrollment request.1]) :
      DeletionPhase db₀ request ⟨removeOrphan candidateId, history, none⟩
  | loading {candidateId : Uuid} {history : List RecruiterObservation}
      (hremoves : (RecruiterWrite.deleteEnrollment request.1).Removes db₀ candidateId)
      (hwritten : written history = [.deleteEnrollment request.1]) :
      DeletionPhase db₀ request ⟨deleteCandidate candidateId (.finish .deleted), history, none⟩
  | removing {candidateId : Uuid} {rows : List RecruiterEnrollment}
      {history : List RecruiterObservation} {waiting : Option (ℕ × RecruiterDatabase)}
      (hrows : ∀ w ∈ rows.map (RecruiterWrite.deleteEnrollment ·.id), w.Removes db₀ candidateId)
      (hremoves : (RecruiterWrite.deleteEnrollment request.1).Removes db₀ candidateId)
      (hwritten : written history = [.deleteEnrollment request.1]) :
      DeletionPhase db₀ request
        ⟨.statement [] (fun _ => rows.map (.deleteEnrollment ·.id) ++ [.deleteCandidate candidateId])
          fun _ => .finish .deleted, history, waiting⟩
  | finished {candidateId : Uuid} {history : List RecruiterObservation}
      (hremoves : ∀ w ∈ written history, w.Removes db₀ candidateId) :
      DeletionPhase db₀ request ⟨.finish .deleted, history, none⟩

def KeepsCandidate (session : RecruiterSession) : Prop :=
  (∃ result, session.program = .finish result) ∧
    ∀ candidateId, .deleteCandidate candidateId ∉ written session.history

/-- An open deletion.  A removed candidate has no enrollments but those it deletes. -/
structure Deleting (db₀ db : RecruiterDatabase) (request : Uuid × Uuid)
    (session : RecruiterSession) : Prop where
  phase : DeletionPhase db₀ request session
  gone : ∀ candidateId, .deleteCandidate candidateId ∈ written session.history →
    ∀ e ∈ db.enrollments, e.candidateId = candidateId →
      .deleteEnrollment e.id ∈ written session.history

section Worlds

variable {ι : Type} {db₀ : RecruiterDatabase} {requests : ι → Uuid × Uuid}
  {world : RecruiterWorld ι}

/-- What holds in every interleaving of deletions. -/
structure Deletions (db₀ : RecruiterDatabase) (requests : ι → Uuid × Uuid)
    (world : RecruiterWorld ι) : Prop where
  enrollments : ∀ e ∈ world.database.enrollments, e ∈ db₀.enrollments
  referenced : ∀ e ∈ world.database.enrollments, ∃ c ∈ world.database.candidates,
    c.id = e.candidateId
  active : ∀ i session, world.status i = .active session →
    Deleting db₀ world.database (requests i) session

/-- Every candidate has an enrollment that no finished deletion takes away while it keeps the
candidate. -/
def Spares (world : RecruiterWorld ι) : Prop :=
  ∀ c ∈ world.database.candidates, ∃ e ∈ world.database.enrollments, e.candidateId = c.id ∧
    ∀ i session, world.status i = .active session → KeepsCandidate session →
      .deleteEnrollment e.id ∉ written session.history

theorem Spares.noOrphans (h : Spares world) : world.database.NoOrphans := by
  intro c hc
  obtain ⟨e, he, hcandidate, _⟩ := h c hc
  exact ⟨e, he, hcandidate⟩

variable [DecidableEq ι]

/-- A request counts the enrollments that a candidate has left, and each of them has been deleted by
another open request. -/
def Overlooks (world : RecruiterWorld ι) (move : Move ι) : Prop :=
  ∃ i session candidateId, move = .advance i ∧ world.status i = .active session ∧
    session.program = removeIfOrphaned candidateId ∧
    let remaining := (world.view recruiterEngine session.history).enrollmentsOf candidateId
    remaining ≠ [] ∧
      ∀ e ∈ remaining, ∃ j ≠ i, .deleteEnrollment e.id ∈ (world.status j).pending

inductive DeletionStep (db₀ : RecruiterDatabase) (request : Uuid × Uuid) (world : RecruiterWorld ι)
    (i : ι) (session : RecruiterSession) : RecruiterWorld ι → Prop
  | released {status : Status RecruiterDatabase RecruiterWrite OverlapCheck RecruiterEffect
        RecruiterException RecruiterResponse} (hstatus : ∀ session', status ≠ .active session') :
      DeletionStep db₀ request world i session (world.set i status)
  | continued {session' : RecruiterSession}
      (hdeleting : Deleting db₀ world.database request session')
      (hkeeps : KeepsCandidate session' → ∃ candidateId,
        (∀ w ∈ written session'.history, w.Removes db₀ candidateId) ∧
          ((∀ c ∈ world.database.candidates, c.id ≠ candidateId) ∨
            (session.program = removeIfOrphaned candidateId ∧
              written session'.history = written session.history ∧
              (world.view recruiterEngine session.history).enrollmentsOf candidateId ≠ []))) :
      DeletionStep db₀ request world i session (world.set i (.active session'))
  | committed {result : RecruiterResponse} {candidateId : Uuid}
      (hremoves : ∀ w ∈ written session.history, w.Removes db₀ candidateId)
      (hfinish : session.program = .finish result) :
      DeletionStep db₀ request world i session
        { world.set i (.committed result) with
          database := world.view recruiterEngine session.history
          log := world.log ++ [⟨i, session.history⟩] }

omit [DecidableEq ι] in
theorem written_snoc {history : List RecruiterObservation} {o : RecruiterObservation} :
    written (history ++ [o]) = written history ++ o.writes := by
  simp [written]

omit [DecidableEq ι] in
/-- The enrollments with one identifier have one candidate. -/
theorem removes_of_mem (h : db₀.Keyed) {e : RecruiterEnrollment} (he : e ∈ db₀.enrollments) :
    (RecruiterWrite.deleteEnrollment e.id).Removes db₀ e.candidateId := by
  intro e' he' hid
  rw [List.inj_on_of_nodup_map h.enrollmentIds he' he hid]

omit [DecidableEq ι] in
theorem removes_of_written {request : Uuid × Uuid} {candidateId : Uuid}
    {history : List RecruiterObservation}
    (hremoves : (RecruiterWrite.deleteEnrollment request.1).Removes db₀ candidateId)
    (hwritten : written history = [.deleteEnrollment request.1]) :
    ∀ w ∈ written history, w.Removes db₀ candidateId := by
  intro w hw
  rw [hwritten, List.mem_singleton] at hw
  rwa [hw]

omit [DecidableEq ι] in
theorem DeletionPhase.undeleted {request : Uuid × Uuid} {session : RecruiterSession}
    (h : DeletionPhase db₀ request session)
    (hopen : ∀ result, session.program ≠ .finish result) (candidateId : Uuid) :
    .deleteCandidate candidateId ∉ written session.history := by
  cases h with
  | reading => exact List.not_mem_nil
  | finished => exact absurd rfl (hopen .deleted)
  | refused hwritten | deleting _ hwritten =>
    rw [hwritten]
    exact List.not_mem_nil
  | counting _ hwritten | orphaned _ hwritten | loading _ hwritten | removing _ _ hwritten =>
    rw [hwritten]
    simp

variable {request : Uuid × Uuid} {i : ι} {session : RecruiterSession}

theorem DeletionStep.opens {session' : RecruiterSession} (h : DeletionPhase db₀ request session')
    (hopen : ∀ result, session'.program ≠ .finish result) :
    DeletionStep db₀ request world i session (world.set i (.active session')) := by
  refine .continued ⟨h, ?_⟩ ?_
  · intro candidateId hdeleted
    exact absurd hdeleted (h.undeleted hopen candidateId)
  · rintro ⟨⟨result, hfinish⟩, _⟩
    exact absurd hfinish (hopen result)

theorem DeletionStep.keeps {candidateId : Uuid} {history : List RecruiterObservation}
    (hremoves : (RecruiterWrite.deleteEnrollment request.1).Removes db₀ candidateId)
    (hwritten : written history = [.deleteEnrollment request.1])
    (hkeeps : (∀ c ∈ world.database.candidates, c.id ≠ candidateId) ∨
      (session.program = removeIfOrphaned candidateId ∧ written history = written session.history ∧
        (world.view recruiterEngine session.history).enrollmentsOf candidateId ≠ [])) :
    DeletionStep db₀ request world i session
      (world.set i (.active ⟨.finish .deleted, history, none⟩)) := by
  have hall := removes_of_written hremoves hwritten
  refine .continued ⟨.finished hall, ?_⟩ ?_
  · intro candidateId' hdeleted
    simp [hwritten] at hdeleted
  · intro _
    exact ⟨candidateId, hall, hkeeps⟩

theorem Deleting.shrink {db db' : RecruiterDatabase} (h : Deleting db₀ db request session)
    (hshrink : ∀ e ∈ db'.enrollments, e ∈ db.enrollments) : Deleting db₀ db' request session :=
  ⟨h.phase, fun candidateId hdeleted e he => h.gone candidateId hdeleted e (hshrink e he)⟩

theorem Deletions.set (h : Deletions db₀ requests world)
    {status : Status RecruiterDatabase RecruiterWrite OverlapCheck RecruiterEffect
      RecruiterException RecruiterResponse}
    (hstatus : ∀ session', status = .active session' →
      Deleting db₀ world.database (requests i) session') :
    Deletions db₀ requests (world.set i status) where
  enrollments := h.enrollments
  referenced := h.referenced
  active := by
    intro j session' hj
    by_cases hji : j = i
    · subst hji
      rw [World.set_status_self] at hj
      exact hstatus session' hj
    · rw [World.set_status_of_ne world hji] at hj
      exact h.active j session' hj

theorem Deletions.commit (h : Deletions db₀ requests world) (hi : world.status i = .active session)
    {result : RecruiterResponse} {candidateId : Uuid}
    (hremoves : ∀ w ∈ written session.history, w.Removes db₀ candidateId) :
    Deletions db₀ requests ({ world.set i (.committed result) with
      database := world.view recruiterEngine session.history
      log := world.log ++ [⟨i, session.history⟩] }) := by
  obtain ⟨henrollments, hcandidates⟩ := applyAll_removes world.database hremoves
  constructor
  · intro e he
    exact h.enrollments e ((henrollments e).mp he).1
  · intro e he
    obtain ⟨hdatabase, hleft⟩ := (henrollments e).mp he
    obtain ⟨c, hc, hid⟩ := h.referenced e hdatabase
    refine ⟨c, (hcandidates c).mpr ⟨hc, ?_⟩, hid⟩
    intro hdeleted
    exact hleft ((h.active i session hi).gone c.id hdeleted e hdatabase hid.symm)
  · intro j session' hj
    have hset : Deletions db₀ requests (world.set i (.committed result)) := h.set (by simp)
    exact (hset.active j session' hj).shrink fun e he => ((henrollments e).mp he).1

/-- A request moves on; it spares an enrollment of each candidate that the others spare too. -/
theorem Spares.set {status : Status RecruiterDatabase RecruiterWrite OverlapCheck RecruiterEffect
      RecruiterException RecruiterResponse}
    (h : ∀ c ∈ world.database.candidates, ∃ e ∈ world.database.enrollments, e.candidateId = c.id ∧
      (∀ j ≠ i, ∀ session, world.status j = .active session → KeepsCandidate session →
        .deleteEnrollment e.id ∉ written session.history) ∧
      ∀ session', status = .active session' → KeepsCandidate session' →
        .deleteEnrollment e.id ∉ written session'.history) : Spares (world.set i status) := by
  intro c hc
  obtain ⟨e, he, hcandidate, hothers, hown⟩ := h c hc
  refine ⟨e, he, hcandidate, ?_⟩
  intro j session' hj
  by_cases hji : j = i
  · subst hji
    rw [World.set_status_self] at hj
    exact hown session' hj
  · rw [World.set_status_of_ne world hji] at hj
    exact hothers j hji session' hj

theorem Spares.release (h : Spares world)
    {status : Status RecruiterDatabase RecruiterWrite OverlapCheck RecruiterEffect
      RecruiterException RecruiterResponse}
    (hstatus : ∀ session', status ≠ .active session') : Spares (world.set i status) := by
  refine .set fun c hc => ?_
  obtain ⟨e, he, hcandidate, hspared⟩ := h c hc
  exact ⟨e, he, hcandidate, fun j _ => hspared j, fun session' heq => absurd heq (hstatus session')⟩

theorem Spares.continue (h : Spares world) (hdeletions : Deletions db₀ requests world)
    (hi : world.status i = .active session) (hseen : ¬ Overlooks world (.advance i))
    {session' : RecruiterSession}
    (hkeeps : KeepsCandidate session' → ∃ candidateId,
      (∀ w ∈ written session'.history, w.Removes db₀ candidateId) ∧
        ((∀ c ∈ world.database.candidates, c.id ≠ candidateId) ∨
          (session.program = removeIfOrphaned candidateId ∧
            written session'.history = written session.history ∧
            (world.view recruiterEngine session.history).enrollmentsOf candidateId ≠ []))) :
    Spares (world.set i (.active session')) := by
  refine .set fun c hc => ?_
  obtain ⟨e, he, hcandidate, hspared⟩ := h c hc
  by_cases hkeep : KeepsCandidate session'
  · obtain ⟨candidateId, hremoves, hcounted⟩ := hkeeps hkeep
    by_cases hid : c.id = candidateId
    · obtain ⟨hprogram, hwritten, hremaining⟩ := hcounted.resolve_left fun hnone => hnone c hc hid
      have hfound : ∃ e ∈ (world.view recruiterEngine session.history).enrollmentsOf candidateId,
          ∀ j ≠ i, .deleteEnrollment e.id ∉ (world.status j).pending := by
        by_contra hnone
        refine hseen ⟨i, session, candidateId, rfl, hi, hprogram, hremaining, ?_⟩
        intro e he
        by_contra hfree
        exact hnone ⟨e, he, fun j hj hpending => hfree ⟨j, hj, hpending⟩⟩
      obtain ⟨e', he', hfree⟩ := hfound
      obtain ⟨hview, hcandidate'⟩ := List.mem_filter.mp (Sorting.mem_sortedDown.mp he')
      obtain ⟨hdatabase, hleft⟩ := ((applyAll_removes _ (hwritten ▸ hremoves)).1 e').mp hview
      refine ⟨e', hdatabase, (beq_iff_eq.mp hcandidate').trans hid.symm, ?_, ?_⟩
      · intro j hj session'' hsession _
        have hpending := hfree j hj
        rwa [hsession] at hpending
      · rintro _ ⟨⟩ _
        rwa [hwritten]
    · refine ⟨e, he, hcandidate, fun j _ => hspared j, ?_⟩
      rintro _ ⟨⟩ _ hdeleted
      exact hid (hcandidate.symm.trans
        (hremoves _ hdeleted e (hdeletions.enrollments e he) rfl))
  · refine ⟨e, he, hcandidate, fun j _ => hspared j, ?_⟩
    rintro _ ⟨⟩ hkeep'
    exact absurd hkeep' hkeep

theorem Spares.commit (h : Spares world) (hdeletions : Deletions db₀ requests world)
    (hi : world.status i = .active session) {result : RecruiterResponse} {candidateId : Uuid}
    (hremoves : ∀ w ∈ written session.history, w.Removes db₀ candidateId)
    (hfinish : session.program = .finish result) :
    Spares ({ world.set i (.committed result) with
      database := world.view recruiterEngine session.history
      log := world.log ++ [⟨i, session.history⟩] }) := by
  obtain ⟨henrollments, hcandidates⟩ := applyAll_removes world.database hremoves
  intro c hc
  obtain ⟨hdatabase, hkept⟩ := (hcandidates c).mp hc
  obtain ⟨e, he, hcandidate, hspared⟩ := h c hdatabase
  have hleft : .deleteEnrollment e.id ∉ written session.history := by
    by_cases hkeeps : KeepsCandidate session
    · exact hspared i session hi hkeeps
    · have hremoved : ∃ removedId, .deleteCandidate removedId ∈ written session.history := by
        by_contra hnone
        exact hkeeps ⟨⟨result, hfinish⟩, fun removedId hmem => hnone ⟨removedId, hmem⟩⟩
      obtain ⟨removedId, hremoved⟩ := hremoved
      -- the deletion removes another candidate with all that it deletes
      intro hdeleted
      have howner := hremoves _ hdeleted e (hdeletions.enrollments e he) rfl
      have hid : c.id = removedId := by
        rw [← hcandidate, howner]
        exact (hremoves _ hremoved).symm
      rw [← hid] at hremoved
      exact hkept hremoved
  refine ⟨e, (henrollments e).mpr ⟨he, hleft⟩, hcandidate, ?_⟩
  intro j session' hj hkeeps
  by_cases hji : j = i
  · subst hji
    have hself := World.set_status_self world j (.committed result)
    cases hself.symm.trans hj
  · have hother := World.set_status_of_ne world hji (.committed result)
    exact hspared j session' (hother.symm.trans hj) hkeeps

variable [Fintype ι]

theorem reading_step (hdb : db₀.Keyed) (h : Deletions db₀ requests world)
    {session : RecruiterSession} :
    DeletionStep db₀ request world i session (world.advance recruiterEngine i
      ⟨deleteCandidateFromAssessment request.1 request.2, [], none⟩) := by
  have hrefused (error : RecruiterException) {o : RecruiterObservation} (ho : o.writes = []) :
      DeletionStep db₀ request world i session
        (world.set i (.active ⟨.raise error, [] ++ [o], none⟩)) := by
    refine .opens (.refused ?_) (by simp)
    rw [written_snoc, ho]
    rfl
  unfold deleteCandidateFromAssessment getOwnedEnrollment
  rw [World.advance_select]
  dsimp only
  unfold getEnrollmentById
  cases hfound : (world.view recruiterEngine []).enrollment? request.1 with
  | none => exact hrefused _ rfl
  | some e =>
    dsimp only [Option.map_some]
    cases (world.view recruiterEngine []).assessment? e.assessmentId with
    | none => exact hrefused _ rfl
    | some a =>
      dsimp only
      split
      · exact hrefused _ rfl
      · have hid := Tables.lookup_key hfound
        have he := h.enrollments e (Tables.lookup_mem hfound)
        refine .opens (.deleting (hid ▸ removes_of_mem hdb he) ?_) (fun _ hfinish => ?_)
        · rw [written_snoc]
          rfl
        · cases hfinish

theorem removing_step {candidateId : Uuid}
    {rows : List RecruiterEnrollment} {history : List RecruiterObservation}
    {waiting : Option (ℕ × RecruiterDatabase)}
    (hrows : ∀ w ∈ rows.map (RecruiterWrite.deleteEnrollment ·.id), w.Removes db₀ candidateId)
    (hremoves : (RecruiterWrite.deleteEnrollment request.1).Removes db₀ candidateId)
    (hwritten : written history = [.deleteEnrollment request.1]) :
    DeletionStep db₀ request world i session (world.advance recruiterEngine i
      ⟨.statement [] (fun _ => rows.map (.deleteEnrollment ·.id) ++ [.deleteCandidate candidateId])
        fun _ => .finish .deleted, history, waiting⟩) := by
  apply World.advance_writes (motive := DeletionStep db₀ request world i session)
  · intro waiting'
    exact .opens (.removing hrows hremoves hwritten) (by simp)
  · intro error
    exact .released (by simp)
  · intro o ho hrefusal
    have hall : written (history ++ [o]) = .deleteEnrollment request.1 ::
        rows.map (.deleteEnrollment ·.id) ++ [.deleteCandidate candidateId] := by
      rw [written_snoc, hwritten, ho]
      rfl
    have hremovesAll : ∀ w ∈ written (history ++ [o]), w.Removes db₀ candidateId := by
      intro w hw
      rw [hall, List.cons_append, List.mem_cons, List.mem_append, List.mem_singleton] at hw
      rcases hw with rfl | hw | rfl
      · exact hremoves
      · exact hrows w hw
      · rfl
    refine .continued ⟨.finished hremovesAll, ?_⟩ ?_
    · intro candidateId' hdeleted e he hcandidate
      have hid : candidateId' = candidateId := hremovesAll _ hdeleted
      by_contra hleft
      rw [hall, List.cons_append, List.mem_cons, List.mem_append, not_or, not_or] at hleft
      have hrefuses := refuses_eq_false ((Option.or_eq_none_iff.mp
        (Option.or_eq_none_iff.mp ((Engine.refusal_append _ _ _ _).symm.trans hrefusal)).2).1)
      have hview : e ∈ (world.view recruiterEngine history).enrollments := by
        refine ((applyAll_removes _ (removes_of_written hremoves hwritten)).1 e).mpr ⟨he, ?_⟩
        rw [hwritten, List.mem_singleton]
        exact hleft.1
      have hkept := ((applyAll_removes _ hrows).1 e).mpr ⟨hview, hleft.2.1⟩
      have hforeign := List.any_eq_false.mp hrefuses e hkept
      simp [hcandidate, hid] at hforeign
    · rintro ⟨_, hnone⟩
      exact absurd (by simp [hall]) (hnone candidateId)

theorem deletion_step (hdb : db₀.Keyed) (h : Deletions db₀ requests world)
    (hi : world.status i = .active session) :
    DeletionStep db₀ (requests i) world i session (world.advance recruiterEngine i session) := by
  obtain ⟨hphase, hgone⟩ := h.active i session hi
  cases hphase with
  | reading => exact reading_step hdb h
  | refused hwritten => exact .released (by simp)
  | @deleting candidateId history waiting hremoves hwritten =>
    apply World.advance_writes (motive := DeletionStep db₀ (requests i) world i _)
    · intro waiting'
      exact .opens (.deleting hremoves hwritten) (fun _ hfinish => by cases hfinish)
    · intro error
      exact .released (by simp)
    · intro o ho _
      refine .opens (.counting hremoves ?_) (fun _ hfinish => by cases hfinish)
      rw [written_snoc, hwritten, ho]
      rfl
  -- the count of remaining enrollments decides whether the candidate is deleted at all
  | @counting candidateId history hremoves hwritten =>
    unfold removeIfOrphaned
    rw [World.advance_select]
    dsimp only
    have hwritten' {o : RecruiterObservation} (ho : o.writes = []) :
        written (history ++ [o]) = [.deleteEnrollment (requests i).1] := by
      rw [written_snoc, ho, hwritten]
      rfl
    split
    · exact .opens (.orphaned hremoves (hwritten' rfl)) (fun _ hfinish => by cases hfinish)
    · rename_i hremaining
      refine .keeps hremoves (hwritten' rfl) (.inr ⟨rfl, (hwritten' rfl).trans hwritten.symm, ?_⟩)
      simpa using hremaining
  -- a candidate that a concurrent deletion has taken is not loaded any more
  | @orphaned candidateId history hremoves hwritten =>
    unfold removeOrphan
    rw [World.advance_select]
    have hwritten' {o : RecruiterObservation} (ho : o.writes = []) :
        written (history ++ [o]) = [.deleteEnrollment (requests i).1] := by
      rw [written_snoc, ho, hwritten]
      rfl
    dsimp only
    cases hfound : (world.view recruiterEngine history).candidate? candidateId with
    | none =>
      refine .keeps hremoves (hwritten' rfl) (.inl ?_)
      intro c hc
      have hview := ((applyAll_removes _ (removes_of_written hremoves hwritten)).2 c).mpr
        ⟨hc, by simp [hwritten]⟩
      have hne := Tables.key_ne_of_lookup_eq_none hfound hview
      exact hne
    | some c =>
      have hid := Tables.lookup_key hfound
      refine .opens (.loading ?_ (hwritten' rfl)) (fun _ hfinish => by cases hfinish)
      rwa [hid]
  | @loading candidateId history hremoves hwritten =>
    unfold deleteCandidate
    rw [World.advance_select]
    refine .opens (.removing ?_ hremoves ?_) (by simp)
    · intro w hw
      obtain ⟨e, he, rfl⟩ := List.mem_map.mp hw
      obtain ⟨hview, hcandidate⟩ := List.mem_filter.mp (Sorting.mem_sortedDown.mp he)
      have hdatabase := ((applyAll_removes _ (removes_of_written hremoves hwritten)).1 e).mp hview
      rw [← beq_iff_eq.mp hcandidate]
      exact removes_of_mem hdb (h.enrollments e hdatabase.1)
    · rw [written_snoc, hwritten]
      rfl
  | removing hrows hremoves hwritten => exact removing_step hrows hremoves hwritten
  | finished hremoves => exact .committed hremoves rfl

theorem Deletions.step (hdb : db₀.Keyed) (h : Deletions db₀ requests world) (move : Move ι) :
    Deletions db₀ requests (world.step recruiterEngine move) := by
  unfold World.step
  cases move with
  | advance i =>
    cases hi : world.status i with
    | active session =>
      simp only [hi]
      have hstep := deletion_step hdb h hi
      generalize world.advance recruiterEngine i session = world' at hstep
      cases hstep with
      | released hstatus => exact h.set fun session' heq => absurd heq (hstatus session')
      | continued hdeleting =>
        refine h.set ?_
        rintro _ ⟨⟩
        exact hdeleting
      | committed hremoves => exact h.commit hi hremoves
    | _ => simpa only [hi] using h
  | crash i =>
    cases hi : world.status i with
    | active session =>
      simp only [hi]
      exact h.set (by simp)
    | _ => simpa only [hi] using h

/-- A step that overlooks no open deletion keeps an enrollment for every candidate. -/
theorem Spares.step (hdb : db₀.Keyed) (hdeletions : Deletions db₀ requests world)
    (h : Spares world) {move : Move ι} (hseen : ¬ Overlooks world move) :
    Spares (world.step recruiterEngine move) := by
  unfold World.step
  cases move with
  | advance i =>
    cases hi : world.status i with
    | active session =>
      simp only [hi]
      have hstep := deletion_step hdb hdeletions hi
      generalize world.advance recruiterEngine i session = world' at hstep
      cases hstep with
      | released hstatus => exact h.release hstatus
      | continued _ hkeeps => exact h.continue hdeletions hi hseen hkeeps
      | committed hremoves hfinish => exact h.commit hdeletions hi hremoves hfinish
    | _ => simpa only [hi] using h
  | crash i =>
    cases hi : world.status i with
    | active session =>
      simp only [hi]
      exact h.release (by simp)
    | _ => simpa only [hi] using h

end Worlds

section Runs

variable {ι : Type}

theorem deletions_start (store : RecruiterStore) (requests : ι → Uuid × Uuid) :
    Deletions store.db requests (World.start store.db fun i =>
      deleteCandidateFromAssessment (requests i).1 (requests i).2) where
  enrollments _ he := he
  referenced := by
    intro e he
    obtain ⟨c, hc⟩ := Option.isSome_iff_exists.mp (store.keyed.candidates e he)
    have hid := Tables.lookup_key hc
    exact ⟨c, Tables.lookup_mem hc, hid⟩
  active := by
    rintro i session ⟨⟩
    exact ⟨.reading, by simp [written]⟩

theorem spares_start (store : RecruiterStore) (hstart : store.db.NoOrphans)
    (requests : ι → Uuid × Uuid) :
    Spares (World.start store.db fun i =>
      deleteCandidateFromAssessment (requests i).1 (requests i).2) := by
  intro c hc
  obtain ⟨e, he, hcandidate⟩ := hstart c hc
  refine ⟨e, he, hcandidate, ?_⟩
  rintro i session ⟨⟩ _
  exact List.not_mem_nil

variable [DecidableEq ι] [Fintype ι]

/-- In every interleaving of deletions each enrollment keeps its candidate.  Each candidate keeps an
enrollment, as long as no deletion counts only enrollments that other open deletions have deleted. -/
theorem no_orphan_candidates (store : RecruiterStore) (hstart : store.db.NoOrphans)
    (requests : ι → Uuid × Uuid) (moves : List (Move ι)) :
    let start := World.start store.db fun i =>
      deleteCandidateFromAssessment (requests i).1 (requests i).2
    let reached := Runs.exec (World.scheduler recruiterEngine) start moves
    (∀ e ∈ reached.database.enrollments, (reached.database.candidate? e.candidateId).isSome) ∧
      ((∀ t ∈ Runs.trace (World.scheduler recruiterEngine) start moves, ¬ Overlooks t.pre t.input) →
        reached.database.NoOrphans) := by
  intro start reached
  have hkeep (world : RecruiterWorld ι) (move : Move ι) (_ : True)
      (h : Deletions store.db requests world) :
      Deletions store.db requests (World.scheduler recruiterEngine world move).2 :=
    h.step store.keyed move
  have hdeletions : Deletions store.db requests reached :=
    Runs.exec_invariant hkeep (fun _ _ => trivial) (deletions_start store requests)
  refine ⟨?_, ?_⟩
  · intro e he
    obtain ⟨c, hc, hid⟩ := hdeletions.referenced e he
    refine Option.isSome_iff_ne_none.mpr fun hnone => ?_
    have hne := Tables.key_ne_of_lookup_eq_none hnone hc
    exact hne hid
  · intro hseen
    have hboth : Deletions store.db requests reached ∧ Spares reached := by
      refine Runs.exec_preserves
        (P := fun world => Deletions store.db requests world ∧ Spares world) ?_
        ⟨deletions_start store requests, spares_start store hstart requests⟩
      rintro t ht ⟨hpre, hspares⟩
      have hnext := hspares.step store.keyed hpre (hseen t ht)
      obtain ⟨before, move, after, _, rfl⟩ := Runs.mem_trace ht
      exact ⟨hpre.step store.keyed move, hnext⟩
    exact hboth.2.noOrphans

end Runs

section Race

instance decidableNoOrphans (db : RecruiterDatabase) : Decidable db.NoOrphans :=
  inferInstanceAs (Decidable (∀ c ∈ db.candidates, ∃ e ∈ db.enrollments, e.candidateId = c.id))

/-- The candidate of two recruiters is enrolled with both of them. -/
def twiceEnrolled : RecruiterDatabase :=
  { sharedCandidate with
    enrollments := sharedCandidate.enrollments ++ sharedCandidate.enrollments.map fun e =>
      { e with id := 42, assessmentId := 10, invitationToken := 43 } }

def twiceEnrolledStore : RecruiterStore where
  db := twiceEnrolled
  keyed := {
    assessmentIds := by decide
    candidateIds := by decide
    emails := by decide
    enrollmentIds := by decide
    candidates := by decide }

/-- Each recruiter deletes their own enrollment. -/
def racingDeletions (i : Fin 2) : Uuid × Uuid := if i.val = 0 then (40, 2) else (42, 1)

def deletionStart : RecruiterWorld (Fin 2) :=
  World.start twiceEnrolledStore.db fun i =>
    deleteCandidateFromAssessment (racingDeletions i).1 (racingDeletions i).2

def mover : Move (Fin 2) → Fin 2
  | .advance i | .crash i => i

/-- One deletion after the other: the second one removes the candidate. -/
theorem no_orphan_candidates_serial :
    let moves := List.replicate 4 (.advance 0) ++ List.replicate 7 (.advance 1)
    (Runs.exec (World.scheduler recruiterEngine) deletionStart moves).database.NoOrphans := by
  intro moves
  have halone : ∀ t ∈ Runs.trace (World.scheduler recruiterEngine) deletionStart moves,
      ∀ j, j ≠ mover t.input → (t.pre.status j).pending.isEmpty = true := by
    decide +kernel
  refine (no_orphan_candidates twiceEnrolledStore (by decide) racingDeletions moves).2 ?_
  rintro t ht ⟨i, session, candidateId, hmove, _, _, hremaining, hpending⟩
  obtain ⟨e, he⟩ := List.exists_mem_of_ne_nil _ hremaining
  obtain ⟨j, hj, hdeleted⟩ := hpending e he
  have hempty := halone t ht j (by rwa [hmove])
  rw [List.isEmpty_iff.mp hempty] at hdeleted
  cases hdeleted

/-- Both deletions count the enrollment that the other one is about to delete. -/
theorem orphan_race : twiceEnrolled.NoOrphans ∧
    ¬ (Runs.exec (World.scheduler recruiterEngine) deletionStart
      [.advance 0, .advance 0, .advance 1, .advance 1, .advance 1, .advance 0, .advance 0,
        .advance 1]).database.NoOrphans := by
  constructor
  · decide
  · decide +kernel

end Race

end IBotCoreApi

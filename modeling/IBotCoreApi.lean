import IBotCoreApi.Library.Runs
import IBotCoreApi.Library.Consolidation
import IBotCoreApi.Library.KeyedLists
import IBotCoreApi.Library.Sorting
import IBotCoreApi.Library.Apportion
import IBotCoreApi.Violations
import IBotCoreApi.CanonicalViolations
import IBotCoreApi.FaceRecords
import IBotCoreApi.Assessments
import IBotCoreApi.CandidateSessionRepository
import IBotCoreApi.InterviewSessionRepository
import IBotCoreApi.EvaluationRepository
import IBotCoreApi.InterviewSessionService
import IBotCoreApi.InternalInterview
import IBotCoreApi.Store
import IBotCoreApi.Entry
import IBotCoreApi.Lifecycle
import IBotCoreApi.EntryStep
import IBotCoreApi.Connection
import IBotCoreApi.ViolationRequests
import IBotCoreApi.Refinement
import IBotCoreApi.TerminalStatus
import IBotCoreApi.Reconnection
import IBotCoreApi.Closing
import IBotCoreApi.ConnectionGenerations
import IBotCoreApi.Invitation
import IBotCoreApi.Service
import IBotCoreApi.ClosedAssessment
import IBotCoreApi.TabSwitches
import IBotCoreApi.FaceProctoring
import IBotCoreApi.Library.Pydantic
import IBotCoreApi.InterviewPlans
import IBotCoreApi.PlanFormats
import IBotCoreApi.SkillMatching
import IBotCoreApi.PlanTiming
import IBotCoreApi.PlanAllocation
import IBotCoreApi.FinalizedPlans
import IBotCoreApi.StoredPlans
import IBotCoreApi.AssessmentLifecycle
import IBotCoreApi.AssessmentProcessing
import IBotCoreApi.Ranking
import IBotCoreApi.SessionRows
import IBotCoreApi.Gates
import IBotCoreApi.Library.Transactions
import IBotCoreApi.Library.Interleavings
import IBotCoreApi.AuthService
import IBotCoreApi.RefreshTokens
import IBotCoreApi.RecruiterDatabase
import IBotCoreApi.RecruiterRequests
import IBotCoreApi.Library.Effects
import IBotCoreApi.ExternalEffects
import IBotCoreApi.WindowOverlap
import IBotCoreApi.RecruiterStore
import IBotCoreApi.RecruiterViews
import IBotCoreApi.RecruiterIsolation
import IBotCoreApi.Library.Schemas
import IBotCoreApi.EvaluationSchemas
import IBotCoreApi.EvaluationService
import IBotCoreApi.EvaluationReports
import IBotCoreApi.Library.Locking
import IBotCoreApi.Library.KeyedAppends
import IBotCoreApi.TurnRequests
import IBotCoreApi.TranscriptAppends
import IBotCoreApi.TranscriptDisplay
import IBotCoreApi.LifecycleTimes
import IBotCoreApi.FailedRows
import IBotCoreApi.IsolatedRows
import IBotCoreApi.OrphanCandidates
import IBotCoreApi.AuthSystem
import IBotCoreApi.AuthSteps
import IBotCoreApi.LiveSessions
import IBotCoreApi.PasswordReset
import IBotCoreApi.EmailTasks
import IBotCoreApi.NotificationDeliveries
import IBotCoreApi.LifecycleLocks
import IBotCoreApi.LifecycleDeadlocks
import IBotCoreApi.WeightOverrides
import IBotCoreApi.RankedEvaluations
import IBotCoreApi.ConcurrentRankings
import IBotCoreApi.CredentialExpiry
import IBotCoreApi.AfterCommitCallbacks
import IBotCoreApi.EpisodeRules
import IBotCoreApi.FaceEventOrder
import IBotCoreApi.FaceEvidence
import IBotCoreApi.ReadableRecords
import IBotCoreApi.ScheduledResumes
import IBotCoreApi.SkillResolution
import IBotCoreApi.Library.PyComparisons
import IBotCoreApi.AssessmentForms
import IBotCoreApi.Library.Attempts
import IBotCoreApi.AnalysisAttempts
import IBotCoreApi.Library.Base64
import IBotCoreApi.TaskArguments
import IBotCoreApi.AssessmentWorker
import IBotCoreApi.GeneratedPlans
import IBotCoreApi.ResumeParsing
import IBotCoreApi.DrawnEnrollments
import IBotCoreApi.ResumeRuns
import IBotCoreApi.DecisionEmails
import IBotCoreApi.RecruiterReads
import IBotCoreApi.RealtimeStreams
import IBotCoreApi.AssessmentClosings
import IBotCoreApi.EvaluationRegister
import IBotCoreApi.WaitingRoom
import IBotCoreApi.ReportEmails
import IBotCoreApi.EvaluationSources
import IBotCoreApi.FeedbackDrafts
import IBotCoreApi.Passwords

import IBotCoreApi.Assessments
import IBotCoreApi.Library.KeyedLists
import IBotCoreApi.Library.Outcomes
import IBotCoreApi.Library.Pydantic
import IBotCoreApi.Library.PyComparisons

namespace IBotCoreApi
open Python Outcomes

/-- A text that `json.loads` builds, `none` where it has lone surrogates. -/
abbrev LoadedText := Option String

/-- What `json.loads` builds: its floats may be infinite or NaN. -/
inductive LoadedJson where
  | null
  | bool (b : Bool)
  | int (i : ℤ)
  | float (x : PyFloat)
  | str (s : LoadedText)
  | list (items : List LoadedJson)
  | dict (entries : List (LoadedText × LoadedJson))

/-- What the form leaves to `json` and to Pydantic. -/
class FormParsing where
  /-- `json.loads`, or the text of the exception that it raises. -/
  loads : String → Except String LoadedJson
  /-- A text as a float, `none` where it is refused. -/
  floatOfStr : String → Option PyFloat
  /-- The text of the validation error for an item. -/
  refusal : LoadedJson → String

/-- `FocusAreaOverride` as the form holds it. -/
@[ext] structure LoadedOverride where
  skill : String
  weightOverride : PyFloat
deriving DecidableEq

/-- The arguments of `AssessmentCreateForm`. -/
structure CreateFormFields where
  title : String
  roleName : String
  interviewDurationMins : ℤ
  windowStart : DateTime
  windowEnd : DateTime
  jdText : Option String
  focusAreas : Option String

structure AssessmentCreateForm where
  title : String
  roleName : String
  interviewDurationMins : ℤ
  windowStart : DateTime
  windowEnd : DateTime
  jdText : Option String
  focusAreas : List LoadedOverride

/-- An entry of `ValidationError.errors()`: its location and its message. -/
structure FieldError where
  loc : List String
  msg : String

inductive ModelError where
  | validation (errors : List FieldError)
  | python (error : PyError)

namespace LoadedOverride

section Validate

variable [Runtime] [FormParsing]

/-- `float`: booleans, numbers and numeric texts. -/
def floatOf : LoadedJson → Option PyFloat
  | .bool b => some (.finite (if b then 1 else 0))
  | .int i => (Runtime.floatOfInt i).map .finite
  | .float x => some x
  | .str s => s.bind FormParsing.floatOfStr
  | .null | .list _ | .dict _ => none

/-- `ge=0.0, le=10.0`: Pydantic refuses what the two comparisons do not admit, so NaN too. -/
def withinBounds (x : PyFloat) : Bool := x.ge 0 && x.le 10

/-- A text without the white space at its ends. -/
def strOf : LoadedJson → Option String
  | .str s => s.map Pydantic.trim
  | _ => none

/-- `FocusAreaOverride.model_validate`, `none` where it is refused. -/
def modelValidate : LoadedJson → Option LoadedOverride
  | .dict entries => do
    -- `extra="forbid"`
    guard (entries.all fun entry => entry.1 == some "skill" || entry.1 == some "weight_override")
    let skill ← (entries.lookup (some "skill")).bind strOf
    let weight ← (entries.lookup (some "weight_override")).bind floatOf
    guard (withinBounds weight)
    return ⟨skill, weight⟩
  | _ => none

end Validate

end LoadedOverride

namespace AssessmentCreateForm

section FocusAreas

variable [Runtime] [FormParsing]

/-- The overrides in a text, or the text of the exception that it causes. -/
def loadFocusAreas (text : String) : Except String (List LoadedOverride) := do
  match ← FormParsing.loads text with
  | .list items => items.mapM fun item =>
      (LoadedOverride.modelValidate item).elim (.error (FormParsing.refusal item)) .ok
  | _ => .error "focus_areas must be a JSON array."

/-- The first part: any exception is converted. -/
def focusAreasList (focusAreas : Option String) : Except ApiException (List LoadedOverride) :=
  let text := focusAreas.getD ""
  if text = "" then .ok []
  else (loadFocusAreas text).mapError fun exc =>
    .assessmentValidation ("Invalid focus_areas override payload: " ++ exc)

end FocusAreas

/-- `min_length` and `max_length`. -/
def lengthErrors (field : String) (lo hi : ℕ) (value : String) : List FieldError :=
  if hi < value.length then
    [⟨[field], "String should have at most " ++ toString hi ++ " characters"⟩]
  else if value.length < lo then
    [⟨[field], "String should have at least " ++ toString lo ++ " characters"⟩]
  else []

/-- `ge` and `le`. -/
def rangeErrors (field : String) (lo hi value : ℤ) : List FieldError :=
  if hi < value then [⟨[field], "Input should be less than or equal to " ++ toString hi⟩]
  else if value < lo then [⟨[field], "Input should be greater than or equal to " ++ toString lo⟩]
  else []

def fieldErrors (fields : CreateFormFields) : List FieldError :=
  lengthErrors "title" 2 200 (Pydantic.trim fields.title) ++
    lengthErrors "role_name" 2 120 (Pydantic.trim fields.roleName) ++
    rangeErrors "interview_duration_mins" 2 180 fields.interviewDurationMins

def validated (fields : CreateFormFields) (focusAreas : List LoadedOverride) :
    AssessmentCreateForm where
  title := Pydantic.trim fields.title
  roleName := Pydantic.trim fields.roleName
  interviewDurationMins := fields.interviewDurationMins
  windowStart := fields.windowStart
  windowEnd := fields.windowEnd
  jdText := fields.jdText.map Pydantic.trim
  focusAreas := focusAreas

/-- `AssessmentCreateRequest(...)`: `window_order` runs on valid fields only. -/
def createRequest (fields : CreateFormFields) (focusAreas : List LoadedOverride) :
    Except ModelError AssessmentCreateForm :=
  match fieldErrors fields with
  | [] =>
    match fields.windowEnd.le fields.windowStart with
    -- a validator may raise a `ValueError`, but a `TypeError` passes through the model
    | .error error => .error (.python error)
    | .ok true =>
      .error (.validation [⟨[], "Value error, window_end must be after window_start."⟩])
    | .ok false => .ok (validated fields focusAreas)
  | errors => .error (.validation errors)

def errMsg (errors : List FieldError) : String :=
  "; ".intercalate (errors.map fun err => ".".intercalate err.loc ++ ": " ++ err.msg)

/-- The second part: only validation errors are converted. -/
def convert : ModelError → ApiException
  | .validation errors => .assessmentValidation ("Validation error: " ++ errMsg errors)
  | .python error => .python error

def init [Runtime] [FormParsing] (fields : CreateFormFields) :
    Except ApiException AssessmentCreateForm := do
  let focusAreas ← focusAreasList fields.focusAreas
  (createRequest fields focusAreas).mapError convert

end AssessmentCreateForm

section Overrides

variable [Runtime] [FormParsing] {item : LoadedJson} {o : LoadedOverride} {x : PyFloat}

/-- What an item of the overrides says, when it is one. -/
inductive ReadsOverride : LoadedJson → LoadedOverride → Prop
  | mk {entries : List (LoadedText × LoadedJson)} {skill : String} {value : LoadedJson}
      {weight : PyFloat}
      (hkeys : ∀ entry ∈ entries, entry.1 = some "skill" ∨ entry.1 = some "weight_override")
      (hskill : entries.lookup (some "skill") = some (.str (some skill)))
      (hvalue : entries.lookup (some "weight_override") = some value)
      (hweight : LoadedOverride.floatOf value = some weight)
      (hbounds : weight.Between 0 10) :
      ReadsOverride (.dict entries) ⟨Pydantic.trim skill, weight⟩

/-- What the text of the overrides says: nothing where it is missing or empty. -/
inductive ReadsFocusAreas : Option String → List LoadedOverride → Prop
  | absent {focusAreas : Option String} (h : focusAreas.getD "" = "") :
      ReadsFocusAreas focusAreas []
  | loaded {focusAreas : Option String} {items : List LoadedJson} {overrides : List LoadedOverride}
      (hne : focusAreas.getD "" ≠ "")
      (hloads : FormParsing.loads (focusAreas.getD "") = .ok (.list items))
      (hitems : List.Forall₂ ReadsOverride items overrides) : ReadsFocusAreas focusAreas overrides

omit [Runtime] [FormParsing] in
theorem withinBounds_iff : LoadedOverride.withinBounds x ↔ x.Between 0 10 := by
  unfold LoadedOverride.withinBounds
  rw [Bool.and_eq_true, PyFloat.within_iff]

omit [Runtime] [FormParsing] in
theorem strOf_eq_some {value : LoadedJson} {text : String} :
    LoadedOverride.strOf value = some text ↔
      ∃ s, value = .str (some s) ∧ text = Pydantic.trim s := by
  unfold LoadedOverride.strOf
  split
  · next s =>
    cases s <;> simp [eq_comm]
  · next hne =>
    refine iff_of_false (by simp) ?_
    rintro ⟨s, rfl, _⟩
    exact hne _ rfl

theorem modelValidate_eq_some :
    LoadedOverride.modelValidate item = some o ↔ ReadsOverride item o := by
  cases item with
  | dict entries =>
    simp only [LoadedOverride.modelValidate, Option.bind_eq_bind, Option.bind_eq_some_iff,
      Option.guard_eq_some', Option.pure_def, Option.some.injEq, strOf_eq_some,
      withinBounds_iff, List.all_eq_true, Bool.or_eq_true, beq_iff_eq]
    constructor
    · rintro ⟨_, hkeys, skill, ⟨j, hskill, s, rfl, rfl⟩, weight, ⟨value, hvalue, hweight⟩, _,
        hbounds, rfl⟩
      exact .mk hkeys hskill hvalue hweight hbounds
    · rintro ⟨hkeys, hskill, hvalue, hweight, hbounds⟩
      exact ⟨(), hkeys, _, ⟨_, hskill, _, rfl, rfl⟩, _, ⟨_, hvalue, hweight⟩, (), hbounds, rfl⟩
  | _ =>
    refine iff_of_false (by simp [LoadedOverride.modelValidate]) ?_
    rintro ⟨⟩

theorem loadFocusAreas_eq_ok {text : String} {overrides : List LoadedOverride} :
    AssessmentCreateForm.loadFocusAreas text = .ok overrides ↔
      ∃ items, FormParsing.loads text = .ok (.list items) ∧
        List.Forall₂ ReadsOverride items overrides := by
  have hitem (item : LoadedJson) (o : LoadedOverride) :
      (LoadedOverride.modelValidate item).elim (.error (FormParsing.refusal item)) Except.ok =
        .ok o ↔ ReadsOverride item o := by
    rw [← modelValidate_eq_some]
    cases LoadedOverride.modelValidate item <;> simp
  unfold AssessmentCreateForm.loadFocusAreas
  rw [bind_eq_ok]
  constructor
  · rintro ⟨parsed, hloads, hparsed⟩
    cases parsed with
    | list items =>
      refine ⟨items, hloads, ?_⟩
      simpa only [mapM_eq_ok, hitem] using hparsed
    | _ => cases hparsed
  · rintro ⟨items, hloads, hitems⟩
    refine ⟨.list items, hloads, ?_⟩
    simpa only [mapM_eq_ok, hitem] using hitems

theorem focusAreasList_eq_ok {focusAreas : Option String} {overrides : List LoadedOverride} :
    AssessmentCreateForm.focusAreasList focusAreas = .ok overrides ↔
      ReadsFocusAreas focusAreas overrides := by
  unfold AssessmentCreateForm.focusAreasList
  dsimp only
  split
  · next hempty =>
    constructor
    · intro h
      cases h
      exact .absent hempty
    · intro h
      cases h with
      | absent => rfl
      | loaded hne => exact absurd hempty hne
  · next hne =>
    rw [mapError_eq_ok, loadFocusAreas_eq_ok]
    constructor
    · rintro ⟨items, hloads, hitems⟩
      exact .loaded hne hloads hitems
    · intro h
      cases h with
      | absent hempty => exact absurd hempty hne
      | loaded _ hloads hitems => exact ⟨_, hloads, hitems⟩

theorem focusAreasList_eq_error {focusAreas : Option String} {e : ApiException}
    (h : AssessmentCreateForm.focusAreasList focusAreas = .error e) :
    ∃ message, e = .assessmentValidation message := by
  unfold AssessmentCreateForm.focusAreasList at h
  dsimp only at h
  split at h
  · cases h
  · obtain ⟨exc, _, rfl⟩ := mapError_eq_error.mp h
    exact ⟨_, rfl⟩

end Overrides

structure CreateFormFields.InBounds (fields : CreateFormFields) : Prop where
  title : 2 ≤ (Pydantic.trim fields.title).length ∧ (Pydantic.trim fields.title).length ≤ 200
  roleName :
    2 ≤ (Pydantic.trim fields.roleName).length ∧ (Pydantic.trim fields.roleName).length ≤ 120
  duration : 2 ≤ fields.interviewDurationMins ∧ fields.interviewDurationMins ≤ 180

/-- The window starts before it ends, on whatever clock a datetime without an offset is read. -/
def CreateFormFields.Ordered (fields : CreateFormFields) : Prop :=
  ∀ zone, fields.windowStart.instant zone < fields.windowEnd.instant zone

namespace AssessmentCreateForm

section Fields

variable {fields : CreateFormFields} {overrides : List LoadedOverride} {form : AssessmentCreateForm}

theorem lengthErrors_eq_nil {field : String} {lo hi : ℕ} {value : String} :
    lengthErrors field lo hi value = [] ↔ lo ≤ value.length ∧ value.length ≤ hi := by
  unfold lengthErrors
  split_ifs <;> simp <;> omega

theorem rangeErrors_eq_nil {field : String} {lo hi value : ℤ} :
    rangeErrors field lo hi value = [] ↔ lo ≤ value ∧ value ≤ hi := by
  unfold rangeErrors
  split_ifs <;> simp <;> omega

theorem fieldErrors_eq_nil : fieldErrors fields = [] ↔ fields.InBounds := by
  unfold fieldErrors
  rw [List.append_eq_nil_iff, List.append_eq_nil_iff, lengthErrors_eq_nil, lengthErrors_eq_nil,
    rangeErrors_eq_nil]
  constructor
  · rintro ⟨⟨htitle, hroleName⟩, hduration⟩
    exact ⟨htitle, hroleName, hduration⟩
  · intro h
    exact ⟨⟨h.title, h.roleName⟩, h.duration⟩

theorem ordered_iff (h : fields.windowStart.SameKind fields.windowEnd) :
    fields.Ordered ↔ fields.windowStart.instant 0 < fields.windowEnd.instant 0 :=
  ⟨fun hordered => hordered 0, fun hlt zone => (DateTime.instant_lt_iff h 0 zone).mp hlt⟩

theorem createRequest_of_errors (h : ¬ fields.InBounds) :
    createRequest fields overrides = .error (.validation (fieldErrors fields)) := by
  unfold createRequest
  split
  · next hnil => exact absurd (fieldErrors_eq_nil.mp hnil) h
  · rfl

theorem createRequest_of_kinds (h : fields.InBounds)
    (hkind : ¬ fields.windowEnd.SameKind fields.windowStart) :
    createRequest fields overrides = .error (.python .typeError) := by
  unfold createRequest
  rw [fieldErrors_eq_nil.mpr h, DateTime.le_of_not_sameKind hkind]

theorem createRequest_of_ordered (h : fields.InBounds)
    (hkind : fields.windowEnd.SameKind fields.windowStart) (hordered : fields.Ordered) :
    createRequest fields overrides = .ok (validated fields overrides) := by
  unfold createRequest
  rw [fieldErrors_eq_nil.mpr h, DateTime.le_of_sameKind hkind 0,
    decide_eq_false (not_le.mpr (hordered 0))]

theorem createRequest_of_not_ordered (h : fields.InBounds)
    (hkind : fields.windowEnd.SameKind fields.windowStart) (hordered : ¬ fields.Ordered) :
    createRequest fields overrides =
      .error (.validation [⟨[], "Value error, window_end must be after window_start."⟩]) := by
  rw [ordered_iff hkind.symm, not_lt] at hordered
  unfold createRequest
  rw [fieldErrors_eq_nil.mpr h, DateTime.le_of_sameKind hkind 0, decide_eq_true hordered]

/-- The model is built from valid fields with an ordered window, and raises what is no validation
error when only the kinds of the datetimes differ. -/
theorem createRequest_cases (fields : CreateFormFields) (overrides : List LoadedOverride) :
    (fields.InBounds ∧ fields.windowEnd.SameKind fields.windowStart ∧ fields.Ordered ∧
      createRequest fields overrides = .ok (validated fields overrides)) ∨
    (fields.InBounds ∧ ¬ fields.windowEnd.SameKind fields.windowStart ∧
      createRequest fields overrides = .error (.python .typeError)) ∨
    (¬ (fields.InBounds ∧ (fields.windowEnd.SameKind fields.windowStart → fields.Ordered)) ∧
      ∃ errors, createRequest fields overrides = .error (.validation errors)) := by
  by_cases hbounds : fields.InBounds
  · by_cases hkind : fields.windowEnd.SameKind fields.windowStart
    · by_cases hordered : fields.Ordered
      · exact .inl ⟨hbounds, hkind, hordered, createRequest_of_ordered hbounds hkind hordered⟩
      · exact .inr (.inr ⟨fun h => hordered (h.2 hkind), _,
          createRequest_of_not_ordered hbounds hkind hordered⟩)
    · exact .inr (.inl ⟨hbounds, hkind, createRequest_of_kinds hbounds hkind⟩)
  · exact .inr (.inr ⟨fun h => hbounds h.1, _, createRequest_of_errors hbounds⟩)

theorem createRequest_eq_ok : createRequest fields overrides = .ok form ↔
    fields.InBounds ∧ fields.windowEnd.SameKind fields.windowStart ∧ fields.Ordered ∧
      validated fields overrides = form := by
  rcases createRequest_cases fields overrides with
    ⟨hbounds, hkind, hordered, h⟩ | ⟨_, hkind, h⟩ | ⟨hinvalid, _, h⟩
  · rw [h, Except.ok.injEq]
    simp [hbounds, hkind, hordered]
  · rw [h]
    exact iff_of_false (by simp) fun hvalid => hkind hvalid.2.1
  · rw [h]
    exact iff_of_false (by simp) fun hvalid => hinvalid ⟨hvalid.1, fun _ => hvalid.2.2.1⟩

theorem createRequest_eq_python {error : PyError} :
    createRequest fields overrides = .error (.python error) ↔
      fields.InBounds ∧ ¬ fields.windowEnd.SameKind fields.windowStart ∧ error = .typeError := by
  rcases createRequest_cases fields overrides with
    ⟨_, hkind, _, h⟩ | ⟨hbounds, hkind, h⟩ | ⟨hinvalid, _, h⟩
  · rw [h]
    exact iff_of_false (by simp) fun hescapes => hescapes.2.1 hkind
  · rw [h]
    simp [hbounds, hkind, eq_comm]
  · rw [h]
    exact iff_of_false (by simp) fun hescapes =>
      hinvalid ⟨hescapes.1, fun hkind => absurd hkind hescapes.2.1⟩

end Fields

section Init

variable [Runtime] [FormParsing] {fields : CreateFormFields} {form : AssessmentCreateForm}

theorem init_eq_ok : init fields = .ok form ↔
    ∃ overrides, ReadsFocusAreas fields.focusAreas overrides ∧ fields.InBounds ∧
      fields.windowEnd.SameKind fields.windowStart ∧ fields.Ordered ∧
      validated fields overrides = form := by
  rw [init, bind_eq_ok]
  simp only [focusAreasList_eq_ok, mapError_eq_ok, createRequest_eq_ok]

theorem init_eq_error {e : ApiException} : init fields = .error e ↔
    focusAreasList fields.focusAreas = .error e ∨
      ∃ overrides, ReadsFocusAreas fields.focusAreas overrides ∧
        ∃ error, createRequest fields overrides = .error error ∧ convert error = e := by
  unfold init
  cases hfocus : focusAreasList fields.focusAreas with
  | error e' =>
    have hnone (overrides : List LoadedOverride) :
        ¬ ReadsFocusAreas fields.focusAreas overrides := by
      rw [← focusAreasList_eq_ok, hfocus]
      simp
    simp [error_bind, hnone]
  | ok overrides =>
    have hreads (overrides' : List LoadedOverride) :
        ReadsFocusAreas fields.focusAreas overrides' ↔ overrides = overrides' := by
      rw [← focusAreasList_eq_ok, hfocus, Except.ok.injEq]
    simp [ok_bind, mapError_eq_error, hreads]

/-- The only other exception is that of the comparison of the two datetimes. -/
theorem init_eq_python {error : PyError} : init fields = .error (.python error) ↔
    (∃ overrides, ReadsFocusAreas fields.focusAreas overrides) ∧ fields.InBounds ∧
      ¬ fields.windowEnd.SameKind fields.windowStart ∧ error = .typeError := by
  rw [init_eq_error]
  constructor
  · rintro (hfocus | ⟨overrides, hreads, raised, hraised, hconvert⟩)
    · obtain ⟨message, hmessage⟩ := focusAreasList_eq_error hfocus
      cases hmessage
    · cases raised with
      | validation errors => cases hconvert
      | python error' =>
        cases hconvert
        exact ⟨⟨overrides, hreads⟩, createRequest_eq_python.mp hraised⟩
  · rintro ⟨⟨overrides, hreads⟩, hescapes⟩
    exact .inr ⟨overrides, hreads, .python error, createRequest_eq_python.mpr hescapes, rfl⟩

theorem init_error_cases {e : ApiException} (h : init fields = .error e) :
    (∃ message, e = .assessmentValidation message) ∨ ∃ error, e = .python error := by
  rcases init_eq_error.mp h with hfocus | ⟨_, _, raised, _, rfl⟩
  · exact .inl (focusAreasList_eq_error hfocus)
  · cases raised with
    | validation errors => exact .inl ⟨_, rfl⟩
    | python error => exact .inr ⟨error, rfl⟩

end Init

structure Valid (form : AssessmentCreateForm) : Prop where
  title : 2 ≤ form.title.length ∧ form.title.length ≤ 200
  roleName : 2 ≤ form.roleName.length ∧ form.roleName.length ≤ 120
  duration : 2 ≤ form.interviewDurationMins ∧ form.interviewDurationMins ≤ 180
  weights : ∀ o ∈ form.focusAreas, o.weightOverride.Between 0 10
  window : ∀ zone, form.windowStart.instant zone < form.windowEnd.instant zone

/-- The constructor raises the exception of the form, or builds a valid form. -/
structure Handled (outcome : Except ApiException AssessmentCreateForm) : Prop where
  raised : ∀ e, outcome = .error e → ∃ message, e = .assessmentValidation message
  built : ∀ form, outcome = .ok form → form.Valid

section Handling

variable [Runtime] [FormParsing] {fields : CreateFormFields} {overrides : List LoadedOverride}

/-- Everything else is valid, and exactly one of the datetimes has an offset. -/
structure MixesKinds (fields : CreateFormFields) : Prop where
  focusAreas : ∃ overrides, ReadsFocusAreas fields.focusAreas overrides
  bounds : fields.InBounds
  mixed : ¬ fields.windowEnd.SameKind fields.windowStart

theorem weights_between (h : ReadsFocusAreas fields.focusAreas overrides) :
    ∀ o ∈ overrides, o.weightOverride.Between 0 10 := by
  cases h with
  | absent => simp
  | loaded _ _ hitems =>
    intro o ho
    obtain ⟨item, _, hreads⟩ := KeyedLists.forall₂_mem_right hitems ho
    cases hreads with
    | mk _ _ _ _ hbounds => exact hbounds

omit [Runtime] [FormParsing] in
theorem validated_valid (hbounds : fields.InBounds) (hordered : fields.Ordered)
    (hweights : ∀ o ∈ overrides, o.weightOverride.Between 0 10) :
    (validated fields overrides).Valid where
  title := hbounds.title
  roleName := hbounds.roleName
  duration := hbounds.duration
  weights := hweights
  window := hordered

/-- The constructor handles its fields, except when only the kinds of the two datetimes are wrong. -/
theorem form_handled_iff (fields : CreateFormFields) :
    Handled (init fields) ↔ ¬ MixesKinds fields := by
  constructor
  · intro h hmixes
    have hraises : init fields = .error (.python .typeError) :=
      init_eq_python.mpr ⟨hmixes.focusAreas, hmixes.bounds, hmixes.mixed, rfl⟩
    obtain ⟨message, hmessage⟩ := h.raised _ hraises
    cases hmessage
  · intro hmixes
    constructor
    · intro e he
      rcases init_error_cases he with hmessage | ⟨error, rfl⟩
      · exact hmessage
      · obtain ⟨hfocus, hbounds, hmixed, _⟩ := init_eq_python.mp he
        exact absurd ⟨hfocus, hbounds, hmixed⟩ hmixes
    · intro form hform
      obtain ⟨overrides, hreads, hbounds, _, hordered, rfl⟩ := init_eq_ok.mp hform
      exact validated_valid hbounds hordered (weights_between hreads)

end Handling

section Samples

/-- No text is read, since the sample has none. -/
@[reducible] def sampleParsing : FormParsing where
  loads _ := .error "Expecting value: line 1 column 1 (char 0)"
  floatOfStr _ := none
  refusal _ := "1 validation error for FocusAreaOverride"

/-- A form whose window starts at a local time and ends at an instant. -/
def mixedWindow : CreateFormFields where
  title := "Backend Engineer"
  roleName := "Backend"
  interviewDurationMins := 30
  windowStart := ⟨0, none⟩
  windowEnd := ⟨1000000, some 0⟩
  jdText := some "Build services."
  focusAreas := none

/-- The comparison of its datetimes escapes. -/
theorem mixed_window_escapes :
    let _ : Runtime := .ascii
    let _ : FormParsing := sampleParsing
    ¬ Handled (init mixedWindow) := by
  intro runtime parsing h
  have hbounds : mixedWindow.InBounds := by
    constructor <;> decide +kernel
  have hraises : init mixedWindow = .error (.python .typeError) :=
    init_eq_python.mpr ⟨⟨[], .absent rfl⟩, hbounds, by decide, rfl⟩
  obtain ⟨message, hmessage⟩ := h.raised _ hraises
  cases hmessage

end Samples

end AssessmentCreateForm

end IBotCoreApi

import IBotCoreApi.Library.Consolidation
import IBotCoreApi.Library.Outcomes
import IBotCoreApi.Violations
import Mathlib.Data.List.ReduceOption

namespace IBotCoreApi
open Python FirstOccurrences Consolidation

theorem replaceViolationType_consolidates {violationType : String} {record : Json}
    (htype : hasType violationType record) (violations : List Json) :
    Consolidates (hasType violationType) violations
      (replaceViolationType violations violationType record) record := by
  refine ⟨?_, htype⟩
  induction violations with
  | nil => rfl
  | cons item rest ih =>
    unfold replaceViolationType
    by_cases h : hasType violationType item
    · simp [h]
    · simp [h, ih]

structure IsIdList (ids : List String) : Prop where
  nodup : ids.Nodup
  nonempty : "" ∉ ids

theorem IsIdList.pushNew {ids : List String} (h : IsIdList ids) {id : String} (hid : id ≠ "") :
    IsIdList (pushNew ids id) where
  nodup := nodup_pushNew h.nodup id
  nonempty := by
    rw [mem_pushNew]
    rintro (hold | rfl)
    · exact h.nonempty hold
    · exact hid rfl

theorem collectId_isIdList {ids : List String} (h : IsIdList ids) (id : String) :
    IsIdList (collectId ids id) := by
  unfold collectId
  split
  · rename_i hid
    exact h.pushNew hid
  · exact h

theorem foldl_collectId_isIdList {ids : List String} (h : IsIdList ids) (candidates : List String) :
    IsIdList (candidates.foldl collectId ids) := by
  induction candidates generalizing ids with
  | nil => exact h
  | cons id candidates ih => exact ih (collectId_isIdList h id)

theorem foldl_collectId {ids candidates : List String} (h : IsIdList (ids ++ candidates)) :
    candidates.foldl collectId ids = ids ++ candidates := by
  have hcollect (result : List String) : candidates.foldl collectId result =
      candidates.foldl FirstOccurrences.pushNew result := by
    apply List.foldl_ext
    intro result id hid
    have hne : id ≠ "" := by
      rintro rfl
      exact h.nonempty (List.mem_append_right ids hid)
    exact if_pos hne
  rw [hcollect, foldl_pushNew_of_nodup h.nodup]

variable [Runtime]

theorem eventIds_isIdList (items : List Json) : IsIdList (eventIds items) := by
  have hfold (result : List String) (h : IsIdList result) : IsIdList
      (items.foldl (fun result item => (idCandidates (metadata item)).foldl collectId result)
        result) := by
    induction items generalizing result with
    | nil => exact h
    | cons item items ih => exact ih _ (foldl_collectId_isIdList h _)
  exact hfold [] ⟨List.nodup_nil, List.not_mem_nil⟩

/-- The ids of a canonical record are the ids that were written. -/
theorem eventIds_canonical {record : Json} {ids : List String} (h : IsIdList ids)
    (hids : Json.get (metadata record) "event_ids" = .list (ids.map .str))
    (hlegacy : Json.get (metadata record) "event_id" = .null) : eventIds [record] = ids := by
  have htexts : (ids.map Json.str).map (fun id => (id.orElse (.str "")).pyStr) = ids := by
    rw [List.map_map]
    exact (List.map_congr_left fun id _ => Json.pyStr_orElse_empty id).trans (List.map_id ids)
  have hcandidates : idCandidates (metadata record) = ids ++ [""] := by
    unfold idCandidates
    rw [hids, hlegacy, List.map_append, htexts]
    simp
  have hcollect : ids.foldl collectId [] = ids :=
    foldl_collectId (show IsIdList ([] ++ ids) from h)
  simp [eventIds, hcandidates, hcollect, collectId]

/-- The ids that the records of one type know. -/
def knownIds (violationType : String) (violations : List Json) : List String :=
  eventIds (violations.filter (hasType violationType))

/-- The first record of the type has no turn number, or an integer. -/
def TurnNumbered (violationType : String) (violations : List Json) : Prop :=
  ∀ item ∈ violations, hasType violationType item →
    item.field "turn_number" = .null ∨ ∃ turn, item.field "turn_number" = .int turn

theorem turnNumber_ok {item : Json} (transcript : List Json)
    (h : item.field "turn_number" = .null ∨ ∃ turn, item.field "turn_number" = .int turn) :
    ∃ turn, turnNumber item transcript = .ok turn := by
  unfold turnNumber
  rcases h with h | ⟨turn, h⟩
  · rw [h]
    exact ⟨_, rfl⟩
  · rw [h, Json.orElse]
    split <;> exact ⟨_, rfl⟩

theorem turnNumber_headD {violationType : String} {violations : List Json}
    (h : TurnNumbered violationType violations) (transcript : List Json) :
    ∃ turn, turnNumber ((violations.filter (hasType violationType)).headD (.dict [])) transcript =
      .ok turn := by
  apply turnNumber_ok
  cases hfilter : violations.filter (hasType violationType) with
  | nil => exact .inl rfl
  | cons item rest =>
    have hitem : item ∈ violations.filter (hasType violationType) := by
      rw [hfilter]
      exact List.mem_cons_self
    obtain ⟨hmem, htype⟩ := List.mem_filter.mp hitem
    exact h item hmem htype

omit [Runtime] in
theorem TurnNumbered.of_filter {violationType : String} {violations : List Json} {record : Json}
    (h : violations.filter (hasType violationType) = [record])
    (hturn : ∃ turn, record.field "turn_number" = .int turn) :
    TurnNumbered violationType violations := by
  intro item hitem htype
  have hmem : item ∈ violations.filter (hasType violationType) := List.mem_filter.mpr ⟨hitem, htype⟩
  rw [h, List.mem_singleton] at hmem
  exact .inr (hmem ▸ hturn)

section TabSwitch

omit [Runtime] in
theorem tabSwitchCount_nonneg (violations : List Json) : 0 ≤ tabSwitchCount violations := by
  have hfold (counts : List ℤ) (n : ℤ) : n ≤ counts.foldl max n := by
    induction counts generalizing n with
    | nil => exact le_refl n
    | cons count counts ih => exact (le_max_left n count).trans (ih (max n count))
  exact (Int.natCast_nonneg _).trans (hfold _ _)

structure IsTabSwitchRecord (record : Json) (count : ℤ) (ids : List String) : Prop where
  type : hasType tabSwitchViolationType record
  turn : ∃ turn, record.field "turn_number" = .int turn
  counts : declaredCounts record = [count, count]
  ids : eventIds [record] = ids

theorem tabSwitchViolation_record {tabViolations transcript : List Json} {currentCount : ℤ}
    {incomingEventId occurredAt : String} {record : Json} (hcount : 0 ≤ currentCount)
    (hnew : incomingEventId ∉ eventIds tabViolations) (hid : incomingEventId ≠ "")
    (hrecord : tabSwitchViolation tabViolations transcript currentCount incomingEventId
      occurredAt = .ok record) :
    IsTabSwitchRecord record (currentCount + 1) (eventIds tabViolations ++ [incomingEventId]) := by
  obtain ⟨turn, _, hrecord⟩ := Outcomes.bind_eq_ok.mp hrecord
  cases hrecord
  have hids : IsIdList (eventIds tabViolations ++ [incomingEventId]) := by
    rw [← pushNew_of_not_mem hnew]
    exact (eventIds_isIdList tabViolations).pushNew hid
  refine ⟨by simp [hasType], ⟨turn, by simp⟩, ?_, ?_⟩
  · have hpositive : ¬ currentCount + 1 < 1 := by omega
    simp [declaredCounts, metadata, positiveInt, hpositive, List.reduceOption_cons_of_some]
  · exact eventIds_canonical hids (by simp [metadata]) (by simp [metadata])

theorem tabSwitchViolation_ok {violations : List Json}
    (h : TurnNumbered tabSwitchViolationType violations) (transcript : List Json)
    (currentCount : ℤ) (incomingEventId occurredAt : String) :
    ∃ record, tabSwitchViolation (violations.filter (hasType tabSwitchViolationType)) transcript
      currentCount incomingEventId occurredAt = .ok record := by
  obtain ⟨turn, hturn⟩ := turnNumber_headD h transcript
  simp only [tabSwitchViolation, hturn]
  exact ⟨_, rfl⟩

theorem tabSwitchCount_of_record {violations : List Json} {record : Json} {count : ℤ}
    {ids : List String} (h : violations.filter (hasType tabSwitchViolationType) = [record])
    (hrecord : IsTabSwitchRecord record count ids) (hcount : 1 ≤ count) :
    tabSwitchCount violations = count := by
  simp [tabSwitchCount, h, hrecord.counts, hcount]

end TabSwitch

end IBotCoreApi

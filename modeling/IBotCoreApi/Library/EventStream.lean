import Mathlib.Data.List.Basic

namespace EventStream

/-- A reader between two characters: the line so far, whether a carriage return has just ended one,
and the type and the data of the next event. -/
structure Reader where
  line : List Char
  afterReturn : Bool
  type : List Char
  data : List Char
  events : List (List Char × List Char)

def Reader.start : Reader := ⟨[], false, [], [], []⟩

def dropSpace : List Char → List Char
  | ' ' :: value => value
  | value => value

/-- A blank line dispatches the event, if it has data. -/
def Reader.dispatch (r : Reader) : Reader :=
  { r with
    type := []
    data := []
    events :=
      if r.data.isEmpty then r.events
      else r.events ++ [(if r.type.isEmpty then "message".toList else r.type, r.data.dropLast)] }

/-- A line that is not blank: a field, or a comment, whose field has no name. -/
def Reader.field (r : Reader) (line : List Char) : Reader :=
  let name := line.takeWhile (· != ':')
  let value := dropSpace ((line.dropWhile (· != ':')).drop 1)
  if name = "event".toList then { r with type := value }
  else if name = "data".toList then { r with data := r.data ++ value ++ ['\n'] }
  else r

def Reader.endLine (r : Reader) : Reader :=
  let next := if r.line.isEmpty then r.dispatch else r.field r.line
  { next with line := [] }

/-- A line ends with a line feed, a carriage return, or both. -/
def Reader.read (r : Reader) (c : Char) : Reader :=
  if c = '\n' then
    if r.afterReturn then { r with afterReturn := false } else r.endLine
  else if c = '\r' then { r.endLine with afterReturn := true }
  else { r with line := r.line ++ [c], afterReturn := false }

def decode (text : List Char) : List (List Char × List Char) :=
  (text.foldl Reader.read .start).events

inductive Chunk where
  | retry (time : List Char)
  | comment (text : List Char)
  | event (type data : List Char)

namespace Chunk

def text : Chunk → List Char
  | retry time => "retry: ".toList ++ time ++ "\n\n".toList
  | comment text => ": ".toList ++ text ++ "\n\n".toList
  | event type data =>
    "event: ".toList ++ type ++ "\ndata: ".toList ++ data ++ "\n\n".toList

theorem text_retry (time : List Char) :
    text (retry time) = "retry: ".toList ++ time ++ "\n\n".toList := rfl

theorem text_comment (line : List Char) :
    text (comment line) = ": ".toList ++ line ++ "\n\n".toList := rfl

theorem text_event (type data : List Char) :
    text (event type data) =
      "event: ".toList ++ type ++ "\ndata: ".toList ++ data ++ "\n\n".toList := rfl

def event? : Chunk → Option (List Char × List Char)
  | event type data => some (type, data)
  | _ => none

def OneLine (text : List Char) : Prop := ∀ c ∈ text, c ≠ '\n' ∧ c ≠ '\r'

def WellFormed : Chunk → Prop
  | retry time => OneLine time
  | comment text => OneLine text
  | event type data => type ≠ [] ∧ OneLine type ∧ OneLine data

end Chunk

open Chunk

/-- The reader stands at the beginning of a line that no carriage return ended. -/
structure Reader.AtLine (r : Reader) : Prop where
  line : r.line = []
  afterReturn : r.afterReturn = false

theorem read_text {line : List Char} (h : OneLine line) (r : Reader) (hr : r.afterReturn = false) :
    line.foldl Reader.read r = { r with line := r.line ++ line } := by
  induction line generalizing r with
  | nil => simp
  | cons c line ih =>
    obtain ⟨hc, hline⟩ := List.forall_mem_cons.mp h
    have hread : r.read c = { r with line := r.line ++ [c], afterReturn := false } := by
      unfold Reader.read
      rw [if_neg hc.1, if_neg hc.2]
    rw [List.foldl_cons, hread, ih hline _ rfl, List.append_assoc, hr]
    rfl

@[simp] theorem endLine_blank {r : Reader} (h : r.line = []) : r.endLine = r.dispatch := by
  obtain ⟨line, afterReturn, type, data, events⟩ := r
  obtain rfl : line = [] := h
  rfl

theorem endLine_field (r : Reader) {line : List Char} (hline : line ≠ []) (h : r.line = []) :
    { r with line := line }.endLine = r.field line := by
  obtain ⟨start, afterReturn, type, data, events⟩ := r
  obtain rfl : start = [] := h
  unfold Reader.endLine
  rw [if_neg (by simpa using hline)]
  unfold Reader.field
  dsimp only
  split_ifs <;> rfl

theorem Reader.AtLine.field {r : Reader} (h : r.AtLine) (line : List Char) :
    (r.field line).AtLine := by
  unfold Reader.field
  dsimp only
  split_ifs <;> exact ⟨h.line, h.afterReturn⟩

theorem read_blank {r : Reader} (h : r.AtLine) : r.read '\n' = r.dispatch := by
  unfold Reader.read
  rw [if_pos rfl, if_neg (by rw [h.afterReturn]; exact Bool.false_ne_true), endLine_blank h.line]

theorem read_line {line : List Char} (h : OneLine line) (hne : line ≠ []) {r : Reader}
    (hr : r.AtLine) : (line ++ ['\n']).foldl Reader.read r = r.field line := by
  rw [List.foldl_append, read_text h r hr.afterReturn, hr.line, List.nil_append, List.foldl_cons,
    List.foldl_nil, ← endLine_field r hne hr.line]
  unfold Reader.read
  rw [if_pos rfl, if_neg (by rw [hr.afterReturn]; exact Bool.false_ne_true)]

structure Reader.Idle (r : Reader) : Prop extends r.AtLine where
  type : r.type = []
  data : r.data = []

def Reader.receive (r : Reader) (event : Option (List Char × List Char)) : Reader :=
  { r with events := r.events ++ event.toList }

theorem Reader.Idle.receive {r : Reader} (h : r.Idle) (event : Option (List Char × List Char)) :
    (r.receive event).Idle :=
  { line := h.line, afterReturn := h.afterReturn, type := h.type, data := h.data }

theorem field_event (r : Reader) (value : List Char) :
    r.field ("event: ".toList ++ value) = { r with type := value } := by
  simp [Reader.field, dropSpace]

theorem field_data (r : Reader) (value : List Char) :
    r.field ("data: ".toList ++ value) = { r with data := r.data ++ value ++ ['\n'] } := by
  simp [Reader.field, dropSpace]

theorem field_retry (r : Reader) (value : List Char) : r.field ("retry: ".toList ++ value) = r := by
  simp [Reader.field]

theorem field_comment (r : Reader) (text : List Char) : r.field (": ".toList ++ text) = r := by
  simp [Reader.field]

theorem OneLine.append {first second : List Char} (hfirst : OneLine first)
    (hsecond : OneLine second) : OneLine (first ++ second) := by
  intro c hc
  rcases List.mem_append.mp hc with hc | hc
  · exact hfirst c hc
  · exact hsecond c hc

def Chunk.lines : Chunk → List (List Char)
  | retry time => ["retry: ".toList ++ time]
  | comment text => [": ".toList ++ text]
  | event type data => ["event: ".toList ++ type, "data: ".toList ++ data]

theorem Chunk.text_eq (chunk : Chunk) :
    chunk.text = chunk.lines.flatMap (· ++ ['\n']) ++ ['\n'] := by
  have hend : "\n\n".toList = ['\n'] ++ ['\n'] := by simp
  have hdata : "\ndata: ".toList = ['\n'] ++ "data: ".toList := by simp
  cases chunk with
  | retry time =>
    rw [Chunk.text_retry, Chunk.lines, List.flatMap_singleton, hend]
    simp only [List.append_assoc]
  | comment text =>
    rw [Chunk.text_comment, Chunk.lines, List.flatMap_singleton, hend]
    simp only [List.append_assoc]
  | event type data =>
    rw [Chunk.text_event, Chunk.lines, List.flatMap_cons, List.flatMap_singleton, hend, hdata]
    simp only [List.append_assoc]

theorem Chunk.WellFormed.lines {chunk : Chunk} (h : chunk.WellFormed) :
    ∀ line ∈ chunk.lines, line ≠ [] ∧ OneLine line := by
  have hretry : OneLine "retry: ".toList := by simp [OneLine]
  have hcomment : OneLine ": ".toList := by simp [OneLine]
  have hevent : OneLine "event: ".toList := by simp [OneLine]
  have hdata : OneLine "data: ".toList := by simp [OneLine]
  cases chunk with
  | retry time => simpa [Chunk.lines] using OneLine.append hretry h
  | comment text => simpa [Chunk.lines] using OneLine.append hcomment h
  | event type data =>
    obtain ⟨-, htype, hvalue⟩ := h
    simpa [Chunk.lines] using ⟨OneLine.append hevent htype, OneLine.append hdata hvalue⟩

theorem read_lines {lines : List (List Char)} (h : ∀ line ∈ lines, line ≠ [] ∧ OneLine line)
    {r : Reader} (hr : r.AtLine) :
    (lines.flatMap (· ++ ['\n'])).foldl Reader.read r = lines.foldl Reader.field r ∧
      (lines.foldl Reader.field r).AtLine := by
  induction lines generalizing r with
  | nil => exact ⟨rfl, hr⟩
  | cons line lines ih =>
    obtain ⟨⟨hne, hline⟩, hlines⟩ := List.forall_mem_cons.mp h
    rw [List.flatMap_cons, List.foldl_append, read_line hline hne hr]
    exact ih hlines (hr.field line)

theorem dispatch_lines {chunk : Chunk} (h : chunk.WellFormed) {r : Reader} (hr : r.Idle) :
    (chunk.lines.foldl Reader.field r).dispatch = r.receive chunk.event? := by
  obtain ⟨line, afterReturn, type, data, events⟩ := r
  obtain rfl : type = [] := hr.type
  obtain rfl : data = [] := hr.data
  cases chunk with
  | retry time =>
    simp only [Chunk.lines, List.foldl_cons, List.foldl_nil, field_retry]
    simp [Reader.dispatch, Reader.receive, Chunk.event?]
  | comment text =>
    simp only [Chunk.lines, List.foldl_cons, List.foldl_nil, field_comment]
    simp [Reader.dispatch, Reader.receive, Chunk.event?]
  | event type data =>
    simp only [Chunk.lines, List.foldl_cons, List.foldl_nil, field_event, field_data]
    simp [Reader.dispatch, Reader.receive, Chunk.event?, h.1]

theorem read_chunk {chunk : Chunk} (h : chunk.WellFormed) {r : Reader} (hr : r.Idle) :
    chunk.text.foldl Reader.read r = r.receive chunk.event? := by
  obtain ⟨hread, hline⟩ := read_lines h.lines hr.toAtLine
  rw [Chunk.text_eq, List.foldl_append, hread, List.foldl_cons, List.foldl_nil, read_blank hline,
    dispatch_lines h hr]

theorem read_chunks {chunks : List Chunk} (h : ∀ chunk ∈ chunks, chunk.WellFormed) {r : Reader}
    (hr : r.Idle) :
    ((chunks.flatMap Chunk.text).foldl Reader.read r).events =
      r.events ++ chunks.filterMap Chunk.event? := by
  induction chunks generalizing r with
  | nil => simp
  | cons chunk chunks ih =>
    obtain ⟨hchunk, hchunks⟩ := List.forall_mem_cons.mp h
    rw [List.flatMap_cons, List.foldl_append, read_chunk hchunk hr, ih hchunks (hr.receive _)]
    cases hevent : chunk.event? with
    | none => simp [Reader.receive, hevent]
    | some event => simp [Reader.receive, hevent]

/-- A client dispatches the events of the chunks, in order, and nothing else. -/
theorem decode_chunks {chunks : List Chunk} (h : ∀ chunk ∈ chunks, chunk.WellFormed) :
    decode (chunks.flatMap Chunk.text) = chunks.filterMap Chunk.event? := by
  have hstart : Reader.start.Idle := ⟨⟨rfl, rfl⟩, rfl, rfl⟩
  simpa [decode, Reader.start] using read_chunks h hstart

theorem Reader.field_events (r : Reader) (line : List Char) : (r.field line).events = r.events := by
  unfold Reader.field
  dsimp only
  split_ifs <;> rfl

theorem Reader.dispatch_events (r : Reader) : r.events <+: r.dispatch.events := by
  unfold Reader.dispatch
  dsimp only
  split_ifs
  · exact List.prefix_rfl
  · exact List.prefix_append _ _
  · exact List.prefix_append _ _

theorem Reader.endLine_events (r : Reader) : r.events <+: r.endLine.events := by
  unfold Reader.endLine
  dsimp only
  split_ifs
  · exact r.dispatch_events
  · exact (r.field_events r.line).symm ▸ List.prefix_rfl

theorem Reader.read_events (r : Reader) (c : Char) : r.events <+: (r.read c).events := by
  unfold Reader.read
  split_ifs
  · exact List.prefix_rfl
  · exact r.endLine_events
  · exact r.endLine_events
  · exact List.prefix_rfl

/-- A client that has a part of the text has dispatched the first events of the whole. -/
theorem decode_isPrefix {received text : List Char} (h : received <+: text) :
    decode received <+: decode text := by
  obtain ⟨rest, rfl⟩ := h
  unfold decode
  rw [List.foldl_append]
  generalize received.foldl Reader.read .start = r
  induction rest generalizing r with
  | nil => exact List.prefix_rfl
  | cons c rest ih => exact (r.read_events c).trans (ih (r.read c))

end EventStream

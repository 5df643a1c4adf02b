import Mathlib.Tactic.FinCases

namespace JsonTexts

variable {α : Type}

abbrev Reader (α : Type) := List Char → Option (α × List Char)

/-- The reader gets back what was written, and leaves the rest. -/
def Reads (read : Reader α) (write : α → List Char) : Prop :=
  ∀ value rest, read (write value ++ rest) = some (value, rest)

def Printable (text : List Char) : Prop := ∀ c ∈ text, 32 ≤ c.toNat

theorem Printable.append {first second : List Char} (hfirst : Printable first)
    (hsecond : Printable second) : Printable (first ++ second) := by
  intro c hc
  rcases List.mem_append.mp hc with hc | hc
  · exact hfirst c hc
  · exact hsecond c hc

/-- The escapes of one letter, each with the character it stands for. -/
def escapes : List (Char × Char) :=
  [('"', '"'), ('\\', '\\'), ('b', '\x08'), ('t', '\t'), ('n', '\n'), ('f', '\x0c'), ('r', '\r')]

def escapeChar (c : Char) : List Char :=
  match escapes.find? (·.2 == c) with
  | some escape => ['\\', escape.1]
  | none =>
    if c.toNat < 32 then ['\\', 'u', '0', '0', (c.toNat / 16).digitChar, (c.toNat % 16).digitChar]
    else [c]

def writeString (text : List Char) : List Char := '"' :: (text.flatMap escapeChar ++ ['"'])

def hexValue (digit : Char) : Option ℕ :=
  (List.range 16).find? (·.digitChar == digit.toLower)

def readEscape : Reader Char
  | 'u' :: a :: b :: c :: d :: rest => do
    let a ← hexValue a
    let b ← hexValue b
    let c ← hexValue c
    let d ← hexValue d
    return (Char.ofNat (((a * 16 + b) * 16 + c) * 16 + d), rest)
  | '/' :: rest => some ('/', rest)
  | letter :: rest => (escapes.lookup letter).map (·, rest)
  | [] => none

def readChar : Reader Char
  | '\\' :: rest => readEscape rest
  | c :: rest => if c = '"' ∨ c.toNat < 32 then none else some (c, rest)
  | [] => none

def readChars : ℕ → Reader (List Char)
  | 0, _ => none
  | fuel + 1, text =>
    if text.head? = some '"' then some ([], text.tail)
    else do
      let (c, rest) ← readChar text
      let (cs, rest) ← readChars fuel rest
      return (c :: cs, rest)

def readString : Reader (List Char)
  | '"' :: rest => readChars rest.length rest
  | _ => none

def writeMember (write : α → List Char) (entry : List Char × α) : List Char :=
  writeString entry.1 ++ ':' :: write entry.2

def writeMembers (write : α → List Char) : List (List Char × α) → List Char
  | [] => []
  | [entry] => writeMember write entry
  | entry :: entries => writeMember write entry ++ ',' :: writeMembers write entries

def writeObject (write : α → List Char) (entries : List (List Char × α)) : List Char :=
  '{' :: (writeMembers write entries ++ ['}'])

def readMember (read : Reader α) : Reader (List Char × α) := fun text => do
  let (key, rest) ← readString text
  if rest.head? ≠ some ':' then none
  let (value, rest) ← read rest.tail
  return ((key, value), rest)

/-- The members up to the closing brace, of which there is at least one. -/
def readMembers (read : Reader α) : ℕ → Reader (List (List Char × α))
  | 0, _ => none
  | fuel + 1, text => do
    let (entry, rest) ← readMember read text
    match rest with
    | '}' :: rest => return ([entry], rest)
    | ',' :: rest =>
      let (entries, rest) ← readMembers read fuel rest
      return (entry :: entries, rest)
    | _ => none

def readObject (read : Reader α) : Reader (List (List Char × α))
  | '{' :: '}' :: rest => some ([], rest)
  | '{' :: rest => readMembers read rest.length rest
  | _ => none

inductive Value where
  | text (text : List Char)
  | object (entries : List (List Char × List Char))

def writeValue : Value → List Char
  | .text text => writeString text
  | .object entries => writeObject writeString entries

def readValue : Reader Value := fun text =>
  if text.head? = some '"' then do
    let (text, rest) ← readString text
    return (.text text, rest)
  else do
    let (entries, rest) ← readObject readString text
    return (.object entries, rest)

def parse (text : List Char) : Option (List (List Char × Value)) :=
  match readObject readValue text with
  | some (entries, []) => some entries
  | _ => none

theorem hexValue_digitChar {n : ℕ} (h : n < 16) : hexValue n.digitChar = some n := by
  revert n
  decide

theorem readChar_escapeChar : Reads readChar escapeChar := by
  intro c rest
  unfold escapeChar
  cases hescape : escapes.find? (·.2 == c) with
  | some escape =>
    obtain rfl : escape.2 = c := by simpa using List.find?_some hescape
    have hmem := List.mem_of_find?_eq_some hescape
    fin_cases hmem <;> rfl
  | none =>
    by_cases hcontrol : c.toNat < 32
    · have hzero : hexValue '0' = some 0 := by decide
      have hhigh := hexValue_digitChar (show c.toNat / 16 < 16 by omega)
      have hlow := hexValue_digitChar (show c.toNat % 16 < 16 by omega)
      have hcode : ((0 * 16 + 0) * 16 + c.toNat / 16) * 16 + c.toNat % 16 = c.toNat := by omega
      simp only [if_pos hcontrol]
      change readEscape ('u' :: '0' :: '0' :: _ :: _ :: rest) = _
      simp only [readEscape, hzero, hhigh, hlow, Option.bind_eq_bind, Option.bind_some]
      rw [hcode, Char.ofNat_toNat]
      rfl
    · have hplain : ∀ escape ∈ escapes, escape.2 ≠ c := by
        simpa using List.find?_eq_none.mp hescape
      have hquote : c ≠ '"' := (hplain ('"', '"') (by simp [escapes])).symm
      have hslash : c ≠ '\\' := (hplain ('\\', '\\') (by simp [escapes])).symm
      simp only [if_neg hcontrol, List.cons_append, List.nil_append]
      unfold readChar
      split
      · rename_i heq
        exact absurd (List.cons.inj heq).1 hslash
      · rename_i heq
        obtain ⟨rfl, rfl⟩ := List.cons.inj heq
        rw [if_neg]
        rintro (h | h)
        · exact hquote h
        · exact hcontrol h
      · rename_i heq
        cases heq

theorem escapeChar_ne_nil (c : Char) : escapeChar c ≠ [] := by
  unfold escapeChar
  split
  · simp
  · split <;> simp

theorem head?_escapeChar (c : Char) (rest : List Char) :
    (escapeChar c ++ rest).head? ≠ some '"' := by
  intro h
  unfold escapeChar at h
  split at h
  · simp at h
  · rename_i hnone
    split at h
    · simp at h
    · have hc : c = '"' := by simpa using h
      subst hc
      cases hnone

theorem readChars_string (text rest : List Char) {fuel : ℕ} (h : text.length < fuel) :
    readChars fuel (text.flatMap escapeChar ++ '"' :: rest) = some (text, rest) := by
  induction text generalizing fuel with
  | nil =>
    obtain ⟨fuel, rfl⟩ := Nat.exists_eq_succ_of_ne_zero (Nat.ne_of_gt h)
    rfl
  | cons c text ih =>
    obtain ⟨fuel, rfl⟩ := Nat.exists_eq_succ_of_ne_zero (Nat.ne_zero_of_lt h)
    have hfuel : text.length < fuel := by simpa using h
    rw [List.flatMap_cons, List.append_assoc]
    unfold readChars
    rw [if_neg (head?_escapeChar c _), readChar_escapeChar c]
    simp [ih hfuel]

theorem length_le_flatMap_escapeChar (text : List Char) :
    text.length ≤ (text.flatMap escapeChar).length := by
  induction text with
  | nil => simp
  | cons c text ih =>
    have hpos := List.length_pos_iff.mpr (escapeChar_ne_nil c)
    simp only [List.flatMap_cons, List.length_append, List.length_cons]
    omega

theorem readString_writeString : Reads readString writeString := by
  intro text rest
  have hlength := length_le_flatMap_escapeChar text
  unfold writeString readString
  simp only [List.cons_append, List.append_assoc, List.nil_append]
  apply readChars_string
  simp only [List.length_append, List.length_cons]
  omega

theorem readMember_writeMember {read : Reader α} {write : α → List Char} (h : Reads read write) :
    Reads (readMember read) (writeMember write) := by
  intro entry rest
  obtain ⟨key, value⟩ := entry
  unfold readMember writeMember
  simp only [List.append_assoc, List.cons_append]
  rw [readString_writeString key]
  simp [h value rest]

theorem readMembers_writeMembers {read : Reader α} {write : α → List Char} (h : Reads read write)
    (entry : List Char × α) (entries : List (List Char × α)) (rest : List Char) {fuel : ℕ}
    (hfuel : entries.length < fuel) :
    readMembers read fuel (writeMembers write (entry :: entries) ++ '}' :: rest) =
      some (entry :: entries, rest) := by
  induction entries generalizing entry fuel with
  | nil =>
    obtain ⟨fuel, rfl⟩ := Nat.exists_eq_succ_of_ne_zero (Nat.ne_of_gt hfuel)
    unfold readMembers writeMembers
    rw [readMember_writeMember h entry]
    rfl
  | cons next entries ih =>
    obtain ⟨fuel, rfl⟩ := Nat.exists_eq_succ_of_ne_zero (Nat.ne_zero_of_lt hfuel)
    have hless : entries.length < fuel := by simpa using hfuel
    unfold readMembers writeMembers
    rw [List.append_assoc, readMember_writeMember h entry]
    simp [ih next hless]

theorem length_le_writeMembers (write : α → List Char) (entries : List (List Char × α)) :
    entries.length ≤ (writeMembers write entries).length := by
  induction entries with
  | nil => simp
  | cons entry entries ih =>
    cases entries with
    | nil => simp [writeMembers, writeMember]; omega
    | cons next entries =>
      simp only [writeMembers, writeMember, List.length_append, List.length_cons] at ih ⊢
      omega

theorem writeMembers_cons (write : α → List Char) (entry : List Char × α)
    (entries : List (List Char × α)) :
    ∃ text, writeMembers write (entry :: entries) = '"' :: text := by
  cases entries with
  | nil => exact ⟨_, rfl⟩
  | cons next entries => exact ⟨_, rfl⟩

theorem readObject_writeObject {read : Reader α} {write : α → List Char} (h : Reads read write) :
    Reads (readObject read) (writeObject write) := by
  intro entries rest
  cases entries with
  | nil => rfl
  | cons entry entries =>
    obtain ⟨text, htext⟩ := writeMembers_cons write entry entries
    have hlength := length_le_writeMembers write (entry :: entries)
    have hread : readObject read ('{' :: (writeMembers write (entry :: entries) ++ '}' :: rest)) =
        readMembers read (writeMembers write (entry :: entries) ++ '}' :: rest).length
          (writeMembers write (entry :: entries) ++ '}' :: rest) := by
      -- the text begins with a quote, so it is not that of an empty object
      rw [htext]
      rfl
    simp only [writeObject, List.cons_append, List.append_assoc, List.nil_append]
    rw [hread]
    apply readMembers_writeMembers h
    simp only [List.length_append, List.length_cons] at hlength ⊢
    omega

theorem readValue_writeValue : Reads readValue writeValue := by
  intro value rest
  cases value with
  | text text =>
    have hquote : (writeString text ++ rest).head? = some '"' := rfl
    simp [readValue, writeValue, hquote, readString_writeString text rest]
  | object entries =>
    have hbrace : (writeObject writeString entries ++ rest).head? = some '{' := rfl
    simp [readValue, writeValue, hbrace, readObject_writeObject readString_writeString entries rest]

theorem parse_writeObject (entries : List (List Char × Value)) :
    parse (writeObject writeValue entries) = some entries := by
  have hread := readObject_writeObject readValue_writeValue entries []
  rw [List.append_nil] at hread
  rw [parse, hread]

theorem printable_digitChar : ∀ n < 16, 32 ≤ n.digitChar.toNat := by decide

theorem printable_escapeChar (c : Char) : Printable (escapeChar c) := by
  unfold escapeChar
  split
  · rename_i escape hescape
    have hmem := List.mem_of_find?_eq_some hescape
    fin_cases hmem <;> simp [Printable]
  · split
    · have hhigh := printable_digitChar (c.toNat / 16) (by omega)
      have hlow := printable_digitChar (c.toNat % 16) (by omega)
      simp [Printable, hhigh, hlow]
    · rename_i hcontrol
      simpa [Printable] using hcontrol

theorem printable_writeString (text : List Char) : Printable (writeString text) := by
  have htext : Printable (text.flatMap escapeChar) := by
    intro c hc
    obtain ⟨d, -, hd⟩ := List.mem_flatMap.mp hc
    exact printable_escapeChar d c hd
  have hquote : Printable ['"'] := by simp [Printable]
  exact hquote.append (htext.append hquote)

theorem printable_writeMembers {write : α → List Char} (h : ∀ value, Printable (write value))
    (entries : List (List Char × α)) : Printable (writeMembers write entries) := by
  have hcolon : Printable [':'] := by simp [Printable]
  have hcomma : Printable [','] := by simp [Printable]
  have hmember : ∀ entry, Printable (writeMember write entry) := fun entry =>
    (printable_writeString entry.1).append (hcolon.append (h entry.2))
  induction entries with
  | nil => simp [writeMembers, Printable]
  | cons entry entries ih =>
    cases entries with
    | nil => exact hmember entry
    | cons next entries => exact (hmember entry).append (hcomma.append ih)

theorem printable_writeObject {write : α → List Char} (h : ∀ value, Printable (write value))
    (entries : List (List Char × α)) : Printable (writeObject write entries) := by
  have hopen : Printable ['{'] := by simp [Printable]
  have hclose : Printable ['}'] := by simp [Printable]
  exact hopen.append ((printable_writeMembers h entries).append hclose)

theorem printable_writeValue (value : Value) : Printable (writeValue value) := by
  cases value with
  | text text => exact printable_writeString text
  | object entries => exact printable_writeObject printable_writeString entries

end JsonTexts

/-
# Reading a line by byte offsets

A line is UTF-8, and a reader of its words needs no more than the number of bytes that it has
passed. It computes this number by hand: what is left behind the blanks is as long as the end is
far, a word is as long as the next blank or quotation mark is away, and the marks around a quoted
word are two bytes. It cuts the line at these numbers, which can be done only between characters
(`Text.cutAt?`).

It always can be done. An offset is the length of what a cursor has passed (`Cursor.offset`), and
each step of the one is the step of the other (`Offset.pull?_offset`). So what is passed is the row
of all stretches that were taken, with the blanks in front of each text and the quotation marks
around it (`Row`), and a text is never taken without an advance (`Pulls.chars_pos`). No line has
more words than bytes, and behind the last one there is nothing to take (`Offset.line_taken_once`).

Key definitions: `Text.cutAt?`, `Prompt.Offset`, `Prompt.Pull`, `Prompt.Stretch`, `Prompt.Row`,
`Offset.Reaches`.
Key theorems: `Offset.pull?_offset`, `Prompt.exists_pulls`, `Offset.line_taken_once`.
-/
import Mathlib.Data.String.Basic
import ProbeLink.Proofs.Words

namespace ProbeLink

open String (utf8Len)

/-! ### Bytes and characters of a text -/

namespace Text

/-- The text in front of byte `n` and the one from there on, unless `n` is within a character or
behind the end. -/
def cutAt? : List Char → ℕ → Option (List Char × List Char)
  | cs, 0 => some ([], cs)
  | [], _ + 1 => none
  | c :: r, n + 1 =>
    if c.utf8Size ≤ n + 1 then (cutAt? r (n + 1 - c.utf8Size)).map fun (a, b) => (c :: a, b)
    else none

/-- The byte at which the first character of a kind starts. -/
def find? (p : Char → Bool) : List Char → Option ℕ
  | [] => none
  | c :: r => if p c then some 0 else (find? p r).map (c.utf8Size + ·)

/-- A text can be cut between two characters. -/
theorem cutAt?_append : ∀ a b : List Char, cutAt? (a ++ b) (utf8Len a) = some (a, b)
  | [], b => by
    cases b <;> rfl
  | c :: a, b => by
    have hpos := c.utf8Size_pos
    obtain ⟨n, hn⟩ : ∃ n, utf8Len (c :: a) = n + 1 := ⟨utf8Len a + c.utf8Size - 1, by
      rw [String.utf8Len_cons]
      omega⟩
    have hfits : c.utf8Size ≤ n + 1 := by
      rw [← hn, String.utf8Len_cons]
      omega
    have hleft : n + 1 - c.utf8Size = utf8Len a := by
      rw [← hn, String.utf8Len_cons]
      omega
    rw [hn, List.cons_append, cutAt?, if_pos hfits, hleft, cutAt?_append a b]
    rfl

theorem find?_append {p : Char → Bool} {d : Char} (hd : p d = true) : ∀ {a : List Char},
    (∀ c ∈ a, p c = false) → ∀ b, find? p (a ++ d :: b) = some (utf8Len a)
  | [], _, b => by
    rw [List.nil_append, find?, if_pos hd]
    rfl
  | c :: a, h, b => by
    rw [List.forall_mem_cons] at h
    rw [List.cons_append, find?, h.1, find?_append hd h.2 b]
    simp [Nat.add_comm]

theorem find?_eq_none {p : Char → Bool} : ∀ {a : List Char}, (∀ c ∈ a, p c = false) →
    find? p a = none
  | [], _ => rfl
  | c :: a, h => by
    rw [List.forall_mem_cons] at h
    rw [find?, h.1, find?_eq_none h.2]
    rfl

/-- Where there is no such character, all is in front of it. -/
theorem getD_find? (p : Char → Bool) : ∀ cs : List Char,
    (find? p cs).getD (utf8Len cs) = utf8Len (cs.takeWhile (!p ·))
  | [] => rfl
  | c :: r => by
    have ih := getD_find? p r
    by_cases hc : p c = true
    · simp [find?, hc]
    · simp only [find?, hc, List.takeWhile_cons, Bool.not_false, if_true, String.utf8Len_cons,
        ← ih]
      cases find? p r with
      | none => simp
      | some n => simp [Nat.add_comm]

end Text

namespace Prompt

/-! ### The offset of a cursor -/

/-- A place in a line, told by the number of bytes in front of it. -/
structure Offset where
  line : List Char
  bytes : ℕ
  deriving DecidableEq, Repr

namespace Offset

/-- Moves on to the next character that is not blank, which is as far from the end as what is left
is long. -/
def skipBlanks? (o : Offset) : Option Offset := do
  let (_, left) ← Text.cutAt? o.line o.bytes
  let behind := utf8Len (Text.trimStart left)
  if behind ≤ utf8Len o.line then some { o with bytes := utf8Len o.line - behind } else none

/-- The number of bytes between the quotation mark that a text opens with and the next one. -/
def closing? : List Char → Option ℕ
  | '"' :: r => Text.find? (· = '"') r
  | _ => none

/-- The word that starts a text, and how many bytes it takes up. -/
def word? (cs : List Char) : Option (List Char × ℕ) :=
  match closing? cs with
  | some n => (Text.cutAt? (cs.drop 1) n).map fun (w, _) => (w, n + 2)
  | none =>
    let n := (Text.find? Text.isBlank cs).getD (utf8Len cs)
    (Text.cutAt? cs n).map fun (w, _) => (w, n)

/-- The next word and the offset behind it. -/
def next? (o : Offset) : Option (Option (List Char) × Offset) := do
  let o ← o.skipBlanks?
  if utf8Len o.line ≤ o.bytes then return (none, o)
  let (_, left) ← Text.cutAt? o.line o.bytes
  let (w, n) ← word? left
  return (some w, { o with bytes := o.bytes + n })

/-- All that is left from the next character that is not blank. -/
def takeRest? (o : Offset) : Option (Option (List Char) × Offset) := do
  let o ← o.skipBlanks?
  if utf8Len o.line ≤ o.bytes then return (none, o)
  let (_, left) ← Text.cutAt? o.line o.bytes
  return (some left, { o with bytes := utf8Len o.line })

end Offset

/-- The offset of a cursor. -/
def Cursor.offset (c : Cursor) : Offset := ⟨c.line, utf8Len c.passed⟩

namespace Offset

variable {c : Cursor}

/-- A line can be cut where a cursor is. -/
theorem cutAt?_offset (c : Cursor) :
    Text.cutAt? c.offset.line c.offset.bytes = some (c.passed, c.rest) :=
  Text.cutAt?_append c.passed c.rest

theorem skipBlanks?_offset (c : Cursor) : c.offset.skipBlanks? = some c.skipBlanks.offset := by
  have hline : utf8Len c.line = utf8Len c.skipBlanks.passed + utf8Len (Text.trimStart c.rest) := by
    rw [← Cursor.line_skipBlanks, Cursor.line, String.utf8Len_append, rest_skipBlanks]
    rfl
  rw [skipBlanks?, cutAt?_offset]
  simp only [Option.bind_eq_bind, Option.bind_some]
  rw [if_pos (by rw [Cursor.offset, hline]; omega)]
  simp [Cursor.offset, hline]

/-- A word takes up the bytes of its characters, with those of the quotation marks around it. -/
theorem word?_eq (cs : List Char) :
    word? cs = some ((Cursor.word cs).1, utf8Len (cs.take (Cursor.word cs).2)) := by
  by_cases hquoted : ∃ r, cs = '"' :: r ∧ '"' ∈ r
  · obtain ⟨r, rfl, hmem⟩ := hquoted
    obtain ⟨text, behind, rfl, hclosed⟩ := List.eq_append_cons_of_mem hmem
    have hfind : closing? ('"' :: (text ++ '"' :: behind)) = some (utf8Len text) :=
      Text.find?_append rfl (fun c hc => by simpa using ne_of_mem_of_not_mem hc hclosed) behind
    have hwhole : ('"' :: (text ++ '"' :: behind)).take (text.length + 2) =
        '"' :: (text ++ ['"']) := by
      rw [List.take_succ_cons, List.append_cons]
      exact congrArg _ (List.take_left' (by simp))
    have hbytes : utf8Len ('"' :: (text ++ ['"'])) = utf8Len text + 2 := by
      rw [String.utf8Len_cons, String.utf8Len_append]
      rfl
    rw [word?, hfind, word_quotation hclosed, hwhole, hbytes]
    simp only [List.drop_succ_cons, List.drop_zero, Text.cutAt?_append, Option.map_some]
  · have hunquoted : ∀ r, cs = '"' :: r → '"' ∉ r := fun r hr hmem => hquoted ⟨r, hr, hmem⟩
    have hopen : closing? cs = none := by
      unfold closing?
      split
      · exact Text.find?_eq_none fun c hc =>
          by simpa using ne_of_mem_of_not_mem hc (hunquoted _ rfl)
      · rfl
    have hcut := Text.cutAt?_append (cs.takeWhile (!Text.isBlank ·))
      (cs.dropWhile (!Text.isBlank ·))
    have hrun : cs.take (cs.takeWhile (!Text.isBlank ·)).length = cs.takeWhile (!Text.isBlank ·) :=
      (List.prefix_iff_eq_take.mp (List.takeWhile_prefix _)).symm
    rw [List.takeWhile_append_dropWhile] at hcut
    simp only [word?, hopen, Text.getD_find?, hcut, word_run hunquoted, hrun, Option.map_some]

theorem offset_advance (c : Cursor) (n : ℕ) :
    (c.advance n).offset = ⟨c.line, utf8Len c.passed + utf8Len (c.rest.take n)⟩ := by
  rw [Cursor.offset, Cursor.line_advance, Cursor.advance, String.utf8Len_append]

/-- The bytes are all in front just if no character is left. -/
theorem le_offset_iff (c : Cursor) : utf8Len c.offset.line ≤ c.offset.bytes ↔ c.rest = [] := by
  rw [← String.utf8Len_eq_zero]
  simp only [Cursor.offset, Cursor.line, String.utf8Len_append]
  omega

theorem next?_offset (c : Cursor) : c.offset.next? = some (c.next.1, c.next.2.offset) := by
  rw [next?, skipBlanks?_offset]
  simp only [Option.bind_eq_bind, Option.bind_some, Cursor.next]
  generalize c.skipBlanks = c
  by_cases hrest : c.rest = []
  · rw [if_pos ((le_offset_iff c).mpr hrest), if_pos hrest]
    rfl
  · rw [if_neg (mt (le_offset_iff c).mp hrest), if_neg hrest, cutAt?_offset]
    simp only [Option.bind_some, word?_eq, offset_advance]
    rfl

theorem takeRest?_offset (c : Cursor) :
    c.offset.takeRest? = some (c.takeRest.1, c.takeRest.2.offset) := by
  rw [takeRest?, skipBlanks?_offset]
  simp only [Option.bind_eq_bind, Option.bind_some, Cursor.takeRest]
  generalize c.skipBlanks = c
  by_cases hrest : c.rest = []
  · rw [if_pos ((le_offset_iff c).mpr hrest), if_pos hrest]
    rfl
  · rw [if_neg (mt (le_offset_iff c).mp hrest), if_neg hrest, cutAt?_offset]
    simp only [Option.bind_some, offset_advance, List.take_length]
    simp [Cursor.offset, Cursor.line]

end Offset

/-! ### Words and rests, one after the other -/

/-- What is taken off a line next. -/
inductive Pull where
  | word
  | rest
  deriving DecidableEq, Repr

namespace Cursor

/-- Takes it off the line. -/
def pull (c : Cursor) : Pull → Option (List Char) × Cursor
  | .word => c.next
  | .rest => c.takeRest

/-- Takes one after the other. -/
def pullAll (c : Cursor) : List Pull → List (Option (List Char)) × Cursor
  | [] => ([], c)
  | p :: ps =>
    let (text, c) := c.pull p
    let (texts, c) := c.pullAll ps
    (text :: texts, c)

@[simp] theorem line_pull (c : Cursor) (p : Pull) : (c.pull p).2.line = c.line := by
  cases p with
  | word => exact c.line_next
  | rest => exact c.line_takeRest

theorem line_pullAll : ∀ (c : Cursor) (ps : List Pull), (c.pullAll ps).2.line = c.line
  | _, [] => rfl
  | c, p :: ps => (line_pullAll (c.pull p).2 ps).trans (c.line_pull p)

end Cursor

namespace Offset

/-- Takes it off the line. -/
def pull? (o : Offset) : Pull → Option (Option (List Char) × Offset)
  | .word => o.next?
  | .rest => o.takeRest?

/-- Takes one after the other. -/
def pullAll? (o : Offset) : List Pull → Option (List (Option (List Char)) × Offset)
  | [] => some ([], o)
  | p :: ps => do
    let (text, o) ← o.pull? p
    let (texts, o) ← o.pullAll? ps
    return (text :: texts, o)

/-- **Offset and cursor** move together, and the offset never cuts a character. -/
theorem pull?_offset (c : Cursor) (p : Pull) :
    c.offset.pull? p = some ((c.pull p).1, (c.pull p).2.offset) := by
  cases p with
  | word => exact next?_offset c
  | rest => exact takeRest?_offset c

theorem pullAll?_offset : ∀ (c : Cursor) (ps : List Pull),
    c.offset.pullAll? ps = some ((c.pullAll ps).1, (c.pullAll ps).2.offset)
  | _, [] => rfl
  | c, p :: ps => by
    rw [pullAll?, pull?_offset]
    simp only [Option.bind_eq_bind, Option.bind_some, pullAll?_offset]
    rfl

end Offset

/-! ### What is taken off a line -/

/-- A stretch of a line that is taken off at once. -/
inductive Stretch where
  /-- Blanks, and no more. -/
  | gap (blanks : List Char)
  | bare (blanks text : List Char)
  /-- A text with quotation marks around it. -/
  | quoted (blanks text : List Char)
  deriving DecidableEq, Repr

namespace Stretch

/-- All characters of the stretch. -/
def chars : Stretch → List Char
  | .gap blanks => blanks
  | .bare blanks text => blanks ++ text
  | .quoted blanks text => blanks ++ '"' :: (text ++ ['"'])

/-- What comes of the stretch. -/
def text? : Stretch → Option (List Char)
  | .gap _ => none
  | .bare _ text => some text
  | .quoted _ text => some text

end Stretch

/-- A stretch is taken off in front of what is left. -/
inductive Pulls : Pull → Stretch → List Char → Prop where
  | gap {p : Pull} {blanks : List Char} (blank : Text.AllBlank blanks) : Pulls p (.gap blanks) []
  | bare {blanks text left : List Char} (blank : Text.AllBlank blanks) (some : text ≠ [])
      (full : ∀ c ∈ text, Text.isBlank c = false) (stops : ∀ c ∈ left.head?, Text.isBlank c = true)
      (unquoted : ∀ r, text ++ left = '"' :: r → '"' ∉ r) : Pulls .word (.bare blanks text) left
  | quoted {blanks text left : List Char} (blank : Text.AllBlank blanks) (closed : '"' ∉ text) :
      Pulls .word (.quoted blanks text) left
  | rest {blanks text : List Char} (blank : Text.AllBlank blanks) (some : text ≠ [])
      (starts : ∀ c ∈ text.head?, Text.isBlank c = false) : Pulls .rest (.bare blanks text) []

/-- Stretches are taken off a text one after the other, and something is left. -/
inductive Row : List Char → List Pull → List Stretch → List Char → Prop where
  | nil {cs : List Char} : Row cs [] [] cs
  | cons {cs left : List Char} {p : Pull} {ps : List Pull} {s : Stretch} {row : List Stretch}
      (first : Pulls p s cs) (rest : Row cs ps row left) :
      Row (s.chars ++ cs) (p :: ps) (s :: row) left

variable {cs left : List Char} {c : Cursor} {p : Pull} {ps : List Pull} {s : Stretch}
  {row : List Stretch} {ws : List Word}

/-- What gives a text has characters. -/
theorem Pulls.chars_pos (h : Pulls p s left) (some : s.text?.isSome = true) :
    0 < utf8Len s.chars := by
  refine Nat.pos_of_ne_zero fun hzero => ?_
  have hnil : s.chars = [] := String.utf8Len_eq_zero.mp hzero
  cases h with
  | gap => cases some
  | bare _ htext | rest _ htext => exact htext (List.append_eq_nil_iff.mp hnil).2
  | quoted => cases (List.append_eq_nil_iff.mp hnil).2

theorem Row.covers (h : Row cs ps row left) : cs = row.flatMap Stretch.chars ++ left := by
  induction h with
  | nil => rfl
  | cons _ _ ih =>
    nth_rewrite 1 [ih]
    rw [List.flatMap_cons, List.append_assoc]

/-- No more texts come of a row than it has bytes. -/
theorem Row.countP_le (h : Row cs ps row left) :
    (row.map Stretch.text?).countP Option.isSome ≤ utf8Len (row.flatMap Stretch.chars) := by
  induction h with
  | nil => exact le_rfl
  | @cons _ _ _ _ s _ first _ ih =>
    have hpos := first.chars_pos
    rw [List.flatMap_cons, String.utf8Len_append, List.map_cons, List.countP_cons]
    split_ifs with hsome
    · have := hpos hsome
      omega
    · omega

/-- Where only blanks are left there is nothing to take, and they are passed. -/
theorem pull_of_blank (h : Text.AllBlank c.rest) (p : Pull) :
    c.pull p = (none, c.skipBlanks) ∧ c.skipBlanks.rest = [] := by
  have hrest : c.skipBlanks.rest = [] := by
    rw [rest_skipBlanks, List.dropWhile_eq_nil_iff]
    exact h
  refine ⟨?_, hrest⟩
  cases p with
  | word => simp only [Cursor.pull, Cursor.next, hrest, if_true]
  | rest => simp only [Cursor.pull, Cursor.takeRest, hrest, if_true]

/-- A word is taken with the blanks in front of it. -/
theorem exists_pulls_word (h : ¬Text.AllBlank c.rest) : ∃ s, Pulls .word s c.next.2.rest ∧
    c.rest = s.chars ++ c.next.2.rest ∧ c.next.1 = s.text? := by
  obtain ⟨ws, hws⟩ := exists_splits c.rest
  generalize hcs : c.rest = cs at hws
  cases hws with
  | nil blank => exact absurd (hcs ▸ blank) h
  | @cons gap cs w ws blank first rest =>
    have hall : Splits c.rest (w :: ws) := hcs ▸ .cons blank first rest
    obtain ⟨c', hnext, hbehind, -⟩ := hall.next_cons
    rw [hnext, hbehind]
    cases first with
    | @quoted text behind closed =>
      refine ⟨.quoted gap text, .quoted blank closed, ?_, rfl⟩
      simp only [Stretch.chars, List.append_assoc, List.cons_append, List.nil_append]
    | @bare text behind some full stops unquoted =>
      refine ⟨.bare gap text, .bare blank some full stops unquoted, ?_, rfl⟩
      rw [Stretch.chars, List.append_assoc]

/-- The rest is taken with the blanks in front of it. -/
theorem exists_pulls_rest (h : ¬Text.AllBlank c.rest) : ∃ s, Pulls .rest s c.takeRest.2.rest ∧
    c.rest = s.chars ++ c.takeRest.2.rest ∧ c.takeRest.1 = s.text? := by
  have hsome : c.rest.dropWhile Text.isBlank ≠ [] := fun hnil =>
    h (List.dropWhile_eq_nil_iff.mp hnil)
  have htake : c.takeRest = (some (c.rest.dropWhile Text.isBlank),
      c.skipBlanks.advance (c.rest.dropWhile Text.isBlank).length) := by
    simp only [Cursor.takeRest, rest_skipBlanks, hsome, if_false]
  have hleft : c.takeRest.2.rest = [] := by
    rw [htake, Cursor.advance, rest_skipBlanks, List.drop_length]
  refine ⟨.bare (c.rest.takeWhile Text.isBlank) (c.rest.dropWhile Text.isBlank), ?_, ?_, ?_⟩
  · rw [hleft]
    exact .rest (fun _ => List.mem_takeWhile_imp) hsome (Text.head_dropWhile _)
  · rw [hleft, List.append_nil, Stretch.chars, List.takeWhile_append_dropWhile]
  · rw [htake]
    rfl

/-- **What is taken** is a stretch in front of what is left. -/
theorem exists_pulls (c : Cursor) (p : Pull) : ∃ s, Pulls p s (c.pull p).2.rest ∧
    c.rest = s.chars ++ (c.pull p).2.rest ∧ (c.pull p).1 = s.text? := by
  by_cases hblank : Text.AllBlank c.rest
  · obtain ⟨hpull, hleft⟩ := pull_of_blank hblank p
    rw [hpull, hleft]
    exact ⟨.gap c.rest, .gap hblank, (List.append_nil _).symm, rfl⟩
  · cases p with
    | word => exact exists_pulls_word hblank
    | rest => exact exists_pulls_rest hblank

/-- What is taken one after the other is a row. -/
theorem exists_row : ∀ (c : Cursor) (ps : List Pull), ∃ row,
    Row c.rest ps row (c.pullAll ps).2.rest ∧ (c.pullAll ps).1 = row.map Stretch.text?
  | c, [] => ⟨[], .nil, rfl⟩
  | c, p :: ps => by
    obtain ⟨s, hs, hcs, htext⟩ := exists_pulls c p
    obtain ⟨row, hrow, htexts⟩ := exists_row (c.pull p).2 ps
    refine ⟨s :: row, ?_, ?_⟩
    · rw [hcs]
      exact .cons hs hrow
    · rw [Cursor.pullAll, List.map_cons, ← htext, ← htexts]

/-- What has been passed is what was taken. -/
theorem passed_of_rest {c c' : Cursor} {taken : List Char} (hline : c'.line = c.line)
    (hrest : c.rest = taken ++ c'.rest) : c'.passed = c.passed ++ taken := by
  rw [Cursor.line, Cursor.line, hrest, ← List.append_assoc] at hline
  exact List.append_cancel_right hline

/-- Word by word a line gives its words, and after them nothing. -/
theorem pullAll_words : ∀ {ws : List Word} {c : Cursor}, Splits c.rest ws → ∀ n : ℕ,
    (c.pullAll (List.replicate (ws.length + n) .word)).1 =
      ws.map (fun w => some w.text) ++ List.replicate n none
  | [], c, _, 0 => rfl
  | [], c, h, n + 1 => by
    have hblank : Text.AllBlank c.rest := by
      generalize c.rest = cs at h
      cases h with
      | nil blank => exact blank
    obtain ⟨hpull, hleft⟩ := pull_of_blank hblank .word
    have hrest : Splits c.skipBlanks.rest [] := hleft ▸ .nil Text.allBlank_nil
    have ih := pullAll_words hrest n
    simp only [List.length_nil, Nat.zero_add, List.map_nil, List.nil_append] at ih ⊢
    rw [List.replicate_succ, List.replicate_succ, Cursor.pullAll, hpull]
    simp only [ih]
  | w :: ws, c, h, n => by
    obtain ⟨c', hnext, -, hrest⟩ := h.next_cons
    have ih := pullAll_words hrest n
    have hpull : c.pull .word = (some w.text, c') := hnext
    rw [List.length_cons, Nat.add_right_comm, List.replicate_succ, Cursor.pullAll, hpull]
    simp only [ih]
    rfl

namespace Offset

/-- The start of a line. -/
def start (line : String) : Offset := ⟨line.toList, 0⟩

/-- Reading a line has come to an offset by taking a row of stretches, and something is left. -/
structure Reaches (line : String) (ps : List Pull) (row : List Stretch) (left : List Char)
    (o : Offset) : Prop where
  taken : Row line.toList ps row left
  /-- All is taken once or left. -/
  covers : line.toList = row.flatMap Stretch.chars ++ left
  same : o.line = line.toList
  bytes : o.bytes = (String.ofList (row.flatMap Stretch.chars)).utf8ByteSize
  boundary : (⟨o.bytes⟩ : String.Pos.Raw).IsValid line
  le_end : o.bytes ≤ line.utf8ByteSize
  texts_le : (row.map Stretch.text?).countP Option.isSome ≤ o.bytes
  /-- Whatever is taken next can be taken, and the offset gets no smaller. If a text comes of it the
  offset grows. -/
  onward : ∀ p, ∃ text? o', o.pull? p = some (text?, o') ∧ o.bytes ≤ o'.bytes ∧
    (text?.isSome = true → o.bytes < o'.bytes)

/-- From the offset of a cursor there is a way on. -/
theorem onward (c : Cursor) (p : Pull) : ∃ text? o', c.offset.pull? p = some (text?, o') ∧
    c.offset.bytes ≤ o'.bytes ∧ (text?.isSome = true → c.offset.bytes < o'.bytes) := by
  obtain ⟨s, hs, hcs, htext⟩ := exists_pulls c p
  have hpassed := passed_of_rest (c.line_pull p) hcs
  refine ⟨_, _, pull?_offset c p, ?_⟩
  simp only [Cursor.offset, hpassed, String.utf8Len_append, htext]
  refine ⟨Nat.le_add_right _ _, fun hsome => ?_⟩
  have := hs.chars_pos hsome
  omega

/-- A row reaches the offset of the cursor that has passed its characters. -/
theorem reaches {line : String} (h : Row line.toList ps row left) :
    Reaches line ps row left (Cursor.offset ⟨row.flatMap Stretch.chars, left⟩) := by
  have hline : line = String.ofList (row.flatMap Stretch.chars) ++ String.ofList left := by
    rw [← String.ofList_append, ← h.covers, String.ofList_toList]
  have hbytes : (Cursor.offset ⟨row.flatMap Stretch.chars, left⟩).bytes =
      (String.ofList (row.flatMap Stretch.chars)).utf8ByteSize :=
    (String.utf8ByteSize_ofList _).symm
  have hboundary : (⟨(Cursor.offset ⟨row.flatMap Stretch.chars, left⟩).bytes⟩ :
      String.Pos.Raw).IsValid line :=
    String.Pos.Raw.isValid_iff_exists_append.mpr ⟨_, _, hline, congrArg String.Pos.Raw.mk hbytes⟩
  exact ⟨h, h.covers, h.covers.symm, hbytes, hboundary, hboundary.le_rawEndPos, h.countP_le,
    onward _⟩

/-- **A cursor takes a row of stretches** and has passed just their characters. -/
theorem exists_walk (line : String) (ps : List Pull) : ∃ row left, Row line.toList ps row left ∧
    (Cursor.ofLine line.toList).pullAll ps =
      (row.map Stretch.text?, ⟨row.flatMap Stretch.chars, left⟩) := by
  obtain ⟨row, hrow, htexts⟩ := exists_row (Cursor.ofLine line.toList) ps
  have hpassed := passed_of_rest (Cursor.line_pullAll (Cursor.ofLine line.toList) ps) hrow.covers
  refine ⟨row, _, hrow, Prod.ext htexts ?_⟩
  exact congrArg (Cursor.mk · _) hpassed

/-- **A line is taken once.** Whatever words and rests are taken off a line, in any order, each cut
falls between two characters and a cursor is given the same. The line up to the offset is what was
taken: blanks, and behind them texts with their quotation marks, in order and nothing else. A text
always brings the offset forward, and nothing brings it back. Word by word all words of the line are
taken, at most one for each byte, and after them there is none. -/
theorem line_taken_once (line : String) :
    (∀ ps, ∃ row left o, (start line).pullAll? ps = some (row.map Stretch.text?, o) ∧
      (Cursor.ofLine line.toList).pullAll ps =
        (row.map Stretch.text?, ⟨row.flatMap Stretch.chars, left⟩) ∧
      Reaches line ps row left o) ∧
    ∃ ws, Splits line.toList ws ∧ ws.length ≤ line.utf8ByteSize ∧ ∀ n, ∃ o,
      (start line).pullAll? (List.replicate (ws.length + n) .word) =
        some (ws.map (fun w => some w.text) ++ List.replicate n none, o) := by
  refine ⟨fun ps => ?_, ?_⟩
  · obtain ⟨row, left, hrow, hcursor⟩ := exists_walk line ps
    have hoffset := pullAll?_offset (Cursor.ofLine line.toList) ps
    rw [hcursor] at hoffset
    exact ⟨row, left, _, hoffset, hcursor, reaches hrow⟩
  · obtain ⟨ws, hws⟩ := exists_splits line.toList
    have hwords := fun n => pullAll_words (c := Cursor.ofLine line.toList) hws n
    refine ⟨ws, hws, ?_, fun n => ⟨_, hwords n ▸ pullAll?_offset _ _⟩⟩
    obtain ⟨row, left, hrow, hcursor⟩ := exists_walk line (List.replicate (ws.length + 0) .word)
    have hall : row.map Stretch.text? = ws.map fun w => some w.text := by
      have htexts := hwords 0
      rw [hcursor, List.replicate_zero, List.append_nil] at htexts
      exact htexts
    have hle := (reaches hrow).texts_le.trans (reaches hrow).le_end
    have hcount : (ws.map fun w => some w.text).countP Option.isSome = ws.length := by
      simp [List.countP_map, Function.comp_def]
    rwa [hall, hcount] at hle

/-- Blanks and letters can have several bytes, and quotation marks can have nothing between them. -/
example : let line := ['é', '\u00A0', '"', '"', ' ', '"', 'ß', ' ']
    pullAll? ⟨line, 0⟩ [.word, .word, .rest, .word] =
      some ([some ['é'], some [], some ['"', 'ß', ' '], none], ⟨line, 11⟩) := by
  decide

end Offset

end Prompt
end ProbeLink

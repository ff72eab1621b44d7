/-
# A line is its words

A line is read in one pass, which takes one word after the other and matches it at once. What
comes of it is told by the words alone. A line splits into words in just one way (`Splits`,
`Splits.unique`), whatever quotation marks and blanks stand in it, and the pass meets these words
(`Splits.next_cons`). The first names the command. The others have to be what the command takes,
from left to right: the first that is not, or is not there, decides the error, and a word too
many comes last (`Request.parse_by_words`).

A first word is compared in lowercase. The lowercase of letters beyond ASCII comes from a table
that grows with each version of Unicode (`Text.CaseTable`), but no version lets another word
name a command (`Verb.ofWord?_eq_some_iff`).

Key definitions: `Prompt.Begins`, `Prompt.Splits`, `Text.lowercase`, `Prompt.Names`,
`Prompt.Asks`, `Prompt.Defect`.
Key theorems: `Prompt.Splits.unique`, `Prompt.exists_splits`, `Prompt.Request.parse_by_words`.
-/
import Mathlib.Data.List.TakeWhile
import ProbeLink.Proofs.Numerals

namespace ProbeLink

namespace Text

/-- All characters are blank. -/
def AllBlank (cs : List Char) : Prop := ∀ c ∈ cs, isBlank c = true

instance (cs : List Char) : Decidable (AllBlank cs) := inferInstanceAs (Decidable (∀ c ∈ cs, _))

theorem allBlank_nil : AllBlank [] := List.forall_mem_nil _

theorem takeWhile_append_of_stop {p : Char → Bool} {xs ys : List Char} (h : ∀ c ∈ xs, p c = true)
    (hstop : ∀ c ∈ ys.head?, p c = false) : (xs ++ ys).takeWhile p = xs := by
  rw [List.takeWhile_append_of_pos h]
  cases ys with
  | nil => simp
  | cons y ys => simp [hstop y rfl]

theorem head_dropWhile {p : Char → Bool} (cs : List Char) :
    ∀ c ∈ (cs.dropWhile p).head?, p c = false := by
  intro c hc
  have hhead := List.head?_dropWhile_not p cs
  rw [hc] at hhead
  simpa using hhead

/-! ### Lowercase -/

/-- The lowercase of the characters beyond ASCII that stays beyond ASCII. It may depend on what
stands before and behind a character, as that of the sigma does. -/
structure CaseTable where
  beyond : List Char → Char → List Char → Char
  le_beyond : ∀ before c behind, 128 ≤ c.toNat → 128 ≤ (beyond before c behind).toNat

/-- A table for which no other character beyond ASCII has another lowercase. -/
def CaseTable.plain : CaseTable where
  beyond _ c _ := c
  le_beyond _ _ _ h := h

/-- The lowercase of one character. Beyond ASCII only the Kelvin sign and the capital I with a dot
have an ASCII letter in theirs. -/
def CaseTable.letter (table : CaseTable) (before : List Char) (c : Char) (behind : List Char) :
    List Char :=
  if c.toNat < 128 then [c.toLower]
  else if c = '\u212A' then ['k']
  else if c = '\u0130' then ['i', '\u0307']
  else [table.beyond before c behind]

/-- The lowercase of a text behind another one. -/
def lowercaseFrom (table : CaseTable) (before : List Char) : List Char → List Char
  | [] => []
  | c :: r => table.letter before c r ++ lowercaseFrom table (before ++ [c]) r

/-- The lowercase of a text. -/
def lowercase (table : CaseTable) (cs : List Char) : List Char := lowercaseFrom table [] cs

/-- In ASCII every character has one of its own. -/
theorem lowercaseFrom_of_ascii (table : CaseTable) : ∀ (before : List Char) {cs : List Char},
    (∀ c ∈ cs, c.toNat < 128) → lowercaseFrom table before cs = cs.map Char.toLower
  | _, [], _ => rfl
  | before, c :: r, h => by
    rw [List.forall_mem_cons] at h
    rw [lowercaseFrom, CaseTable.letter, if_pos h.1, lowercaseFrom_of_ascii table _ h.2]
    rfl

theorem letter_subset_lowercaseFrom (table : CaseTable) {c : Char} :
    ∀ (before : List Char) {cs : List Char}, c ∈ cs →
      ∃ before' behind, table.letter before' c behind ⊆ lowercaseFrom table before cs
  | before, d :: r, h => by
    rcases List.mem_cons.mp h with rfl | h
    · exact ⟨before, r, List.subset_append_left _ _⟩
    · obtain ⟨before', behind, hsub⟩ := letter_subset_lowercaseFrom table (before ++ [d]) h
      exact ⟨before', behind, List.subset_append_of_subset_right _ hsub⟩

/-- The lowercase of a character beyond ASCII has a `k` in it, or something beyond ASCII. -/
theorem exists_mem_letter (table : CaseTable) (before : List Char) {c : Char}
    (h : 128 ≤ c.toNat) (behind : List Char) :
    ∃ x ∈ table.letter before c behind, x = 'k' ∨ 128 ≤ x.toNat := by
  unfold CaseTable.letter
  rw [if_neg (by omega)]
  split_ifs
  · exact ⟨'k', List.mem_singleton_self _, .inl rfl⟩
  · exact ⟨'\u0307', by decide, .inr (by decide)⟩
  · exact ⟨_, List.mem_singleton_self _, .inr (table.le_beyond _ _ _ h)⟩

theorem toLower_of_le {c : Char} (h : 128 ≤ c.toNat) : c.toLower = c := by
  have hval : ¬(c.val ≥ 'A'.val ∧ c.val ≤ 'Z'.val) := by
    rintro ⟨-, hle⟩
    have hle' : c.toNat ≤ 90 := UInt32.le_iff_toNat_le.mp hle
    omega
  unfold Char.toLower
  exact dif_neg hval

end Text

namespace Prompt

/-! ### The words of a line -/

/-- A word of a line, and what stands behind it. -/
structure Word where
  text : List Char
  behind : List Char
  deriving DecidableEq, Repr

/-- A text begins with a word. If it opens with a quotation mark and there is another one further
on, the word is what stands between them, whatever that is. Every other word goes on up to the next
blank. -/
inductive Begins : List Char → Word → Prop where
  | quoted {text behind : List Char} (closed : '"' ∉ text) :
      Begins ('"' :: (text ++ '"' :: behind)) ⟨text, behind⟩
  | bare {text behind : List Char} (some : text ≠ []) (full : ∀ c ∈ text, Text.isBlank c = false)
      (stops : ∀ c ∈ behind.head?, Text.isBlank c = true)
      (unquoted : ∀ r, text ++ behind = '"' :: r → '"' ∉ r) :
      Begins (text ++ behind) ⟨text, behind⟩

/-- A line splits into words with blanks around them. -/
inductive Splits : List Char → List Word → Prop where
  | nil {cs : List Char} (blank : Text.AllBlank cs) : Splits cs []
  | cons {gap cs : List Char} {w : Word} {ws : List Word} (blank : Text.AllBlank gap)
      (first : Begins cs w) (rest : Splits w.behind ws) : Splits (gap ++ cs) (w :: ws)

variable {cs : List Char} {w : Word} {ws : List Word}

/-- What begins with a word begins with something that is not blank. -/
theorem Begins.eq_cons (h : Begins cs w) : ∃ c r, cs = c :: r ∧ Text.isBlank c = false := by
  cases h with
  | quoted => exact ⟨_, _, rfl, by decide⟩
  | @bare text behind some full =>
    obtain ⟨c, r, rfl⟩ := List.exists_cons_of_ne_nil some
    exact ⟨c, r ++ behind, rfl, full c List.mem_cons_self⟩

theorem word_quotation {text : List Char} (closed : '"' ∉ text) (behind : List Char) :
    Cursor.word ('"' :: (text ++ '"' :: behind)) = (text, text.length + 2) := by
  have hinner : (text ++ '"' :: behind).takeWhile (· ≠ '"') = text :=
    Text.takeWhile_append_of_stop
      (fun c hc => by simpa using ne_of_mem_of_not_mem hc closed) (by simp)
  have hlast : (text ++ '"' :: behind).contains '"' = true := by simp
  simp only [Cursor.word, hlast, if_true, hinner]

/-- Without a quotation in front the word is the run up to the next blank. A mark that is never
closed is a character like any other. -/
theorem word_run (unquoted : ∀ r, cs = '"' :: r → '"' ∉ r) :
    Cursor.word cs = (cs.takeWhile (!Text.isBlank ·), (cs.takeWhile (!Text.isBlank ·)).length) := by
  unfold Cursor.word
  split
  · rename_i r
    have hopen : r.contains '"' = false := by simpa using unquoted r rfl
    have hmark : Text.isBlank '"' = false := by decide
    simp only [hopen, Bool.false_eq_true, if_false, List.takeWhile_cons, hmark, Bool.not_false,
      if_true, List.length_cons]
  · rfl

/-- The cursor's word is the word that the text begins with. -/
theorem Begins.word (h : Begins cs w) :
    (Cursor.word cs).1 = w.text ∧ cs.drop (Cursor.word cs).2 = w.behind := by
  cases h with
  | @quoted text behind closed =>
    rw [word_quotation closed]
    refine ⟨rfl, ?_⟩
    rw [List.drop_succ_cons, List.append_cons]
    exact List.drop_left' (by simp)
  | @bare text behind some full stops unquoted =>
    have htake : (text ++ behind).takeWhile (!Text.isBlank ·) = text :=
      Text.takeWhile_append_of_stop (fun c hc => by simp [full c hc])
        (fun c hc => by simp [stops c hc])
    rw [word_run unquoted, htake]
    exact ⟨rfl, List.drop_left' rfl⟩

/-! ### The pass over the line -/

variable {c : Cursor}

theorem rest_skipBlanks (c : Cursor) : c.skipBlanks.rest = c.rest.dropWhile Text.isBlank := by
  have hsplit := List.takeWhile_append_dropWhile (p := Text.isBlank) (l := c.rest)
  have hdrop : (c.rest.takeWhile Text.isBlank ++ c.rest.dropWhile Text.isBlank).drop
      (c.rest.takeWhile Text.isBlank).length = c.rest.dropWhile Text.isBlank := List.drop_left
  rwa [hsplit] at hdrop

theorem Begins.dropWhile (h : Begins cs w) : cs.dropWhile Text.isBlank = cs := by
  obtain ⟨c, r, rfl, hc⟩ := h.eq_cons
  rw [List.dropWhile_cons_of_neg (by simp [hc])]

/-- At the end of the words there is no next one. -/
theorem Splits.next_nil (h : Splits c.rest []) : ∃ c', c.next = (none, c') := by
  have hrest : c.skipBlanks.rest = [] := by
    generalize hcs : c.rest = cs at h
    cases h with
    | nil blank => rw [rest_skipBlanks, hcs, List.dropWhile_eq_nil_iff.mpr blank]
  refine ⟨c.skipBlanks, ?_⟩
  simp only [Cursor.next, hrest, if_true]

/-- **The next word is the first of the words**, and the others are those of what is left. -/
theorem Splits.next_cons (h : Splits c.rest (w :: ws)) :
    ∃ c', c.next = (some w.text, c') ∧ c'.rest = w.behind ∧ Splits c'.rest ws := by
  generalize hcs : c.rest = line at h
  cases h with
  | @cons gap cs _ _ blank first rest =>
    have hskip : c.skipBlanks.rest = cs := by
      rw [rest_skipBlanks, hcs, List.dropWhile_append_of_pos blank, first.dropWhile]
    obtain ⟨htext, hbehind⟩ := first.word
    have hsome : cs ≠ [] := by
      obtain ⟨_, _, rfl, -⟩ := first.eq_cons
      exact List.cons_ne_nil _ _
    have hleft : (c.skipBlanks.advance (Cursor.word cs).2).rest = w.behind := by
      rw [Cursor.advance, hskip, hbehind]
    refine ⟨c.skipBlanks.advance (Cursor.word cs).2, ?_, hleft, hleft ▸ rest⟩
    simp only [Cursor.next, hskip, hsome, if_false, htext]

/-- **A line splits in one way only**: the pass over it meets the words of any split. -/
theorem Splits.unique (h : Splits cs ws) : ∀ {ws'}, Splits cs ws' → ws' = ws := by
  -- along one split; of the other one nothing is known but that the pass meets it, too
  induction h with
  | @nil cs blank =>
    rintro (_ | ⟨w', ws'⟩) h'
    · rfl
    · obtain ⟨_, hnext, -⟩ := Splits.next_cons (c := ⟨[], cs⟩) h'
      obtain ⟨_, hnone⟩ := Splits.next_nil (c := ⟨[], cs⟩) (.nil blank)
      cases hnext.symm.trans hnone
  | @cons gap cs w ws blank first rest ih =>
    have h : Splits (gap ++ cs) (w :: ws) := .cons blank first rest
    obtain ⟨c, hnext, hbehind, -⟩ := Splits.next_cons (c := ⟨[], gap ++ cs⟩) h
    rintro (_ | ⟨w', ws'⟩) h'
    · obtain ⟨_, hnone⟩ := Splits.next_nil (c := ⟨[], gap ++ cs⟩) h'
      cases hnext.symm.trans hnone
    · obtain ⟨c', hnext', hbehind', hrest'⟩ := Splits.next_cons (c := ⟨[], gap ++ cs⟩) h'
      obtain ⟨htext, rfl⟩ : w.text = w'.text ∧ c = c' := by
        simpa using hnext.symm.trans hnext'
      have hword : w' = w := by
        cases w
        cases w'
        simp_all
      rw [hbehind] at hrest'
      rw [hword, ih hrest']

/-- There need be no blanks in front. -/
theorem Splits.first (h : Begins cs w) (rest : Splits w.behind ws) : Splits cs (w :: ws) :=
  have hcons : Splits ([] ++ cs) (w :: ws) := .cons Text.allBlank_nil h rest
  hcons

/-- What begins with no blank begins with a word, and less than all is left behind it. -/
theorem exists_begins {d : Char} {r : List Char} (hd : Text.isBlank d = false) :
    ∃ w, Begins (d :: r) w ∧ w.behind.length < (d :: r).length := by
  by_cases hquoted : d = '"' ∧ '"' ∈ r
  · obtain ⟨rfl, hmem⟩ := hquoted
    obtain ⟨text, behind, rfl, hclosed⟩ := List.eq_append_cons_of_mem hmem
    refine ⟨_, .quoted hclosed, ?_⟩
    simp only [List.length_cons, List.length_append]
    omega
  · -- the whole run up to the next blank
    have hsplit := List.takeWhile_append_dropWhile (p := (!Text.isBlank ·)) (l := d :: r)
    have hsome : (d :: r).takeWhile (!Text.isBlank ·) ≠ [] := by
      rw [List.takeWhile_cons_of_pos (by simp [hd])]
      exact List.cons_ne_nil _ _
    have hstops : ∀ c ∈ ((d :: r).dropWhile (!Text.isBlank ·)).head?, Text.isBlank c = true :=
      fun c hc => by simpa using Text.head_dropWhile _ c hc
    have hbare := Begins.bare hsome (fun c hc => by simpa using List.mem_takeWhile_imp hc) hstops
      (by
        rw [hsplit]
        intro r' heq
        cases heq
        exact fun hmem => hquoted ⟨rfl, hmem⟩)
    rw [hsplit] at hbare
    refine ⟨_, hbare, ?_⟩
    have hlength := congrArg List.length hsplit
    have := List.length_pos_iff.mpr hsome
    rw [List.length_append] at hlength
    simp only
    omega

/-- **Every line splits into words.** -/
theorem exists_splits (cs : List Char) : ∃ ws, Splits cs ws := by
  induction hn : cs.length using Nat.strongRecOn generalizing cs with
  | ind n ih =>
    have hsplit := List.takeWhile_append_dropWhile (p := Text.isBlank) (l := cs)
    have hgap : Text.AllBlank (cs.takeWhile Text.isBlank) := fun _ => List.mem_takeWhile_imp
    cases hrest : cs.dropWhile Text.isBlank with
    | nil => exact ⟨[], .nil (List.dropWhile_eq_nil_iff.mp hrest)⟩
    | cons d r =>
      have hd : Text.isBlank d = false := Text.head_dropWhile cs d (by rw [hrest]; rfl)
      obtain ⟨w, hw, hlt⟩ := exists_begins (r := r) hd
      have hle : (d :: r).length ≤ cs.length := hrest ▸ List.length_dropWhile_le _ _
      obtain ⟨ws, hws⟩ := ih w.behind.length (by omega) w.behind rfl
      rw [hrest] at hsplit
      exact ⟨w :: ws, hsplit ▸ .cons hgap hw hws⟩

/-! ### What the first word names -/

/-- The spellings of a command. -/
def Verb.spellings : Verb → List String
  | .target => ["target"]
  | .registers => ["tracepoint-then-get-registers", "regs"]
  | .memory => ["tracepoint-then-get-memory", "mem"]
  | .arguments => ["tracepoint-then-get-arguments", "args"]
  | .send => ["send"]
  | .stats => ["stats"]
  | .disconnect => ["disconnect"]
  | .help => ["help"]
  | .clear => ["clear"]
  | .quit => ["quit", "exit"]

/-- Underscores are read as hyphens. -/
def hyphen (c : Char) : Char := if c = '_' then '-' else c

/-- A word names a command if its lowercase, with hyphens for underscores, is a spelling of it. -/
def Names (table : Text.CaseTable) (word : List Char) (verb : Verb) : Prop :=
  String.ofList ((Text.lowercase table word).map hyphen) ∈ verb.spellings

instance (table : Text.CaseTable) (word : List Char) (verb : Verb) :
    Decidable (Names table word verb) := inferInstanceAs (Decidable (_ ∈ _))

/-- Spellings are in ASCII, and there is no `k` in them. -/
theorem Verb.spellings_plain (verb : Verb) :
    ∀ s ∈ verb.spellings, ∀ c ∈ s.toList, c.toNat < 128 ∧ c ≠ 'k' := by
  cases verb <;> decide

theorem canonical_eq_lowercase (table : Text.CaseTable) {word : List Char}
    (h : ∀ c ∈ word, c.toNat < 128) :
    canonical word = String.ofList ((Text.lowercase table word).map hyphen) := by
  rw [Text.lowercase, Text.lowercaseFrom_of_ascii table [] h, List.map_map, canonical]
  refine congrArg String.ofList (List.map_congr_left fun c hc => ?_)
  exact Text.of_ascii (P := fun c => (if c = '_' then '-' else c.toLower) = hyphen c.toLower)
    (by decide) (h c hc)

theorem Verb.canonical_mem_iff (table : Text.CaseTable) (word : List Char) (verb : Verb) :
    canonical word ∈ verb.spellings ↔ Names table word verb := by
  by_cases hascii : ∀ c ∈ word, c.toNat < 128
  · rw [canonical_eq_lowercase table hascii, Names]
  · -- a character beyond ASCII leaves something in both that no spelling has
    obtain ⟨c, hc, hge⟩ : ∃ c ∈ word, 128 ≤ c.toNat := by simpa using hascii
    have hne : ∀ x : Char, x = 'k' ∨ 128 ≤ x.toNat → x ≠ '_' := by
      rintro x (rfl | hx)
      · decide
      · rintro rfl
        exact absurd hx (by decide)
    constructor
    · intro h
      have hmem : c ∈ (canonical word).toList := by
        rw [canonical, String.toList_ofList]
        refine List.mem_map.mpr ⟨c, hc, ?_⟩
        rw [if_neg (hne c (.inr hge)), Text.toLower_of_le hge]
      have := (verb.spellings_plain _ h c hmem).1
      omega
    · intro h
      obtain ⟨before, behind, hsub⟩ := Text.letter_subset_lowercaseFrom table [] hc
      obtain ⟨x, hx, hodd⟩ := Text.exists_mem_letter table before hge behind
      have hmem : x ∈ (String.ofList ((Text.lowercase table word).map hyphen)).toList := by
        rw [String.toList_ofList]
        exact List.mem_map.mpr ⟨x, hsub hx, if_neg (hne x hodd)⟩
      obtain ⟨hlt, hk⟩ := verb.spellings_plain _ h x hmem
      rcases hodd with rfl | hge'
      · exact absurd rfl hk
      · omega

/-- **The first word names a command** just if its lowercase is a spelling of it, in any version of
Unicode. -/
theorem Verb.ofWord?_eq_some_iff (table : Text.CaseTable) {word : List Char} {verb : Verb} :
    Verb.ofWord? word = some verb ↔ Names table word verb := by
  rw [← canonical_mem_iff, Verb.ofWord?]
  generalize canonical word = s
  constructor
  · intro h
    split at h
    all_goals
      cases h
    all_goals
      decide
  · intro h
    cases verb with
    | registers | memory | arguments | quit =>
      obtain rfl | rfl := by
        simpa only [spellings, List.mem_cons, List.not_mem_nil, or_false] using h
      · rfl
      · rfl
    | _ =>
      obtain rfl := by simpa only [spellings, List.mem_singleton] using h
      rfl

/-! ### What the words ask for -/

/-- The word `remote` in any case of ASCII. -/
def IsRemote (word : List Char) : Prop := word.map Char.toLower = ['r', 'e', 'm', 'o', 't', 'e']

instance (word : List Char) : Decidable (IsRemote word) := inferInstanceAs (Decidable (_ = _))

/-- What a command asks for that takes no arguments. -/
def Verb.alone? : Verb → Option Request
  | .stats => some .stats
  | .disconnect => some .disconnect
  | .help => some .help
  | .clear => some .clear
  | .quit => some .quit
  | _ => none

/-- What the words of a line ask for: the first names a command and the others are just its
arguments. What is sent is no word, but all that follows from the first character on that is not
blank. -/
inductive Asks (table : Text.CaseTable) : List Word → Request → Prop where
  | connect {head kind address : Word} (name : Names table head.text .target)
      (remote : IsRemote kind.text) :
      Asks table [head, kind, address] (.connect (String.ofList address.text))
  | registers {head symbol : Word} (name : Names table head.text .registers) :
      Asks table [head, symbol] (.registers (String.ofList symbol.text))
  | memory {head first second : Word} {addr length : UInt64} (name : Names table head.text .memory)
      (hfirst : readNumber first.text = .ok addr) (hsecond : readNumber second.text = .ok length) :
      Asks table [head, first, second] (.memory addr length)
  | arguments {head function : Word} (name : Names table head.text .arguments) :
      Asks table [head, function] (.arguments (String.ofList function.text))
  | send {head : Word} {args : List Word} (name : Names table head.text .send)
      (some : ¬Text.AllBlank head.behind) :
      Asks table (head :: args) (.send (String.ofList (Text.trimStart head.behind)))
  | alone {head : Word} {verb : Verb} {r : Request} (name : Names table head.text verb)
      (alone : verb.alone? = some r) : Asks table [head] r

/-- What a command takes at a place: the word `remote`, any word or a number. -/
inductive Slot where
  | remote
  | text (argument : Argument)
  | number (argument : Argument)

/-- What is missing if there is no word at the place. -/
def Slot.argument : Slot → Argument
  | .remote => .remote
  | .text argument => argument
  | .number argument => argument

def Slot.Accepts : Slot → List Char → Prop
  | .remote, word => IsRemote word
  | .text _, _ => True
  | .number _, word => ∃ n, readNumber word = .ok n

/-- The complaint about a word that is not accepted. Any word is accepted as a text. -/
def Slot.refusal : Slot → List Char → Error
  | .remote, word => .unknownTarget (String.ofList word)
  | .text _, word => .badNumber (String.ofList word)
  | .number _, word => .badNumber (String.ofList word)

/-- What a command takes, from left to right. -/
def Verb.slots : Verb → List Slot
  | .target => [.remote, .text .address]
  | .registers => [.text .symbol]
  | .memory => [.number .address, .number .length]
  | .arguments => [.text .functionName]
  | _ => []

/-- The kinds of errors. -/
inductive Family where
  | invalidCommand
  | missingArgument
  | invalidArgument

/-- The wording that the errors of a kind begin with. -/
def Family.lead : Family → String
  | .invalidCommand => "Invalid command: "
  | .missingArgument => "Missing argument: "
  | .invalidArgument => "Invalid argument: "

/-- The first defect of some arguments from the left. -/
inductive Misfits : List Slot → List Word → Family → Error → Prop where
  | missing {slot : Slot} {slots : List Slot} :
      Misfits (slot :: slots) [] .missingArgument (.missing slot.argument)
  | refused {slot : Slot} {slots : List Slot} {w : Word} {ws : List Word}
      (refused : ¬slot.Accepts w.text) :
      Misfits (slot :: slots) (w :: ws) .invalidArgument (slot.refusal w.text)
  | later {slot : Slot} {slots : List Slot} {w : Word} {ws : List Word} {family : Family}
      {e : Error} (accepted : slot.Accepts w.text) (later : Misfits slots ws family e) :
      Misfits (slot :: slots) (w :: ws) family e
  | surplus {w : Word} {ws : List Word} :
      Misfits [] (w :: ws) .invalidArgument (.surplus (String.ofList w.text))

/-- The first defect of a line from the left. -/
inductive Defect (table : Text.CaseTable) : List Word → Family → Error → Prop where
  | empty : Defect table [] .invalidCommand .emptyLine
  | unknown {head : Word} {args : List Word} (unknown : ∀ verb, ¬Names table head.text verb) :
      Defect table (head :: args) .invalidCommand (.unknownCommand (String.ofList head.text))
  | body {head : Word} {args : List Word} (name : Names table head.text .send)
      (blank : Text.AllBlank head.behind) :
      Defect table (head :: args) .missingArgument (.missing .packetBody)
  | argument {head : Word} {args : List Word} {verb : Verb} {family : Family} {e : Error}
      (name : Names table head.text verb) (words : verb ≠ .send)
      (misfits : Misfits verb.slots args family e) : Defect table (head :: args) family e

/-- The wording of a defect begins like that of all of its kind. -/
theorem Misfits.message {slots : List Slot} {family : Family} {e : Error}
    (h : Misfits slots ws family e) : ∃ detail, e.message = family.lead ++ detail := by
  induction h with
  | missing => exact ⟨_, rfl⟩
  | @refused slot _ w _ =>
    cases slot with
    | remote =>
      exact ⟨"Unknown target type: " ++ String.ofList w.text, by rw [← String.append_assoc]; rfl⟩
    | text | number =>
      exact ⟨"Invalid number: " ++ String.ofList w.text, by rw [← String.append_assoc]; rfl⟩
  | later _ _ ih => exact ih
  | @surplus w =>
    exact ⟨"Unexpected argument: " ++ String.ofList w.text, by rw [← String.append_assoc]; rfl⟩

theorem Defect.message {table : Text.CaseTable} {family : Family} {e : Error}
    (h : Defect table ws family e) : ∃ detail, e.message = family.lead ++ detail := by
  cases h with
  | empty => exact ⟨"Empty command", rfl⟩
  | @unknown head =>
    exact ⟨"Unknown command: " ++ String.ofList head.text, by rw [← String.append_assoc]; rfl⟩
  | body => exact ⟨_, rfl⟩
  | argument _ _ misfits => exact misfits.message

/-! ### The pass matches what the words ask for -/

theorem readNumber_cases (word : List Char) : (∃ n, readNumber word = .ok n) ∨
    readNumber word = .error (.badNumber (String.ofList word)) := by
  unfold readNumber
  split
  · exact .inl ⟨_, rfl⟩
  · exact .inr rfl

theorem required_nil (h : Splits c.rest []) (argument : Argument) :
    required argument c = .error (.missing argument) := by
  obtain ⟨c', hnext⟩ := h.next_nil
  simp only [required, hnext]

theorem required_cons (h : Splits c.rest (w :: ws)) (argument : Argument) :
    ∃ c', required argument c = .ok (w.text, c') ∧ Splits c'.rest ws := by
  obtain ⟨c', hnext, -, hrest⟩ := h.next_cons
  exact ⟨c', by simp only [required, hnext], hrest⟩

namespace Request

/-- The end of a line behind the arguments of a command: there must not be a word left. -/
def finish : Except Error (Request × Cursor) → Except Error Request
  | .error e => .error e
  | .ok (request, c) =>
    match c.next with
    | (some extra, _) => .error (.surplus (String.ofList extra))
    | (none, _) => .ok request

/-- The arguments of a command that takes one word as it is. -/
def single (argument : Argument) (ask : String → Request) (c : Cursor) :
    Except Error (Request × Cursor) := do
  let (word, c) ← required argument c
  return (ask (String.ofList word), c)

variable {verb : Verb} {r : Request} {family : Family} {e : Error} {line : String}

theorem finish_ok (h : Splits c.rest []) (r : Request) : finish (.ok (r, c)) = .ok r := by
  obtain ⟨_, hnext⟩ := h.next_nil
  simp only [finish, hnext]

theorem finish_surplus (h : Splits c.rest (w :: ws)) (r : Request) :
    finish (.ok (r, c)) = .error (.surplus (String.ofList w.text)) := by
  obtain ⟨_, hnext, -⟩ := h.next_cons
  simp only [finish, hnext]

/-- Behind the arguments the first defect is a word too many. -/
theorem finish_misfits (hs : Splits c.rest ws) (h : Misfits [] ws family e) (r : Request) :
    finish (.ok (r, c)) = .error e := by
  cases h with
  | surplus => exact finish_surplus hs r

theorem single_cons (h : Splits c.rest (w :: ws)) (argument : Argument) (ask : String → Request) :
    ∃ c', single argument ask c = .ok (ask (String.ofList w.text), c') ∧ Splits c'.rest ws := by
  obtain ⟨c', hrequired, hrest⟩ := required_cons h argument
  exact ⟨c', by rw [single, hrequired]; rfl, hrest⟩

theorem finish_single (h : Splits c.rest [w]) (argument : Argument) (ask : String → Request) :
    finish (single argument ask c) = .ok (ask (String.ofList w.text)) := by
  obtain ⟨c', hsingle, hrest⟩ := single_cons h argument ask
  rw [hsingle, finish_ok hrest]

theorem finish_single_misfits {argument : Argument} (hs : Splits c.rest ws)
    (h : Misfits [.text argument] ws family e) (ask : String → Request) :
    finish (single argument ask c) = .error e := by
  cases h with
  | missing => rw [single, required_nil hs]; rfl
  | refused refused => exact absurd trivial refused
  | later _ later =>
    obtain ⟨c', hsingle, hrest⟩ := single_cons hs argument ask
    rw [hsingle, finish_misfits hrest later]

/-- Behind `remote` the address is taken as it is. -/
theorem arguments_remote (h : Splits c.rest (w :: ws)) (remote : IsRemote w.text) :
    ∃ c', arguments? .target c = single .address .connect c' ∧ Splits c'.rest ws := by
  obtain ⟨c', hnext, -, hrest⟩ := h.next_cons
  refine ⟨c', ?_, hrest⟩
  simp only [arguments?, hnext]
  exact if_pos remote

/-- The first number is read before the second one is looked for. -/
theorem arguments_number (h : Splits c.rest (w :: ws)) {addr : UInt64}
    (number : readNumber w.text = .ok addr) :
    ∃ c', Splits c'.rest ws ∧ arguments? .memory c = do
      let (second, c) ← required .length c'
      let length ← readNumber second
      return (.memory addr length, c) := by
  obtain ⟨c', hrequired, hrest⟩ := required_cons h .address
  refine ⟨c', hrest, ?_⟩
  simp only [arguments?, hrequired, bind, Except.bind, number]

theorem arguments_alone (alone : verb.alone? = some r) (c : Cursor) :
    arguments? verb c = .ok (r, c) := by
  cases verb <;> cases alone <;> rfl

/-- **The arguments of a command fail with their first defect.** -/
theorem finish_of_misfits (hverb : verb ≠ .send) (hs : Splits c.rest ws)
    (h : Misfits verb.slots ws family e) : finish (arguments? verb c) = .error e := by
  cases verb with
  | target =>
    change Misfits [.remote, .text .address] ws family e at h
    cases h with
    | missing =>
      obtain ⟨c', hnext⟩ := hs.next_nil
      simp only [arguments?, hnext]
      rfl
    | refused refused =>
      obtain ⟨c', hnext, -⟩ := hs.next_cons
      simp only [arguments?, hnext]
      exact congrArg finish (if_neg refused)
    | later remote later =>
      obtain ⟨c', harguments, hrest⟩ := arguments_remote hs remote
      rw [harguments, finish_single_misfits hrest later]
  | registers => exact finish_single_misfits hs h _
  | arguments => exact finish_single_misfits hs h _
  | memory =>
    change Misfits [.number .address, .number .length] ws family e at h
    cases h with
    | missing =>
      rw [arguments?, required_nil hs]
      rfl
    | @refused _ _ w _ refused =>
      obtain ⟨c', hrequired, -⟩ := required_cons hs .address
      have hbad := (readNumber_cases w.text).resolve_left refused
      simp only [arguments?, hrequired, bind, Except.bind, hbad]
      rfl
    | later number later =>
      obtain ⟨addr, haddr⟩ := number
      obtain ⟨c', hrest, harguments⟩ := arguments_number hs haddr
      rw [harguments]
      -- the second number is looked for just if the first was one
      cases later with
      | missing =>
        rw [required_nil hrest]
        rfl
      | @refused _ _ w _ refused =>
        obtain ⟨c'', hrequired, -⟩ := required_cons hrest .length
        have hbad := (readNumber_cases w.text).resolve_left refused
        simp only [hrequired, bind, Except.bind, hbad]
        rfl
      | later number later =>
        obtain ⟨length, hlength⟩ := number
        obtain ⟨c'', hrequired, hrest'⟩ := required_cons hrest .length
        simp only [hrequired, bind, Except.bind, hlength]
        exact finish_misfits hrest' later _
  | send => exact absurd rfl hverb
  | stats | disconnect | help | clear | quit => exact finish_misfits hs h _

/-! ### The line as a whole -/

theorem parse_nil (h : Splits (Text.trim line.toList) []) : parse line = .error .emptyLine := by
  obtain ⟨_, hnext⟩ := Splits.next_nil (c := Cursor.ofLine (Text.trim line.toList)) h
  simp only [parse, hnext]

theorem parse_cons (h : Splits (Text.trim line.toList) (w :: ws)) :
    ∃ c : Cursor, c.rest = w.behind ∧ Splits c.rest ws ∧
      (Verb.ofWord? w.text = none → parse line = .error (.unknownCommand (String.ofList w.text))) ∧
      ∀ verb, Verb.ofWord? w.text = some verb → parse line = finish (arguments? verb c) := by
  obtain ⟨c, hnext, hbehind, hrest⟩ :=
    Splits.next_cons (c := Cursor.ofLine (Text.trim line.toList)) h
  refine ⟨c, hbehind, hrest, fun hnone => ?_, fun verb hsome => ?_⟩
  · simp only [parse, hnext, hnone]
  · simp only [parse, hnext, hsome]
    rfl

theorem takeRest_blank (h : Text.AllBlank c.rest) : ∃ c', c.takeRest = (none, c') := by
  have hnil : c.rest.dropWhile Text.isBlank = [] := List.dropWhile_eq_nil_iff.mpr h
  exact ⟨c.skipBlanks, by simp only [Cursor.takeRest, rest_skipBlanks, hnil, if_true]⟩

/-- All that is left is taken from its first character on that is not blank. -/
theorem takeRest_some (h : ¬Text.AllBlank c.rest) :
    ∃ c', c.takeRest = (some (Text.trimStart c.rest), c') ∧ Splits c'.rest [] := by
  have hsome : c.rest.dropWhile Text.isBlank ≠ [] := fun hnil =>
    h (List.dropWhile_eq_nil_iff.mp hnil)
  refine ⟨_, by simp only [Cursor.takeRest, rest_skipBlanks, hsome, if_false]; rfl, .nil ?_⟩
  simp only [Cursor.advance, rest_skipBlanks, List.drop_length]
  exact Text.allBlank_nil

/-- What the words ask for is what the line asks for. -/
theorem parse_of_asks {table : Text.CaseTable} (hs : Splits (Text.trim line.toList) ws)
    (h : Asks table ws r) : parse line = .ok r := by
  have hverb : ∀ {head : Word} {args : List Word} {verb : Verb}, ws = head :: args →
      Names table head.text verb → ∃ c : Cursor, c.rest = head.behind ∧ Splits c.rest args ∧
        parse line = finish (arguments? verb c) := by
    rintro head args verb rfl name
    obtain ⟨c, hbehind, hrest, -, hparse⟩ := parse_cons hs
    exact ⟨c, hbehind, hrest, hparse verb ((Verb.ofWord?_eq_some_iff table).mpr name)⟩
  cases h with
  | connect name remote =>
    obtain ⟨c, -, hrest, hparse⟩ := hverb rfl name
    obtain ⟨c', harguments, hrest'⟩ := arguments_remote hrest remote
    rw [hparse, harguments, finish_single hrest']
  | registers name =>
    obtain ⟨c, -, hrest, hparse⟩ := hverb rfl name
    exact hparse.trans (finish_single hrest .symbol .registers)
  | arguments name =>
    obtain ⟨c, -, hrest, hparse⟩ := hverb rfl name
    exact hparse.trans (finish_single hrest .functionName .arguments)
  | memory name hfirst hsecond =>
    obtain ⟨c, -, hrest, hparse⟩ := hverb rfl name
    obtain ⟨c', hrest', harguments⟩ := arguments_number hrest hfirst
    obtain ⟨c'', hrequired, hrest''⟩ := required_cons hrest' .length
    rw [hparse, harguments]
    simp only [hrequired, bind, Except.bind, hsecond]
    exact finish_ok hrest'' _
  | @send head args name some =>
    obtain ⟨c, hbehind, -, hparse⟩ := hverb rfl name
    obtain ⟨c', htake, hend⟩ := takeRest_some (hbehind ▸ some)
    simp only [hparse, arguments?, htake, hbehind]
    exact finish_ok hend _
  | alone name alone =>
    obtain ⟨c, -, hrest, hparse⟩ := hverb rfl name
    rw [hparse, arguments_alone alone, finish_ok hrest]

/-- The first defect of the words is that of the line. -/
theorem parse_of_defect {table : Text.CaseTable} (hs : Splits (Text.trim line.toList) ws)
    (h : Defect table ws family e) : parse line = .error e := by
  cases h with
  | empty => exact parse_nil hs
  | unknown unknown =>
    obtain ⟨c, -, -, hparse, -⟩ := parse_cons hs
    refine hparse (Option.eq_none_iff_forall_ne_some.mpr fun verb hsome => ?_)
    exact unknown verb ((Verb.ofWord?_eq_some_iff table).mp hsome)
  | body name blank =>
    obtain ⟨c, hbehind, -, -, hparse⟩ := parse_cons hs
    obtain ⟨c', htake⟩ := takeRest_blank (hbehind ▸ blank)
    simp only [hparse _ ((Verb.ofWord?_eq_some_iff table).mpr name), arguments?, htake]
    rfl
  | argument name words misfits =>
    obtain ⟨c, -, hrest, -, hparse⟩ := parse_cons hs
    rw [hparse _ ((Verb.ofWord?_eq_some_iff table).mpr name), finish_of_misfits words hrest misfits]

/-- Arguments are what a command takes, or they have a first defect. -/
theorem fits_or_misfits : ∀ (slots : List Slot) (ws : List Word),
    List.Forall₂ (fun slot w => slot.Accepts w.text) slots ws ∨
      ∃ family e, Misfits slots ws family e
  | [], [] => .inl .nil
  | [], _ :: _ => .inr ⟨_, _, .surplus⟩
  | _ :: _, [] => .inr ⟨_, _, .missing⟩
  | slot :: slots, w :: ws => by
    by_cases haccepted : slot.Accepts w.text
    · rcases fits_or_misfits slots ws with hfits | ⟨family, e, hmisfits⟩
      · exact .inl (.cons haccepted hfits)
      · exact .inr ⟨family, e, .later haccepted hmisfits⟩
    · exact .inr ⟨_, _, .refused haccepted⟩

/-- A command with just its arguments behind it asks for something. -/
theorem asks_of_fits {table : Text.CaseTable} (name : Names table w.text verb)
    (hverb : verb ≠ .send)
    (h : List.Forall₂ (fun slot w => slot.Accepts w.text) verb.slots ws) :
    ∃ r, Asks table (w :: ws) r := by
  cases verb with
  | target =>
    obtain ⟨kind, _, remote, h', rfl⟩ := List.forall₂_cons_left_iff.mp h
    obtain ⟨address, _, -, h'', rfl⟩ := List.forall₂_cons_left_iff.mp h'
    obtain rfl := List.forall₂_nil_left_iff.mp h''
    exact ⟨_, .connect name remote⟩
  | registers =>
    obtain ⟨symbol, _, -, h', rfl⟩ := List.forall₂_cons_left_iff.mp h
    obtain rfl := List.forall₂_nil_left_iff.mp h'
    exact ⟨_, .registers name⟩
  | arguments =>
    obtain ⟨function, _, -, h', rfl⟩ := List.forall₂_cons_left_iff.mp h
    obtain rfl := List.forall₂_nil_left_iff.mp h'
    exact ⟨_, .arguments name⟩
  | memory =>
    obtain ⟨first, _, ⟨addr, hfirst⟩, h', rfl⟩ := List.forall₂_cons_left_iff.mp h
    obtain ⟨second, _, ⟨length, hsecond⟩, h'', rfl⟩ := List.forall₂_cons_left_iff.mp h'
    obtain rfl := List.forall₂_nil_left_iff.mp h''
    exact ⟨_, .memory name hfirst hsecond⟩
  | send => exact absurd rfl hverb
  | stats | disconnect | help | clear | quit =>
    obtain rfl := List.forall₂_nil_left_iff.mp h
    exact ⟨_, .alone name rfl⟩

/-- **Words ask for something or have a first defect.** -/
theorem asks_or_defect (table : Text.CaseTable) :
    ∀ ws : List Word, (∃ r, Asks table ws r) ∨ ∃ family e, Defect table ws family e
  | [] => .inr ⟨_, _, .empty⟩
  | head :: args => by
    by_cases hverb : ∃ verb, Names table head.text verb
    · obtain ⟨verb, name⟩ := hverb
      by_cases hsend : verb = .send
      · subst hsend
        by_cases hblank : Text.AllBlank head.behind
        · exact .inr ⟨_, _, .body name hblank⟩
        · exact .inl ⟨_, .send name hblank⟩
      · rcases fits_or_misfits verb.slots args with hfits | ⟨family, e, hmisfits⟩
        · exact .inl (asks_of_fits name hsend hfits)
        · exact .inr ⟨family, e, .argument name hsend hmisfits⟩
    · exact .inr ⟨_, _, .unknown (not_exists.mp hverb)⟩

/-- **A line is understood by its words.** It splits into words in just one way. It asks for what
these words ask for, if they are a command and just its arguments, and otherwise the first defect
from the left decides the error and its kind. So it is for every table of lowercase letters. -/
theorem parse_by_words (table : Text.CaseTable) (line : String) :
    ∃ ws, Splits (Text.trim line.toList) ws ∧
      (∀ ws', Splits (Text.trim line.toList) ws' → ws' = ws) ∧
      (∀ r, parse line = .ok r ↔ Asks table ws r) ∧
      ∀ e, parse line = .error e ↔
        ∃ family, Defect table ws family e ∧ ∃ detail, e.message = family.lead ++ detail := by
  obtain ⟨ws, hs⟩ := exists_splits (Text.trim line.toList)
  refine ⟨ws, hs, fun ws' => hs.unique, fun r => ⟨fun h => ?_, parse_of_asks hs⟩, fun e =>
    ⟨fun h => ?_, fun ⟨family, hdefect, _⟩ => parse_of_defect hs hdefect⟩⟩
  · rcases asks_or_defect table ws with ⟨r', hasks⟩ | ⟨family, e, hdefect⟩
    · rwa [Except.ok.inj (h.symm.trans (parse_of_asks hs hasks))]
    · cases h.symm.trans (parse_of_defect hs hdefect)
  · rcases asks_or_defect table ws with ⟨r, hasks⟩ | ⟨family, e', hdefect⟩
    · cases h.symm.trans (parse_of_asks hs hasks)
    · obtain rfl := Except.error.inj (h.symm.trans (parse_of_defect hs hdefect))
      exact ⟨family, hdefect, hdefect.message⟩

end Request

end Prompt

end ProbeLink

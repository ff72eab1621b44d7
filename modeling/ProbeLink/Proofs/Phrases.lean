/-
# What is put between quotation marks is what is asked for

A word that names a command has no blank and no quotation mark in it (`Prompt.Names.plain`). So a
line can be written down word by word, with blanks between, and it splits into just these words
(`Prompt.Plain.splits`, `Prompt.splits_quoted`). Whatever text is put between quotation marks is
the argument as it stands, if it has no quotation mark in it; and what is sent is all that stands
behind the first word, quotation marks and all (`Prompt.Request.parse_phrased`).

Key definitions: `Prompt.Plain`, `Prompt.Phrase`.
Key theorems: `Text.trim_append`, `Prompt.Names.plain`, `Prompt.IsNumber.plain`,
`Prompt.Request.parse_phrased`.
-/
import ProbeLink.Proofs.Words

namespace ProbeLink

namespace Text

variable {lead cs trail : List Char}

theorem dropWhile_of_head {p : Char → Bool} (h : ∀ c ∈ cs.head?, p c = false) :
    cs.dropWhile p = cs := by
  cases cs with
  | nil => rfl
  | cons c r => rw [List.dropWhile_cons_of_neg (by simp [h c rfl])]

/-- **Only blanks at the ends are trimmed.** -/
theorem trim_append (hlead : AllBlank lead) (htrail : AllBlank trail)
    (hhead : ∀ c ∈ cs.head?, isBlank c = false) (hlast : ∀ c ∈ cs.getLast?, isBlank c = false) :
    trim (lead ++ cs ++ trail) = cs := by
  rcases eq_or_ne cs [] with rfl | hsome
  · have hblank : AllBlank (lead ++ [] ++ trail) := by
      rw [List.append_nil]
      exact fun c hc => (List.mem_append.mp hc).elim (hlead c) (htrail c)
    rw [trim, trimStart, List.dropWhile_eq_nil_iff.mpr hblank]
    rfl
  · have hstart : trimStart (lead ++ cs ++ trail) = cs ++ trail := by
      rw [List.append_assoc, trimStart, List.dropWhile_append_of_pos hlead]
      refine dropWhile_of_head fun c hc => hhead c ?_
      rwa [List.head?_append_of_ne_nil _ hsome] at hc
    have hback : ∀ c ∈ cs.reverse.head?, isBlank c = false := by rwa [List.head?_reverse]
    rw [trim, hstart, trimEnd, List.reverse_append,
      List.dropWhile_append_of_pos fun c hc => htrail c (List.mem_reverse.mp hc),
      dropWhile_of_head hback, List.reverse_reverse]

/-- There are no blanks at the ends of what was trimmed. -/
theorem trim_ends (cs : List Char) : (∀ c ∈ (trim cs).head?, isBlank c = false) ∧
    ∀ c ∈ (trim cs).getLast?, isBlank c = false := by
  constructor
  · have hfront : trim cs <+: trimStart cs := by
      rw [← List.reverse_suffix, trim, trimEnd, List.reverse_reverse]
      exact List.dropWhile_suffix _
    intro c hc
    obtain ⟨rest, hrest⟩ := hfront
    refine head_dropWhile cs c ?_
    obtain ⟨r, hr⟩ := List.head?_eq_some_iff.mp hc
    rw [trimStart, hr] at hrest
    rw [← hrest]
    rfl
  · rw [trim, trimEnd, List.getLast?_reverse]
    exact head_dropWhile _

/-- What has no blanks at its ends is not trimmed, and nothing else stays as it is. -/
theorem trim_eq_self_iff : trim cs = cs ↔
    (∀ c ∈ cs.head?, isBlank c = false) ∧ ∀ c ∈ cs.getLast?, isBlank c = false := by
  constructor
  · intro h
    rw [← h]
    exact trim_ends cs
  · rintro ⟨hhead, hlast⟩
    have htrim : trim ([] ++ cs ++ []) = cs := trim_append allBlank_nil allBlank_nil hhead hlast
    rwa [List.nil_append, List.append_nil] at htrim

theorem length_trim_le (cs : List Char) : (trim cs).length ≤ cs.length := by
  rw [trim, trimEnd, List.length_reverse]
  calc ((trimStart cs).reverse.dropWhile isBlank).length
      ≤ (trimStart cs).reverse.length := List.length_dropWhile_le _ _
    _ = (cs.dropWhile isBlank).length := List.length_reverse
    _ ≤ cs.length := List.length_dropWhile_le _ _

/-- Neither blanks nor quotation marks are letters. -/
theorem toLower_of_mark {c : Char} (h : isBlank c = true ∨ c = '"') : c.toLower = c := by
  by_cases hascii : c.toNat < 128
  · exact of_ascii (P := fun c => isBlank c = true ∨ c = '"' → c.toLower = c) (by decide) hascii h
  · exact toLower_of_le (by omega)

end Text

namespace Prompt

/-! ### Plain words -/

/-- The word can stand in a line without quotation marks, and it is no quotation. -/
structure Plain (word : List Char) : Prop where
  some : word ≠ []
  full : ∀ c ∈ word, Text.isBlank c = false
  unquoted : '"' ∉ word

instance (word : List Char) : Decidable (Plain word) :=
  decidable_of_iff (word ≠ [] ∧ (∀ c ∈ word, Text.isBlank c = false) ∧ '"' ∉ word)
    ⟨fun h => ⟨h.1, h.2.1, h.2.2⟩, fun h => ⟨h.some, h.full, h.unquoted⟩⟩

variable {table : Text.CaseTable} {word : List Char}

/-- A word is plain if it is one after its letters were changed. -/
theorem Plain.of_map {f : Char → Char} (hf : ∀ c, Text.isBlank c = true ∨ c = '"' → f c = c)
    (h : Plain (word.map f)) : Plain word where
  some := fun hnil => h.some (List.map_eq_nil_iff.mpr hnil)
  full := by
    intro c hc
    by_contra hblank
    rw [Bool.not_eq_false] at hblank
    have hfull := h.full (f c) (List.mem_map_of_mem hc)
    rw [hf c (.inl hblank), hblank] at hfull
    cases hfull
  unquoted := fun hquote =>
    h.unquoted (hf '"' (.inr rfl) ▸ List.mem_map_of_mem hquote)

theorem Verb.plain_of_mem_spellings (verb : Verb) : ∀ s ∈ verb.spellings, Plain s.toList := by
  cases verb <;> decide

/-- **A word that names a command is plain.** -/
theorem Names.plain {verb : Verb} (h : Names table word verb) : Plain word := by
  have hspelled := verb.plain_of_mem_spellings _ ((Verb.canonical_mem_iff table word verb).mpr h)
  rw [canonical, String.toList_ofList] at hspelled
  refine hspelled.of_map fun c hc => ?_
  rw [if_neg, Text.toLower_of_mark hc]
  rintro rfl
  exact absurd hc (by decide)

theorem IsRemote.plain (h : IsRemote word) : Plain word := by
  have hspelled : Plain (word.map Char.toLower) := h ▸ by decide
  exact hspelled.of_map fun c hc => Text.toLower_of_mark hc

theorem plain_isDigit {radix : ℕ} {c : Char} {v : ℕ} (h : Text.IsDigit radix c v) :
    Text.isBlank c = false ∧ c ≠ '"' := by
  have hall : ∀ c ∈ Text.lowerDigits ++ Text.upperDigits, Text.isBlank c = false ∧ c ≠ '"' := by
    decide
  refine hall c (List.mem_append.mpr ?_)
  exact h.2.imp List.mem_of_getElem? List.mem_of_getElem?

theorem Signed.plain {radix n : ℕ} {cs : List Char} (h : Text.Signed radix cs n) : Plain cs := by
  obtain ⟨digits, hcs, hdigits⟩ := h
  have hall : ∀ c ∈ digits, Text.isBlank c = false ∧ c ≠ '"' := fun c hc =>
    let ⟨_, hv⟩ := hdigits.digits c hc; plain_isDigit hv
  have hplain : Plain digits :=
    ⟨hdigits.ne_nil, fun c hc => (hall c hc).1, fun hquote => (hall _ hquote).2 rfl⟩
  rcases hcs with rfl | rfl
  · exact hplain
  · exact ⟨List.cons_ne_nil _ _, List.forall_mem_cons.mpr ⟨by decide, hplain.full⟩,
      by simpa using hplain.unquoted⟩

/-- **A number can be typed as a word.** -/
theorem IsNumber.plain {cs : List Char} {n : ℕ} (h : IsNumber cs n) : Plain cs := by
  cases h with
  | decimal numeral => exact Signed.plain numeral
  | @hex x cs _ mark numeral =>
    have hplain := Signed.plain numeral
    have hx : Text.isBlank x = false ∧ x ≠ '"' := by
      rcases mark with rfl | rfl <;> decide
    refine ⟨List.cons_ne_nil _ _, ?_, ?_⟩
    · exact List.forall_mem_cons.mpr ⟨by decide, List.forall_mem_cons.mpr ⟨hx.1, hplain.full⟩⟩
    · simpa [hx.2.symm] using hplain.unquoted

/-! ### Lines word by word -/

variable {gap behind w : List Char} {ws : List Word}

/-- Blanks end a word. -/
theorem stops_of_gap {gap : String} (hsome : gap ≠ "") (hgap : Text.AllBlank gap.toList)
    (behind : List Char) : ∀ c ∈ (gap.toList ++ behind).head?, Text.isBlank c = true := by
  obtain ⟨d, r, hcons⟩ := List.exists_cons_of_ne_nil (String.toList_eq_nil_iff.not.mpr hsome)
  rw [hcons] at hgap ⊢
  rintro c ⟨⟩
  exact hgap _ List.mem_cons_self

theorem Plain.begins (h : Plain word) (hstop : ∀ c ∈ behind.head?, Text.isBlank c = true) :
    Begins (word ++ behind) ⟨word, behind⟩ := by
  refine .bare h.some h.full hstop ?_
  intro r heq
  obtain ⟨c, r', rfl⟩ := List.exists_cons_of_ne_nil h.some
  obtain rfl := (List.cons.inj heq).1
  exact absurd List.mem_cons_self h.unquoted

/-- A plain word at the end goes on to the end. -/
theorem Plain.ends (h : Plain word) : Begins word ⟨word, []⟩ := by
  have hstop : ∀ c ∈ ([] : List Char).head?, Text.isBlank c = true := nofun
  simpa only [List.append_nil] using h.begins hstop

/-- A quotation at the end is the last of the words, whatever is quoted. -/
theorem splits_quoted (hgap : Text.AllBlank gap) (hw : '"' ∉ w) :
    Splits (gap ++ '"' :: (w ++ ['"'])) [⟨w, []⟩] :=
  .cons hgap (.quoted hw) (.nil Text.allBlank_nil)

theorem Plain.head (h : Plain word) (behind : List Char) :
    ∀ c ∈ (word ++ behind).head?, Text.isBlank c = false := by
  intro c hc
  rw [List.head?_append_of_ne_nil _ h.some] at hc
  exact h.full c (List.mem_of_mem_head? hc)

/-- A command that takes one text, as it is typed up to its argument. -/
inductive Phrase (table : Text.CaseTable) : String → (String → Request) → Prop where
  | registers {word : String} (name : Names table word.toList .registers) :
      Phrase table word .registers
  | arguments {word : String} (name : Names table word.toList .arguments) :
      Phrase table word .arguments
  | connect {word gap remote : String} (name : Names table word.toList .target)
      (apart : gap ≠ "") (blank : Text.AllBlank gap.toList) (kind : IsRemote remote.toList) :
      Phrase table (word ++ gap ++ remote) .connect

/-- A phrase begins with a character that is not blank. -/
theorem Phrase.head {phrase : String} {ask : String → Request} (h : Phrase table phrase ask) :
    phrase.toList ≠ [] ∧ ∀ c ∈ phrase.toList.head?, Text.isBlank c = false := by
  cases h with
  | registers name => exact ⟨name.plain.some, by simpa using name.plain.head []⟩
  | arguments name => exact ⟨name.plain.some, by simpa using name.plain.head []⟩
  | connect name =>
    rw [String.toList_append, String.toList_append, List.append_assoc]
    exact ⟨List.append_ne_nil_of_left_ne_nil name.plain.some _, name.plain.head _⟩

/-- A phrase with one word behind it asks for what this word says. -/
theorem Phrase.asks {phrase : String} {ask : String → Request} (h : Phrase table phrase ask)
    {argument : Word} (hstop : ∀ c ∈ behind.head?, Text.isBlank c = true)
    (hrest : Splits behind [argument]) :
    ∃ ws, Splits (phrase.toList ++ behind) ws ∧
      Asks table ws (ask (String.ofList argument.text)) := by
  cases h with
  | registers name => exact ⟨_, .first (name.plain.begins hstop) hrest, .registers name⟩
  | arguments name => exact ⟨_, .first (name.plain.begins hstop) hrest, .arguments name⟩
  | @connect word gap remote name apart blank kind =>
    have hkind : Splits (gap.toList ++ (remote.toList ++ behind)) _ :=
      .cons blank (kind.plain.begins hstop) hrest
    have hline : (word ++ gap ++ remote).toList ++ behind =
        word.toList ++ (gap.toList ++ (remote.toList ++ behind)) := by
      simp
    rw [hline]
    exact ⟨_, .first (name.plain.begins (stops_of_gap apart blank _)) hkind, .connect name kind⟩

/-- A line may have any blanks around what it says. -/
theorem Request.parse_written {line : String} {lead cs trail : List Char} {r : Request}
    (hline : line.toList = lead ++ cs ++ trail) (hlead : Text.AllBlank lead)
    (htrail : Text.AllBlank trail)
    (hhead : ∀ c ∈ cs.head?, Text.isBlank c = false)
    (hlast : ∀ c ∈ cs.getLast?, Text.isBlank c = false) (hs : Splits cs ws)
    (h : Asks table ws r) : parse line = .ok r := by
  refine parse_of_asks ?_ h
  rwa [hline, Text.trim_append hlead htrail hhead hlast]

/-- **What stands between quotation marks is the argument**, and what is sent stands as it is
typed. -/
theorem Request.parse_phrased (table : Text.CaseTable) {lead gap trail : String}
    (hlead : Text.AllBlank lead.toList) (hgap : Text.AllBlank gap.toList) (hsome : gap ≠ "")
    (htrail : Text.AllBlank trail.toList) :
    (∀ (phrase w : String) (ask : String → Request), Phrase table phrase ask → '"' ∉ w.toList →
      parse (lead ++ phrase ++ gap ++ "\"" ++ w ++ "\"" ++ trail) = .ok (ask w)) ∧
    ∀ word body : String, Names table word.toList .send → body ≠ "" →
      (∀ c ∈ body.toList.head?, Text.isBlank c = false) →
      (∀ c ∈ body.toList.getLast?, Text.isBlank c = false) →
      parse (lead ++ word ++ gap ++ body ++ trail) = .ok (.send body) := by
  constructor
  · intro phrase w ask hphrase hw
    obtain ⟨hphraseSome, hhead⟩ := hphrase.head
    obtain ⟨ws, hsplits, hasks⟩ := hphrase.asks (stops_of_gap hsome hgap _)
      (splits_quoted hgap hw)
    rw [String.ofList_toList] at hasks
    have hline : (lead ++ phrase ++ gap ++ "\"" ++ w ++ "\"" ++ trail).toList =
        lead.toList ++ (phrase.toList ++ (gap.toList ++ '"' :: (w.toList ++ ['"']))) ++
          trail.toList := by
      simp
    refine parse_written hline hlead htrail
      (by rwa [List.head?_append_of_ne_nil _ hphraseSome]) ?_ hsplits hasks
    rw [← List.append_assoc, ← List.cons_append, ← List.append_assoc, List.getLast?_concat]
    rintro c ⟨⟩
    decide
  · intro word body name hbody hhead hlast
    have hbodySome : body.toList ≠ [] := String.toList_eq_nil_iff.not.mpr hbody
    obtain ⟨ws, hws⟩ := exists_splits (gap.toList ++ body.toList)
    have hsplits := Splits.first (name.plain.begins (stops_of_gap hsome hgap _)) hws
    have hstart : Text.trimStart (gap.toList ++ body.toList) = body.toList := by
      rw [Text.trimStart, List.dropWhile_append_of_pos hgap, Text.dropWhile_of_head hhead]
    have hasks : Asks table (⟨word.toList, gap.toList ++ body.toList⟩ :: ws)
        (.send (String.ofList (Text.trimStart (gap.toList ++ body.toList)))) :=
      .send name fun hblank => hbodySome (hstart.symm.trans (List.dropWhile_eq_nil_iff.mpr hblank))
    rw [hstart, String.ofList_toList] at hasks
    have hline : (lead ++ word ++ gap ++ body ++ trail).toList =
        lead.toList ++ (word.toList ++ (gap.toList ++ body.toList)) ++ trail.toList := by
      simp
    refine parse_written hline hlead htrail (name.plain.head _) ?_ hsplits hasks
    rwa [← List.append_assoc, List.getLast?_append_of_ne_nil _ hbodySome]

/-- Blanks of several bytes around and inside a quoted path, and quotation marks that are sent. -/
theorem Request.parse_phrased_wide :
    Text.AllBlank "\t".toList ∧ Text.AllBlank "\u3000 ".toList ∧ "\u3000 " ≠ "" ∧
      Text.AllBlank "\n".toList ∧
      Phrase Text.CaseTable.plain ("Target" ++ "\u00A0" ++ "REMOTE") .connect ∧
      parse ("\t" ++ ("Target" ++ "\u00A0" ++ "REMOTE") ++ "\u3000 " ++ "\"" ++ " /dev/é\u2003" ++
        "\"" ++ "\n") = .ok (.connect " /dev/é\u2003") ∧
      parse ("\t" ++ "send" ++ "\u3000 " ++ "\"a\" b\"" ++ "\n") = .ok (.send "\"a\" b\"") := by
  have hlead : Text.AllBlank "\t".toList := by decide
  have hgap : Text.AllBlank "\u3000 ".toList := by decide
  have htrail : Text.AllBlank "\n".toList := by decide
  have hphrase : Phrase Text.CaseTable.plain ("Target" ++ "\u00A0" ++ "REMOTE") .connect :=
    .connect (by decide) (by decide) (by decide) (by decide)
  obtain ⟨hquoted, hsent⟩ :=
    parse_phrased Text.CaseTable.plain hlead hgap (by decide) htrail
  exact ⟨hlead, hgap, by decide, htrail, hphrase, hquoted _ _ _ hphrase (by decide),
    hsent _ _ (by decide) (by decide) (by decide) (by decide)⟩

end Prompt

end ProbeLink

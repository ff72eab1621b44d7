/-
# What is spelled in digits, and what a reply says

A text spells bytes if it has two digits of either case for each of them, the high half first
(`Hex.IsSpelling`). Reading digits gives just the bytes that are spelled (`Hex.decode_eq_ok_iff`),
whoever spells them; what is written is the spelling in lowercase (`Hex.encode_of_isSpelling`).

The five things that a payload can say are told apart by its form alone. No two forms have a
payload in common: an error code has an odd number of bytes, and neither the empty text nor `OK`
spells anything. So it does not matter in which order they are tried (`Reply.parse_classifies`).

Key definitions: `Hex.IsDigitOf`, `Hex.IsSpelling`, `Hex.lower`, `Reply.IsCode`.
Key theorems: `Hex.digitValue?_eq_some_iff`, `Hex.spells_iff`, `Hex.decode_eq_ok_iff`,
`Reply.parse_classifies`.
-/
import ProbeLink.Proofs.Encoding
import ProbeLink.Proofs.Provenance
import ProbeLink.Proofs.Typing

namespace ProbeLink

namespace Hex

/-! ### Digits -/

/-- The digits in the order of their values. -/
def lowercase : Bytes := asciiBytes "0123456789abcdef".toList
def uppercase : Bytes := asciiBytes "0123456789ABCDEF".toList

/-- The byte is the digit of one case or the other for a value. -/
def IsDigitOf (b : UInt8) (v : ℕ) : Prop := lowercase[v]? = some b ∨ uppercase[v]? = some b

instance (b : UInt8) (v : ℕ) : Decidable (IsDigitOf b v) := inferInstanceAs (Decidable (_ ∨ _))

theorem IsDigitOf.lt {b : UInt8} {v : ℕ} (h : IsDigitOf b v) : v < 16 := by
  rcases h with h | h <;> exact (List.getElem?_eq_some_iff.mp h).1

/-- What holds of the sixteen digits of both cases holds of every digit. -/
theorem IsDigitOf.elim {P : UInt8 → ℕ → Prop} {b : UInt8} {v : ℕ} (h : IsDigitOf b v)
    (hall : ∀ i : Fin 16, P (lowercase.getD i 0) i ∧ P (uppercase.getD i 0) i) : P b v := by
  have hi := hall ⟨v, h.lt⟩
  simp only [List.getD_eq_getElem?_getD] at hi
  rcases h with h | h
  · rw [h] at hi
    exact hi.1
  · rw [h] at hi
    exact hi.2

/-- **A digit is read as its value**, and nothing else is read as one. -/
theorem digitValue?_eq_some_iff {b d : UInt8} :
    digitValue? b = some d ↔ IsDigitOf b d.toNat := by
  constructor
  · have hall : ∀ i : Fin 256, ∀ d ∈ digitValue? (UInt8.ofNat i),
        IsDigitOf (UInt8.ofNat i) d.toNat := by
      decide +kernel
    intro h
    have hb := hall ⟨b.toNat, b.toNat_lt⟩ d
    rw [UInt8.ofNat_toNat] at hb
    exact hb h
  · intro h
    have hvalue : digitValue? b = some (UInt8.ofNat d.toNat) :=
      h.elim (P := fun b v => digitValue? b = some (UInt8.ofNat v)) (by decide)
    rwa [UInt8.ofNat_toNat] at hvalue

theorem exists_isDigitOf {b : UInt8} {d : UInt8} (h : digitValue? b = some d) :
    ∃ v, IsDigitOf b v := ⟨_, digitValue?_eq_some_iff.mp h⟩

/-- A digit that has a value has it as a byte. -/
theorem IsDigitOf.read {b : UInt8} {v : ℕ} (h : IsDigitOf b v) :
    ∃ d, digitValue? b = some d ∧ d.toNat = v := by
  have hv : (UInt8.ofNat v).toNat = v := by
    have := h.lt
    simp
    omega
  exact ⟨UInt8.ofNat v, digitValue?_eq_some_iff.mpr (hv.symm ▸ h), hv⟩

/-- The lowercase letter for a byte that is an uppercase one. -/
def lower (b : UInt8) : UInt8 := if 0x41 ≤ b ∧ b ≤ 0x5A then b + 0x20 else b

/-- A value is written with the lowercase digit. -/
theorem IsDigitOf.lower_eq {b : UInt8} {d : UInt8} (h : IsDigitOf b d.toNat) :
    lower b = digit d := by
  have hdigit : lower b = digit (UInt8.ofNat d.toNat) :=
    h.elim (P := fun b v => lower b = digit (UInt8.ofNat v)) (by decide)
  rwa [UInt8.ofNat_toNat] at hdigit

theorem isDigitOf_digit {d : UInt8} (h : d < 16) : IsDigitOf (digit d) d.toNat :=
  digitValue?_eq_some_iff.mp (digitValue?_digit h)

theorem IsDigitOf.ascii {b : UInt8} {v : ℕ} (h : IsDigitOf b v) : b < 0x80 :=
  h.elim (P := fun b _ => b < 0x80) (by decide)

/-! ### Two digits to a byte -/

/-- The value of two digits. -/
theorem toNat_pair {high low : UInt8} (hhigh : high.toNat < 16) (hlow : low.toNat < 16) :
    (high * 16 + low).toNat = 16 * high.toNat + low.toNat := by
  rw [UInt8.toNat_add, UInt8.toNat_mul]
  simp
  omega

/-- A byte is the value of its two halves, and of no others. -/
theorem halves_pair {high low : UInt8} (hhigh : high.toNat < 16) (hlow : low.toNat < 16) :
    (high * 16 + low) / 16 = high ∧ (high * 16 + low) % 16 = low := by
  have hpair := toNat_pair hhigh hlow
  constructor
  · rw [← UInt8.toNat_inj, UInt8.toNat_div, hpair]
    simp
    omega
  · rw [← UInt8.toNat_inj, UInt8.toNat_mod, hpair]
    simp
    omega

/-- A text spells bytes: for each of them it has two digits of either case, the high half
first. -/
structure IsSpelling (text data : Bytes) : Prop where
  length : text.length = 2 * data.length
  pairs : ∀ i b, data[i]? = some b → ∃ hi lo high low, text[2 * i]? = some hi ∧
    text[2 * i + 1]? = some lo ∧ IsDigitOf hi high ∧ IsDigitOf lo low ∧ b.toNat = 16 * high + low

theorem isSpelling_nil : IsSpelling [] [] := ⟨rfl, nofun⟩

theorem isSpelling_cons {hi lo b : UInt8} {text data : Bytes} :
    IsSpelling (hi :: lo :: text) (b :: data) ↔
    (∃ high low, IsDigitOf hi high ∧ IsDigitOf lo low ∧ b.toNat = 16 * high + low) ∧
      IsSpelling text data := by
  constructor
  · rintro ⟨hlength, hpairs⟩
    refine ⟨?_, ?_, fun i c hc => ?_⟩
    · obtain ⟨hi', lo', high, low, h1, h2, hdigits⟩ := hpairs 0 b rfl
      obtain rfl : hi = hi' := Option.some.inj h1
      obtain rfl : lo = lo' := Option.some.inj h2
      exact ⟨high, low, hdigits⟩
    · simp only [List.length_cons] at hlength
      omega
    · exact hpairs (i + 1) c hc
  · rintro ⟨⟨high, low, hdigits⟩, hlength, hpairs⟩
    refine ⟨?_, fun i c hc => ?_⟩
    · simp only [List.length_cons]
      omega
    · cases i with
      | zero =>
        obtain rfl : b = c := Option.some.inj hc
        exact ⟨hi, lo, high, low, rfl, rfl, hdigits⟩
      | succ i => exact hpairs i c hc

/-- **Spelling pair by pair** is spelling place by place. -/
theorem spells_iff {text data : Bytes} : Spells text data ↔ IsSpelling text data := by
  constructor
  · intro h
    induction h with
    | nil => exact isSpelling_nil
    | @cons hi lo high low text data first second rest ih =>
      have hhigh := digitValue?_eq_some_iff.mp first
      have hlow := digitValue?_eq_some_iff.mp second
      exact isSpelling_cons.mpr ⟨⟨_, _, hhigh, hlow, toNat_pair hhigh.lt hlow.lt⟩, ih⟩
  · intro h
    induction data generalizing text with
    | nil =>
      obtain rfl := List.eq_nil_of_length_eq_zero h.length
      exact .nil
    | cons b data ih =>
      match text, h with
      | [], h => cases h.length
      | [_], h =>
        have hlength := h.length
        simp only [List.length_cons, List.length_nil] at hlength
        omega
      | hi :: lo :: text, h =>
        obtain ⟨⟨high, low, hhigh, hlow, hb⟩, hrest⟩ := isSpelling_cons.mp h
        obtain ⟨d, hd, rfl⟩ := hhigh.read
        obtain ⟨d', hd', rfl⟩ := hlow.read
        obtain rfl : d * 16 + d' = b :=
          UInt8.toNat_inj.mp ((toNat_pair hhigh.lt hlow.lt).trans hb.symm)
        exact .cons hd hd' (ih hrest)

/-! ### What is read and what is written -/

theorem decodePairs_of_spells {text data : Bytes} (h : Spells text data) :
    ∀ index, decodePairs index text = .ok data := by
  induction h with
  | nil => exact fun _ => rfl
  | cons first second _ ih =>
    intro index
    simp only [decodePairs, first, second, ih]

/-- **Digits are read just as what they spell.** -/
theorem decode_eq_ok_iff {text data : Bytes} : decode text = .ok data ↔ IsSpelling text data := by
  rw [← spells_iff]
  constructor
  · intro h
    unfold decode at h
    split at h
    · cases h
    · exact spells_of_decodePairs (by omega) h
  · intro h
    have hlength := (spells_iff.mp h).length
    unfold decode
    rw [if_neg (by omega)]
    exact decodePairs_of_spells h 0

/-- A text spells one list of bytes at most. -/
theorem IsSpelling.unique {text data data' : Bytes} (h : IsSpelling text data)
    (h' : IsSpelling text data') : data = data' := by
  have hsame := (decode_eq_ok_iff.mpr h).symm.trans (decode_eq_ok_iff.mpr h')
  exact Except.ok.inj hsame

/-- **What is written is the spelling in lowercase.** -/
theorem encode_of_isSpelling {text data : Bytes} (h : IsSpelling text data) :
    encode data = text.map lower := by
  induction spells_iff.mpr h with
  | nil => rfl
  | @cons hi lo high low text data first second rest ih =>
    have hhigh := digitValue?_eq_some_iff.mp first
    have hlow := digitValue?_eq_some_iff.mp second
    obtain ⟨hdiv, hmod⟩ := halves_pair hhigh.lt hlow.lt
    have hpair : digitPair (high * 16 + low) = [lower hi, lower lo] := by
      rw [digitPair, hdiv, hmod, hhigh.lower_eq, hlow.lower_eq]
    rw [encode, List.flatMap_cons, hpair, ← encode, ih (spells_iff.mp rest)]
    rfl

/-- What is written spells the bytes. -/
theorem isSpelling_encode (data : Bytes) : IsSpelling (encode data) data := by
  induction data with
  | nil => exact isSpelling_nil
  | cons b data ih =>
    have hdiv : b / 16 < 16 := by
      have := b.toNat_lt
      rw [UInt8.lt_iff_toNat_lt, UInt8.toNat_div]
      simp
      omega
    have hmod : b % 16 < 16 := by
      rw [UInt8.lt_iff_toNat_lt, UInt8.toNat_mod]
      simp
      omega
    refine isSpelling_cons.mpr ⟨⟨_, _, isDigitOf_digit hdiv, isDigitOf_digit hmod, ?_⟩, ih⟩
    rw [UInt8.toNat_div, UInt8.toNat_mod]
    simp
    omega

theorem exists_isSpelling : ∀ {text : Bytes}, text.length % 2 = 0 →
    (∀ b ∈ text, ∃ v, IsDigitOf b v) → ∃ data, IsSpelling text data
  | [], _, _ => ⟨[], isSpelling_nil⟩
  | [_], heven, _ => by cases heven
  | hi :: lo :: text, heven, hdigits => by
    rw [List.forall_mem_cons, List.forall_mem_cons] at hdigits
    obtain ⟨⟨high, hhigh⟩, ⟨low, hlow⟩, hrest⟩ := hdigits
    have heven' : text.length % 2 = 0 := by
      simp only [List.length_cons] at heven
      omega
    obtain ⟨data, hdata⟩ := exists_isSpelling heven' hrest
    obtain ⟨d, -, rfl⟩ := hhigh.read
    obtain ⟨d', -, rfl⟩ := hlow.read
    exact ⟨(d * 16 + d') :: data,
      isSpelling_cons.mpr ⟨⟨_, _, hhigh, hlow, toNat_pair hhigh.lt hlow.lt⟩, hdata⟩⟩

theorem IsSpelling.digits {text data : Bytes} (h : IsSpelling text data) :
    ∀ b ∈ text, ∃ v, IsDigitOf b v := by
  induction spells_iff.mpr h with
  | nil => exact nofun
  | cons first second rest ih =>
    rw [List.forall_mem_cons, List.forall_mem_cons]
    exact ⟨exists_isDigitOf first, exists_isDigitOf second, ih (spells_iff.mp rest)⟩

/-- A text of ASCII bytes has just these bytes. -/
theorem textBytes_asText {text : Bytes} (h : ∀ b ∈ text, b < 0x80) :
    textBytes (asText text) = text := by
  have hchar : ∀ i : Fin 128, String.utf8EncodeChar (Char.ofNat (UInt8.ofNat i).toNat) =
      [UInt8.ofNat i] := by
    decide +kernel
  rw [textBytes_eq, asText, String.toList_ofList]
  induction text with
  | nil => rfl
  | cons b text ih =>
    rw [List.forall_mem_cons] at h
    have hb := hchar ⟨b.toNat, UInt8.lt_iff_toNat_lt.mp h.1⟩
    rw [UInt8.ofNat_toNat] at hb
    rw [List.map_cons, List.flatMap_cons, hb, ih h.2]
    rfl

/-- Digits that spell something are a text of just these bytes. -/
theorem IsSpelling.textBytes_asText {text data : Bytes} (h : IsSpelling text data) :
    textBytes (asText text) = text :=
  Hex.textBytes_asText fun b hb => let ⟨_, hv⟩ := h.digits b hb; hv.ascii

/-- Every text of an even number of digits spells something, and no other text does. -/
theorem exists_isSpelling_iff {text : Bytes} : (∃ data, IsSpelling text data) ↔
    text.length % 2 = 0 ∧ ∀ b ∈ text, ∃ v, IsDigitOf b v := by
  constructor
  · rintro ⟨data, h⟩
    have hlength := h.length
    exact ⟨by omega, h.digits⟩
  · rintro ⟨heven, hdigits⟩
    exact exists_isSpelling heven hdigits

end Hex

namespace Reply

/-! ### What a payload says -/

/-- The payload that says that all is well. -/
def okWord : Bytes := asciiBytes "OK".toList

/-- The payload is an `E` and two digits of either case, which give the code. -/
def IsCode (payload : Bytes) (code : UInt8) : Prop :=
  ∃ hi lo high low, payload = asciiBytes ['E'] ++ [hi, lo] ∧ Hex.IsDigitOf hi high ∧
    Hex.IsDigitOf lo low ∧ code.toNat = 16 * high + low

/-- What a payload says by its form. -/
inductive Says (payload : Bytes) : Reply → Prop where
  | nothing (empty : payload = []) : Says payload .unsupported
  | ok (word : payload = okWord) : Says payload .ok
  | code {c : UInt8} (code : IsCode payload c) : Says payload (.error c)
  | data {d : Bytes} (some : payload ≠ []) (spelling : Hex.IsSpelling payload d) :
      Says payload (.data d)
  | text (some : payload ≠ []) (word : payload ≠ okWord) (code : ∀ c, ¬IsCode payload c)
      (spelling : ∀ d, ¬Hex.IsSpelling payload d) : Says payload (.text (Text.lossy payload))

variable {payload : Bytes}

theorem okWord_ne_nil : okWord ≠ [] := by decide

theorem IsCode.length {c : UInt8} (h : IsCode payload c) : payload.length = 3 := by
  obtain ⟨hi, lo, high, low, rfl, -⟩ := h
  rfl

/-- A payload is one error code at most. -/
theorem IsCode.unique {c c' : UInt8} (h : IsCode payload c) (h' : IsCode payload c') : c = c' := by
  obtain ⟨hi, lo, high, low, rfl, hhigh, hlow, hc⟩ := h
  obtain ⟨hi', lo', high', low', heq, hhigh', hlow', hc'⟩ := h'
  cases heq
  have hpair : Hex.IsSpelling [hi, lo] [c] :=
    Hex.isSpelling_cons.mpr ⟨⟨high, low, hhigh, hlow, hc⟩, Hex.isSpelling_nil⟩
  have hpair' : Hex.IsSpelling [hi, lo] [c'] :=
    Hex.isSpelling_cons.mpr ⟨⟨high', low', hhigh', hlow', hc'⟩, Hex.isSpelling_nil⟩
  exact (List.cons.inj (hpair.unique hpair')).1

/-- An `O` is no digit. -/
theorem not_isSpelling_okWord (d : Bytes) : ¬Hex.IsSpelling okWord d := by
  intro h
  obtain ⟨v, hv⟩ := h.digits 0x4F (by decide)
  have hnone : ∀ v : Fin 16, ¬Hex.IsDigitOf 0x4F v := by decide
  exact hnone ⟨v, hv.lt⟩ hv

/-- An error code has an odd number of bytes. -/
theorem IsCode.not_isSpelling {c : UInt8} (h : IsCode payload c) (d : Bytes) :
    ¬Hex.IsSpelling payload d := by
  intro hd
  have h3 := h.length
  have h2 := hd.length
  omega

/-- **No payload has two forms.** -/
theorem Says.unique {r r' : Reply} (h : Says payload r) (h' : Says payload r') : r = r' := by
  have hok : okWord.length = 2 := rfl
  cases h with
  | nothing empty =>
    subst empty
    cases h' with
    | nothing => rfl
    | ok word => cases word
    | code code => cases code.length
    | data some | text some => exact absurd rfl some
  | ok word =>
    subst word
    cases h' with
    | nothing empty => exact absurd empty okWord_ne_nil
    | ok => rfl
    | code code => cases code.length
    | data _ spelling => exact absurd spelling (not_isSpelling_okWord _)
    | text _ word => exact absurd rfl word
  | code code =>
    cases h' with
    | nothing empty => subst empty; cases code.length
    | ok word => subst word; cases code.length
    | code code' => rw [code.unique code']
    | data _ spelling => exact absurd spelling (code.not_isSpelling _)
    | text _ _ none => exact absurd code (none _)
  | data some spelling =>
    cases h' with
    | nothing empty => exact absurd empty some
    | ok word => subst word; exact absurd spelling (not_isSpelling_okWord _)
    | code code => exact absurd spelling (code.not_isSpelling _)
    | data _ spelling' => rw [spelling.unique spelling']
    | text _ _ _ none => exact absurd spelling (none _)
  | text some word none nothing =>
    cases h' with
    | nothing empty => exact absurd empty some
    | ok word' => exact absurd word' word
    | code code => exact absurd code (none _)
    | data _ spelling => exact absurd spelling (nothing _)
    | text => rfl

/-- A payload that is neither empty nor a fixed word is data or text. -/
theorem says_ofSpelling (some : payload ≠ []) (word : payload ≠ okWord)
    (code : ∀ c, ¬IsCode payload c) : Says payload (ofSpelling payload) := by
  unfold ofSpelling
  split
  · rename_i d hd
    exact .data some (Hex.decode_eq_ok_iff.mp hd)
  · rename_i e he
    refine .text some word code fun d hd => ?_
    rw [Hex.decode_eq_ok_iff.mpr hd] at he
    cases he

/-- What is read is what the form says. -/
theorem says_parse (payload : Bytes) : Says payload (parse payload) := by
  unfold parse
  split
  · exact .nothing rfl
  · exact .ok rfl
  · rename_i hi lo
    split
    · rename_i high low hhigh hlow
      have hhigh' := Hex.digitValue?_eq_some_iff.mp hhigh
      have hlow' := Hex.digitValue?_eq_some_iff.mp hlow
      exact .code ⟨hi, lo, _, _, rfl, hhigh', hlow', Hex.toNat_pair hhigh'.lt hlow'.lt⟩
    · rename_i hnone
      refine says_ofSpelling nofun (by rintro ⟨⟩) ?_
      rintro c ⟨hi', lo', high, low, heq, hhigh, hlow, -⟩
      cases heq
      obtain ⟨d, hd, -⟩ := hhigh.read
      obtain ⟨d', hd', -⟩ := hlow.read
      exact hnone d d' hd hd'
  · rename_i hempty hword hcode
    refine says_ofSpelling hempty hword ?_
    rintro c ⟨hi, lo, high, low, heq, -⟩
    exact hcode hi lo heq

theorem parse_eq_iff {r : Reply} : parse payload = r ↔ Says payload r :=
  ⟨fun h => h ▸ says_parse payload, fun h => (says_parse payload).unique h⟩

/-- **What a payload says is told by its form.** It is one of five things, and which one can be
said without regard to the others: nothing at all, `OK`, an error code, the spelling of some
bytes, which is a text of an even number of digits, or any other text. Every spelling is read as
the bytes that it spells, and they are written in the same digits, in lowercase. -/
theorem parse_classifies (payload : Bytes) :
    (parse payload = .unsupported ↔ payload = []) ∧
    (parse payload = .ok ↔ payload = okWord) ∧
    (∀ c, parse payload = .error c ↔ IsCode payload c) ∧
    (∀ d, parse payload = .data d ↔ payload ≠ [] ∧ Hex.IsSpelling payload d) ∧
    ((∃ d, parse payload = .data d) ↔ payload ≠ [] ∧ payload.length % 2 = 0 ∧
      ∀ b ∈ payload, ∃ v, Hex.IsDigitOf b v) ∧
    (∀ s, parse payload = .text s ↔ s = Text.lossy payload ∧ payload ≠ [] ∧ payload ≠ okWord ∧
      (∀ c, ¬IsCode payload c) ∧ ∀ d, ¬Hex.IsSpelling payload d) ∧
    (∀ d, d ≠ [] → Hex.IsSpelling payload d → parse payload = .data d) ∧
    (∀ d, parse payload = .data d → Hex.encode d = payload.map Hex.lower) := by
  have hdata : ∀ d, parse payload = .data d ↔ payload ≠ [] ∧ Hex.IsSpelling payload d := by
    intro d
    rw [parse_eq_iff]
    constructor
    · rintro ⟨⟩
      exact ⟨by assumption, by assumption⟩
    · rintro ⟨hsome, hspelling⟩
      exact .data hsome hspelling
  refine ⟨?_, ?_, fun c => ?_, hdata, ?_, fun s => ?_, fun d hd hspelling => ?_, fun d hd => ?_⟩
  · rw [parse_eq_iff]
    exact ⟨fun | .nothing empty => empty, .nothing⟩
  · rw [parse_eq_iff]
    exact ⟨fun | .ok word => word, .ok⟩
  · rw [parse_eq_iff]
    exact ⟨fun | .code code => code, .code⟩
  · simp only [hdata, exists_and_left, Hex.exists_isSpelling_iff]
  · rw [parse_eq_iff]
    constructor
    · rintro ⟨⟩
      exact ⟨rfl, by assumption, by assumption, by assumption, by assumption⟩
    · rintro ⟨rfl, hsome, hword, hcode, hspelling⟩
      exact .text hsome hword hcode hspelling
  · refine (hdata d).mpr ⟨?_, hspelling⟩
    rintro rfl
    exact hd (hspelling.unique Hex.isSpelling_nil)
  · exact Hex.encode_of_isSpelling ((hdata d).mp hd).2

end Reply

end ProbeLink

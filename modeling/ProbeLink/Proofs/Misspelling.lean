/-
# A misspelling is told by its first wrong digit

Digits are read in pairs, and still the byte that is named when reading fails is the first in the
text that is no digit: in a pair the high digit is looked at before the low one, and a pair before
the next (`Hex.firstWrong_of_decodePairs`). An odd number of digits is refused before any of them
is looked at. So each failure has one cause, which the text alone decides (`Hex.decode_verdicts`).

The wording of a failure tells the cause again. A byte is shown as a character in quotation marks,
and no two characters are shown alike (`Text.escape_injective`); the index stands behind the last
blank (`Hex.DecodeError.message_injective`).

Key definitions: `Text.Shows`, `Hex.FirstWrong`, `Hex.upper`.
Key theorems: `Hex.decode_eq_badDigit_iff`, `Text.escape_injective`,
`Hex.DecodeError.message_injective`, `Hex.decode_verdicts`.
-/
import ProbeLink.Proofs.Dump
import ProbeLink.Proofs.Words

namespace ProbeLink

namespace Text

/-! ### What is shown of a character -/

/-- The letters of the short escapes, each with the character that it stands for. -/
def shortEscapes (quote : Char) : List (Char × Char) :=
  [('0', Char.ofNat 0), ('t', '\t'), ('r', '\r'), ('n', '\n'), ('\\', '\\'), (quote, quote)]

/-- A character is shown as it is, by a short escape or by its number. -/
def Shows (quote c : Char) (shown : List Char) : Prop :=
  shown = [c] ∨ (∃ x, (x, c) ∈ shortEscapes quote ∧ shown = ['\\', x]) ∨
    shown = '\\' :: 'u' :: '\x7b' :: Nat.toDigits 16 c.toNat ++ ['\x7d']

theorem shows_escape (quote c : Char) : Shows quote c (escape quote c) := by
  have hshort : ∀ x, (x, c) ∈ shortEscapes quote → Shows quote c ['\\', x] :=
    fun x hx => .inr (.inl ⟨x, hx, rfl⟩)
  -- one condition at a time, in the order in which they are tried
  unfold escape
  refine iteInduction (fun hnul => hshort '0' (by simp [shortEscapes, hnul])) fun _ => ?_
  refine iteInduction (fun htab => hshort 't' (by simp [shortEscapes, htab])) fun _ => ?_
  refine iteInduction (fun hreturn => hshort 'r' (by simp [shortEscapes, hreturn])) fun _ => ?_
  refine iteInduction (fun hnewline => hshort 'n' (by simp [shortEscapes, hnewline])) fun _ => ?_
  refine iteInduction (fun hslash => hshort '\\' (by simp [shortEscapes, hslash])) fun _ => ?_
  refine iteInduction (fun hquote => hshort quote (by simp [shortEscapes, hquote])) fun _ => ?_
  refine iteInduction (fun _ => .inl rfl) fun _ => ?_
  exact iteInduction (fun _ => .inl rfl) fun _ => .inr (.inr rfl)

/-- **No two characters are shown alike** in single quotation marks. -/
theorem escape_injective : Function.Injective (escape '\'') := by
  have hshort : ∀ p ∈ shortEscapes '\'', ∀ q ∈ shortEscapes '\'', p.1 = q.1 → p.2 = q.2 := by
    decide
  intro c d h
  rcases shows_escape '\'' c with hc | ⟨x, hx, hc⟩ | hc
  · rcases shows_escape '\'' d with hd | ⟨y, hy, hd⟩ | hd <;> rw [hc, hd] at h
    · exact List.singleton_inj.mp h
    · simp at h
    · simp at h
  · rcases shows_escape '\'' d with hd | ⟨y, hy, hd⟩ | hd <;> rw [hc, hd] at h
    · simp at h
    · exact hshort _ hx _ hy (by simpa using h)
    · simp at h
  · rcases shows_escape '\'' d with hd | ⟨y, hy, hd⟩ | hd <;> rw [hc, hd] at h
    · simp at h
    · simp at h
    · have hdigits : Nat.toDigits 16 c.toNat = Nat.toDigits 16 d.toNat := by simpa using h
      have hvalue := Hex.digitsFrom?_toDigits c.toNat
      rw [hdigits, Hex.digitsFrom?_toDigits] at hvalue
      exact Char.toNat_inj.mp (Option.some.inj hvalue).symm

theorem quotedChar_injective : Function.Injective quotedChar := by
  intro c d h
  have hchars := congrArg String.toList h
  simp only [quotedChar, String.toList_ofList, List.cons_append, List.cons.injEq, true_and,
    List.append_left_inj] at hchars
  exact escape_injective hchars

/-- What stands behind the last blank of a text is known by the text. -/
theorem split_lastBlank {front front' back back' : List Char} (hback : ' ' ∉ back)
    (hback' : ' ' ∉ back') (h : front ++ ' ' :: back = front' ++ ' ' :: back') :
    front = front' ∧ back = back' := by
  have htake : ∀ (front : List Char) {back : List Char}, ' ' ∉ back →
      (front ++ ' ' :: back).reverse.takeWhile (· ≠ ' ') = back.reverse := by
    intro front back hback
    rw [List.reverse_append, List.reverse_cons, List.append_assoc]
    refine takeWhile_append_of_stop (fun c hc => ?_) (by simp)
    simpa using ne_of_mem_of_not_mem (List.mem_reverse.mp hc) hback
  have hsame := htake front hback
  rw [h, htake front' hback', List.reverse_inj] at hsame
  subst hsame
  exact ⟨List.append_cancel_right h, rfl⟩

end Text

namespace Hex

/-! ### The first wrong digit -/

/-- The byte at the index is the first in the text that is no digit. -/
structure FirstWrong (text : Bytes) (b : UInt8) (i : ℕ) : Prop where
  here : text[i]? = some b
  wrong : ∀ v, ¬IsDigitOf b v
  before : ∀ j < i, ∀ c, text[j]? = some c → ∃ v, IsDigitOf c v

variable {text : Bytes} {b c : UInt8} {i : ℕ}

theorem digitValue?_eq_none_iff : digitValue? b = none ↔ ∀ v, ¬IsDigitOf b v := by
  constructor
  · intro hnone v hv
    obtain ⟨d, hd, -⟩ := hv.read
    rw [hnone] at hd
    cases hd
  · intro hwrong
    cases hd : digitValue? b with
    | none => rfl
    | some d => exact absurd (digitValue?_eq_some_iff.mp hd) (hwrong _)

/-- A text has one first wrong digit at most. -/
theorem FirstWrong.unique {b' : UInt8} {i' : ℕ} (h : FirstWrong text b i)
    (h' : FirstWrong text b' i') : b = b' ∧ i = i' := by
  rcases lt_trichotomy i i' with hlt | rfl | hlt
  · obtain ⟨v, hv⟩ := h'.before i hlt b h.here
    exact absurd hv (h.wrong v)
  · exact ⟨Option.some.inj (h.here.symm.trans h'.here), rfl⟩
  · obtain ⟨v, hv⟩ := h.before i' hlt b' h'.here
    exact absurd hv (h'.wrong v)

theorem firstWrong_head (h : digitValue? b = none) (text : Bytes) : FirstWrong (b :: text) b 0 :=
  ⟨rfl, digitValue?_eq_none_iff.mp h, nofun⟩

/-- A digit in front moves the first wrong one by one. -/
theorem FirstWrong.cons {d : UInt8} (hc : digitValue? c = some d) (h : FirstWrong text b i) :
    FirstWrong (c :: text) b (i + 1) := by
  refine ⟨h.here, h.wrong, fun j hj x hx => ?_⟩
  cases j with
  | zero =>
    obtain rfl : c = x := Option.some.inj hx
    exact exists_isDigitOf hc
  | succ j => exact h.before j (Nat.lt_of_succ_lt_succ hj) x hx

/-- **Reading in pairs fails at the first wrong digit.** -/
theorem firstWrong_of_decodePairs : ∀ {text : Bytes} {index : ℕ} {e : DecodeError},
    decodePairs index text = .error e →
      ∃ b i, e = .badDigit b (index + i) ∧ FirstWrong text b i
  | [], _, _, h => by cases h
  | [_], _, _, h => by cases h
  | hi :: lo :: r, index, e, h => by
    rw [decodePairs] at h
    cases hhi : digitValue? hi with
    | none =>
      rw [hhi] at h
      cases h
      exact ⟨hi, 0, rfl, firstWrong_head hhi _⟩
    | some high =>
      cases hlo : digitValue? lo with
      | none =>
        rw [hhi, hlo] at h
        cases h
        exact ⟨lo, 1, rfl, (firstWrong_head hlo r).cons hhi⟩
      | some low =>
        cases hrest : decodePairs (index + 2) r with
        | ok data =>
          rw [hhi, hlo, hrest] at h
          cases h
        | error e' =>
          rw [hhi, hlo, hrest] at h
          obtain rfl := Except.error.inj h
          obtain ⟨b, i, rfl, hfirst⟩ := firstWrong_of_decodePairs hrest
          refine ⟨b, i + 2, ?_, (hfirst.cons hlo).cons hhi⟩
          rw [Nat.add_assoc, Nat.add_comm 2 i]

/-- A text with a wrong digit spells nothing. -/
theorem FirstWrong.not_isSpelling (h : FirstWrong text b i) (data : Bytes) :
    ¬IsSpelling text data := by
  intro hspelling
  obtain ⟨v, hv⟩ := hspelling.digits b (List.mem_of_getElem? h.here)
  exact h.wrong v hv

theorem decode_eq_oddLength_iff : decode text = .error .oddLength ↔ text.length % 2 = 1 := by
  unfold decode
  split
  · rename_i hodd
    exact iff_of_true rfl hodd
  · rename_i heven
    refine iff_of_false (fun h => ?_) heven
    obtain ⟨b, i, hcause, -⟩ := firstWrong_of_decodePairs h
    cases hcause

/-- **The first wrong digit is named**, with its index. -/
theorem decode_eq_badDigit_iff :
    decode text = .error (.badDigit b i) ↔ text.length % 2 = 0 ∧ FirstWrong text b i := by
  constructor
  · intro h
    unfold decode at h
    split at h
    · cases h
    · rename_i heven
      obtain ⟨b', i', hcause, hfirst⟩ := firstWrong_of_decodePairs h
      rw [Nat.zero_add] at hcause
      cases hcause
      exact ⟨by omega, hfirst⟩
  · rintro ⟨heven, hfirst⟩
    cases hdecode : decode text with
    | ok data => exact absurd (decode_eq_ok_iff.mp hdecode) (hfirst.not_isSpelling data)
    | error e =>
      unfold decode at hdecode
      rw [if_neg (by omega)] at hdecode
      obtain ⟨b', i', rfl, hfirst'⟩ := firstWrong_of_decodePairs hdecode
      obtain ⟨rfl, rfl⟩ := hfirst.unique hfirst'
      rw [Nat.zero_add]

/-! ### Digits of both cases -/

/-- The uppercase letter for a byte that is a lowercase one. -/
def upper (b : UInt8) : UInt8 := if 0x61 ≤ b ∧ b ≤ 0x7A then b - 0x20 else b

theorem digitValue?_case (b : UInt8) :
    digitValue? (lower b) = digitValue? b ∧ digitValue? (upper b) = digitValue? b := by
  have hall : ∀ i : Fin 256, digitValue? (lower (UInt8.ofNat i)) = digitValue? (UInt8.ofNat i) ∧
      digitValue? (upper (UInt8.ofNat i)) = digitValue? (UInt8.ofNat i) := by
    decide +kernel
  have hb := hall ⟨b.toNat, b.toNat_lt⟩
  rwa [UInt8.ofNat_toNat] at hb

theorem isDigitOf_iff {v : ℕ} : IsDigitOf b v ↔ ∃ d, digitValue? b = some d ∧ d.toNat = v := by
  constructor
  · exact IsDigitOf.read
  · rintro ⟨d, hd, rfl⟩
    exact digitValue?_eq_some_iff.mp hd

/-- What keeps the value of every digit keeps what is spelled. -/
theorem isSpelling_map {f : UInt8 → UInt8} (hf : ∀ b, digitValue? (f b) = digitValue? b)
    {data : Bytes} : IsSpelling (text.map f) data ↔ IsSpelling text data := by
  have hdigit : ∀ {b v}, IsDigitOf (f b) v ↔ IsDigitOf b v := by
    intro b v
    rw [isDigitOf_iff, hf, ← isDigitOf_iff]
  constructor
  · rintro ⟨hlength, hpairs⟩
    refine ⟨by rwa [List.length_map] at hlength, fun i b hb => ?_⟩
    obtain ⟨hi, lo, high, low, hhi, hlo, hhigh, hlow, hvalue⟩ := hpairs i b hb
    rw [List.getElem?_map] at hhi hlo
    obtain ⟨x, hx, rfl⟩ := Option.map_eq_some_iff.mp hhi
    obtain ⟨y, hy, rfl⟩ := Option.map_eq_some_iff.mp hlo
    exact ⟨x, y, high, low, hx, hy, hdigit.mp hhigh, hdigit.mp hlow, hvalue⟩
  · rintro ⟨hlength, hpairs⟩
    refine ⟨by rwa [List.length_map], fun i b hb => ?_⟩
    obtain ⟨hi, lo, high, low, hhi, hlo, hhigh, hlow, hvalue⟩ := hpairs i b hb
    refine ⟨f hi, f lo, high, low, ?_, ?_, hdigit.mpr hhigh, hdigit.mpr hlow, hvalue⟩
    · rw [List.getElem?_map, hhi, Option.map_some]
    · rw [List.getElem?_map, hlo, Option.map_some]

/-- **What is read is what would be written**, but for the case of the digits. -/
theorem decode_eq_ok_iff_lower {data : Bytes} :
    decode text = .ok data ↔ text.map lower = encode data := by
  rw [decode_eq_ok_iff]
  constructor
  · exact fun h => (encode_of_isSpelling h).symm
  · intro h
    rw [← isSpelling_map fun b => (digitValue?_case b).1, h]
    exact isSpelling_encode data

/-! ### The wording of a failure -/

/-- A byte is known by the character of its number. -/
theorem byteChar_injective : Function.Injective fun b : UInt8 => Char.ofNat b.toNat := by
  have hall : ∀ i : Fin 256, (Char.ofNat i).toNat = i := by decide +kernel
  intro b b' h
  have hsame : (Char.ofNat b.toNat).toNat = (Char.ofNat b'.toNat).toNat := congrArg Char.toNat h
  rw [hall ⟨b.toNat, b.toNat_lt⟩, hall ⟨b'.toNat, b'.toNat_lt⟩] at hsame
  exact UInt8.toNat_inj.mp hsame

/-- **The wording tells the cause**: a wrong digit is told with its index, and which byte it is. -/
theorem DecodeError.message_injective : Function.Injective DecodeError.message := by
  have hchars : ∀ b i, (DecodeError.badDigit b i).message.toList =
      ("Invalid character ".toList ++ (Text.quotedChar (Char.ofNat b.toNat)).toList ++
        " at position".toList) ++ ' ' :: Nat.toDigits 10 i := by
    intro b i
    have hmessage : (badDigit b i).message = "Invalid character " ++
        Text.quotedChar (Char.ofNat b.toNat) ++ " at position " ++ toString i := rfl
    have hword : " at position ".toList = " at position".toList ++ [' '] := by simp
    simp only [hmessage, String.toList_append, hword, Nat.toString_eq_repr, Nat.toList_repr,
      List.append_assoc, List.singleton_append]
  have hblank : ∀ i, ' ' ∉ Nat.toDigits 10 i := by
    intro i h
    have hdigit : ' '.isDigit = true := Nat.isDigit_of_mem_toDigits (Nat.succ_pos 9) le_rfl h
    exact absurd hdigit (by decide)
  have hodd : ∀ b i, DecodeError.oddLength.message ≠ (DecodeError.badDigit b i).message := by
    intro b i h
    have hmessage : oddLength.message = "Odd number of digits" := rfl
    have hhead := congrArg List.head? ((congrArg String.toList h).trans (hchars b i))
    simp [hmessage] at hhead
  intro e e' h
  cases e with
  | oddLength =>
    cases e' with
    | oddLength => rfl
    | badDigit b' i' => exact absurd h (hodd b' i')
  | badDigit b i =>
    cases e' with
    | oddLength => exact absurd h.symm (hodd b i)
    | badDigit b' i' =>
      have hlists := congrArg String.toList h
      rw [hchars, hchars] at hlists
      obtain ⟨hfront, hindex⟩ := Text.split_lastBlank (hblank i) (hblank i') hlists
      rw [List.append_left_inj, List.append_right_inj] at hfront
      have hbyte := Text.quotedChar_injective (String.toList_inj.mp hfront)
      have hi := Nat.ofDigitChars_ten_toDigits (n := i)
      rw [hindex, Nat.ofDigitChars_ten_toDigits] at hi
      rw [byteChar_injective hbyte, hi]

/-- **What is read of a text, and why it is refused**, is told by the text alone. It is read just
if it has an even number of bytes and all of them are digits, and what is read is written in the
same digits, in whichever case. If it has an odd number of bytes, that is the error whatever they
are. Otherwise the error names the first byte that is no digit and its index, and no two errors
have the same wording. -/
theorem decode_verdicts (text : Bytes) :
    ((∃ data, decode text = .ok data) ↔
      text.length % 2 = 0 ∧ ∀ b ∈ text, ∃ v, IsDigitOf b v) ∧
    (∀ data, decode text = .ok data ↔ text.map lower = encode data) ∧
    (∀ data, decode (encode data) = .ok data ∧ decode ((encode data).map upper) = .ok data) ∧
    (decode text = .error .oddLength ↔ text.length % 2 = 1) ∧
    (∀ b i, decode text = .error (.badDigit b i) ↔
      text.length % 2 = 0 ∧ FirstWrong text b i) ∧
    Function.Injective fun e => (WireError.badHex e).message := by
  have hwords : Function.Injective fun e => (WireError.badHex e).message := by
    intro e e' h
    exact DecodeError.message_injective (String.append_right_inj _ |>.mp h)
  refine ⟨?_, fun data => decode_eq_ok_iff_lower, fun data => ?_, decode_eq_oddLength_iff,
    fun b i => decode_eq_badDigit_iff, hwords⟩
  · rw [← exists_isSpelling_iff]
    exact exists_congr fun data => decode_eq_ok_iff
  · rw [decode_eq_ok_iff, decode_eq_ok_iff, isSpelling_map fun b => (digitValue?_case b).2]
    exact ⟨isSpelling_encode data, isSpelling_encode data⟩

-- the low digit of the first pair is wrong, and so is one behind it
example : decode (asciiBytes "0g1h".toList) = .error (.badDigit 0x67 1) := by decide

end Hex

end ProbeLink

/-
# What a checksum vouches for

A checksum that is received is right if it has the two digits for the sum of the payload, in
either case. There is one more way to be right: a plus sign and one digit, if the sum is below
sixteen (`Checksum.verify_two_ways`).

The two characters fix the sum, so a payload that was edited and still verifies has the sum that
it had. One edit changes the sum by the byte that comes or goes, and by the difference of the two
if one is put in the place of another; so it passes just if that byte is zero
(`Packet.edit_detected`).

Key definitions: `Checksum.remainder`, `Checksum.TwoDigits`, `Checksum.SignAndDigit`, `Edit`.
Key theorems: `Checksum.parse_eq_some_iff`, `Checksum.verify_two_ways`, `Edit.byteSum_result`,
`Packet.edit_detected`.
-/
import ProbeLink.Proofs.Spelling

namespace ProbeLink

namespace Checksum

/-! ### The two ways to be right -/

/-- What is left of the sum of the bytes. -/
def remainder (payload : Bytes) : ℕ := (payload.map UInt8.toNat).sum % 256

/-- Two digits of either case, the high one first. -/
def TwoDigits (received : Bytes) (v : ℕ) : Prop :=
  ∃ hi lo high low, received = [hi, lo] ∧ Hex.IsDigitOf hi high ∧ Hex.IsDigitOf lo low ∧
    v = 16 * high + low

def plusSign : UInt8 := 0x2B

/-- A plus sign and one digit. -/
def SignAndDigit (received : Bytes) (v : ℕ) : Prop :=
  ∃ lo, received = [plusSign, lo] ∧ Hex.IsDigitOf lo v

variable {payload received : Bytes}

/-- A sign is no digit. -/
theorem not_isDigitOf_plusSign (v : ℕ) : ¬Hex.IsDigitOf plusSign v := by
  intro h
  have hnone : ∀ v : Fin 16, ¬Hex.IsDigitOf plusSign v := by decide
  exact hnone ⟨v, h.lt⟩ h

/-- **Two characters are read** as two digits or as a sign and a digit. -/
theorem parse_eq_some_iff {v : UInt8} :
    parse received = some v ↔ TwoDigits received v.toNat ∨ SignAndDigit received v.toNat := by
  constructor
  · intro h
    unfold parse at h
    split at h
    · rename_i hi lo
      split at h
      · cases h
      · rename_i low hlow
        have hlow' := Hex.digitValue?_eq_some_iff.mp hlow
        split at h
        · rename_i hsign
          obtain rfl := Option.some.inj h
          exact .inr ⟨lo, by rw [hsign]; rfl, hlow'⟩
        · obtain ⟨high, hhigh, rfl⟩ := Option.map_eq_some_iff.mp h
          have hhigh' := Hex.digitValue?_eq_some_iff.mp hhigh
          exact .inl ⟨hi, lo, _, _, rfl, hhigh', hlow', Hex.toNat_pair hhigh'.lt hlow'.lt⟩
    · cases h
  · rintro (⟨hi, lo, high, low, rfl, hhigh, hlow, hv⟩ | ⟨lo, rfl, hlow⟩)
    · obtain ⟨d, hd, rfl⟩ := hhigh.read
      obtain ⟨d', hd', rfl⟩ := hlow.read
      have hsign : hi ≠ 0x2B := by
        rintro rfl
        exact not_isDigitOf_plusSign _ hhigh
      have hpair : d * 16 + d' = v :=
        UInt8.toNat_inj.mp ((Hex.toNat_pair hhigh.lt hlow.lt).trans hv.symm)
      simp only [parse, hd', if_neg hsign, hd, Option.map_some, hpair]
    · have hd := Hex.digitValue?_eq_some_iff.mpr hlow
      simp only [parse, hd, plusSign, if_pos]

theorem verify_eq_true_iff : verify payload received = true ↔
    TwoDigits received (remainder payload) ∨ SignAndDigit received (remainder payload) := by
  rw [remainder, ← byteSum_toNat, ← parse_eq_some_iff]
  exact beq_iff_eq

/-- What is written behind a payload is its checksum. -/
theorem verify_digits (payload : Bytes) : verify payload (digits payload) = true :=
  beq_iff_eq.mpr (parse_digitPair _)

/-- **There are two ways to be right.** What is received verifies just if it is the two digits of
the sum of the payload, of either case, or a plus sign and one digit that is the sum. Without a
sign only the first way is left. What is written verifies, and nothing does that has a character
in it which is neither digit nor sign. -/
theorem verify_two_ways (payload received : Bytes) :
    (verify payload received = true ↔
      TwoDigits received (remainder payload) ∨ SignAndDigit received (remainder payload)) ∧
    (received.head? ≠ some plusSign →
      (verify payload received = true ↔ TwoDigits received (remainder payload))) ∧
    verify payload (digits payload) = true ∧
    (∀ b ∈ received, b ≠ plusSign → (∀ v, ¬Hex.IsDigitOf b v) →
      verify payload received = false) := by
  refine ⟨verify_eq_true_iff, fun hsign => ?_, verify_digits payload, fun b hb hsign hdigit => ?_⟩
  · rw [verify_eq_true_iff, or_iff_left]
    rintro ⟨lo, rfl, -⟩
    exact hsign rfl
  · rw [← Bool.not_eq_true, verify_eq_true_iff]
    rintro (⟨hi, lo, high, low, rfl, hhigh, hlow, -⟩ | ⟨lo, rfl, hlow⟩)
    · rcases List.mem_pair.mp hb with rfl | rfl
      · exact hdigit _ hhigh
      · exact hdigit _ hlow
    · rcases List.mem_pair.mp hb with rfl | rfl
      · exact hsign rfl
      · exact hdigit _ hlow

/-- A sign and a digit verify a payload of one byte, and are no two digits. -/
theorem verify_signed :
    verify [0x0A] [0x2B, 0x61] = true ∧ ¬TwoDigits [0x2B, 0x61] (remainder [0x0A]) := by
  refine ⟨by decide, ?_⟩
  rintro ⟨hi, lo, high, low, heq, hhigh, -⟩
  obtain ⟨rfl, -⟩ := List.cons.inj heq
  exact not_isDigitOf_plusSign high hhigh

end Checksum

/-! ### One edit -/

/-- One edit of a byte string. -/
inductive Edit where
  /-- Another byte is put in the place of one. -/
  | replace (i : ℕ) (b : UInt8)
  /-- A byte comes in before the one at the place, or at the end. -/
  | insert (i : ℕ) (b : UInt8)
  | delete (i : ℕ)
  deriving DecidableEq, Repr

namespace Edit

/-- What the edit makes of a byte string; nothing if there is no such place, or the same byte
stands there. -/
def result? (bytes : Bytes) : Edit → Option Bytes
  | .replace i b =>
    match bytes[i]? with
    | some a => if a = b then none else some (bytes.set i b)
    | none => none
  | .insert i b => if i ≤ bytes.length then some (bytes.insertIdx i b) else none
  | .delete i => if i < bytes.length then some (bytes.eraseIdx i) else none

/-- The edit puts in a zero byte or takes one out. -/
def MovesZero (bytes : Bytes) : Edit → Prop
  | .replace _ _ => False
  | .insert _ b => b = 0
  | .delete i => bytes[i]? = some 0

/-- What the edit brings to the sum. -/
def weight (bytes : Bytes) : Edit → UInt8
  | .replace i b => b - bytes.getD i 0
  | .insert _ b => b
  | .delete i => -bytes.getD i 0

variable {bytes : Bytes} {i : ℕ} {a b : UInt8}

theorem byteSum_set (h : bytes[i]? = some a) :
    byteSum (bytes.set i b) = byteSum bytes + (b - a) := by
  induction bytes generalizing i with
  | nil => cases h
  | cons c bytes ih =>
    cases i with
    | zero =>
      obtain rfl := Option.some.inj h
      simp only [List.set_cons_zero, byteSum_cons]
      grind
    | succ i =>
      rw [List.set_cons_succ, byteSum_cons, byteSum_cons, ih h, UInt8.add_assoc]

theorem byteSum_insertIdx (h : i ≤ bytes.length) :
    byteSum (bytes.insertIdx i b) = byteSum bytes + b := by
  induction bytes generalizing i with
  | nil =>
    obtain rfl := Nat.le_zero.mp h
    exact UInt8.add_comm b 0
  | cons c bytes ih =>
    cases i with
    | zero => exact UInt8.add_comm b _
    | succ i =>
      rw [List.insertIdx_succ_cons, byteSum_cons, byteSum_cons, ih (Nat.le_of_succ_le_succ h),
        UInt8.add_assoc]

theorem byteSum_eraseIdx (h : bytes[i]? = some a) :
    byteSum (bytes.eraseIdx i) = byteSum bytes + -a := by
  induction bytes generalizing i with
  | nil => cases h
  | cons c bytes ih =>
    cases i with
    | zero =>
      obtain rfl := Option.some.inj h
      simp only [List.eraseIdx_cons_zero, byteSum_cons]
      grind
    | succ i =>
      rw [List.eraseIdx_cons_succ, byteSum_cons, byteSum_cons, ih h, UInt8.add_assoc]

/-- **The sum changes by the weight of the edit**, which is zero just if a zero byte comes or
goes. -/
theorem byteSum_result {e : Edit} {payload : Bytes} (h : e.result? bytes = some payload) :
    byteSum payload = byteSum bytes + e.weight bytes ∧
      (e.weight bytes = 0 ↔ e.MovesZero bytes) := by
  cases e with
  | replace i b =>
    simp only [result?] at h
    split at h
    · rename_i a ha
      split at h
      · cases h
      · rename_i hne
        obtain rfl := Option.some.inj h
        have hweight : (replace i b).weight bytes = b - a := by
          simp only [weight, List.getD_eq_getElem?_getD, ha, Option.getD_some]
        rw [hweight]
        refine ⟨byteSum_set ha, ?_⟩
        simp only [MovesZero, iff_false]
        grind
    · cases h
  | insert i b =>
    simp only [result?, Option.ite_none_right_eq_some] at h
    obtain ⟨hi, h⟩ := h
    obtain rfl := Option.some.inj h
    exact ⟨byteSum_insertIdx hi, Iff.rfl⟩
  | delete i =>
    simp only [result?, Option.ite_none_right_eq_some] at h
    obtain ⟨hi, h⟩ := h
    obtain rfl := Option.some.inj h
    have ha : bytes[i]? = some bytes[i] := List.getElem?_eq_getElem hi
    have hweight : (delete i).weight bytes = -bytes[i] := by
      simp only [weight, List.getD_eq_getElem?_getD, ha, Option.getD_some]
    rw [hweight]
    refine ⟨byteSum_eraseIdx ha, ?_⟩
    simp only [MovesZero, ha, Option.some.injEq]
    grind

/-- An edit makes another byte string. -/
theorem result_ne {e : Edit} {payload : Bytes} (h : e.result? bytes = some payload) :
    payload ≠ bytes := by
  cases e with
  | replace i b =>
    simp only [result?] at h
    split at h
    · rename_i a ha
      split at h
      · cases h
      · rename_i hne
        obtain rfl := Option.some.inj h
        intro hsame
        have hb := congrArg (·[i]?) hsame
        rw [List.getElem?_set_self (List.getElem?_eq_some_iff.mp ha).1, ha] at hb
        exact hne (Option.some.inj hb).symm
    · cases h
  | insert i b =>
    simp only [result?, Option.ite_none_right_eq_some] at h
    obtain ⟨hi, h⟩ := h
    obtain rfl := Option.some.inj h
    intro hsame
    have hlength := congrArg List.length hsame
    rw [List.length_insertIdx_of_le_length hi] at hlength
    omega
  | delete i =>
    simp only [result?, Option.ite_none_right_eq_some] at h
    obtain ⟨hi, h⟩ := h
    obtain rfl := Option.some.inj h
    intro hsame
    have hlength := congrArg List.length hsame
    rw [List.length_eraseIdx_of_lt hi] at hlength
    omega

end Edit

namespace Packet

/-- A packet that verifies does so with another payload just if that has the same sum. -/
theorem verify_swapped {p : Packet} (h : p.verify = true) (payload : Bytes) :
    ({ p with payload } : Packet).verify = true ↔ byteSum payload = byteSum p.payload := by
  have hparse : Checksum.parse p.checksum = some (byteSum p.payload) := beq_iff_eq.mp h
  have hswapped : ({ p with payload } : Packet).verify = true ↔
      Checksum.parse p.checksum = some (byteSum payload) := beq_iff_eq
  rw [hswapped, hparse, Option.some.injEq, eq_comm]

/-- **One edit is detected** unless it puts in a zero byte or takes one out. A packet that
verifies, with its payload edited and its two characters left as they are, fails in every other
case, and it is said which checksum would have been right. -/
theorem edit_detected {p : Packet} (h : p.verify = true) {e : Edit} {payload : Bytes}
    (he : e.result? p.payload = some payload) :
    payload ≠ p.payload ∧
    (({ p with payload } : Packet).verify = true ↔ e.MovesZero p.payload) ∧
    (e.MovesZero p.payload → ({ p with payload } : Packet).check = .ok ()) ∧
    (¬e.MovesZero p.payload → ∃ expected,
      ({ p with payload } : Packet).check =
        .error (.checksumMismatch expected (Text.lossy p.checksum)) ∧
      textBytes expected = Checksum.digits payload ∧
      Checksum.verify payload (textBytes expected) = true) := by
  obtain ⟨hsum, hzero⟩ := Edit.byteSum_result he
  -- the two characters fix the sum, so its change decides
  have hiff : ({ p with payload } : Packet).verify = true ↔ e.MovesZero p.payload := by
    rw [verify_swapped h, hsum, UInt8.add_eq_left, hzero]
  refine ⟨Edit.result_ne he, hiff, fun hmoves => ?_, fun hmoves => ?_⟩
  · rw [check, if_pos (hiff.mpr hmoves)]
  · have hspelling : Hex.IsSpelling (Checksum.digits payload) [byteSum payload] :=
      Hex.isSpelling_encode [byteSum payload]
    refine ⟨Hex.asText (Checksum.digits payload), ?_, hspelling.textBytes_asText, ?_⟩
    · rw [check, if_neg (mt hiff.mp hmoves)]
      rfl
    · rw [hspelling.textBytes_asText]
      exact Checksum.verify_digits payload

/-- A zero byte at the end passes; a byte less does not. -/
theorem edit_detected_ok :
    (({ sealed .reply [0x4F, 0x4B] with payload := [0x4F, 0x4B, 0] } : Packet).verify = true) ∧
      ({ sealed .reply [0x4F, 0x4B] with payload := [0x4F] } : Packet).verify = false := by
  have hok : (sealed .reply [0x4F, 0x4B]).verify = true := by decide
  have hlonger : (Edit.insert 2 0).result? [0x4F, 0x4B] = some [0x4F, 0x4B, 0] := rfl
  have hshorter : (Edit.delete 1).result? [0x4F, 0x4B] = some [0x4F] := rfl
  have hinsert := edit_detected hok hlonger
  have hdelete := edit_detected hok hshorter
  refine ⟨hinsert.2.1.mpr rfl, ?_⟩
  rw [← Bool.not_eq_true, hdelete.2.1]
  simp [Edit.MovesZero, sealed]

end Packet

end ProbeLink

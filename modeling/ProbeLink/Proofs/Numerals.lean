/-
# What reads as a number

A numeral is a row of digits that stand for their values, the highest first (`Text.IsNumeral`). A
plus sign may stand in front of it. What is read is just such a text whose value stays below the
limit, and the value is what is returned, however many zeros come first: nothing is reduced
(`Text.unsigned?_eq_some_iff`).

At the prompt a number is a decimal numeral, or a hexadecimal one behind `0x` or `0X`, where the
sign comes behind the prefix. A decimal numeral has no `x`, so no text is both
(`Prompt.readNumber_eq_ok_iff`).

Key definitions: `Text.IsDigit`, `Text.IsNumeral`, `Text.Signed`, `Prompt.IsNumber`.
Key theorems: `Text.digitIn?_eq_some_iff`, `Text.unsigned?_eq_some_iff`,
`Prompt.readNumber_eq_ok_iff`, `Prompt.exists_readNumber_iff`.
-/
import Mathlib.Data.List.Forall2
import Mathlib.Data.Nat.Digits.Defs
import ProbeLink.Prompt.Request

namespace ProbeLink

namespace Text

/-- Whether something holds of all characters of a text is decided by going through the text, not
through all characters there are. -/
instance decidableForallMem {p : Char → Prop} [DecidablePred p] (cs : List Char) :
    Decidable (∀ c ∈ cs, p c) := List.decidableBAll p cs

instance decidableForallMemOption {p : Char → Prop} [DecidablePred p] (o : Option Char) :
    Decidable (∀ c ∈ o, p c) := Option.decidableForallMem o

/-- What holds of all characters of ASCII holds of each. -/
theorem of_ascii {P : Char → Prop} (hall : ∀ i : Fin 128, P (Char.ofNat i)) {c : Char}
    (hc : c.toNat < 128) : P c := by
  have h := hall ⟨c.toNat, hc⟩
  rwa [Char.ofNat_toNat] at h

/-! ### Digits -/

/-- The digits of all radices in the order of their values. -/
def lowerDigits : List Char := "0123456789abcdefghijklmnopqrstuvwxyz".toList
def upperDigits : List Char := "0123456789ABCDEFGHIJKLMNOPQRSTUVWXYZ".toList

/-- The character is the digit of one case or the other for a value in a radix. -/
def IsDigit (radix : ℕ) (c : Char) (v : ℕ) : Prop :=
  v < radix ∧ (lowerDigits[v]? = some c ∨ upperDigits[v]? = some c)

instance (radix : ℕ) (c : Char) (v : ℕ) : Decidable (IsDigit radix c v) :=
  inferInstanceAs (Decidable (_ ∧ _))

/-- The digits of a radix are those of the largest one that are below it. -/
theorem digitIn?_eq_some_iff_lt {radix : ℕ} (hradix : radix ≤ 36) {c : Char} {v : ℕ} :
    digitIn? radix c = some v ↔ v < radix ∧ digitIn? 36 c = some v := by
  simp only [digitIn?]
  split_ifs <;> grind

theorem digitIn?_of_le {c : Char} (h : 128 ≤ c.toNat) : digitIn? 36 c = none := by
  simp only [digitIn?]
  split_ifs <;> first | rfl | omega

/-- **A digit is read as its value**, and nothing else is read as one. -/
theorem digitIn?_eq_some_iff {radix : ℕ} (hradix : radix ≤ 36) {c : Char} {v : ℕ} :
    digitIn? radix c = some v ↔ IsDigit radix c v := by
  rw [digitIn?_eq_some_iff_lt hradix, IsDigit]
  refine and_congr_right fun hv => ⟨fun h => ?_, fun h => ?_⟩
  · have hascii : c.toNat < 128 := by
      by_contra hge
      rw [digitIn?_of_le (by omega)] at h
      cases h
    exact of_ascii (P := fun c => ∀ v ∈ digitIn? 36 c, lowerDigits[v]? = some c ∨
      upperDigits[v]? = some c) (by decide +kernel) hascii v h
  · have hall : ∀ v : Fin 36, (∀ c ∈ lowerDigits[v]?, digitIn? 36 c = some (v : ℕ)) ∧
        ∀ c ∈ upperDigits[v]?, digitIn? 36 c = some (v : ℕ) := by
      decide +kernel
    have hboth := hall ⟨v, by omega⟩
    exact h.elim (hboth.1 c) (hboth.2 c)

/-! ### Numerals -/

/-- The characters are the digits of a number, the highest first. -/
def IsNumeral (radix : ℕ) (cs : List Char) (n : ℕ) : Prop :=
  ∃ ds : List ℕ, ds ≠ [] ∧ List.Forall₂ (IsDigit radix) cs ds ∧ Nat.ofDigits radix ds.reverse = n

/-- A numeral with a plus sign in front or without one. -/
def Signed (radix : ℕ) (cs : List Char) (n : ℕ) : Prop :=
  ∃ digits, (cs = digits ∨ cs = '+' :: digits) ∧ IsNumeral radix digits n

variable {radix : ℕ} {cs : List Char} {n : ℕ}

theorem ofDigits_reverse (radix : ℕ) (ds : List ℕ) :
    Nat.ofDigits radix ds.reverse = ds.foldl (fun acc d => acc * radix + d) 0 := by
  rw [Nat.ofDigits_eq_foldr, List.foldr_reverse]
  congr 1
  funext acc d
  rw [Nat.cast_id, Nat.add_comm, Nat.mul_comm]

theorem digitsFrom?_eq_some_iff (hradix : radix ≤ 36) : ∀ {acc : ℕ} {cs : List Char},
    digitsFrom? radix acc cs = some n ↔
      ∃ ds, List.Forall₂ (IsDigit radix) cs ds ∧ ds.foldl (fun acc d => acc * radix + d) acc = n
  | acc, [] => by simp [digitsFrom?]
  | acc, c :: r => by
    simp only [digitsFrom?]
    constructor
    · intro h
      split at h
      · rename_i d hd
        obtain ⟨ds, hds, hn⟩ := (digitsFrom?_eq_some_iff hradix).mp h
        exact ⟨d :: ds, .cons ((digitIn?_eq_some_iff hradix).mp hd) hds, hn⟩
      · cases h
    · rintro ⟨_, hds, hn⟩
      obtain ⟨d, ds, hd, hrest, rfl⟩ := List.forall₂_cons_left_iff.mp hds
      rw [(digitIn?_eq_some_iff hradix).mpr hd]
      exact (digitsFrom?_eq_some_iff hradix).mpr ⟨ds, hrest, hn⟩

theorem IsNumeral.ne_nil (h : IsNumeral radix cs n) : cs ≠ [] := by
  obtain ⟨ds, hsome, hds, -⟩ := h
  rintro rfl
  exact hsome (List.forall₂_nil_left_iff.mp hds)

/-- **A row of digits is read as its number.** -/
theorem digitsValue?_eq_some_iff (hradix : radix ≤ 36) :
    digitsValue? radix cs = some n ↔ IsNumeral radix cs n := by
  cases cs with
  | nil =>
    refine ⟨nofun, ?_⟩
    exact fun h => absurd rfl h.ne_nil
  | cons c r =>
    refine Iff.trans (digitsFrom?_eq_some_iff hradix) (exists_congr fun ds => ?_)
    rw [ofDigits_reverse]
    refine ⟨fun ⟨hds, hn⟩ => ⟨?_, hds, hn⟩, fun ⟨_, hds, hn⟩ => ⟨hds, hn⟩⟩
    rintro rfl
    cases hds

theorem IsNumeral.digits (h : IsNumeral radix cs n) : ∀ c ∈ cs, ∃ v, IsDigit radix c v := by
  obtain ⟨ds, -, hds, -⟩ := h
  induction hds with
  | nil => exact nofun
  | cons hd _ ih => exact List.forall_mem_cons.mpr ⟨⟨_, hd⟩, ih⟩

theorem not_isDigit_plus (radix v : ℕ) : ¬IsDigit radix '+' v := by
  rintro ⟨-, h | h⟩
  · exact absurd (List.mem_of_getElem? h) (by decide)
  · exact absurd (List.mem_of_getElem? h) (by decide)

theorem signed_iff : Signed radix cs n ↔ IsNumeral radix (dropPlus cs) n := by
  constructor
  · rintro ⟨digits, rfl | rfl, hdigits⟩
    · have hplain : dropPlus cs = cs := by
        unfold dropPlus
        split
        · obtain ⟨v, hv⟩ := hdigits.digits '+' List.mem_cons_self
          exact absurd hv (not_isDigit_plus radix v)
        · rfl
      rwa [hplain]
    · exact hdigits
  · intro h
    refine ⟨dropPlus cs, ?_, h⟩
    unfold dropPlus
    split
    · exact .inr rfl
    · exact .inl rfl

/-- **What is read** is a numeral below the limit, with a plus sign or without one, and its value
is what is returned. -/
theorem unsigned?_eq_some_iff (hradix : radix ≤ 36) {limit : ℕ} :
    unsigned? radix limit cs = some n ↔ n < limit ∧ Signed radix cs n := by
  rw [signed_iff, ← digitsValue?_eq_some_iff hradix, unsigned?]
  split
  · rename_i m hm
    rw [hm, Option.some.injEq]
    split
    · rename_i hlt
      rw [Option.some.injEq]
      exact ⟨fun h => ⟨h ▸ hlt, h⟩, And.right⟩
    · rename_i hge
      refine ⟨nofun, ?_⟩
      rintro ⟨hlt, rfl⟩
      exact absurd hlt hge
  · rename_i hnone
    rw [hnone]
    exact ⟨nofun, And.right⟩

end Text

namespace Prompt

open Text

/-- A number as it is typed: a decimal numeral, or a hexadecimal one behind its prefix. -/
inductive IsNumber : List Char → ℕ → Prop where
  | decimal {cs : List Char} {n : ℕ} (numeral : Signed 10 cs n) : IsNumber cs n
  | hex {x : Char} {cs : List Char} {n : ℕ} (mark : x = 'x' ∨ x = 'X') (numeral : Signed 16 cs n) :
      IsNumber ('0' :: x :: cs) n

variable {cs : List Char} {n : ℕ}

/-- No decimal numeral begins like a hexadecimal number. -/
theorem not_signed_marked {x : Char} (hx : x = 'x' ∨ x = 'X') (cs : List Char) (n : ℕ) :
    ¬Signed 10 ('0' :: x :: cs) n := by
  rw [signed_iff]
  intro h
  obtain ⟨v, hv⟩ := h.digits x (by simp [dropPlus])
  have hnone : ∀ v : Fin 10, ¬IsDigit 10 'x' v ∧ ¬IsDigit 10 'X' v := by decide +kernel
  rcases hx with rfl | rfl
  · exact (hnone ⟨v, hv.1⟩).1 hv
  · exact (hnone ⟨v, hv.1⟩).2 hv

theorem isNumber_marked_iff {x : Char} (hx : x = 'x' ∨ x = 'X') :
    IsNumber ('0' :: x :: cs) n ↔ Signed 16 cs n := by
  constructor
  · rintro (h | ⟨-, h⟩)
    · exact absurd h (not_signed_marked hx _ _)
    · exact h
  · exact .hex hx

theorem number?_eq_some_iff : number? cs = some n ↔ n < limit64 ∧ IsNumber cs n := by
  unfold number?
  split
  · rw [isNumber_marked_iff (.inl rfl), unsigned?_eq_some_iff (by decide)]
  · rw [isNumber_marked_iff (.inr rfl), unsigned?_eq_some_iff (by decide)]
  · rename_i hlower hupper
    rw [unsigned?_eq_some_iff (by decide)]
    refine and_congr_right fun _ => ⟨.decimal, ?_⟩
    rintro (h | ⟨rfl | rfl, -⟩)
    · exact h
    · exact absurd rfl (hlower _)
    · exact absurd rfl (hupper _)

/-- **A number is read as its value**, which is never reduced. -/
theorem readNumber_eq_ok_iff {v : UInt64} : readNumber cs = .ok v ↔ IsNumber cs v.toNat := by
  have hlt : v.toNat < limit64 := v.toNat_lt
  rw [← and_iff_right hlt (b := IsNumber cs v.toNat), ← number?_eq_some_iff, readNumber]
  split
  · rename_i m hm
    have hm' : m < UInt64.size := (number?_eq_some_iff.mp hm).1
    rw [hm, Except.ok.injEq, Option.some.injEq, ← UInt64.toNat_inj, UInt64.toNat_ofNat_of_lt' hm']
  · rename_i hnone
    rw [hnone]
    exact ⟨nofun, nofun⟩

/-- Just the numbers of 64 bits are read. -/
theorem exists_readNumber_iff :
    (∃ v, readNumber cs = .ok v) ↔ ∃ n, n ≤ 2 ^ 64 - 1 ∧ IsNumber cs n := by
  constructor
  · rintro ⟨v, h⟩
    exact ⟨v.toNat, Nat.le_sub_one_of_lt v.toNat_lt, readNumber_eq_ok_iff.mp h⟩
  · rintro ⟨n, hle, h⟩
    have hlt : n < UInt64.size := by
      have : UInt64.size = 2 ^ 64 := rfl
      omega
    refine ⟨UInt64.ofNat n, readNumber_eq_ok_iff.mpr ?_⟩
    rwa [UInt64.toNat_ofNat_of_lt' hlt]

end Prompt

end ProbeLink

/-
# The memory that is asked for is the memory that was typed

An address and a length are typed in one of many spellings and written in one: the lowercase
hexadecimal digits without zeros in front (`Hex.shortest_numeral`). Between them stands the one
comma of the body. So whoever takes the packet apart at a comma and reads both sides gets the two
numbers that were typed (`Prompt.memory_spelled_back`).

Key definitions: `Hex.Shortest`.
Key theorems: `Hex.shortest_numeral`, `Prompt.memory_spelled_back`.
-/
import ProbeLink.Proofs.Dump
import ProbeLink.Proofs.Phrases

namespace ProbeLink

/-- A text in ASCII has as many bytes as characters. -/
theorem length_textBytes_of_ascii {s : String} (h : ∀ c ∈ s.toList, c.toNat < 128) :
    (textBytes s).length = s.toList.length := by
  rw [textBytes_eq]
  revert h
  induction s.toList with
  | nil => exact fun _ => rfl
  | cons c r ih =>
    intro h
    rw [List.forall_mem_cons] at h
    have hone : (String.utf8EncodeChar c).length = 1 :=
      Text.of_ascii (P := fun c => (String.utf8EncodeChar c).length = 1) (by decide) h.1
    rw [List.flatMap_cons, List.length_append, hone, ih h.2, List.length_cons, Nat.add_comm]

theorem textBytes_injective {s t : String} (h : textBytes s = textBytes t) : s = t :=
  String.toByteArray_inj.mp (ByteArray.ext (Array.toList_inj.mp h))

namespace Hex

/-! ### Numbers in digits -/

/-- The digits of a number in lowercase, with no zero in front of others. -/
structure Shortest (digits : String) (n : ℕ) : Prop where
  lowercase : ∀ c ∈ digits.toList, c ∈ "0123456789abcdef".toList
  noZero : digits.toList.head? = some '0' → digits = "0"
  value : Text.IsNumeral 16 digits.toList n

/-- What holds of the digit of each value, holds of each digit of a number. -/
theorem forall_mem_toDigits {P : Char → Prop} (hall : ∀ d : Fin 16, P (Nat.digitChar d)) (n : ℕ) :
    ∀ c ∈ Nat.toDigits 16 n, P c := by
  induction n using Nat.strongRecOn with
  | ind n ih =>
    rw [Nat.toDigits_eq_if (by decide)]
    split
    · rename_i hlt
      rw [List.forall_mem_singleton]
      exact hall ⟨n, hlt⟩
    · rename_i hge
      rw [List.forall_mem_append, List.forall_mem_singleton]
      exact ⟨ih (n / 16) (by omega), hall ⟨n % 16, Nat.mod_lt _ (by decide)⟩⟩

/-- Only the number zero begins with a zero. -/
theorem head_toDigits (n : ℕ) : (Nat.toDigits 16 n).head? = some '0' → n = 0 := by
  induction n using Nat.strongRecOn with
  | ind n ih =>
    rw [Nat.toDigits_eq_if (by decide)]
    split
    · rename_i hlt
      have hall : ∀ d : Fin 16, Nat.digitChar d = '0' → (d : ℕ) = 0 := by decide
      exact fun h => hall ⟨n, hlt⟩ (Option.some.inj h)
    · rename_i hge
      rw [List.head?_append_of_ne_nil _ Nat.toDigits_ne_nil]
      intro h
      have := ih (n / 16) (by omega) h
      omega

/-- **A number is written in the fewest digits.** -/
theorem shortest_numeral (n : ℕ) : Shortest (numeral n) n where
  lowercase := by
    rw [numeral, String.toList_ofList]
    exact forall_mem_toDigits (by decide) n
  noZero := by
    rw [numeral, String.toList_ofList]
    intro h
    rw [head_toDigits n h]
    rfl
  value := by
    rw [numeral, String.toList_ofList, ← Text.digitsValue?_eq_some_iff (by decide),
      Text.digitsValue?_of_ne_nil Nat.toDigits_ne_nil, digitsFrom?_toDigits]

theorem Shortest.comma_notMem {digits : String} {n : ℕ} (h : Shortest digits n) :
    ',' ∉ digits.toList := fun hmem => absurd (h.lowercase ',' hmem) (by decide)

theorem Shortest.unsigned {digits : String} {v : UInt64} (h : Shortest digits v.toNat) :
    Text.unsigned? 16 Text.limit64 digits.toList = some v.toNat :=
  (Text.unsigned?_eq_some_iff (by decide)).mpr ⟨v.toNat_lt, _, .inl rfl, h.value⟩

end Hex

namespace Prompt

/-! ### A line that asks for memory -/

/-- A line with two words behind one that names the command for memory. -/
inductive MemoryLine (table : Text.CaseTable) (first second : String) : String → Prop where
  | intro {lead word gap gap' trail : String} (name : Names table word.toList .memory)
      (hlead : Text.AllBlank lead.toList) (hgap : Text.AllBlank gap.toList) (hsome : gap ≠ "")
      (hgap' : Text.AllBlank gap'.toList) (hsome' : gap' ≠ "")
      (htrail : Text.AllBlank trail.toList) :
      MemoryLine table first second (lead ++ word ++ gap ++ first ++ gap' ++ second ++ trail)

variable {table : Text.CaseTable} {first second line : String} {a n : UInt64}

theorem MemoryLine.parse (h : MemoryLine table first second line)
    (hfirst : readNumber first.toList = .ok a) (hsecond : readNumber second.toList = .ok n) :
    Request.parse line = .ok (.memory a n) := by
  obtain ⟨name, hlead, hgap, hsome, hgap', hsome', htrail⟩ := h
  rename_i lead word gap gap' trail
  have hplain := (readNumber_eq_ok_iff.mp hfirst).plain
  have hplain' := (readNumber_eq_ok_iff.mp hsecond).plain
  have hlast : Splits (gap'.toList ++ second.toList) [⟨second.toList, []⟩] :=
    .cons hgap' hplain'.ends (.nil Text.allBlank_nil)
  have hrest : Splits (gap.toList ++ (first.toList ++ (gap'.toList ++ second.toList))) _ :=
    .cons hgap (hplain.begins (stops_of_gap hsome' hgap' _)) hlast
  have hsplits := Splits.first (name.plain.begins (stops_of_gap hsome hgap _)) hrest
  refine Request.parse_written (by simp) hlead htrail (name.plain.head _) ?_ hsplits
    (.memory name hfirst hsecond)
  intro c hc
  simp only [← List.append_assoc] at hc
  rw [List.getLast?_append_of_ne_nil _ hplain'.some] at hc
  exact hplain'.full c (List.mem_of_getLast? hc)

/-- The body has room for two numbers of sixteen digits. -/
theorem length_memory_le (a n : UInt64) :
    (textBytes ("vTM" ++ (Hex.numeral a.toNat ++ "," ++ Hex.numeral n.toNat))).length ≤ 36 := by
  have hle : ∀ v : UInt64, (Hex.numeral v.toNat).toList.length ≤ 16 := by
    intro v
    rw [Hex.numeral, String.toList_ofList, Nat.length_toDigits_le_iff (by decide) (by decide)]
    exact v.toNat_lt
  have hascii : ∀ v : UInt64, ∀ c ∈ (Hex.numeral v.toNat).toList, c.toNat < 128 := by
    intro v
    rw [Hex.numeral, String.toList_ofList]
    exact Hex.forall_mem_toDigits (by decide) v.toNat
  rw [length_textBytes_of_ascii]
  · have h := hle a
    have h' := hle n
    simp only [String.toList_append, List.length_append]
    have hfixed : "vTM".toList.length = 3 ∧ ",".toList.length = 1 := by decide
    omega
  · simp only [String.toList_append, List.forall_mem_append]
    exact ⟨by decide, ⟨hascii a, by decide⟩, hascii n⟩

/-- A text with one comma is split there in one way. -/
theorem split_comma {x y x' y' : String} (hx : ',' ∉ x.toList) (hy : ',' ∉ y.toList)
    (h : x ++ "," ++ y = x' ++ "," ++ y') : x = x' ∧ y = y' := by
  have hchars : x.toList ++ ',' :: y.toList = x'.toList ++ ',' :: y'.toList := by
    simpa using congrArg String.toList h
  obtain ⟨hfront, -, hback⟩ := (List.append_cons_inj_of_notMem hx hy).mp hchars
  exact ⟨String.toList_inj.mp hfront, String.toList_inj.mp hback⟩

/-- **The memory that is asked for is the memory that was typed.** -/
theorem memory_spelled_back (table : Text.CaseTable) :
    (∀ cs v, readNumber cs = .ok v ↔ IsNumber cs v.toNat) ∧
    (∀ cs, (∃ v, readNumber cs = .ok v) ↔ ∃ m, m ≤ 2 ^ 64 - 1 ∧ IsNumber cs m) ∧
    ∀ (first second line : String) (a n : UInt64) (f : Framer),
      readNumber first.toList = .ok a → readNumber second.toList = .ok n →
      MemoryLine table first second line → f.isIdle = true → 36 ≤ f.max →
      Request.parse line = .ok (.memory a n) ∧
      ∃ (p : Packet) (x y : String), f.feed (Command.memory a n).encode = [.packet p] ∧
        p.kind = .reply ∧ p.verify = true ∧ p.payload = textBytes ("vTM" ++ (x ++ "," ++ y)) ∧
        Hex.Shortest x a.toNat ∧ Hex.Shortest y n.toNat ∧
        ∀ x' y' : String, p.payload = textBytes ("vTM" ++ (x' ++ "," ++ y')) →
          Text.unsigned? 16 Text.limit64 x'.toList = some a.toNat ∧
          Text.unsigned? 16 Text.limit64 y'.toList = some n.toNat := by
  refine ⟨fun cs v => readNumber_eq_ok_iff, fun cs => exists_readNumber_iff, ?_⟩
  intro first second line a n f hfirst hsecond hline hf hmax
  have hpart : partBody ((Command.memory a n).mnemonic, (Command.memory a n).payload) =
      textBytes ("vTM" ++ (Hex.numeral a.toNat ++ "," ++ Hex.numeral n.toNat)) :=
    (textBytes_append _ _).symm
  have hback := (comesBack_iff hf hpart (le_trans (length_memory_le a n) hmax)).mpr
    (mark_notMem_memory a n rfl)
  obtain ⟨p, hfeed, hkind, hpayload, hverify⟩ := hback
  have ha := Hex.shortest_numeral a.toNat
  have hn := Hex.shortest_numeral n.toNat
  refine ⟨hline.parse hfirst hsecond, p, _, _, hfeed, hkind, hverify, hpayload, ha, hn, ?_⟩
  intro x' y' hsplit
  -- wherever the body is taken apart, it is at the one comma in it
  have hbody := textBytes_injective (hpayload.symm.trans hsplit)
  rw [String.append_right_inj] at hbody
  obtain ⟨rfl, rfl⟩ := split_comma ha.comma_notMem hn.comma_notMem hbody
  exact ⟨ha.unsigned, hn.unsigned⟩

/-- Twice the largest number, in two spellings, at the bound exactly. -/
theorem memory_spelled_back_largest :
    readNumber "0X+0fFfFfFfFfFfFfFfF".toList = .ok 0xFFFFFFFFFFFFFFFF ∧
      readNumber "+018446744073709551615".toList = .ok 0xFFFFFFFFFFFFFFFF ∧
      Request.parse ("\u2003" ++ "MEM" ++ "\t" ++ "0X+0fFfFfFfFfFfFfFfF" ++ "  " ++
        "+018446744073709551615" ++ " ") = .ok (.memory 0xFFFFFFFFFFFFFFFF 0xFFFFFFFFFFFFFFFF) ∧
      ∃ (p : Packet) (x y : String), (Framer.fresh 36).feed
          (Command.memory 0xFFFFFFFFFFFFFFFF 0xFFFFFFFFFFFFFFFF).encode = [.packet p] ∧
        p.verify = true ∧ p.payload = textBytes ("vTM" ++ (x ++ "," ++ y)) ∧
        Text.unsigned? 16 Text.limit64 x.toList = some 0xFFFFFFFFFFFFFFFF ∧
        Text.unsigned? 16 Text.limit64 y.toList = some 0xFFFFFFFFFFFFFFFF := by
  have hfirst : readNumber "0X+0fFfFfFfFfFfFfFfF".toList = .ok 0xFFFFFFFFFFFFFFFF := by decide
  have hsecond : readNumber "+018446744073709551615".toList = .ok 0xFFFFFFFFFFFFFFFF := by decide
  have hline : MemoryLine Text.CaseTable.plain "0X+0fFfFfFfFfFfFfFfF" "+018446744073709551615"
      ("\u2003" ++ "MEM" ++ "\t" ++ "0X+0fFfFfFfFfFfFfFfF" ++ "  " ++ "+018446744073709551615" ++
        " ") :=
    .intro (by decide) (by decide) (by decide) (by decide) (by decide) (by decide) (by decide)
  obtain ⟨-, -, hall⟩ := memory_spelled_back Text.CaseTable.plain
  obtain ⟨hparse, p, x, y, hfeed, -, hverify, hpayload, -, -, hsplit⟩ :=
    hall _ _ _ _ _ (Framer.fresh 36) hfirst hsecond hline rfl (by decide)
  obtain ⟨hx, hy⟩ := hsplit x y hpayload
  exact ⟨hfirst, hsecond, hparse, p, x, y, hfeed, hverify, hpayload, hx, hy⟩

end Prompt

end ProbeLink

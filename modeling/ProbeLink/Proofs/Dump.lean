/-
# Memory on the screen

Memory is shown in lines. Each has the address of its first byte in front, sixteen digits of it
that wrap around at the end of the address space, and behind a blank the next sixteen bytes in
digits, or what is left of them (`Display.dump_getElem?`). So every byte is shown once and in
order: what stands behind the blanks, read as digits and put together, is the memory again
(`Display.shows_memory`).

Key definitions: `Display.ShowsLine`, `Display.readLine`, `Display.Shows`.
Key theorems: `Hex.digitsValue?_padded`, `Display.dump_getElem?`, `Display.shows_memory`,
`Console.finishCall_memory`.
-/
import ProbeLink.Console.Moves
import ProbeLink.Proofs.Keeping
import ProbeLink.Proofs.Spelling

namespace ProbeLink

/-! ### Numbers of a fixed width -/

namespace Text

theorem digitsFrom?_append (radix : ℕ) : ∀ (acc : ℕ) (cs cs' : List Char),
    digitsFrom? radix acc (cs ++ cs') =
      (digitsFrom? radix acc cs).bind fun v => digitsFrom? radix v cs'
  | _, [], _ => rfl
  | acc, c :: cs, cs' => by
    simp only [List.cons_append, digitsFrom?]
    cases digitIn? radix c with
    | none => rfl
    | some d => exact digitsFrom?_append radix _ cs cs'

/-- What has a value is made of digits. -/
theorem digits_of_digitsFrom? {radix : ℕ} : ∀ {acc v : ℕ} {cs : List Char},
    digitsFrom? radix acc cs = some v → ∀ c ∈ cs, digitIn? radix c ≠ none
  | _, _, [], _ => nofun
  | acc, v, c :: cs, h => by
    simp only [digitsFrom?] at h
    rw [List.forall_mem_cons]
    cases hc : digitIn? radix c with
    | none =>
      rw [hc] at h
      cases h
    | some d =>
      rw [hc] at h
      exact ⟨nofun, digits_of_digitsFrom? h⟩

theorem digitsValue?_of_ne_nil {radix : ℕ} {cs : List Char} (h : cs ≠ []) :
    digitsValue? radix cs = digitsFrom? radix 0 cs := by
  unfold digitsValue?
  split
  · exact absurd rfl h
  · rfl

end Text

namespace Hex

theorem digitIn?_digitChar {d : ℕ} (h : d < 16) : Text.digitIn? 16 (Nat.digitChar d) = some d := by
  have hall : ∀ d : Fin 16, Text.digitIn? 16 (Nat.digitChar d) = some (d : ℕ) := by decide
  exact hall ⟨d, h⟩

/-- A number is read back from its digits: the last one comes off the end. -/
theorem digitsFrom?_toDigits (n : ℕ) : Text.digitsFrom? 16 0 (Nat.toDigits 16 n) = some n := by
  induction n using Nat.strongRecOn with
  | ind n ih =>
    rw [Nat.toDigits_eq_if (by decide)]
    split
    · rename_i h
      simp only [Text.digitsFrom?, digitIn?_digitChar h, Nat.zero_mul, Nat.zero_add]
    · rename_i h
      have hmod : n % 16 < 16 := Nat.mod_lt _ (by decide)
      rw [Text.digitsFrom?_append, ih (n / 16) (by omega), Option.bind_some]
      simp only [Text.digitsFrom?, digitIn?_digitChar hmod, Option.some.injEq]
      omega

/-- Zeros in front change nothing. -/
theorem digitsFrom?_zeros (k : ℕ) (cs : List Char) :
    Text.digitsFrom? 16 0 (List.replicate k '0' ++ cs) = Text.digitsFrom? 16 0 cs := by
  induction k with
  | zero => rfl
  | succ k ih => exact ih

theorem toList_padded (width n : ℕ) : (padded width n).toList =
    List.replicate (width - (Nat.toDigits 16 n).length) '0' ++ Nat.toDigits 16 n :=
  String.toList_ofList

/-- A number that fits is written in digits of the width. -/
theorem length_padded {width n : ℕ} (hwidth : 0 < width) (h : n < 16 ^ width) :
    (padded width n).toList.length = width := by
  have hle := (Nat.length_toDigits_le_iff (by decide) hwidth).mpr h
  rw [toList_padded, List.length_append, List.length_replicate]
  omega

/-- **A padded number is read back.** -/
theorem digitsValue?_padded (width n : ℕ) :
    Text.digitsValue? 16 (padded width n).toList = some n := by
  have hsome : (padded width n).toList ≠ [] := by
    rw [toList_padded]
    exact List.append_ne_nil_of_right_ne_nil _ Nat.toDigits_ne_nil
  rw [Text.digitsValue?_of_ne_nil hsome, toList_padded, digitsFrom?_zeros, digitsFrom?_toDigits]

end Hex

/-! ### Results by number -/

/-- What is noted under the number of an entry is found under it: all entries before have smaller
numbers. -/
theorem lookup_zipIdx {α β : Type} {f : α × ℕ → Option (ℕ × β)}
    (hf : ∀ a n e, f (a, n) = some e → e.1 = n) : ∀ {as : List α} {k n : ℕ} {a : α} {b : β},
    as[n]? = some a → f (a, k + n) = some (k + n, b) →
    ((as.zipIdx k).filterMap f).lookup (k + n) = some b
  | [], _, _, _, _, h, _ => nomatch h
  | c :: as, k, 0, a, b, h, hb => by
    obtain rfl : c = a := Option.some.inj h
    rw [Nat.add_zero] at hb ⊢
    simp only [List.zipIdx_cons, List.filterMap_cons, hb, List.lookup_cons, BEq.rfl]
  | c :: as, k, n + 1, a, b, h, hb => by
    have hnext : k + (n + 1) = k + 1 + n := by omega
    rw [hnext] at hb ⊢
    have ih := lookup_zipIdx hf (k := k + 1) (n := n) h hb
    rw [List.zipIdx_cons, List.filterMap_cons]
    cases hc : f (c, k) with
    | none => exact ih
    | some e =>
      have hne : (k + 1 + n == e.1) = false := by
        rw [hf c k e hc, beq_eq_false_iff_ne]
        omega
      obtain ⟨m, r⟩ := e
      simp only [List.lookup_cons, hne]
      exact ih

/-- The result of a call that is over is found under its number. -/
theorem Session.lookup_results {L : Type} {s : Session L} {n : ℕ} {r : Except SessionError Answer}
    (h : s.phase? n = some (.ended r)) : s.results.lookup n = some r := by
  obtain ⟨c, hc, hphase⟩ := Option.map_eq_some_iff.mp h
  rw [results, ← Nat.zero_add n]
  refine lookup_zipIdx (fun c n e he => ?_) hc ?_
  · simp only at he
    split at he
    · obtain rfl := Option.some.inj he
      rfl
    · cases he
  · simp only [hphase]

namespace Console

/-! ### Memory cut into lines -/

namespace Display

/-- **Line by line** memory is cut behind every sixteenth byte, as long as there are bytes. -/
theorem dump_getElem? (addr : UInt64) (data : Bytes) (i : ℕ) :
    (dump addr data)[i]? = if 16 * i < data.length
      then some (addr + UInt64.ofNat (16 * i), (data.drop (16 * i)).take 16) else none := by
  fun_induction dump addr data generalizing i with
  | case1 => rfl
  | case2 addr b r ih =>
    cases i with
    | zero => simp [lineWidth]
    | succ i =>
      have hlength : 16 * i < ((b :: r).drop lineWidth).length ↔
          16 * (i + 1) < (b :: r).length := by
        rw [List.length_drop]
        show 16 * i < (b :: r).length - 16 ↔ _
        omega
      have hdrop : ((b :: r).drop lineWidth).drop (16 * i) = (b :: r).drop (16 * (i + 1)) := by
        rw [List.drop_drop, lineWidth, Nat.mul_succ, Nat.add_comm]
      have haddr : addr + UInt64.ofNat lineWidth + UInt64.ofNat (16 * i) =
          addr + UInt64.ofNat (16 * (i + 1)) := by
        rw [UInt64.add_assoc, ← UInt64.ofNat_add, lineWidth, Nat.mul_succ, Nat.add_comm]
      rw [List.getElem?_cons_succ, ih, hdrop, haddr]
      simp only [hlength]

theorem length_dump (addr : UInt64) (data : Bytes) :
    (dump addr data).length = (data.length + 15) / 16 := by
  fun_induction dump addr data with
  | case1 => rfl
  | case2 addr b r ih =>
    rw [List.length_cons, ih, List.length_drop]
    simp only [List.length_cons, lineWidth]
    omega

/-- The lines together are the memory. -/
theorem flatMap_dump (addr : UInt64) (data : Bytes) :
    (dump addr data).flatMap Prod.snd = data := by
  fun_induction dump addr data with
  | case1 => rfl
  | case2 addr b r ih => rw [List.flatMap_cons, ih, List.take_append_drop]

/-! ### A line -/

/-- The line has an address and bytes on it: the sixteen digits of the address, and behind a
blank the spelling of the bytes. -/
def ShowsLine (on : Bool) (line : String) (address : ℕ) (bytes : Bytes) : Prop :=
  ∃ digits spelling : String,
    line = Paint.cyan.apply on ("0x" ++ digits ++ ":") ++ " " ++ spelling ∧
    digits.toList.length = 16 ∧ Text.digitsValue? 16 digits.toList = some address ∧
    Hex.IsSpelling (textBytes spelling) bytes

/-- The bytes on a line: what stands behind the first blank, read as digits. -/
def readLine (line : String) : Bytes :=
  match Hex.decode (textBytes (String.ofList ((line.toList.dropWhile (· ≠ ' ')).drop 1))) with
  | .ok bytes => bytes
  | .error _ => []

theorem mem_resume {c : Char} {lead text : List Char} (h : c ∈ Paint.resume lead text) :
    c ∈ Paint.reset ∨ c ∈ lead ∨ c ∈ text := by
  fun_induction Paint.resume lead text with
  | case1 r ih =>
    simp only [List.mem_append] at h
    rcases h with (h | h) | h
    · exact .inl h
    · exact .inr (.inl h)
    · refine (ih h).imp_right (Or.imp_right fun h => ?_)
      simp only [List.mem_cons]
      tauto
  | case2 d r _ ih =>
    rcases List.mem_cons.mp h with rfl | h
    · exact .inr (.inr List.mem_cons_self)
    · exact (ih h).imp_right (Or.imp_right (List.mem_cons_of_mem d))
  | case3 => cases h

/-- Paint brings no blank. -/
theorem blank_notMem_apply {on : Bool} {text : String} (h : ' ' ∉ text.toList) :
    ' ' ∉ (Paint.cyan.apply on text).toList := by
  unfold Paint.apply
  split
  · have hlead : ' ' ∉ Paint.cyan.lead := by decide
    have hreset : ' ' ∉ Paint.reset := by decide
    simp only [String.toList_ofList, List.mem_append, not_or]
    refine ⟨⟨hlead, fun hmem => ?_⟩, hreset⟩
    rcases mem_resume hmem with hmem | hmem | hmem
    · exact hreset hmem
    · exact hlead hmem
    · exact h hmem
  · exact h

/-- What is shown is read back from the line. -/
theorem ShowsLine.read {on : Bool} {line : String} {address : ℕ} {bytes : Bytes}
    (h : ShowsLine on line address bytes) : readLine line = bytes := by
  obtain ⟨digits, spelling, rfl, hlength, hvalue, hspelling⟩ := h
  have hsome : digits.toList ≠ [] := List.ne_nil_of_length_pos (by omega)
  rw [Text.digitsValue?_of_ne_nil hsome] at hvalue
  -- neither the address nor its paint has a blank in it, so the first one stands before the bytes
  have hblank : ' ' ∉ ("0x" ++ digits ++ ":").toList := by
    simp only [String.toList_append, List.mem_append, not_or]
    exact ⟨⟨by decide, fun hmem => Text.digits_of_digitsFrom? hvalue _ hmem (by decide)⟩, by decide⟩
  have hpainted : ' ' ∉ (Paint.cyan.apply on ("0x" ++ digits ++ ":")).toList :=
    blank_notMem_apply hblank
  have hrest : ((Paint.cyan.apply on ("0x" ++ digits ++ ":") ++ " " ++ spelling).toList.dropWhile
      (· ≠ ' ')).drop 1 = spelling.toList := by
    have hall : ∀ c ∈ (Paint.cyan.apply on ("0x" ++ digits ++ ":")).toList,
        decide (c ≠ ' ') = true := by
      intro c hc
      rw [decide_eq_true_iff]
      rintro rfl
      exact hpainted hc
    rw [String.toList_append, String.toList_append, List.append_assoc,
      List.dropWhile_append_of_pos hall]
    rfl
  rw [readLine, hrest, String.ofList_toList, Hex.decode_eq_ok_iff.mpr hspelling]

theorem showsLine_memoryLine (on : Bool) (addr : UInt64) (bytes : Bytes) :
    ShowsLine on (memoryLine on addr bytes) addr.toNat bytes := by
  have hspelling := Hex.isSpelling_encode bytes
  refine ⟨Hex.padded 16 addr.toNat, Hex.asText (Hex.encode bytes), rfl,
    Hex.length_padded (by decide) addr.toNat_lt, Hex.digitsValue?_padded 16 _, ?_⟩
  rwa [hspelling.textBytes_asText]

/-! ### All lines -/

/-- The lines show the memory from an address on. -/
structure Shows (on : Bool) (addr : UInt64) (data : Bytes) (lines : List String) : Prop where
  length : lines.length = (data.length + 15) / 16
  /-- A line has the address of its first byte and the next sixteen bytes, or what is left. -/
  line : ∀ i line, lines[i]? = some line →
    ShowsLine on line ((addr.toNat + 16 * i) % 2 ^ 64) ((data.drop (16 * i)).take 16)
  /-- Nothing is left out or shown twice. -/
  joined : lines.flatMap readLine = data

/-- **Memory is shown as it is**, every byte once and in order. -/
theorem shows_memory (on : Bool) (addr : UInt64) {data : Bytes} (h : data ≠ []) :
    Shows on addr data (memory on addr data) := by
  have hmemory : memory on addr data =
      (dump addr data).map fun l => memoryLine on l.1 l.2 := by
    rw [memory, if_neg h]
  rw [hmemory]
  refine ⟨?_, fun i line hline => ?_, ?_⟩
  · rw [List.length_map, length_dump]
  · rw [List.getElem?_map, dump_getElem?, Option.map_eq_some_iff] at hline
    obtain ⟨l, hl, rfl⟩ := hline
    obtain ⟨-, hl⟩ := Option.ite_none_right_eq_some.mp hl
    obtain rfl := Option.some.inj hl
    have hshown := showsLine_memoryLine on (addr + UInt64.ofNat (16 * i))
      ((data.drop (16 * i)).take 16)
    rwa [UInt64.toNat_add, UInt64.toNat_ofNat', Nat.add_mod_mod] at hshown
  · rw [List.flatMap_map]
    conv_rhs => rw [← flatMap_dump addr data]
    congr 1
    funext l
    exact (showsLine_memoryLine on l.1 l.2).read

end Display

/-! ### From the answer to the screen -/

variable {L : Type}

theorem prints_done (c : Console L) : c.done.prints = c.prints := by
  unfold done
  split
  · rfl
  · unfold leave endSession
    cases c.session <;> rfl

theorem prints_sayAll (c : Console L) (lines : List String) :
    (c.sayAll lines).prints = (lines.map fun l => Print.out (l ++ "\n")).reverse ++ c.prints := by
  induction lines generalizing c with
  | nil => rfl
  | cons l lines ih =>
    show (sayAll (c.say l) lines).prints = _
    rw [ih, List.map_cons, List.reverse_cons, List.append_assoc]
    rfl

/-- **The answer is printed** as soon as the call is over, and nothing else is. -/
theorem finishCall_memory {c : Console L} {n : ℕ} {addr : UInt64} {data : Bytes}
    {s : Session L} (hphase : c.phase = .calling n (.memory addr)) (hs : c.session = some s)
    (hended : s.phase? n = some (.ended (.ok (.data data)))) :
    c.finishCall.prints = ((Display.memory c.painted addr data).map fun l =>
      Print.out (l ++ "\n")).reverse ++ c.prints := by
  have hresult : c.result? n = some (.ok (.data data)) := by
    rw [result?, hs, Option.bind_some, Session.lookup_results hended]
  simp only [finishCall, hphase, hresult]
  rw [prints_done]
  exact prints_sayAll c _

end Console

end ProbeLink

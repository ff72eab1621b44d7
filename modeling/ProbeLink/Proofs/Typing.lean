/-
# What is typed comes back just if no end mark is typed

A line that asks something of the target goes through three layers: the prompt cuts out the
argument, the command puts its mnemonic in front, and the frame puts marks and a checksum around.
None of them escapes or refuses a character. So what a framer makes of the frame is settled by
the body alone (`Prompt.typed_framed_iff`): with no end mark in it the frame comes back whole as
one packet that verifies; with one the packet ends at the first, whatever was typed behind it.
The addresses and lengths of memory are read as numbers and written in digits, so no line gets an
end mark into them.

Key definitions: `Prompt.Request.body?`, `Prompt.ComesBack`, `Prompt.EndsEarly`.
Key theorems: `mem_textBytes`, `Prompt.typed_framed_iff`.
-/
import Mathlib.Data.Nat.Digits.Defs
import ProbeLink.Console.Moves
import ProbeLink.Proofs.Encoding
import ProbeLink.Proofs.Holders

namespace ProbeLink

/-! ### Characters and bytes -/

/-- A text is the bytes of its characters one after the other. -/
theorem textBytes_eq (s : String) : textBytes s = s.toList.flatMap String.utf8EncodeChar := by
  rw [textBytes, ← String.utf8Encode_toList, List.utf8Encode, List.toList_data_toByteArray]

theorem endMark_eq_ofNat (n : ℕ) : endMark = UInt8.ofNat n ↔ n % 256 = 35 := by
  rw [← UInt8.toNat_inj, UInt8.toNat_ofNat', eq_comm]
  rfl

/-- The end mark is a character of its own and no part of another one. -/
theorem endMark_mem_utf8EncodeChar (c : Char) : endMark ∈ String.utf8EncodeChar c ↔ c = '#' := by
  constructor
  · intro h
    simp only [String.utf8EncodeChar] at h
    split_ifs at h
    · have hval : c.val.toNat = 35 := by
        have := (endMark_eq_ofNat _).mp (List.mem_singleton.mp h)
        omega
      exact Char.ext (UInt32.toNat_inj.mp hval)
    -- the bytes of a character beyond ASCII are all 128 or more
    all_goals
      simp only [List.mem_cons, List.not_mem_nil, or_false, endMark_eq_ofNat] at h
      omega
  · rintro rfl
    decide

/-- **An end mark among the bytes** of a text is one among its characters. -/
theorem endMark_mem_textBytes (s : String) : endMark ∈ textBytes s ↔ '#' ∈ s.toList := by
  simp only [textBytes_eq, List.mem_flatMap, endMark_mem_utf8EncodeChar, exists_eq_right]

/-- A number is written without an end mark. -/
theorem Hex.mark_notMem_numeral (n : ℕ) : '#' ∉ (Hex.numeral n).toList := by
  rw [Hex.numeral, String.toList_ofList]
  induction n using Nat.strongRecOn with
  | ind n ih =>
    rw [Nat.toDigits_eq_if (by decide)]
    split
    · rw [List.mem_singleton]
      exact (Nat.digitChar_ne '#' rfl).symm
    · rename_i h
      rw [List.mem_append, List.mem_singleton, not_or]
      exact ⟨ih (n / 16) (Nat.div_lt_self (by omega) (by decide)), (Nat.digitChar_ne '#' rfl).symm⟩

namespace Prompt

/-- The body that a request to the target asks for: the mnemonic and then the argument. -/
def Request.body? : Request → Option String
  | .registers symbol => some ("vTR" ++ symbol)
  | .memory addr length =>
    some ("vTM" ++ (Hex.numeral addr.toNat ++ "," ++ Hex.numeral length.toNat))
  | .arguments function => some ("vTA" ++ function)
  | .send body => some body
  | _ => none

/-- A framer makes one packet of the frame, a reply with the body and a checksum that verifies,
and nothing else. -/
def ComesBack (f : Framer) (frame : Bytes) (body : String) : Prop :=
  ∃ p : Packet, f.feed frame = [.packet p] ∧ p.kind = .reply ∧ p.payload = textBytes body ∧
    p.verify = true

/-- The first thing a framer makes of the frame is a packet whose payload is what stands before
the first end mark of the body, with the next two bytes for a checksum. What follows is taken
outside a frame. -/
def EndsEarly (f : Framer) (frame : Bytes) (body : String) : Prop :=
  ∃ (before : Bytes) (x y : UInt8) (rest : Bytes),
    endMark ∉ before ∧ (before ++ [endMark]) <+: textBytes body ∧
    frame = replyMark :: before ++ [endMark, x, y] ++ rest ∧
    f.feed frame = .packet ⟨.reply, before, x, y⟩ :: f.feed rest

variable {L : Type} {f : Framer} {part : String × String} {body : String}

theorem carries_iff (hbody : partBody part = textBytes body) (frame : Bytes) :
    List.Forall₂ Carries [part] (f.feed frame) ↔ ComesBack f frame body := by
  constructor
  · intro h
    obtain ⟨out, outs, ⟨p, rfl, hkind, hpayload, hverify⟩, houts, hfeed⟩ :=
      List.forall₂_cons_left_iff.mp h
    obtain rfl := List.forall₂_nil_left_iff.mp houts
    exact ⟨p, hfeed, hkind, hpayload.trans hbody, hverify⟩
  · rintro ⟨p, hfeed, hkind, hpayload, hverify⟩
    rw [hfeed]
    exact .cons ⟨p, rfl, hkind, hpayload.trans hbody.symm, hverify⟩ .nil

/-- **A frame comes back whole** just if there is no end mark in its body. -/
theorem comesBack_iff (hf : f.isIdle = true) (hbody : partBody part = textBytes body)
    (hmax : (textBytes body).length ≤ f.max) :
    ComesBack f (commandFrame part.1 part.2) body ↔ '#' ∉ body.toList := by
  obtain ⟨m, rfl⟩ : ∃ m, f = Framer.fresh m := ⟨_, Framer.eq_fresh hf⟩
  have hiff := forall₂_carries_iff m [part]
  rw [List.map_singleton, List.flatMap_singleton, ← commandFrame_eq] at hiff
  refine (carries_iff hbody _).symm.trans (hiff.trans ?_)
  rw [List.forall_mem_singleton, Writable, hbody, endMark_mem_textBytes]
  exact and_iff_left hmax

/-- **A frame with an end mark in its body ends there.** -/
theorem endsEarly_of_mem (hf : f.isIdle = true) (hbody : partBody part = textBytes body)
    (hmax : (textBytes body).length ≤ f.max) (hmark : '#' ∈ body.toList) :
    EndsEarly f (commandFrame part.1 part.2) body := by
  obtain ⟨before, behind, hsplit, hfree⟩ :=
    List.eq_append_cons_of_mem ((endMark_mem_textBytes body).mpr hmark)
  -- the true end mark and its checksum stand behind, so there are two bytes to be taken for one
  obtain ⟨x, y, rest, hrest⟩ : ∃ x y rest,
      behind ++ endMark :: (Packet.sealed .reply (textBytes body)).checksum = x :: y :: rest := by
    cases behind with
    | nil => exact ⟨_, _, _, rfl⟩
    | cons b behind =>
      cases behind with
      | nil => exact ⟨_, _, _, rfl⟩
      | cons b' behind => exact ⟨_, _, _, rfl⟩
  have hframe : commandFrame part.1 part.2 =
      (Segment.frame ⟨.reply, before, x, y⟩).bytes ++ rest := by
    have hbytes : commandFrame part.1 part.2 =
        replyMark :: textBytes body ++
          endMark :: (Packet.sealed .reply (textBytes body)).checksum :=
      hbody ▸ commandFrame_eq part
    have hflat : textBytes body ++ endMark :: (Packet.sealed .reply (textBytes body)).checksum =
        before ++ endMark :: x :: y :: rest := by
      conv => lhs; arg 1; rw [hsplit]
      rw [List.append_assoc, List.cons_append, hrest]
    rw [hbytes, List.cons_append, hflat]
    simp only [Segment.bytes, Packet.encode, Packet.checksum, PacketKind.mark, List.cons_append,
      List.append_assoc, List.nil_append]
  have hfits : (Segment.frame ⟨.reply, before, x, y⟩).Fits f.max := by
    refine ⟨hfree, le_trans ?_ hmax⟩
    rw [hsplit, List.length_append]
    exact Nat.le_add_right _ _
  obtain ⟨m, rfl⟩ : ∃ m, f = Framer.fresh m := ⟨_, Framer.eq_fresh hf⟩
  refine ⟨before, x, y, rest, hfree, ⟨behind, ?_⟩, ?_, ?_⟩
  · rw [hsplit, List.append_assoc, List.singleton_append]
  · rw [hframe]
    simp only [Segment.bytes, Packet.encode, Packet.checksum, PacketKind.mark, List.cons_append,
      List.append_assoc, List.nil_append]
  · rw [hframe]
    exact Framer.feed_segment_append hfits rest

/-! ### From the prompt to the frame -/

/-- Memory is asked for in digits and a comma. -/
theorem mark_notMem_memory (addr length : UInt64) {body : String}
    (h : (Request.memory addr length).body? = some body) : '#' ∉ body.toList := by
  obtain rfl := Option.some.inj h
  simp only [String.toList_append, List.mem_append, not_or]
  exact ⟨by decide, ⟨Hex.mark_notMem_numeral _, by decide⟩, Hex.mark_notMem_numeral _⟩

/-- A line that asks something of the target becomes a call, and the two parts of what the call
sends are the body. -/
theorem obey_issues [Link L] {line : String} {r : Request} (hparse : Request.parse line = .ok r)
    (hbody : r.body? = some body) {c : Console L} {s : Session L} (hs : c.usable = .ok s) :
    ∃ ask part, (c.obey line).session = some (s.issue ask) ∧ ask.body? = some part ∧
      partBody part = textBytes body := by
  have hcall : ∀ ask purpose, (c.call ask purpose).session = some (s.issue ask) := by
    intro ask purpose
    simp only [Console.call, hs]
  simp only [Console.obey, hparse]
  cases r with
  | registers symbol =>
    obtain rfl := Option.some.inj hbody
    exact ⟨_, _, hcall _ _, rfl, (textBytes_append _ _).symm⟩
  | memory addr length =>
    obtain rfl := Option.some.inj hbody
    exact ⟨_, _, hcall _ _, rfl, (textBytes_append _ _).symm⟩
  | arguments function =>
    obtain rfl := Option.some.inj hbody
    exact ⟨_, _, hcall _ _, rfl, (textBytes_append _ _).symm⟩
  | send text =>
    obtain rfl := Option.some.inj hbody
    exact ⟨_, _, hcall _ _, rfl, List.append_nil _⟩
  | _ => cases hbody

/-- **What is typed comes back just if no end mark is typed.** A line that asks something of the
target becomes a call of the session, and the call writes one frame. A framer outside a frame
with room for the body makes just the one right packet of it if there is no end mark in the
body; there is none if memory is asked for. If there is one, the packet ends there. -/
theorem typed_framed_iff [Link L] {line : String} {r : Request}
    (hparse : Request.parse line = .ok r) (hbody : r.body? = some body) {c : Console L}
    {s : Session L} (hs : c.usable = .ok s) (hf : f.isIdle = true)
    (hmax : (textBytes body).length ≤ f.max) :
    ∃ ask frame, (c.obey line).session = some (s.issue ask) ∧
      (∀ s' : Session L, s'.ask? s.calls.length = some ask →
        (∀ t, s'.phase? s.calls.length ≠ some (.sending t)) →
          (s'.moveCall s.calls.length).outlet = s'.outlet ∨
          (s'.moveCall s.calls.length).outlet =
            s'.outlet.enter (.call s.calls.length) (.frame frame)) ∧
      (ComesBack f frame body ↔ '#' ∉ body.toList) ∧
      (∀ addr length, r = .memory addr length → ComesBack f frame body) ∧
      ('#' ∈ body.toList → EndsEarly f frame body) := by
  obtain ⟨ask, part, hissue, hask, hpart⟩ := obey_issues hparse hbody hs
  have hback := comesBack_iff hf hpart hmax
  refine ⟨ask, commandFrame part.1 part.2, hissue, fun s' hs' hidle => ?_, hback, ?_,
    endsEarly_of_mem hf hpart hmax⟩
  · obtain hsame | ⟨t, bytes, -, hframe, houtlet⟩ := Session.outlet_moveCall hidle
    · exact .inl hsame
    · obtain ⟨call, hcall, rfl⟩ := Option.map_eq_some_iff.mp hs'
      simp only [Session.frame?, hcall, Option.bind_some, hask, Option.map_some] at hframe
      exact .inr (Option.some.inj hframe ▸ houtlet)
  · rintro addr length rfl
    exact hback.mpr (mark_notMem_memory addr length hbody)

/-- A console that is connected by a serial line. -/
def connected : Console SerialLine := { session := some (Session.start {} {}) }

/-- A quoted symbol with a blank, marks and signs in it comes back at the bound exactly. -/
theorem typed_framed_quoted :
    ∃ ask frame,
      (connected.obey "regs \"a $%+-é\"").session = some ((Session.start {} {}).issue ask) ∧
      ComesBack (Framer.fresh 11) frame "vTRa $%+-é" := by
  have hparse : Request.parse "regs \"a $%+-é\"" = .ok (.registers "a $%+-é") := rfl
  have husable : connected.usable = .ok (Session.start {} {}) := rfl
  have hidle : (Framer.fresh 11).isIdle = true := rfl
  obtain ⟨ask, frame, hissue, -, hback, -⟩ :=
    typed_framed_iff hparse rfl husable hidle (by decide)
  exact ⟨ask, frame, hissue, hback.mpr (by decide)⟩

/-- **An end mark that is typed ends the frame.** A framer makes a packet of the beginning and two
stray bytes of the rest. -/
theorem typed_mark_ends_frame :
    Request.parse "send a#b" = .ok (.send "a#b") ∧
      (connected.obey "send a#b").session = some ((Session.start {} {}).issue (.packet "a#b" "")) ∧
      ((Session.start ({} : SerialLine) {}).issue (.packet "a#b" "")).frame? 0 =
        some (commandFrame "a#b" "") ∧
      (textBytes "a#b").length ≤ (Framer.fresh 3).max ∧
      (Framer.fresh 3).feed (commandFrame "a#b" "") =
        [.packet ⟨.reply, [0x61], 0x62, endMark⟩, .error (.strayByte 0x65),
          .error (.strayByte 0x36)] ∧
      ¬ ComesBack (Framer.fresh 3) (commandFrame "a#b" "") "a#b" := by
  have hfeed : (Framer.fresh 3).feed (commandFrame "a#b" "") =
      [.packet ⟨.reply, [0x61], 0x62, endMark⟩, .error (.strayByte 0x65),
        .error (.strayByte 0x36)] := by
    decide
  refine ⟨rfl, rfl, rfl, by decide, hfeed, ?_⟩
  rintro ⟨p, hp, -⟩
  rw [hfeed] at hp
  cases hp

end Prompt

end ProbeLink

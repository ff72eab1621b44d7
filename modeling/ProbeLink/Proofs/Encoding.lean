/-
# Commands survive framing just if their bodies fit

Commands are written one behind the other with nothing between them and nothing
escaped. Fed to a framer outside a frame they come back one packet each, with the
body that was written and the right checksum, just if no body holds an end mark
and none is longer than the bound (`encodeOnto_carried_iff`). Marks, signs and
text of several bytes for a character in a body do no harm.

One direction takes the written frames for segments. The other needs no look at a
body that does not fit: what comes back first is the first segment of what was
written, and a segment fits.

Key definitions: `partBody`, `Writable`, `Carries`.
Key theorems: `Packet.verify_sealed`, `encodeOnto_carried_iff`.
-/
import Mathlib.Data.List.Forall2
import ProbeLink.Command
import ProbeLink.Proofs.Segments

namespace ProbeLink

/-! ### The checksum that is written is the one that is read -/

theorem Hex.digitValue?_digit {n : UInt8} (h : n < 16) : digitValue? (digit n) = some n := by
  have hall : ∀ k : Fin 16, digitValue? (digit (UInt8.ofNat k)) = some (UInt8.ofNat k) := by decide
  simpa using hall ⟨n.toNat, UInt8.lt_iff_toNat_lt.mp h⟩

theorem Hex.digit_ne_plus {n : UInt8} (h : n < 16) : digit n ≠ 0x2B := by
  have hall : ∀ k : Fin 16, digit (UInt8.ofNat k) ≠ 0x2B := by decide
  simpa using hall ⟨n.toNat, UInt8.lt_iff_toNat_lt.mp h⟩

theorem Checksum.parse_digitPair (s : UInt8) : parse (Hex.digitPair s) = some s := by
  have hs := s.toNat_lt
  have hhi : s / 16 < 16 := by
    rw [UInt8.lt_iff_toNat_lt, UInt8.toNat_div]
    exact (Nat.div_lt_iff_lt_mul (by decide)).mpr (by simpa using hs)
  have hlo : s % 16 < 16 := by
    rw [UInt8.lt_iff_toNat_lt, UInt8.toNat_mod]
    exact Nat.mod_lt _ (by decide)
  have hsum : s / 16 * 16 + s % 16 = s := by
    rw [← UInt8.toNat_inj]
    simp
    omega
  simp [parse, Hex.digitPair, Hex.digitValue?_digit hhi, Hex.digitValue?_digit hlo,
    Hex.digit_ne_plus hhi, hsum]

/-- A packet with the right checksum verifies. -/
theorem Packet.verify_sealed (kind : PacketKind) (payload : Bytes) :
    (Packet.sealed kind payload).verify = true := by
  have h := Checksum.parse_digitPair (byteSum payload)
  simp only [Hex.digitPair] at h
  simp [verify, Checksum.verify, checksum, Packet.sealed, h]

/-! ### What is written and what comes back -/

/-- The body under which a command and its payload are written. -/
def partBody (part : String × String) : Bytes := textBytes part.1 ++ textBytes part.2

/-- The body can be framed: it has no end mark, and the bound allows it. -/
def Writable (m : ℕ) (part : String × String) : Prop :=
  endMark ∉ partBody part ∧ (partBody part).length ≤ m

instance (m : ℕ) (part : String × String) : Decidable (Writable m part) :=
  inferInstanceAs (Decidable (_ ∧ _))

/-- What comes back is a reply packet with the body and the right checksum. -/
def Carries (part : String × String) (out : Frame) : Prop :=
  ∃ p : Packet, out = .packet p ∧ p.kind = .reply ∧ p.payload = partBody part ∧ p.verify = true

/-- The frame of a command as a segment. -/
def partSegment (part : String × String) : Segment := .frame (Packet.sealed .reply (partBody part))

theorem commandFrame_eq (part : String × String) :
    commandFrame part.1 part.2 = (partSegment part).bytes :=
  commandFrame_eq_encode part.1 part.2

theorem partSegment_fits {m : ℕ} {part : String × String} (h : Writable m part) :
    (partSegment part).Fits m := h

/-- Writing appends: what the buffer held stays in front. -/
theorem encodeOnto_eq (buffer : Bytes) : ∀ parts : List (String × String),
    encodeOnto buffer parts = buffer ++ (parts.map partSegment).flatMap Segment.bytes
  | [] => by simp [encodeOnto]
  | part :: parts => by
    rw [encodeOnto, encodeOnto_eq _ parts, commandFrame_eq]
    simp

/-- A body that comes back first was framed, so it fits. -/
theorem writable_of_carries {m : ℕ} {part : String × String} {x : Bytes} {out : Frame}
    {outs : List Frame} (hfeed : (Framer.fresh m).feed ((partSegment part).bytes ++ x) = out :: outs)
    (hout : Carries part out) : Writable m part := by
  obtain ⟨p, rfl, -, hpayload, -⟩ := hout
  have hne : (partSegment part).bytes ++ x ≠ [] := by simp [(partSegment part).bytes_ne_nil]
  rcases Segmentation.split m hne with ⟨g, y, hg, heq⟩ | ⟨o, ho, heq⟩
  · rw [heq, Framer.feed_segment_append hg] at hfeed
    cases g with
    | frame q =>
      simp only [Segment.output, Option.toList_some, List.singleton_append, List.cons.injEq,
        Frame.packet.injEq] at hfeed
      obtain ⟨rfl, -⟩ := hfeed
      rw [Writable, ← hpayload]
      exact hg
    | tooLong kind body => simp [Segment.output] at hfeed
    -- the first byte is a start mark
    | ack => cases heq
    | nak => cases heq
    | stray b =>
      obtain rfl : replyMark = b := (List.cons.inj heq).1
      exact absurd hg (by simp [Segment.Fits])
  · rw [heq, Framer.feed_opening ho] at hfeed
    cases hfeed

theorem forall₂_carries_iff (m : ℕ) : ∀ parts : List (String × String),
    List.Forall₂ Carries parts
        ((Framer.fresh m).feed ((parts.map partSegment).flatMap Segment.bytes)) ↔
      ∀ part ∈ parts, Writable m part
  | [] => by simp [Framer.feed]
  | part :: parts => by
    have ih := forall₂_carries_iff m parts
    rw [List.map_cons, List.flatMap_cons, List.forall_mem_cons]
    have hfirst : Writable m part →
        (Framer.fresh m).feed ((partSegment part).bytes ++ (parts.map partSegment).flatMap Segment.bytes)
          = .packet (Packet.sealed .reply (partBody part)) ::
            (Framer.fresh m).feed ((parts.map partSegment).flatMap Segment.bytes) :=
      fun h => Framer.feed_segment_append (partSegment_fits h) _
    constructor
    · intro h
      obtain ⟨out, outs, hout, -, hfeed⟩ := List.forall₂_cons_left_iff.mp h
      have hw : Writable m part := writable_of_carries hfeed hout
      rw [hfirst hw, List.forall₂_cons] at h
      exact ⟨hw, ih.mp h.2⟩
    · rintro ⟨hw, hws⟩
      rw [hfirst hw, List.forall₂_cons]
      exact ⟨⟨_, rfl, rfl, rfl, Packet.verify_sealed _ _⟩, ih.mpr hws⟩

/-- **Commands come back just if their bodies fit.** Writing leaves what the
buffer held in front. What it appends, fed to a framer outside a frame, completes
one reply packet for each command, in order and nothing else, with the body that
was written and a checksum that verifies, just if every body is without an end
mark and within the bound. -/
theorem encodeOnto_carried_iff (buffer : Bytes) (parts : List (String × String)) (f : Framer)
    (hf : f.isIdle = true) :
    ∃ added, encodeOnto buffer parts = buffer ++ added ∧
      (List.Forall₂ Carries parts (f.feed added) ↔ ∀ part ∈ parts, Writable f.max part) := by
  obtain ⟨m, place⟩ := f
  obtain rfl : place = .idle := by simpa [Framer.isIdle] using hf
  exact ⟨_, encodeOnto_eq buffer parts, forall₂_carries_iff m parts⟩

/-- Marks, signs and a character of two bytes come back, at the bound exactly. -/
theorem encodeOnto_carried_marks :
    (Framer.fresh 7).isIdle = true ∧
      ∃ added, encodeOnto [replyMark] [("m", "$1é+-"), ("", "")] = [replyMark] ++ added ∧
        List.Forall₂ Carries [("m", "$1é+-"), ("", "")] ((Framer.fresh 7).feed added) := by
  obtain ⟨added, happend, hiff⟩ :=
    encodeOnto_carried_iff [replyMark] [("m", "$1é+-"), ("", "")] (Framer.fresh 7) rfl
  exact ⟨rfl, added, happend, hiff.mpr (by decide)⟩

end ProbeLink

/-
# A stream falls into segments in one way

Read from the left, a stream is a row of segments and perhaps the opening of a
frame that is not finished: an acknowledgement, a request to repeat, a stray
byte, a frame with its two checksum characters, or a start mark with one byte of
body too many (`Segment`). There is exactly one such row for a stream and a bound
(`Segmentation`), and the framer says at the last byte of each segment what the
segment says, and nothing anywhere else (`Framer.eq_segmentation`).

The proof walks the framer over an opening (`run_opening`), over a segment
(`run_segment`) and over a row of segments (`run_segments`). Two rows agree because the framer is outside a
frame at the end of a segment and nowhere within it (`busy_within`).

Key definitions: `Segment`, `Opening`, `Segmentation`, `Framer.verdicts`, `Piece`.
Key theorems: `Framer.feed_segments`, `Segment.eq_of_append_eq`,
`Segmentation.packet_stands`, `Framer.eq_segmentation`.
-/
import Mathlib.Data.List.Basic
import ProbeLink.Framer

namespace ProbeLink

/-! ### The framer, byte by byte -/

namespace Framer

/-- The framer before any byte. -/
def fresh (m : ℕ) : Framer := { max := m }

/-- Outside a frame the framer is as it was before any byte. -/
theorem eq_fresh {f : Framer} (h : f.isIdle = true) : f = fresh f.max := by
  obtain ⟨m, place⟩ := f
  cases place <;> first | rfl | cases h

theorem feed_cons (f : Framer) (b : UInt8) (r : Bytes) :
    f.feed (b :: r) = (f.push b).2.toList ++ (f.push b).1.feed r := by
  simp only [feed]
  cases (f.push b).2 <;> rfl

/-- What each byte of a stream completes, one entry for each. -/
def verdicts (f : Framer) : Bytes → List (Option Frame)
  | [] => []
  | b :: r => (f.push b).2 :: (f.push b).1.verdicts r

theorem verdicts_append (f : Framer) : ∀ a b : Bytes,
    f.verdicts (a ++ b) = f.verdicts a ++ (f.after a).verdicts b
  | [], _ => rfl
  | x :: a, b => by simp only [List.cons_append, verdicts, after, verdicts_append _ a b]

theorem verdicts_length (f : Framer) : ∀ s : Bytes, (f.verdicts s).length = s.length
  | [] => rfl
  | b :: r => by simp only [verdicts, List.length_cons, verdicts_length _ r]

/-- A chunk completes what its bytes complete. -/
theorem feed_eq_verdicts (f : Framer) : ∀ s : Bytes, f.feed s = (f.verdicts s).filterMap id
  | [] => rfl
  | b :: r => by
    have ih := feed_eq_verdicts (f.push b).1 r
    simp only [feed, verdicts]
    cases hv : (f.push b).2 with
    | none => simpa using ih
    | some out => simpa using ih

/-- A byte that completes nothing inside a frame leaves the framer inside it. -/
theorem push_busy {f : Framer} {b : UInt8} (hf : f.isIdle = false) (hb : (f.push b).2 = none) :
    (f.push b).1.isIdle = false := by
  obtain ⟨m, place⟩ := f
  cases place with
  | idle => simp [isIdle] at hf
  | body kind size collected =>
    simp only [push] at hb ⊢
    split_ifs at hb ⊢ <;> simp_all [isIdle]
  | checksum kind payload => simp [push, isIdle]
  | lastDigit kind payload first => simp [push] at hb

theorem after_busy {f : Framer} : ∀ {s : Bytes}, f.isIdle = false →
    (∀ v ∈ f.verdicts s, v = none) → (f.after s).isIdle = false := by
  intro s
  induction s generalizing f with
  | nil => exact fun hf _ => hf
  | cons b r ih =>
    intro hf hs
    have hb : (f.push b).2 = none := hs _ (by simp [verdicts])
    exact ih (push_busy hf hb) fun v hv => hs v (by simp [verdicts, hv])

end Framer

/-! ### Openings -/

/-- The beginning of a frame that is not finished. -/
inductive Opening where
  /-- A start mark and a part of the body. -/
  | body (kind : PacketKind) (part : Bytes)
  /-- All up to the end mark. -/
  | marked (kind : PacketKind) (payload : Bytes)
  /-- All but the second checksum character. -/
  | digit (kind : PacketKind) (payload : Bytes) (first : UInt8)
  deriving DecidableEq, Repr

namespace Opening

/-- The bytes of the opening. -/
def bytes : Opening → Bytes
  | .body kind part => kind.mark :: part
  | .marked kind payload => kind.mark :: payload ++ [endMark]
  | .digit kind payload first => kind.mark :: payload ++ [endMark, first]

def kind : Opening → PacketKind
  | .body kind _ => kind
  | .marked kind _ => kind
  | .digit kind _ _ => kind

/-- The body so far. -/
def collected : Opening → Bytes
  | .body _ part => part
  | .marked _ payload => payload
  | .digit _ payload _ => payload

/-- The body is one that a frame can have under the bound. -/
def Fits (m : ℕ) (o : Opening) : Prop := endMark ∉ o.collected ∧ o.collected.length ≤ m

/-- Where the framer stands after the opening. -/
def place : Opening → Framer.Place
  | .body kind part => .body kind part.length part.reverse
  | .marked kind payload => .checksum kind payload
  | .digit kind payload first => .lastDigit kind payload first

theorem bytes_ne_nil (o : Opening) : o.bytes ≠ [] := by cases o <;> simp [bytes]

theorem place_injective : Function.Injective place := by
  intro o o' h
  cases o <;> cases o' <;> simp_all [place]

end Opening

namespace Framer

theorem push_mark (m : ℕ) (kind : PacketKind) :
    (fresh m).push kind.mark = (⟨m, .body kind 0 []⟩, none) := by
  cases kind <;> rfl

theorem push_inner {m size : ℕ} {b : UInt8} (kind : PacketKind) (c : Bytes) (hb : b ≠ endMark)
    (hs : size < m) :
    (⟨m, .body kind size c⟩ : Framer).push b = (⟨m, .body kind (size + 1) (b :: c)⟩, none) := by
  simp [push, hb, Nat.not_le.mpr hs]

theorem push_over {m size : ℕ} {b : UInt8} (kind : PacketKind) (c : Bytes) (hb : b ≠ endMark)
    (hs : m ≤ size) :
    (⟨m, .body kind size c⟩ : Framer).push b = (fresh m, some (.error (.frameTooLong m))) := by
  simp [push, hb, hs, reset, fresh]

theorem push_endMark (m size : ℕ) (kind : PacketKind) (c : Bytes) :
    (⟨m, .body kind size c⟩ : Framer).push endMark = (⟨m, .checksum kind c.reverse⟩, none) := by
  simp [push]

theorem push_first (m : ℕ) (kind : PacketKind) (p : Bytes) (b : UInt8) :
    (⟨m, .checksum kind p⟩ : Framer).push b = (⟨m, .lastDigit kind p b⟩, none) := rfl

/-- A body within the bound is collected in silence. -/
theorem run_body (m : ℕ) (kind : PacketKind) : ∀ (p : Bytes) (size : ℕ) (c : Bytes), endMark ∉ p →
    size + p.length ≤ m →
    (⟨m, .body kind size c⟩ : Framer).after p = ⟨m, .body kind (size + p.length) (p.reverse ++ c)⟩ ∧
      (⟨m, .body kind size c⟩ : Framer).verdicts p = List.replicate p.length none
  | [], size, c, _, _ => by simp [after, verdicts]
  | b :: p, size, c, hp, hm => by
    simp only [List.mem_cons, not_or] at hp
    simp only [List.length_cons] at hm
    obtain ⟨h1, h2⟩ := run_body m kind p (size + 1) (b :: c) hp.2 (by omega)
    have hpush := push_inner kind c (Ne.symm hp.1) (by omega : size < m)
    simp only [after, verdicts, hpush, h1, h2]
    constructor
    · simp only [List.length_cons, List.reverse_cons, List.append_assoc, List.singleton_append]
      rw [show size + 1 + p.length = size + (p.length + 1) by omega]
    · simp [List.replicate_succ]

/-- An opening is taken in silence. -/
theorem run_opening {m : ℕ} {o : Opening} (ho : o.Fits m) :
    (fresh m).after o.bytes = ⟨m, o.place⟩ ∧ ∀ v ∈ (fresh m).verdicts o.bytes, v = none := by
  obtain ⟨hfree, hlen⟩ := ho
  obtain ⟨h1, h2⟩ := run_body m o.kind o.collected 0 [] hfree (by omega)
  rw [Nat.zero_add, List.append_nil] at h1
  cases o <;> simp only [Opening.kind, Opening.collected] at h1 h2 <;>
    simp +contextual [Opening.bytes, Opening.place, after, verdicts, push_mark, after_append,
      verdicts_append, h1, h2, push_endMark, push_first, or_imp]

end Framer

/-! ### Segments -/

/-- A stretch of the stream that is settled at its last byte. -/
inductive Segment where
  | ack
  | nak
  | stray (b : UInt8)
  | frame (p : Packet)
  /-- A start mark and a body of one byte too many. -/
  | tooLong (kind : PacketKind) (body : Bytes)
  deriving DecidableEq, Repr

namespace Segment

/-- The bytes of the segment. -/
def bytes : Segment → Bytes
  | .ack => [ackByte]
  | .nak => [nakByte]
  | .stray b => [b]
  | .frame p => p.encode
  | .tooLong kind body => kind.mark :: body

/-- The segment is one under the bound. -/
def Fits (m : ℕ) : Segment → Prop
  | .ack => True
  | .nak => True
  | .stray b => b ∉ [ackByte, nakByte, replyMark, notificationMark]
  | .frame p => endMark ∉ p.payload ∧ p.payload.length ≤ m
  | .tooLong _ body => endMark ∉ body ∧ body.length = m + 1

/-- What the segment says. -/
def output (m : ℕ) : Segment → Option Frame
  | .ack => none
  | .nak => some .nak
  | .stray b => some (.error (.strayByte b))
  | .frame p => some (.packet p)
  | .tooLong _ _ => some (.error (.frameTooLong m))

/-- What the segment says, at its last byte and nowhere else. -/
def verdicts (m : ℕ) (g : Segment) : List (Option Frame) :=
  List.replicate (g.bytes.length - 1) none ++ [g.output m]

theorem bytes_ne_nil (g : Segment) : g.bytes ≠ [] := by cases g <;> simp [bytes, Packet.encode]

/-- A segment is a single byte, or an opening and one byte. -/
theorem last_byte {m : ℕ} {g : Segment} (hg : g.Fits m) :
    (∃ b, g.bytes = [b] ∧ (Framer.fresh m).push b = (Framer.fresh m, g.output m)) ∨
    (∃ (o : Opening) (b : UInt8), o.Fits m ∧ g.bytes = o.bytes ++ [b] ∧
      (⟨m, o.place⟩ : Framer).push b = (Framer.fresh m, g.output m)) := by
  cases g with
  | ack => exact .inl ⟨_, rfl, rfl⟩
  | nak => exact .inl ⟨_, rfl, rfl⟩
  | stray b =>
    simp only [Fits, List.mem_cons, List.not_mem_nil, not_or] at hg
    exact .inl ⟨b, rfl, by simp [Framer.push, Framer.fresh, hg, output]⟩
  | frame p =>
    refine .inr ⟨.digit p.kind p.payload p.first, p.second, hg, ?_, rfl⟩
    simp [bytes, Opening.bytes, Packet.encode, Packet.checksum]
  | tooLong kind body =>
    obtain ⟨hfree, hlen⟩ := hg
    have hne : body ≠ [] := List.ne_nil_of_length_pos (by omega)
    have hsplit := List.dropLast_concat_getLast hne
    have hlast : body.getLast hne ≠ endMark := fun h => hfree (h ▸ List.getLast_mem hne)
    refine .inr ⟨.body kind body.dropLast, body.getLast hne, ⟨?_, ?_⟩, ?_, ?_⟩
    · exact fun h => hfree (List.dropLast_subset _ h)
    · simp [Opening.collected, hlen]
    · simp only [bytes, Opening.bytes, List.cons_append, hsplit]
    · exact Framer.push_over kind _ hlast (by simp [hlen])

end Segment

namespace Framer

/-- **The framer over one segment.** It is outside a frame at the end and says
what the segment says. -/
theorem run_segment {m : ℕ} {g : Segment} (hg : g.Fits m) :
    (fresh m).after g.bytes = fresh m ∧ (fresh m).verdicts g.bytes = g.verdicts m := by
  rcases Segment.last_byte hg with ⟨b, hb, hp⟩ | ⟨o, b, ho, hb, hp⟩
  · simp [Segment.verdicts, hb, after, verdicts, hp]
  · obtain ⟨h1, h2⟩ := run_opening ho
    have h3 := List.eq_replicate_of_mem h2
    rw [verdicts_length] at h3
    simp [Segment.verdicts, hb, after_append, verdicts_append, h1, h3, after, verdicts, hp]

/-- Within an opening the framer is inside a frame. -/
theorem busy_opening {m : ℕ} {o : Opening} (ho : o.Fits m) {t x : Bytes} (ht : t ≠ [])
    (h : t ++ x = o.bytes) : ((fresh m).after t).isIdle = false := by
  have hsilent := (run_opening ho).2
  rw [← h, verdicts_append] at hsilent
  obtain ⟨r, hr⟩ : ∃ r, o.bytes = o.kind.mark :: r := by
    cases o <;> exact ⟨_, rfl⟩
  obtain ⟨c, t, rfl⟩ := List.exists_cons_of_ne_nil ht
  obtain rfl : c = o.kind.mark := by rw [hr] at h; exact (List.cons.inj h).1
  simp only [after, push_mark]
  refine after_busy rfl fun v hv => hsilent v (List.mem_append_left _ ?_)
  simp only [verdicts, push_mark]
  exact List.mem_cons_of_mem _ hv

/-- Within a segment the framer is inside a frame. -/
theorem busy_within {m : ℕ} {g : Segment} (hg : g.Fits m) {t x : Bytes} (ht : t ≠ []) (hx : x ≠ [])
    (h : t ++ x = g.bytes) : ((fresh m).after t).isIdle = false := by
  obtain ⟨x, c, rfl⟩ := List.eq_nil_or_concat x |>.resolve_left hx
  rcases Segment.last_byte hg with ⟨b, hb, -⟩ | ⟨o, b, ho, hb, -⟩
  · rw [hb, List.concat_eq_append, ← List.append_assoc] at h
    have := (List.append_inj' (h.trans (List.nil_append [b]).symm) rfl).1
    simp_all
  · rw [hb, List.concat_eq_append, ← List.append_assoc] at h
    exact busy_opening ho ht (List.append_inj' h rfl).1

/-- Segments one after the other are taken one after the other. -/
theorem run_segments {m : ℕ} : ∀ {gs : List Segment}, (∀ g ∈ gs, g.Fits m) →
    (fresh m).after (gs.flatMap Segment.bytes) = fresh m ∧
      (fresh m).verdicts (gs.flatMap Segment.bytes) = gs.flatMap (Segment.verdicts m)
  | [], _ => ⟨rfl, rfl⟩
  | g :: gs, h => by
    obtain ⟨h1, h2⟩ := run_segment (h g List.mem_cons_self)
    obtain ⟨h3, h4⟩ := run_segments fun g hg => h g (List.mem_cons_of_mem _ hg)
    simp only [List.flatMap_cons, after_append, verdicts_append, h1, h2, h3, h4, and_self]

end Framer

/-! ### The row of segments of a stream -/

/-- The bytes of what may be left behind the last segment. -/
def Opening.bytes? : Option Opening → Bytes
  | some o => o.bytes
  | none => []

/-- A stream, read as a row of segments and perhaps the opening of a frame. -/
@[ext] structure Segmentation (m : ℕ) (s : Bytes) where
  segments : List Segment
  rest : Option Opening
  fits : ∀ g ∈ segments, g.Fits m
  restFits : ∀ o ∈ rest, o.Fits m
  covers : segments.flatMap Segment.bytes ++ Opening.bytes? rest = s

namespace Segmentation

variable {m : ℕ} {s : Bytes}

/-- What each byte of the stream says, by the segments. -/
def verdicts (g : Segmentation m s) : List (Option Frame) :=
  g.segments.flatMap (Segment.verdicts m) ++ List.replicate (Opening.bytes? g.rest).length none

/-- What the stream says, by the segments. -/
def outputs (g : Segmentation m s) : List Frame := g.segments.filterMap (Segment.output m)

end Segmentation

namespace Segment

variable {m : ℕ} {g g' : Segment}

/-- A segment does not begin another one. -/
theorem eq_nil_of_bytes_append (hg : g.Fits m) (hg' : g'.Fits m) {y : Bytes}
    (h : g.bytes ++ y = g'.bytes) : y = [] := by
  by_contra hy
  have hbusy := Framer.busy_within hg' g.bytes_ne_nil hy h
  rw [(Framer.run_segment hg).1] at hbusy
  cases hbusy

/-- A segment is known by its bytes. -/
theorem eq_of_bytes_eq (hg : g.Fits m) (hg' : g'.Fits m) (h : g.bytes = g'.bytes) : g = g' := by
  have hv : g.verdicts m = g'.verdicts m := by
    rw [← (Framer.run_segment hg).2, ← (Framer.run_segment hg').2, h]
  have ho : g.output m = g'.output m := by simpa using (List.append_inj' hv rfl).2
  cases g <;> cases g' <;> simp_all [output]
  -- two bodies that are too long say the same, and differ in their bytes
  rename_i kind body kind' body'
  rw [bytes, bytes, List.cons.injEq] at h
  cases kind <;> cases kind' <;> simp_all [PacketKind.mark, replyMark, notificationMark]

/-- A stream begins with at most one segment. -/
theorem eq_of_append_eq (hg : g.Fits m) (hg' : g'.Fits m) {x x' : Bytes}
    (h : g.bytes ++ x = g'.bytes ++ x') : g = g' ∧ x = x' := by
  have heq : g.bytes = g'.bytes := by
    rcases List.append_eq_append_iff.mp h with ⟨y, hy, -⟩ | ⟨y, hy, -⟩
    · rw [hy, eq_nil_of_bytes_append hg hg' hy.symm, List.append_nil]
    · rw [hy, eq_nil_of_bytes_append hg' hg hy.symm, List.append_nil]
  rw [heq] at h
  exact ⟨eq_of_bytes_eq hg hg' heq, List.append_cancel_left h⟩

/-- What begins with a segment is not left behind the last one. -/
theorem append_ne_rest (hg : g.Fits m) {r : Option Opening} (hr : ∀ o ∈ r, o.Fits m) (x : Bytes) :
    g.bytes ++ x ≠ Opening.bytes? r := by
  intro h
  cases r with
  | none => simp [Opening.bytes?, g.bytes_ne_nil] at h
  | some o =>
    have hbusy := Framer.busy_opening (hr o rfl) g.bytes_ne_nil h
    rw [(Framer.run_segment hg).1] at hbusy
    cases hbusy

end Segment

/-- What is left is known by its bytes. -/
theorem Opening.eq_of_bytes?_eq {m : ℕ} {r r' : Option Opening} (hr : ∀ o ∈ r, o.Fits m)
    (hr' : ∀ o ∈ r', o.Fits m) (h : Opening.bytes? r = Opening.bytes? r') : r = r' := by
  cases r with
  | none =>
    cases r' with
    | none => rfl
    | some o' => exact absurd h.symm o'.bytes_ne_nil
  | some o =>
    cases r' with
    | none => exact absurd h o.bytes_ne_nil
    | some o' =>
      have hf : (⟨m, o.place⟩ : Framer) = ⟨m, o'.place⟩ := by
        rw [← (Framer.run_opening (hr o rfl)).1, ← (Framer.run_opening (hr' o' rfl)).1]
        exact congrArg _ h
      rw [place_injective (Framer.mk.inj hf).2]

namespace Segmentation

variable {m : ℕ}

theorem rows_unique : ∀ {gs gs' : List Segment} {r r' : Option Opening}, (∀ g ∈ gs, g.Fits m) →
    (∀ g ∈ gs', g.Fits m) → (∀ o ∈ r, o.Fits m) → (∀ o ∈ r', o.Fits m) →
    gs.flatMap Segment.bytes ++ Opening.bytes? r = gs'.flatMap Segment.bytes ++ Opening.bytes? r' →
    gs = gs' ∧ r = r'
  | [], [], _, _, _, _, hr, hr', h => ⟨rfl, Opening.eq_of_bytes?_eq hr hr' h⟩
  | g :: gs, [], _, _, hg, _, _, hr', h => by
    rw [List.flatMap_cons, List.append_assoc] at h
    exact absurd h (Segment.append_ne_rest (hg g List.mem_cons_self) hr' _)
  | [], g :: gs, _, _, _, hg, hr, _, h => by
    rw [List.flatMap_cons, List.append_assoc] at h
    exact absurd h.symm (Segment.append_ne_rest (hg g List.mem_cons_self) hr _)
  | g :: gs, g' :: gs', _, _, hg, hg', hr, hr', h => by
    simp only [List.flatMap_cons, List.append_assoc] at h
    obtain ⟨rfl, htail⟩ :=
      Segment.eq_of_append_eq (hg g List.mem_cons_self) (hg' g' List.mem_cons_self) h
    obtain ⟨rfl, rfl⟩ := rows_unique (fun x hx => hg x (List.mem_cons_of_mem _ hx))
      (fun x hx => hg' x (List.mem_cons_of_mem _ hx)) hr hr' htail
    exact ⟨rfl, rfl⟩

/-- A stream falls into segments in at most one way. -/
theorem unique {s : Bytes} (g g' : Segmentation m s) : g = g' := by
  obtain ⟨h1, h2⟩ := rows_unique g.fits g'.fits g.restFits g'.restFits (g.covers.trans g'.covers.symm)
  exact Segmentation.ext h1 h2

/-- A stream that is not over begins with a segment, or is an opening. -/
theorem split (m : ℕ) {s : Bytes} (hs : s ≠ []) :
    (∃ (g : Segment) (x : Bytes), g.Fits m ∧ s = g.bytes ++ x) ∨
    (∃ o : Opening, o.Fits m ∧ s = o.bytes) := by
  obtain ⟨b, t, rfl⟩ := List.exists_cons_of_ne_nil hs
  by_cases hb : b ∈ [ackByte, nakByte, replyMark, notificationMark]
  swap
  · exact .inl ⟨.stray b, t, hb, rfl⟩
  have hmark : b = ackByte ∨ b = nakByte ∨ ∃ kind : PacketKind, b = kind.mark := by
    simp only [List.mem_cons, List.not_mem_nil, or_false] at hb
    rcases hb with h | h | h | h
    · exact .inl h
    · exact .inr (.inl h)
    · exact .inr (.inr ⟨.reply, h⟩)
    · exact .inr (.inr ⟨.notification, h⟩)
  rcases hmark with rfl | rfl | ⟨kind, rfl⟩
  · exact .inl ⟨.ack, t, trivial, rfl⟩
  · exact .inl ⟨.nak, t, trivial, rfl⟩
  -- a body that goes on without its end mark is too long at byte `m + 1`, whatever comes then
  have hlong : ∀ p q : Bytes, endMark ∉ p → m < p.length → ∃ (g : Segment) (x : Bytes),
      g.Fits m ∧ kind.mark :: (p ++ q) = g.bytes ++ x := by
    intro p q hp hm
    refine ⟨.tooLong kind (p.take (m + 1)), p.drop (m + 1) ++ q, ⟨?_, ?_⟩, ?_⟩
    · exact fun h => hp (List.mem_of_mem_take h)
    · simp; omega
    · simp [Segment.bytes, ← List.append_assoc]
  by_cases ht : endMark ∈ t
  · obtain ⟨p, q, rfl, hp⟩ := List.eq_append_cons_of_mem ht
    by_cases hm : m < p.length
    · exact .inl (hlong p _ hp hm)
    · rcases q with _ | ⟨c, _ | ⟨d, x⟩⟩
      · exact .inr ⟨.marked kind p, ⟨hp, Nat.not_lt.mp hm⟩, by simp [Opening.bytes]⟩
      · exact .inr ⟨.digit kind p c, ⟨hp, Nat.not_lt.mp hm⟩, by simp [Opening.bytes]⟩
      · exact .inl ⟨.frame ⟨kind, p, c, d⟩, x, ⟨hp, Nat.not_lt.mp hm⟩,
          by simp [Segment.bytes, Packet.encode, Packet.checksum]⟩
  · by_cases hm : m < t.length
    · simpa using Or.inl (hlong t [] ht hm)
    · exact .inr ⟨.body kind t, ⟨ht, Nat.not_lt.mp hm⟩, rfl⟩

/-- A stream falls into segments. -/
theorem nonempty (m : ℕ) (s : Bytes) : Nonempty (Segmentation m s) := by
  by_cases hs : s = []
  · exact ⟨⟨[], none, by simp, by simp, by simp [hs, Opening.bytes?]⟩⟩
  rcases split m hs with ⟨g, x, hg, hx⟩ | ⟨o, ho, rfl⟩
  · have hlt : x.length < s.length := by
      have := List.length_pos_of_ne_nil g.bytes_ne_nil
      rw [hx, List.length_append]
      omega
    obtain ⟨r⟩ := nonempty m x
    refine ⟨⟨g :: r.segments, r.rest, ?_, r.restFits, ?_⟩⟩
    · exact fun y hy => (List.mem_cons.mp hy).elim (fun h => h ▸ hg) (r.fits y)
    · rw [List.flatMap_cons, List.append_assoc, r.covers, hx]
  · exact ⟨⟨[], some o, by simp, by simpa using ho, rfl⟩⟩
termination_by s.length

end Segmentation

/-! ### Pieces of a stream -/

/-- What the framer is given at once. -/
inductive Piece where
  | chunk (bytes : Bytes)
  | byte (b : UInt8)

/-- The bytes of the piece. -/
def Piece.bytes : Piece → Bytes
  | .chunk bytes => bytes
  | .byte b => [b]

namespace Framer

/-- Takes a piece: the framer after it and what the piece completes. -/
def take (f : Framer) : Piece → Framer × List Frame
  | .chunk bytes => (f.after bytes, f.feed bytes)
  | .byte b => ((f.push b).1, (f.push b).2.toList)

/-- Takes pieces one after the other. -/
def takeAll (f : Framer) : List Piece → Framer × List Frame
  | [] => (f, [])
  | p :: ps =>
    let (f, out) := f.take p
    let (f, outs) := f.takeAll ps
    (f, out ++ outs)

theorem take_eq (f : Framer) (p : Piece) : f.take p = (f.after p.bytes, f.feed p.bytes) := by
  cases p with
  | chunk bytes => rfl
  | byte b =>
    rw [take, Piece.bytes, feed_cons, feed, List.append_nil]
    rfl

/-- Pieces complete what the whole stream completes. -/
theorem takeAll_eq (f : Framer) : ∀ ps : List Piece,
    f.takeAll ps = (f.after (ps.flatMap Piece.bytes), f.feed (ps.flatMap Piece.bytes))
  | [] => rfl
  | p :: ps => by
    simp only [takeAll, take_eq, takeAll_eq _ ps, List.flatMap_cons, after_append, feed_append]

end Framer

/-! ### The framer and the row of segments -/

theorem Segment.verdicts_outputs {m : ℕ} : ∀ gs : List Segment,
    (gs.flatMap (Segment.verdicts m)).filterMap id = gs.filterMap (Segment.output m)
  | [] => rfl
  | g :: gs => by
    rw [List.flatMap_cons, List.filterMap_append, verdicts_outputs gs]
    cases h : g.output m <;> simp [Segment.verdicts, h]

theorem Framer.feed_opening {m : ℕ} {o : Opening} (ho : o.Fits m) : (fresh m).feed o.bytes = [] := by
  rw [feed_eq_verdicts, List.eq_replicate_of_mem (run_opening ho).2]
  simp

/-- Segments one after the other say what each of them says. -/
theorem Framer.feed_segments {m : ℕ} {gs : List Segment} (h : ∀ g ∈ gs, g.Fits m) :
    (fresh m).feed (gs.flatMap Segment.bytes) = gs.filterMap (Segment.output m) := by
  rw [feed_eq_verdicts, (run_segments h).2, Segment.verdicts_outputs]

theorem Framer.feed_segment_append {m : ℕ} {g : Segment} (hg : g.Fits m) (x : Bytes) :
    (fresh m).feed (g.bytes ++ x) = (g.output m).toList ++ (fresh m).feed x := by
  have h := feed_segments (show ∀ y ∈ [g], y.Fits m by simpa using hg)
  rw [List.flatMap_cons, List.flatMap_nil, List.append_nil] at h
  rw [feed_append, h, (run_segment hg).1]
  cases ho : g.output m <;> simp [ho]

/-- What is left over completes nothing, and the framer is inside a frame after
it if there is any. -/
theorem Framer.run_rest {m : ℕ} {r : Option Opening} (hr : ∀ o ∈ r, o.Fits m) :
    (fresh m).verdicts (Opening.bytes? r) = List.replicate (Opening.bytes? r).length none ∧
      ((fresh m).after (Opening.bytes? r)).isIdle = r.isNone := by
  cases r with
  | none => exact ⟨rfl, rfl⟩
  | some o =>
    obtain ⟨-, hsilent⟩ := run_opening (hr o rfl)
    refine ⟨?_, busy_opening (hr o rfl) o.bytes_ne_nil (List.append_nil _)⟩
    have := List.eq_replicate_of_mem hsilent
    rwa [verdicts_length] at this

namespace Segmentation

variable {m : ℕ} {s : Bytes} (g : Segmentation m s)

theorem verdicts_eq : (Framer.fresh m).verdicts s = g.verdicts := by
  obtain ⟨gs, r, hfits, hrest, rfl⟩ := g
  obtain ⟨h1, h2⟩ := Framer.run_segments hfits
  rw [Framer.verdicts_append, h1, h2, (Framer.run_rest hrest).1]
  rfl

theorem feed_eq : (Framer.fresh m).feed s = g.outputs := by
  rw [Framer.feed_eq_verdicts, verdicts_eq g, verdicts, List.filterMap_append,
    Segment.verdicts_outputs]
  simp [outputs]

theorem isIdle_eq : ((Framer.fresh m).after s).isIdle = g.rest.isNone := by
  obtain ⟨gs, r, hfits, hrest, rfl⟩ := g
  rw [Framer.after_append, (Framer.run_segments hfits).1, (Framer.run_rest hrest).2]

end Segmentation

/-- A packet that the framer completes stands in the stream as it is, behind bytes that leave
the framer outside any frame. -/
theorem Segmentation.packet_stands {m : ℕ} {s : Bytes} {p : Packet}
    (h : .packet p ∈ (Framer.fresh m).feed s) :
    ∃ before behind, s = before ++ p.encode ++ behind ∧
      ((Framer.fresh m).after before).isIdle = true ∧
      endMark ∉ p.payload ∧ p.payload.length ≤ m := by
  obtain ⟨segments, rest, hfits, rfl, houtput⟩ : ∃ (segments : List Segment)
      (rest : Option Opening), (∀ g ∈ segments, g.Fits m) ∧
      segments.flatMap Segment.bytes ++ Opening.bytes? rest = s ∧
      .packet p ∈ segments.filterMap (Segment.output m) := by
    obtain ⟨g⟩ := Segmentation.nonempty m s
    have hfeed : (Framer.fresh m).feed s = g.segments.filterMap (Segment.output m) := g.feed_eq
    exact ⟨g.segments, g.rest, g.fits, g.covers, hfeed ▸ h⟩
  obtain ⟨segment, hmem, hout⟩ := List.mem_filterMap.mp houtput
  obtain rfl : segment = .frame p := by
    cases segment <;> cases hout
    rfl
  obtain ⟨gs, gs', hsplit⟩ := List.append_of_mem hmem
  obtain rfl : segments = gs ++ .frame p :: gs' := hsplit
  have hidle := (Framer.run_segments fun x hx => hfits x (List.mem_append_left _ hx)).1
  refine ⟨gs.flatMap Segment.bytes, gs'.flatMap Segment.bytes ++ Opening.bytes? rest, ?_, ?_,
    hfits (.frame p) (List.mem_append_right _ List.mem_cons_self)⟩
  · rw [List.flatMap_append, List.flatMap_cons]
    simp only [List.append_assoc]
    rfl
  · rw [hidle]
    rfl

/-- **The framer is the reading of the stream from the left.** A stream falls
into segments in exactly one way, and they cover it. The framer says at the last
byte of each segment what the segment says, and nothing at any other byte. It is
inside a frame at the end just if the opening of a frame is left over. Cutting
the stream into chunks and single bytes changes nothing. -/
theorem Framer.eq_segmentation (m : ℕ) (s : Bytes) :
    ∃ g : Segmentation m s, (∀ g' : Segmentation m s, g' = g) ∧
      (Framer.fresh m).verdicts s = g.verdicts ∧
      (Framer.fresh m).feed s = g.outputs ∧
      (((Framer.fresh m).after s).isIdle = false ↔ g.rest.isSome = true) ∧
      ∀ pieces : List Piece, pieces.flatMap Piece.bytes = s →
        (Framer.fresh m).takeAll pieces = ((Framer.fresh m).after s, g.outputs) := by
  obtain ⟨g⟩ := Segmentation.nonempty m s
  refine ⟨g, fun g' => g'.unique g, g.verdicts_eq, g.feed_eq, ?_, ?_⟩
  · rw [g.isIdle_eq]
    cases g.rest <;> simp
  · rintro pieces rfl
    rw [Framer.takeAll_eq, g.feed_eq]

end ProbeLink

/-
# A framer in storage that is used again

A framer needs no more than one buffer for the bodies and two cells for the checksums. Neither is
made new for a frame: a body goes into the buffer that the last one was in, and the cells keep the
last checksum until they are written over. A countdown of the characters to come tells which cell is
next, and a character that had no cell would have nowhere to go (`Storage.write?`).

What earlier frames have left does not count. Without it a storage is a framer (`Storage.view`), and
a byte does the same to both (`Storage.push?_sound`). So the two agree on every history of chunks,
single bytes and resets, each character of a checksum has its cell, the buffer holds no more than a
body may have, and a storage that is outside a frame goes on like a new one
(`Storage.nothing_left_over`).

Key definitions: `Framer.Call`, `Framer.Storage`, `Storage.push?`, `Storage.view`, `Storage.AsNew`,
`Storage.Clean`.
Key theorems: `Storage.push?_sound`, `Storage.callAll?_sound`, `Storage.nothing_left_over`.
-/
import ProbeLink.Proofs.Noise

namespace ProbeLink

namespace Framer

variable {m : ℕ}

/-! ### Histories -/

/-- What is asked of a framer. -/
inductive Call where
  | take (p : Piece)
  | reset

/-- The bytes that come with it. -/
def Call.bytes : Call → Bytes
  | .take p => p.bytes
  | .reset => []

/-- Does what is asked: the framer after it and what it completes. -/
def call (f : Framer) : Call → Framer × List Frame
  | .take p => f.take p
  | .reset => (f.reset, [])

/-- Does one thing after the other: the framer at the end and what each of them completes. -/
def callAll (f : Framer) : List Call → Framer × List (List Frame)
  | [] => (f, [])
  | c :: cs =>
    let (f, out) := f.call c
    let (f, outs) := f.callAll cs
    (f, out :: outs)

theorem Reachable.callAll : ∀ {f : Framer}, Reachable m f → ∀ calls : List Call,
    Reachable m (f.callAll calls).1
  | _, h, [] => h
  | _, h, .take p :: cs => (h.take p).callAll cs
  | _, h, .reset :: cs => h.reset.callAll cs

/-- An error leaves the framer outside a frame. -/
theorem isIdle_of_error {f : Framer} {b : UInt8} {e : WireError}
    (h : (f.push b).2 = some (.error e)) : (f.push b).1.isIdle = true := by
  obtain ⟨m, place⟩ := f
  cases place with
  | idle | body =>
    simp only [push] at h ⊢
    split_ifs at h ⊢
    all_goals rfl
  | checksum | lastDigit => cases h

/-- A packet that a history completes stands in the bytes that came since the last reset. -/
theorem encode_infix_of_mem_callAll {p : Packet} : ∀ {t : Bytes} {calls : List Call},
    .packet p ∈ (((fresh m).after t).callAll calls).2.flatten →
      p.encode <:+: t ++ calls.flatMap Call.bytes
  | _, [], h => nomatch h
  | t, .take piece :: cs, h => by
    simp only [callAll, call, take_eq, List.flatten_cons, List.mem_append] at h
    rw [List.flatMap_cons, ← List.append_assoc]
    rcases h with hnow | hlater
    · have hmem : .packet p ∈ (fresh m).feed (t ++ piece.bytes) := by
        rw [feed_append]
        exact List.mem_append_right _ hnow
      obtain ⟨before, behind, heq, -⟩ := Segmentation.packet_stands hmem
      have hinfix : p.encode <:+: t ++ piece.bytes := ⟨before, behind, heq.symm⟩
      exact hinfix.trans (List.prefix_append _ _).isInfix
    · rw [← after_append] at hlater
      exact encode_infix_of_mem_callAll hlater
  | t, .reset :: cs, h => by
    have hreset : ((fresh m).after t).reset = (fresh m).after [] := by
      rw [reset, max_after]
      rfl
    have hlater : .packet p ∈ (((fresh m).after []).callAll cs).2.flatten := by
      simpa only [callAll, call, hreset, List.flatten_cons, List.nil_append] using h
    exact (encode_infix_of_mem_callAll hlater).trans (List.suffix_append _ _).isInfix

/-! ### The storage -/

/-- What a framer in storage is doing. -/
inductive Phase where
  | idle
  | body (kind : PacketKind)
  /-- Past the end mark; so many checksum characters are still to come. -/
  | checksum (kind : PacketKind) (remaining : ℕ)
  deriving DecidableEq, Repr

/-- A framer with one buffer for every body and two cells for every checksum. -/
structure Storage where
  max : ℕ
  phase : Phase := .idle
  buffer : Bytes := []
  cells : Vector UInt8 2 := #v[0, 0]
  deriving DecidableEq, Repr

namespace Storage

/-- The storage before any byte. -/
def new (m : ℕ) : Storage := { max := m }

/-- Gives up any partial frame. The cells stay as they are. -/
def reset (s : Storage) : Storage := { s with phase := .idle, buffer := [] }

/-- Starts a body. -/
def begin (s : Storage) (kind : PacketKind) : Storage :=
  { s with phase := .body kind, buffer := [] }

/-- Writes a checksum character when so many are to come, unless its place is beside the cells. -/
def write? (cells : Vector UInt8 2) (remaining : ℕ) (b : UInt8) : Option (Vector UInt8 2) :=
  if h : remaining ≤ 2 ∧ 2 - remaining < 2 then some (cells.set (2 - remaining) b h.2) else none

/-- Takes one byte, unless it would have to be written beside the cells. -/
def push? (s : Storage) (b : UInt8) : Option (Storage × Option Frame) :=
  match s.phase with
  | .idle =>
    if b = ackByte then some (s, none)
    else if b = nakByte then some (s, some .nak)
    else if b = replyMark then some (s.begin .reply, none)
    else if b = notificationMark then some (s.begin .notification, none)
    else some (s, some (.error (.strayByte b)))
  | .body kind =>
    if b = endMark then some ({ s with phase := .checksum kind 2 }, none)
    else if s.max ≤ s.buffer.length then some (s.reset, some (.error (.frameTooLong s.max)))
    else some ({ s with buffer := s.buffer ++ [b] }, none)
  | .checksum kind remaining =>
    (write? s.cells remaining b).map fun cells =>
      if 1 < remaining then ({ s with phase := .checksum kind (remaining - 1), cells }, none)
      else ({ s with phase := .idle, buffer := [], cells },
        some (.packet ⟨kind, s.buffer, cells[0], cells[1]⟩))

/-- Takes a chunk byte by byte: the storage after it and everything it completes. -/
def feed? (s : Storage) : Bytes → Option (Storage × List Frame)
  | [] => some (s, [])
  | b :: r => do
    let (s, out) ← s.push? b
    let (s, outs) ← s.feed? r
    return (s, out.toList ++ outs)

/-- Does what is asked. -/
def call? (s : Storage) : Call → Option (Storage × List Frame)
  | .take (.chunk bytes) => s.feed? bytes
  | .take (.byte b) => (s.push? b).map fun (s, out) => (s, out.toList)
  | .reset => some (s.reset, [])

/-- Does one thing after the other: the storage at the end and what each of them completes. -/
def callAll? (s : Storage) : List Call → Option (Storage × List (List Frame))
  | [] => some (s, [])
  | c :: cs => do
    let (s, out) ← s.call? c
    let (s, outs) ← s.callAll? cs
    return (s, out :: outs)

/-- The framer that is in the storage, without what earlier frames have left there. -/
def view (s : Storage) : Framer where
  max := s.max
  place :=
    match s.phase with
    | .idle => .idle
    | .body kind => .body kind s.buffer.length s.buffer.reverse
    | .checksum kind 2 => .checksum kind s.buffer
    | .checksum kind _ => .lastDigit kind s.buffer s.cells[0]

theorem isIdle_view (s : Storage) : s.view.isIdle = true ↔ s.phase = .idle := by
  obtain ⟨m, phase, buffer, cells⟩ := s
  cases phase with
  | idle => exact ⟨fun _ => rfl, fun _ => rfl⟩
  | body kind => exact ⟨nofun, nofun⟩
  | checksum kind remaining =>
    refine ⟨fun h => ?_, nofun⟩
    simp only [view] at h
    split at h
    · contradiction
    all_goals
      cases h

/-- The buffer holds no more than a body may have, and of a checksum under way one or two characters
are to come. -/
structure Sound (s : Storage) : Prop where
  within : s.buffer.length ≤ s.max
  countdown : ∀ kind remaining, s.phase = .checksum kind remaining → remaining = 1 ∨ remaining = 2

theorem Sound.idle {buffer : Bytes} (h : buffer.length ≤ m) (cells : Vector UInt8 2) :
    Sound ⟨m, .idle, buffer, cells⟩ := ⟨h, nofun⟩

theorem Sound.body {buffer : Bytes} (h : buffer.length ≤ m) (kind : PacketKind)
    (cells : Vector UInt8 2) : Sound ⟨m, .body kind, buffer, cells⟩ := ⟨h, nofun⟩

theorem Sound.checksum {buffer : Bytes} (h : buffer.length ≤ m) (kind : PacketKind) {remaining : ℕ}
    (hn : remaining = 1 ∨ remaining = 2) (cells : Vector UInt8 2) :
    Sound ⟨m, .checksum kind remaining, buffer, cells⟩ :=
  ⟨h, fun _ _ heq => (Phase.checksum.inj heq).2 ▸ hn⟩

theorem sound_new (m : ℕ) : (new m).Sound := .idle (Nat.zero_le m) _

/-- **One byte** has its place in a sound storage, and does there what it does to the framer. -/
theorem push?_sound {s : Storage} (h : s.Sound) (b : UInt8) :
    ∃ s' out, s.push? b = some (s', out) ∧ s.view.push b = (s'.view, out) ∧ s'.Sound := by
  obtain ⟨m, phase, buffer, cells⟩ := s
  obtain ⟨hwithin, hcountdown⟩ := h
  cases phase with
  | idle =>
    simp only [push?, push, view]
    split_ifs
    · exact ⟨_, _, rfl, rfl, .idle hwithin cells⟩
    · exact ⟨_, _, rfl, rfl, .idle hwithin cells⟩
    · exact ⟨_, _, rfl, rfl, .body (Nat.zero_le m) .reply cells⟩
    · exact ⟨_, _, rfl, rfl, .body (Nat.zero_le m) .notification cells⟩
    · exact ⟨_, _, rfl, rfl, .idle hwithin cells⟩
  | body kind =>
    have hview : view ⟨m, .body kind, buffer, cells⟩ =
        ⟨m, .body kind buffer.length buffer.reverse⟩ := rfl
    rw [hview]
    by_cases hend : b = endMark
    · subst hend
      rw [push_endMark, List.reverse_reverse]
      exact ⟨⟨m, .checksum kind 2, buffer, cells⟩, none, rfl, rfl,
        .checksum hwithin kind (.inr rfl) cells⟩
    · rcases Nat.lt_or_ge buffer.length m with hroom | hfull
      · refine ⟨⟨m, .body kind, buffer ++ [b], cells⟩, none, ?_, ?_, .body ?_ kind cells⟩
        · simp only [push?, hend, if_false, Nat.not_le.mpr hroom]
        · rw [push_inner kind _ hend hroom, view, List.length_append, List.reverse_append]
          rfl
        · rw [List.length_append]
          exact hroom
      · refine ⟨⟨m, .idle, [], cells⟩, some (.error (.frameTooLong m)), ?_, ?_,
          .idle (Nat.zero_le m) cells⟩
        · simp only [push?, hend, if_false, hfull, if_true, reset]
        · rw [push_over kind _ hend hfull]
          rfl
  | checksum kind remaining =>
    rcases hcountdown kind remaining rfl with rfl | rfl
    · -- the first cell still has what was written there one byte ago
      have hfirst : (cells.set 1 b)[0] = cells[0] := Vector.getElem_set_ne _ _ (by decide)
      have hsecond : (cells.set 1 b)[1] = b := Vector.getElem_set_self _
      refine ⟨⟨m, .idle, [], cells.set 1 b⟩,
        some (.packet ⟨kind, buffer, (cells.set 1 b)[0], (cells.set 1 b)[1]⟩), rfl, ?_,
        .idle (Nat.zero_le m) _⟩
      rw [hfirst, hsecond]
      rfl
    · have hlast : view ⟨m, .checksum kind 1, buffer, cells.set 0 b⟩ =
          ⟨m, .lastDigit kind buffer b⟩ :=
        congrArg (fun first => (⟨m, .lastDigit kind buffer first⟩ : Framer))
          (Vector.getElem_set_self _)
      refine ⟨⟨m, .checksum kind 1, buffer, cells.set 0 b⟩, none, rfl, ?_,
        .checksum hwithin kind (.inl rfl) _⟩
      rw [hlast]
      rfl

theorem feed?_sound : ∀ {s : Storage}, s.Sound → ∀ t : Bytes,
    ∃ s', s.feed? t = some (s', s.view.feed t) ∧ s.view.after t = s'.view ∧ s'.Sound
  | s, h, [] => ⟨s, rfl, rfl, h⟩
  | s, h, b :: r => by
    obtain ⟨s', out, hpush, hview, hs'⟩ := push?_sound h b
    obtain ⟨s'', hfeed, hafter, hs''⟩ := feed?_sound hs' r
    refine ⟨s'', ?_, ?_, hs''⟩
    · rw [feed?, hpush, feed_cons, hview]
      simp only [Option.bind_eq_bind, Option.bind_some, hfeed]
      rfl
    · rw [after, hview, hafter]

theorem call?_sound {s : Storage} (h : s.Sound) (c : Call) :
    ∃ s' out, s.call? c = some (s', out) ∧ s.view.call c = (s'.view, out) ∧ s'.Sound := by
  cases c with
  | take p =>
    cases p with
    | chunk bytes =>
      obtain ⟨s', hfeed, hafter, hs'⟩ := feed?_sound h bytes
      refine ⟨s', _, hfeed, ?_, hs'⟩
      rw [call, take, hafter]
    | byte b =>
      obtain ⟨s', out, hpush, hview, hs'⟩ := push?_sound h b
      refine ⟨s', out.toList, ?_, ?_, hs'⟩
      · rw [call?, hpush]
        rfl
      · rw [call, take, hview]
  | reset => exact ⟨s.reset, [], rfl, rfl, .idle (Nat.zero_le s.max) s.cells⟩

/-- **A history** does the same to a sound storage and to the framer in it. -/
theorem callAll?_sound : ∀ {s : Storage}, s.Sound → ∀ calls : List Call,
    ∃ s' outs, s.callAll? calls = some (s', outs) ∧ s.view.callAll calls = (s'.view, outs) ∧
      s'.Sound
  | s, h, [] => ⟨s, [], rfl, rfl, h⟩
  | s, h, c :: cs => by
    obtain ⟨s', out, hcall, hview, hs'⟩ := call?_sound h c
    obtain ⟨s'', outs, hcalls, hviews, hs''⟩ := callAll?_sound hs' cs
    refine ⟨s'', out :: outs, ?_, ?_, hs''⟩
    · rw [callAll?, hcall]
      simp only [Option.bind_eq_bind, Option.bind_some, hcalls]
      rfl
    · rw [callAll, hview]
      simp only [hviews]

/-! ### What is left over -/

/-- Whatever is asked of it, the storage completes what a new one completes, and all of a packet has
come since. -/
def AsNew (m : ℕ) (s : Storage) : Prop :=
  ∀ calls, ∃ outs, (s.callAll? calls).map Prod.snd = some outs ∧
    ((new m).callAll? calls).map Prod.snd = some outs ∧
    ∀ p, .packet p ∈ outs.flatten → p.encode <:+: calls.flatMap Call.bytes

/-- A storage under a bound in which nothing that is left over can do harm. -/
structure Clean (m : ℕ) (s : Storage) : Prop where
  within : s.buffer.length ≤ m
  countdown : ∀ kind remaining, s.phase = .checksum kind remaining → remaining = 1 ∨ remaining = 2
  /-- No byte is written beside the cells. -/
  inRange : ∀ b, (s.push? b).isSome = true
  idle_of_error : ∀ b s' e, s.push? b = some (s', some (.error e)) → s'.phase = .idle
  idle_of_reset : s.reset.phase = .idle
  asNew_of_idle : s.phase = .idle → s.AsNew m

theorem Sound.asNew {s : Storage} (h : s.Sound) (hview : s.view = fresh m) : s.AsNew m := by
  intro calls
  obtain ⟨s', outs, hcalls, hviews, -⟩ := callAll?_sound h calls
  obtain ⟨s'', outs', hcalls', hviews', -⟩ := callAll?_sound (sound_new m) calls
  have houts : outs' = outs := by
    rw [hview] at hviews
    exact (Prod.mk.inj (hviews'.symm.trans hviews)).2
  refine ⟨outs, by rw [hcalls]; rfl, by rw [hcalls', houts]; rfl, fun p hp => ?_⟩
  have hmem : .packet p ∈ (((fresh m).after []).callAll calls).2.flatten := by
    rw [after, ← hview, hviews]
    exact hp
  exact encode_infix_of_mem_callAll hmem

theorem Sound.clean {s : Storage} (h : s.Sound) (hmax : s.max = m) : s.Clean m where
  within := hmax ▸ h.within
  countdown := h.countdown
  inRange b := by
    obtain ⟨s', out, hpush, -⟩ := push?_sound h b
    rw [hpush]
    rfl
  idle_of_error b s' e he := by
    obtain ⟨s'', out, hpush, hview, -⟩ := push?_sound h b
    obtain ⟨rfl, rfl⟩ := Prod.mk.inj (Option.some.inj (he.symm.trans hpush))
    have hidle := isIdle_of_error (congrArg Prod.snd hview)
    rwa [hview, isIdle_view] at hidle
  idle_of_reset := rfl
  asNew_of_idle hidle := by
    refine h.asNew ?_
    rw [eq_fresh ((isIdle_view s).mpr hidle)]
    exact congrArg fresh hmax

/-- **Nothing is left over.** Whatever chunks, single bytes and resets have come, in any order, the
storage has taken them and completed what the framer completes. Its buffer is within the bound, one
or two characters of a checksum are to come if any, the next byte has its place, and errors and
resets lead out of the frame. Outside a frame it goes on like a new storage. All this holds within a
chunk as well, as a part of a chunk is a chunk. -/
theorem nothing_left_over (m : ℕ) (calls : List Call) :
    ∃ (s : Storage) (outs : List (List Frame)),
      (new m).callAll? calls = some (s, outs) ∧ (fresh m).callAll calls = (s.view, outs) ∧
        s.Clean m := by
  obtain ⟨s, outs, hcalls, hview, hs⟩ := callAll?_sound (sound_new m) calls
  have hmax : s.max = m := by
    have hreachable : Reachable m ((new m).view.callAll calls).1 := Reachable.start.callAll calls
    rw [hview] at hreachable
    exact hreachable.max_eq
  exact ⟨s, outs, hcalls, hview, hs.clean hmax⟩

/-- A reset leaves half a checksum in the cells. -/
example : let chunk := asciiBytes ['$', 'a', '#', '1']
    ((new 8).callAll? [.take (.chunk chunk), .reset]).map Prod.fst =
      some ⟨8, .idle, [], #v[0x31, 0]⟩ := by
  decide

end Storage

end Framer

end ProbeLink

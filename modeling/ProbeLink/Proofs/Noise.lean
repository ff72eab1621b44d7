/-
# Noise does not hold the framer for long

Inside a frame every byte brings the framer nearer to its end, whatever it is: the body can take
only so many bytes more, and behind the end mark there are two (`Framer.owed`). Outside a frame
only a start mark leads into one. So a stretch without start marks leaves the framer outside as
soon as it is long enough, and of the frame that was under way at its beginning, if there was one,
exactly one thing has been said: it was a packet, or it was too long (`Framer.Passes.balance`).
What comes behind the stretch is read as from the start of a stream.

Long enough are three bytes more than a body may have, from whatever state the framer came to, and
there is a state from which two bytes more are not enough (`Framer.settlesWithin_isLeast`).

Key definitions: `Framer.Reachable`, `Framer.owed`, `Framer.Passes`, `Framer.Settled`.
Key theorems: `Framer.passes_push`, `Framer.passes_run`, `Framer.settlesWithin_isLeast`.
-/
import Mathlib.Order.Bounds.Basic
import ProbeLink.Proofs.Segments

namespace ProbeLink

/-- Whether it tells of a frame that it is over. -/
def Frame.endsFrame : Frame → Bool
  | .packet _ => true
  | .error (.frameTooLong _) => true
  | _ => false

namespace Framer

variable {m : ℕ} {f : Framer} {b : UInt8}

theorem max_push (f : Framer) (b : UInt8) : (f.push b).1.max = f.max := by
  simp only [push]
  split <;> (try split_ifs) <;> rfl

theorem max_after (f : Framer) : ∀ t : Bytes, (f.after t).max = f.max
  | [] => rfl
  | b :: r => (max_after _ r).trans (max_push f b)

/-! ### Histories -/

/-- The framer under a bound has come to this state, by chunks, single bytes and resets in any
order. -/
inductive Reachable (m : ℕ) : Framer → Prop where
  | start : Reachable m (fresh m)
  | take {f : Framer} (before : Reachable m f) (p : Piece) : Reachable m (f.take p).1
  | reset {f : Framer} (before : Reachable m f) : Reachable m f.reset

/-- The bound stays. -/
theorem Reachable.max_eq (h : Reachable m f) : f.max = m := by
  induction h with
  | start => rfl
  | @take f _ p ih => rw [take_eq, max_after, ih]
  | reset _ ih => exact ih

/-! ### What a stretch without start marks does -/

/-- How many bytes that start no frame can pass before the framer is outside a frame. -/
def owed (f : Framer) : ℕ :=
  match f.place with
  | .idle => 0
  | .body _ size _ => f.max - size + 3
  | .checksum _ _ => 2
  | .lastDigit _ _ _ => 1

theorem owed_le (f : Framer) : f.owed ≤ f.max + 3 := by
  unfold owed
  split <;> omega

theorem isIdle_of_owed (h : f.owed = 0) : f.isIdle = true := by
  obtain ⟨m, place⟩ := f
  cases place <;> first | rfl | cases h

/-- The number of frames under way. -/
def held (f : Framer) : ℕ := if f.isIdle then 0 else 1

/-- What `n` bytes that start no frame do to a framer: it is nearer to the outside by as many, and
each frame that was under way still is, or was told of once. -/
structure Passes (f : Framer) (n : ℕ) (outs : List Frame) (f' : Framer) : Prop where
  owed : f'.owed ≤ f.owed - n
  balance : outs.countP Frame.endsFrame + f'.held = f.held
  others : ∀ out ∈ outs, out.endsFrame = true ∨ out = .nak ∨ ∃ b, out = .error (.strayByte b)

/-- **One byte that starts no frame.** -/
theorem passes_push (f : Framer) (hreply : b ≠ replyMark) (hnotification : b ≠ notificationMark) :
    Passes f 1 (f.push b).2.toList (f.push b).1 := by
  obtain ⟨m, place⟩ := f
  cases place with
  | idle =>
    by_cases hack : b = ackByte
    · subst hack
      exact ⟨Nat.zero_le _, rfl, by simp [push]⟩
    · by_cases hnak : b = nakByte
      · subst hnak
        exact ⟨Nat.zero_le _, rfl, fun out hout => .inr (.inl (List.mem_singleton.mp hout))⟩
      · have hpush : (⟨m, .idle⟩ : Framer).push b = (⟨m, .idle⟩, some (.error (.strayByte b))) := by
          simp [push, hack, hnak, hreply, hnotification]
        rw [hpush]
        exact ⟨Nat.zero_le _, rfl, fun out hout => .inr (.inr ⟨b, List.mem_singleton.mp hout⟩)⟩
  | body kind size collected =>
    by_cases hend : b = endMark
    · subst hend
      rw [push_endMark]
      exact ⟨by simp only [owed]; omega, rfl, List.forall_mem_nil _⟩
    · rcases Nat.lt_or_ge size m with hroom | hfull
      · rw [push_inner kind collected hend hroom]
        exact ⟨by simp only [owed]; omega, rfl, List.forall_mem_nil _⟩
      · rw [push_over kind collected hend hfull]
        exact ⟨Nat.zero_le _, rfl, fun out hout => .inl (List.mem_singleton.mp hout ▸ rfl)⟩
  | checksum kind payload =>
    rw [push_first]
    exact ⟨le_rfl, rfl, List.forall_mem_nil _⟩
  | lastDigit kind payload first =>
    exact ⟨le_rfl, rfl, fun out hout => .inl (List.mem_singleton.mp hout ▸ rfl)⟩

theorem Passes.trans {f f' f'' : Framer} {n n' : ℕ} {outs outs' : List Frame}
    (h : Passes f n outs f') (h' : Passes f' n' outs' f'') :
    Passes f (n + n') (outs ++ outs') f'' where
  owed := by
    have hfirst := h.owed
    have hrest := h'.owed
    omega
  balance := by
    have hfirst := h.balance
    have hrest := h'.balance
    rw [List.countP_append]
    omega
  others := List.forall_mem_append.mpr ⟨h.others, h'.others⟩

/-- **A stretch without start marks**, byte by byte. -/
theorem passes_run : ∀ (f : Framer) {t : Bytes}, replyMark ∉ t → notificationMark ∉ t →
    Passes f t.length (f.feed t) (f.after t)
  | f, [], _, _ => ⟨le_rfl, Nat.zero_add _, List.forall_mem_nil _⟩
  | f, b :: r, hreply, hnotification => by
    rw [List.mem_cons, not_or] at hreply hnotification
    have hfirst := passes_push f (Ne.symm hreply.1) (Ne.symm hnotification.1)
    have hrest := passes_run (f.push b).1 hreply.2 hnotification.2
    rw [feed_cons, List.length_cons, Nat.add_comm]
    exact hfirst.trans hrest

/-! ### Behind the stretch -/

/-- Frames that fit come back one packet each, and what follows is read as from the start. -/
theorem feed_frames {ps : List Packet} (h : ∀ p ∈ ps, endMark ∉ p.payload ∧ p.payload.length ≤ m)
    (rest : Bytes) : (fresh m).feed (ps.flatMap Packet.encode ++ rest) =
      ps.map Frame.packet ++ (fresh m).feed rest := by
  have hfits : ∀ g ∈ ps.map Segment.frame, g.Fits m := by
    rw [List.forall_mem_map]
    exact h
  have hbytes : (ps.map Segment.frame).flatMap Segment.bytes = ps.flatMap Packet.encode :=
    List.flatMap_map ..
  have hfeed := feed_segments hfits
  have hafter := (run_segments hfits).1
  rw [hbytes] at hfeed hafter
  rw [feed_append, hfeed, hafter, List.filterMap_map]
  exact congrArg (· ++ _) (congrFun List.filterMap_eq_map ps)

/-- After a stretch the framer is outside a frame, at most one frame was told of, and frames that
fit and stand behind the stretch come back. -/
structure Settled (m : ℕ) (f : Framer) (t : Bytes) : Prop where
  idle : (f.after t).isIdle = true
  once : (f.feed t).countP Frame.endsFrame ≤ 1
  others : ∀ out ∈ f.feed t,
    out.endsFrame = true ∨ out = .nak ∨ ∃ b, out = .error (.strayByte b)
  intact : ∀ (ps : List Packet) (rest : Bytes),
    (∀ p ∈ ps, endMark ∉ p.payload ∧ p.payload.length ≤ m) →
    f.feed (t ++ (ps.flatMap Packet.encode ++ rest)) =
      f.feed t ++ (ps.map Frame.packet ++ (fresh m).feed rest)

/-- Whatever the framer has been through, every stretch of so many bytes without a start mark
settles it. -/
def SettlesWithin (m n : ℕ) : Prop :=
  ∀ (f : Framer) (t : Bytes), Reachable m f → n ≤ t.length → replyMark ∉ t →
    notificationMark ∉ t → Settled m f t

theorem settlesWithin (m : ℕ) : SettlesWithin m (m + 3) := by
  intro f t hf hlong hreply hnotification
  have hpasses := passes_run f hreply hnotification
  have hidle : (f.after t).isIdle = true := by
    have howed := hpasses.owed
    have hle := owed_le f
    rw [hf.max_eq] at hle
    exact isIdle_of_owed (by omega)
  have hafter : f.after t = fresh m := by
    rw [eq_fresh hidle, max_after, hf.max_eq]
  refine ⟨hidle, ?_, hpasses.others, fun ps rest hps => ?_⟩
  · have hheld : f.held ≤ 1 := by
      unfold held
      split <;> omega
    have hbalance := hpasses.balance
    omega
  · rw [feed_append, hafter, feed_frames hps]

/-- Behind a start mark, a body at the bound and its end mark with one checksum character leave the
framer inside the frame. -/
theorem exists_unsettled (m : ℕ) : ∃ (f : Framer) (t : Bytes), Reachable m f ∧
    t.length = m + 2 ∧ replyMark ∉ t ∧ notificationMark ∉ t ∧ (f.after t).isIdle = false := by
  have hfits : (Opening.digit .reply (List.replicate m 0x61) 0x61).Fits m := by
    refine ⟨fun hmem => ?_, ?_⟩
    · exact absurd (List.eq_of_mem_replicate hmem) (by decide)
    · rw [Opening.collected, List.length_replicate]
  have hfree : ∀ mark ∈ [replyMark, notificationMark],
      mark ∉ List.replicate m 0x61 ++ [endMark, 0x61] := by
    have hend : ∀ mark ∈ [replyMark, notificationMark], mark ∉ [endMark, 0x61] := by
      simp [replyMark, notificationMark, endMark]
    intro mark hmark hmem
    rcases List.mem_append.mp hmem with hbody | htail
    · rw [List.eq_of_mem_replicate hbody] at hmark
      exact absurd hmark (by decide)
    · exact hend mark hmark htail
  have hbusy : ((fresh m).after (replyMark :: (List.replicate m 0x61 ++ [endMark, 0x61]))).isIdle
      = false := by
    have hbytes : replyMark :: (List.replicate m 0x61 ++ [endMark, 0x61]) =
        (Opening.digit .reply (List.replicate m 0x61) 0x61).bytes := rfl
    rw [hbytes, (run_opening hfits).1]
    rfl
  exact ⟨((fresh m).take (.byte replyMark)).1, List.replicate m 0x61 ++ [endMark, 0x61],
    Reachable.start.take _, by simp, hfree _ (by simp), hfree _ (by simp), hbusy⟩

/-- **Noise holds the framer for three bytes more than a body may have, and no longer.** From
whatever state it has come to, a stretch of so many bytes without a start mark leaves it outside a
frame. Of what it said meanwhile at most one thing was a packet or a body that is too long, all
else were requests to repeat and stray bytes, and every frame that fits and follows comes back.
No smaller number will do. -/
theorem settlesWithin_isLeast (m : ℕ) : IsLeast {n | SettlesWithin m n} (m + 3) := by
  refine ⟨settlesWithin m, fun n hn => ?_⟩
  by_contra hlt
  obtain ⟨f, t, hf, hlength, hreply, hnotification, hbusy⟩ := exists_unsettled m
  have hidle := (hn f t hf (by omega) hreply hnotification).idle
  rw [hbusy] at hidle
  cases hidle

end Framer

end ProbeLink

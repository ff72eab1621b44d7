/-
# Where an answer comes from

A target sends bytes, any bytes at all, and a session reads them while calls are issued,
given up and moved in any order. Whatever a call is handed was a reply in the bytes that
were read, framed from a start mark outside any frame to its two checksum characters
(`Inbound.Sound`, kept by every step).

With replies being verified, an answer that was decoded therefore stands in the stream
with the right checksum: nothing is made of noise, of a frame that was cut or of one that
was tampered with, and an error code of the target is not made up either
(`Inbound.answers_genuine`).

Key definitions: `Hex.Spells`, `Inbound`, `Inbound.step`, `Inbound.Verified`,
`Inbound.Sound`, `Inbound.Genuine`.
Key theorems: `Inbound.Sound.step`, `Inbound.answers_genuine`.
-/
import Mathlib.Algebra.GroupWithZero.Nat
import ProbeLink.Proofs.Holders

namespace ProbeLink

/-! ### What a payload says -/

/-- A text spells bytes: two digits of either case for each, the high half first. -/
inductive Hex.Spells : Bytes → Bytes → Prop where
  | nil : Spells [] []
  | cons {hi lo high low : UInt8} {text data : Bytes} (first : digitValue? hi = some high)
      (second : digitValue? lo = some low) (rest : Spells text data) :
      Spells (hi :: lo :: text) ((high * 16 + low) :: data)

/-- Pairs of digits that are read spell what was read. -/
theorem Hex.spells_of_decodePairs : ∀ {index : ℕ} {text data : Bytes},
    text.length % 2 = 0 → decodePairs index text = .ok data → Spells text data
  | _, [], data, _, h => by
    obtain rfl : [] = data := Except.ok.inj h
    exact .nil
  | _, [_], _, heven, _ => by cases heven
  | index, hi :: lo :: text, data, heven, h => by
    have heven' : text.length % 2 = 0 := by
      simp only [List.length_cons] at heven
      omega
    simp only [decodePairs] at h
    cases hhi : digitValue? hi with
    | none => simp [hhi] at h
    | some high =>
      cases hlo : digitValue? lo with
      | none => simp [hhi, hlo] at h
      | some low =>
        cases hrest : decodePairs (index + 2) text with
        | error e => simp [hhi, hlo, hrest] at h
        | ok rest =>
          simp only [hhi, hlo, hrest] at h
          obtain rfl := Except.ok.inj h
          exact .cons hhi hlo (spells_of_decodePairs heven' hrest)

/-- A payload that counts as data is not empty and spells the data. -/
theorem Reply.spells_of_parse {payload data : Bytes} (h : parse payload = .data data) :
    payload ≠ [] ∧ Hex.Spells payload data := by
  have hdecode : Hex.decode payload = .ok data → Hex.Spells payload data := by
    intro hd
    unfold Hex.decode at hd
    split at hd
    · cases hd
    · exact Hex.spells_of_decodePairs (by omega) hd
  have hspelling : ofSpelling payload = .data data → Hex.decode payload = .ok data := by
    intro ho
    unfold ofSpelling at ho
    split at ho
    · rename_i bytes hb
      cases ho
      exact hb
    · cases ho
  unfold parse at h
  split at h
  · cases h
  · cases h
  · split at h
    · cases h
    · exact ⟨nofun, hdecode (hspelling h)⟩
  · rename_i hne _ _
    exact ⟨hne, hdecode (hspelling h)⟩

/-- The sum of all bytes is taken modulo 256. -/
theorem byteSum_toNat (bytes : Bytes) :
    (byteSum bytes).toNat = (bytes.map UInt8.toNat).sum % 256 := by
  induction bytes with
  | nil => rfl
  | cons b r ih =>
    rw [byteSum_cons, UInt8.toNat_add, ih, List.map_cons, List.sum_cons]
    omega

/-- A packet is in order if its two characters are the checksum of its payload. -/
theorem Packet.verify_iff (p : Packet) : p.verify = true ↔
    ∃ v, Checksum.parse [p.first, p.second] = some v ∧
      v.toNat = (p.payload.map UInt8.toNat).sum % 256 := by
  have hparse : p.verify = true
      ↔ Checksum.parse [p.first, p.second] = some (byteSum p.payload) := beq_iff_eq
  rw [hparse]
  constructor
  · exact fun h => ⟨_, h, byteSum_toNat p.payload⟩
  · rintro ⟨v, hv, hsum⟩
    rw [hv, ← UInt8.toNat_inj.mp (hsum.trans (byteSum_toNat p.payload).symm)]

/-- A decoded reply is checked first. -/
theorem decodeReply_verified {p : Packet} (h : p.verify = true) :
    (∃ code, Reply.parse p.payload = .error code ∧ decodeReply true p = .error (.remote code)) ∨
      (∀ code, Reply.parse p.payload ≠ .error code) ∧
        decodeReply true p = .ok (Reply.parse p.payload) := by
  have hcheck : p.check = .ok () := by rw [Packet.check, h, if_pos rfl]
  simp only [decodeReply, if_true, hcheck]
  cases hparse : Reply.parse p.payload with
  | error code => exact .inl ⟨code, rfl, rfl⟩
  | _ => exact .inr ⟨nofun, rfl⟩

theorem decodeReply_tampered {p : Packet} (h : p.verify = false) :
    decodeReply true p = .error (.wire (.checksumMismatch
      (Hex.asText (Checksum.digits p.payload)) (Text.lossy p.checksum))) := by
  have hcheck : p.check = .error (.checksumMismatch
      (Hex.asText (Checksum.digits p.payload)) (Text.lossy p.checksum)) := by
    rw [Packet.check, h, if_neg Bool.false_ne_true]
  simp only [decodeReply, if_true, hcheck]

/-- A packet that is decoded has the right checksum and is no error code. -/
theorem decodeReply_ok {p : Packet} {r : Reply} (h : decodeReply true p = .ok r) :
    p.verify = true ∧ r = Reply.parse p.payload ∧ ∀ code, r ≠ .error code := by
  cases hv : p.verify with
  | false =>
    rw [decodeReply_tampered hv] at h
    cases h
  | true =>
    rcases decodeReply_verified hv with ⟨code, -, hd⟩ | ⟨hno, hd⟩ <;> rw [hd] at h <;> cases h
    exact ⟨rfl, rfl, hno⟩

/-- An error code of the target comes from a packet with the right checksum. -/
theorem decodeReply_remote {p : Packet} {code : UInt8}
    (h : decodeReply true p = .error (.remote code)) :
    p.verify = true ∧ Reply.parse p.payload = .error code := by
  cases hv : p.verify with
  | false =>
    rw [decodeReply_tampered hv] at h
    cases h
  | true =>
    rcases decodeReply_verified hv with ⟨code', hcode, hd⟩ | ⟨-, hd⟩ <;> rw [hd] at h <;> cases h
    exact ⟨rfl, hcode⟩

/-- A decoded reply is the answer. -/
theorem Ask.answer_reply {verify : Bool} {p : Packet} {command : Command} {a : Answer}
    (h : (Ask.reply command).answer verify p = .ok a) :
    ∃ r, decodeReply verify p = .ok r ∧ a = .reply r := by
  cases hd : decodeReply verify p with
  | error e => simp [Ask.answer, hd, Except.map] at h
  | ok r =>
    simp only [Ask.answer, hd, Except.map] at h
    exact ⟨r, rfl, (Except.ok.inj h).symm⟩

/-- Memory has to come as data. -/
theorem Ask.answer_memory {verify : Bool} {p : Packet} {addr length : UInt64} {a : Answer}
    (h : (Ask.memory addr length).answer verify p = .ok a) :
    ∃ data, decodeReply verify p = .ok (.data data) ∧ a = .data data := by
  cases hd : decodeReply verify p with
  | error e => simp [Ask.answer, hd] at h
  | ok r =>
    cases r with
    | data bytes =>
      simp only [Ask.answer, hd] at h
      exact ⟨bytes, rfl, (Except.ok.inj h).symm⟩
    | ok | error | unsupported | text => simp [Ask.answer, hd] at h

/-- An error code is that of the reply. -/
theorem Ask.answer_remote {verify : Bool} {p : Packet} {ask : Ask} {code : UInt8}
    (h : ask.answer verify p = .error (.remote code)) :
    decodeReply verify p = .error (.remote code) := by
  cases ask with
  | packet command payload => cases h
  | disconnect => cases h
  | reply command =>
    cases hd : decodeReply verify p with
    | error e =>
      simp only [Ask.answer, hd, Except.map] at h
      exact congrArg Except.error (Except.error.inj h)
    | ok r => simp [Ask.answer, hd, Except.map] at h
  | memory addr length =>
    cases hd : decodeReply verify p with
    | error e =>
      simp only [Ask.answer, hd] at h
      exact congrArg Except.error (Except.error.inj h)
    | ok r => cases r <;> simp [Ask.answer, hd] at h

/-! ### What a step reads -/

namespace Session

variable {L : Type} [Link L] {s : Session L}

/-- The bytes that an event takes off the link. -/
def taken (s : Session L) : Event → Bytes
  | .move .reader => if s.readerReady then s.nextByte.toList else []
  | _ => []

/-- The packet that call `n` is handed when it ends. -/
def handing (s s' : Session L) (n : ℕ) : Option Packet :=
  match s.phase? n, s'.phase? n with
  | some (.awaiting t _), some (.ended _) =>
    match s.rendezvous.channel t with
    | .full p => some p
    | _ => none
  | _, _ => none

variable [FarEnd L]

theorem Keeps.all {ns : Set ℕ} {s' : Session L} (h : Keeps ns s s') : Keeps Set.univ s s' :=
  { h with
    turns := fun n hn => absurd (Set.mem_univ n) hn
    phases := fun n hn => absurd (Set.mem_univ n) hn }

/-- A call that moves reads nothing. -/
theorem keeps_any_moveCall {n : ℕ} (hr : s.callReady n = true) :
    Keeps Set.univ s (s.moveCall n) := by
  cases hc : s.calls[n]? with
  | none => simp [callReady, hc] at hr
  | some c =>
    obtain ⟨ask, phase⟩ := c
    have hp : s.phase? n = some phase := phase?_of_call hc
    cases phase with
    | queued =>
      simp only [moveCall, hc]
      split
      · rename_i command payload _
        exact (keeps_claim s n command payload).all
      · exact .refl s
    | sending t =>
      obtain ⟨hlink, hturns⟩ := Outlet.move_onward (ready_of_sending hp hr)
      rw [moveCall_of_sending hp]
      exact (keeps_afterSend t hlink hturns).all
    | awaiting t d =>
      simp only [moveCall, hc]
      exact (keeps_collect s n t ask).all
    | _ =>
      have hq : s.phase? n ≠ some .queued := by rw [hp]; rintro ⟨⟩
      exact keeps_moveCall hq (by rw [hp]; rintro _ ⟨⟩) (by rw [hp]; rintro _ _ ⟨⟩)

/-- An event that reads nothing leaves the framer and what is on its way alone. -/
theorem keeps_act {e : Event} (h : s.taken e = []) : Keeps Set.univ s (s.act e) := by
  cases e with
  | move a =>
    by_cases hr : Interplay.ready s a = true
    · rw [act_of_ready hr]
      cases a with
      | reader =>
        have hready : s.readerReady = true := hr
        have hnext : s.nextByte = none := by
          simpa only [taken, hready, if_true, Option.toList_eq_nil_iff] using h
        exact keeps_moveReader hready hnext
      | call n => exact keeps_any_moveCall hr
      | release | porter | chance | farWriter | farReader =>
        exact keeps_link (FarEnd.helperMove s.link _)
    · rw [act_of_not_ready hr]
      exact .refl s
  | issue ask => exact keeps_issue s ask
  | abort n => exact keeps_abort s n
  | letGo => exact keeps_letGo s
  | advance ms | takeQueue | queue q => exact { Keeps.refl s with }

/-- **What an event reads** is what comes next, and the framer takes it. -/
theorem act_reads (s : Session L) (e : Event) :
    (s.act e).settings = s.settings ∧ (s.act e).framer = s.framer.after (s.taken e) ∧
      ((s.act e).readsOn = true → s.readsOn = true ∧
        FarEnd.incoming s.link = s.taken e ++ FarEnd.incoming (s.act e).link) ∧
      (s.taken e ≠ [] → s.readsOn = true ∧ (s.act e).readsOn = true) := by
  by_cases h : s.taken e = []
  · have hkeeps := keeps_act h
    rw [h]
    refine ⟨hkeeps.settings, hkeeps.framer, fun hon => ?_, fun hne => absurd rfl hne⟩
    obtain ⟨hon', hsame⟩ := hkeeps.reading hon
    exact ⟨hon', hsame.symm⟩
  · -- only the reading agent takes anything
    obtain ⟨b, rfl, hready, hnext⟩ :
        ∃ b, e = .move .reader ∧ s.readerReady = true ∧ s.nextByte = some b := by
      unfold taken at h
      split at h
      · split at h
        · rename_i hready
          obtain ⟨b, hb⟩ := Option.ne_none_iff_exists'.mp (mt Option.toList_eq_nil_iff.mpr h)
          exact ⟨b, rfl, hready, hb⟩
        · exact absurd rfl h
      · exact absurd rfl h
    obtain ⟨hon, l, hmove, hin, -⟩ := moveReader_byte hnext
    obtain ⟨hframer, hsettings, hlink, hon', -⟩ :=
      takeByte_facts ({ s with link := l } : Session L) b
    have htaken : s.taken (.move .reader) = [b] := by
      simp only [taken, hready, if_true, hnext, Option.toList_some]
    rw [act_reader hready, hmove, htaken]
    refine ⟨hsettings, hframer, fun _ => ⟨hon, ?_⟩, fun _ => ⟨hon, hon'⟩⟩
    rw [hlink, hin]
    rfl

omit [FarEnd L] in
/-- A packet in a channel was there before, or was read just now. -/
theorem full_act {e : Event} {heard : List Packet}
    (h : ∀ t p, s.rendezvous.channel t = .full p → p ∈ heard) {t : ℕ} {p : Packet}
    (hp : (s.act e).rendezvous.channel t = .full p) :
    p ∈ heard ++ (s.framer.feed (s.taken e)).filterMap Frame.reply? := by
  have hold : ∀ t p, s.rendezvous.channel t = .full p →
      p ∈ heard ++ (s.framer.feed (s.taken e)).filterMap Frame.reply? :=
    fun t p hp => List.mem_append_left _ (h t p hp)
  by_cases hr : e = .move .reader ∧ s.readerReady = false
  · obtain ⟨rfl, hready⟩ := hr
    have hact : s.act (.move .reader) = s := if_neg (by
      rw [show Interplay.ready s .reader = s.readerReady from rfl, hready]
      exact Bool.false_ne_true)
    exact hold t p (hact ▸ hp)
  · refine (handled_act s e).full (fun q hq => List.mem_append_right _ ?_) hold hp
    unfold offers at hq
    split at hq
    · obtain ⟨b, hnext, hq⟩ := hq
      have hready : s.readerReady = true := Bool.eq_true_of_not_eq_false fun h => hr ⟨rfl, h⟩
      have hfeed : s.framer.feed (s.taken (.move .reader)) = (s.framer.push b).2.toList := by
        simp only [taken, hready, if_true, hnext, Option.toList_some, Framer.feed]
        cases (s.framer.push b).2 <;> rfl
      rw [hfeed]
      exact hq
    · exact hq.elim

omit [Link L] [FarEnd L] in
/-- Only a call that ends is handed anything. -/
theorem handing_eq_some {s' : Session L} {n : ℕ} {p : Packet} (h : handing s s' n = some p) :
    ∃ t d r, s.phase? n = some (.awaiting t d) ∧ s'.phase? n = some (.ended r) ∧
      s.rendezvous.channel t = .full p := by
  unfold handing at h
  split at h
  · rename_i t d r hphase hphase'
    split at h
    · rename_i q hq
      cases h
      exact ⟨t, d, r, hphase, hphase', hq⟩
    · cases h
  · cases h

omit [FarEnd L] in
/-- **A packet that a call is handed is what it answers.** -/
theorem handing_answers {e : Event} {n : ℕ} {p : Packet}
    (h : handing s (s.act e) n = some p) : ∃ t ask, s.rendezvous.channel t = .full p ∧
      s.ask? n = some ask ∧
      (s.act e).phase? n = some (.ended (ask.answer s.settings.verifyReplies p)) := by
  obtain ⟨t, d, r, hphase, hphase', hfull⟩ := handing_eq_some h
  obtain ⟨ask, hc, hask⟩ := phase?_eq_some hphase
  refine ⟨t, ask, hfull, hask, ?_⟩
  rcases phase?_act s e n with hsame | ⟨hnone, -⟩ | ⟨-, -, haborted⟩ | ⟨rfl, -, hact⟩
  · rw [hsame, hphase] at hphase'
    cases hphase'
  · rw [hphase] at hnone
    cases hnone
  · rw [haborted] at hphase'
    cases hphase'
  · -- the call is over, and what ended it is the packet in its channel
    have hanswer : s.collect n t ask = ({ s with
        rendezvous := s.rendezvous.abandon t } : Session L).finish n
          (ask.answer s.settings.verifyReplies p) := by
      simp only [collect, hfull]
    have hmove : s.moveCall n = s.collect n t ask := by
      simp only [moveCall, hc]
    rw [hact, hmove, hanswer]
    exact phase?_finish (by exact hphase) _

end Session

/-! ### A session and what is sent to it -/

/-- A session, with what was sent to it and what it has read of that, and with notes on the
packets that calls were handed. -/
structure Inbound (L : Type) where
  session : Session L
  /-- What the target has sent. -/
  sent : Bytes
  /-- The bytes that the session has read. -/
  read : Bytes := []
  /-- Something that was sent is lost; the target sends nothing more. -/
  cut : Bool := false
  handed : ℕ → Option Packet := fun _ => none

/-- What can happen next. -/
inductive Inbound.Event (L : Type) where
  | own (e : Session.Event)
  /-- The target sends some bytes. -/
  | send (bytes : Bytes)
  /-- The far end stalls, ends its stream or goes away. -/
  | outside (l : L)

namespace Inbound

section World

variable {L : Type} [Link L] [FarEnd L]

/-- One thing happens. What cannot happen changes nothing. -/
def step (x : Inbound L) : Event L → Inbound L
  | .own e =>
    { x with
      session := x.session.act e
      read := x.read ++ x.session.taken e
      handed := fun n => (x.session.handing (x.session.act e) n).or (x.handed n) }
  | .send bytes =>
    if x.cut = false ∧ FarEnd.accepts x.session.link = true then
      { x with
        session := { x.session with link := FarEnd.send x.session.link bytes }
        sent := x.sent ++ bytes }
    else x
  | .outside l =>
    if FarEnd.incoming l <+: FarEnd.incoming x.session.link ∧
        Link.wire l = Link.wire x.session.link then
      { x with
        session := { x.session with link := l }
        cut := x.cut || decide (FarEnd.incoming l ≠ FarEnd.incoming x.session.link) }
    else x

def run (x : Inbound L) (es : List (Event L)) : Inbound L := es.foldl step x

/-- A new session on a link, whatever is on its way there already. -/
def start (link : L) (settings : SessionSettings) : Inbound L :=
  { session := Session.start link settings, sent := FarEnd.incoming link }

end World

variable {L : Type}

/-- The bound on payloads. -/
def bound (x : Inbound L) : ℕ := x.session.settings.maxFrameLen

/-- Whether replies are verified. -/
def verifies (x : Inbound L) : Bool := x.session.settings.verifyReplies

/-- The replies that the session has read. -/
def heard (x : Inbound L) : List Packet :=
  ((Framer.fresh x.bound).feed x.read).filterMap Frame.reply?

/-- The packet stands in what was sent: it begins outside any frame, its payload has no end
mark and is not too long, and its checksum is the sum of the payload modulo 256. -/
def Verified (x : Inbound L) (p : Packet) : Prop :=
  ∃ before behind v,
    x.sent = before ++ (replyMark :: p.payload ++ [endMark, p.first, p.second]) ++ behind ∧
    ((Framer.fresh x.bound).after before).isIdle = true ∧
    endMark ∉ p.payload ∧ p.payload.length ≤ x.bound ∧
    Checksum.parse [p.first, p.second] = some v ∧
    v.toNat = (p.payload.map UInt8.toNat).sum % 256

/-- The end of a call that was handed no packet. -/
def Unheard (x : Inbound L) (n : ℕ) : Except SessionError Answer → Prop
  | .error .closed | .error (.timeout _) | .error (.link _) => True
  | .ok .disconnected => ∀ ask, x.session.ask? n = some ask → ask.body? = none
  | _ => False

/-! ### What is known of the stream -/

/-- The framer stands where what was read leaves it, and what is on its way follows behind.
A packet in a channel was heard, and so was a packet that a call was handed; it ended the
call. -/
structure Sound [Link L] [FarEnd L] (x : Inbound L) : Prop where
  inTurn : x.session.InTurn
  framer : x.session.framer = (Framer.fresh x.bound).after x.read
  sent : ∃ rest, x.sent = x.read ++ rest ∧ (x.session.readsOn = true →
    FarEnd.incoming x.session.link <+: rest ∧
      (x.cut = false → rest = FarEnd.incoming x.session.link))
  full : ∀ t p, x.session.rendezvous.channel t = .full p → p ∈ x.heard
  handed : ∀ n p, x.handed n = some p → p ∈ x.heard ∧ ∃ ask, x.session.ask? n = some ask ∧
    x.session.phase? n = some (.ended (ask.answer x.verifies p))
  told : ∀ n r, x.session.phase? n = some (.ended r) → x.handed n ≠ none ∨ x.Unheard n r

variable [Link L] [FarEnd L] {x : Inbound L}

/-- A reply that was heard stands in what was sent. -/
theorem Sound.verified (h : x.Sound) {p : Packet} (hp : p ∈ x.heard) (hv : p.verify = true) :
    x.Verified p := by
  obtain ⟨out, hout, hreply⟩ := List.mem_filterMap.mp hp
  obtain ⟨rfl, hkind⟩ : out = .packet p ∧ p.kind = .reply := by
    cases out with
    | packet q =>
      simp only [Frame.reply?] at hreply
      split at hreply
      · cases hreply
        exact ⟨rfl, by assumption⟩
      · cases hreply
    | nak | error => cases hreply
  obtain ⟨before, behind, hread, hidle, hmark, hlength⟩ := Segmentation.packet_stands hout
  obtain ⟨v, hparse, hsum⟩ := p.verify_iff.mp hv
  obtain ⟨rest, hsent, -⟩ := h.sent
  refine ⟨before, behind ++ rest, v, ?_, hidle, hmark, hlength, hparse, hsum⟩
  rw [hsent, hread, Packet.encode, hkind]
  simp only [List.append_assoc]
  rfl

theorem sound_start (link : L) (settings : SessionSettings) : (start link settings).Sound where
  inTurn := Session.inTurn_start link settings
  framer := rfl
  sent := ⟨_, rfl, fun _ => ⟨List.prefix_rfl, fun _ => rfl⟩⟩
  full _ _ := nofun
  handed _ _ := nofun
  told _ _ := nofun

/-- The far end does something; nothing is read meanwhile. -/
theorem Sound.beyond (h : x.Sound) {l : L} {sent : Bytes} {cut : Bool}
    (hsent : ∃ rest, sent = x.read ++ rest ∧ (x.session.readsOn = true →
      FarEnd.incoming l <+: rest ∧ (cut = false → rest = FarEnd.incoming l))) :
    ({ x with session := { x.session with link := l }, sent, cut } : Inbound L).Sound where
  inTurn := h.inTurn.link l
  framer := h.framer
  sent := hsent
  full := h.full
  handed := h.handed
  told := h.told

/-- A call that has ended was handed a packet, or ended without one. -/
theorem Sound.told_act (h : x.Sound) {e : Session.Event} {n : ℕ} {r : Except SessionError Answer}
    (hr : (x.session.act e).phase? n = some (.ended r)) :
    (x.step (.own e)).handed n ≠ none ∨ (x.step (.own e)).Unheard n r := by
  have hold : x.handed n ≠ none → (x.step (.own e)).handed n ≠ none := by
    intro hsome hnone
    exact hsome (Option.or_eq_none_iff.mp hnone).2
  have hunheard : ∀ o, x.session.phase? n = some o → x.Unheard n r →
      (x.step (.own e)).Unheard n r := by
    intro o ho hu
    obtain ⟨ask, -, hask⟩ := Session.phase?_eq_some ho
    unfold Unheard at hu ⊢
    split at hu
    · trivial
    · trivial
    · trivial
    · intro ask' hask'
      obtain rfl : ask = ask' :=
        Option.some.inj ((Session.ask?_act e hask).symm.trans hask')
      exact hu ask hask
    · exact hu.elim
  rcases Session.phase?_act x.session e n with hsame | ⟨-, hissued⟩ | ⟨-, -, haborted⟩ |
    ⟨rfl, hready, hact⟩
  · rw [hsame] at hr
    exact (h.told n r hr).imp hold (hunheard _ hr)
  · rw [hissued] at hr
    cases hr
  · rw [haborted] at hr
    cases hr
  · obtain ⟨o, ho⟩ := Session.phase?_of_callReady hready
    obtain ⟨φ, hφ, hcomes⟩ := Session.comes_moveCall ho
    rw [hact, hφ] at hr
    cases hr
    cases hcomes with
    | stays phase _ =>
      exact (h.told n r phase).imp hold (hunheard _ phase)
    | ends how =>
      cases how with
      | @answered ask t d p call full =>
        left
        have hphase : x.session.phase? n = some (.awaiting t d) :=
          Session.phase?_of_call call
        have hhanding : x.session.handing (x.session.act (.move (.call n))) n = some p := by
          simp only [Session.handing, hact, hphase, hφ, full]
        intro hnone
        rw [(Option.or_eq_none_iff.mp hnone).1] at hhanding
        cases hhanding
      | hungUp phase gone => exact .inr trivial
      | timedOut phase empty => exact .inr trivial
      | refused phase closed => exact .inr trivial
      | @failed t e phase fails =>
        right
        cases e <;> trivial
      | parted departs =>
        right
        refine hunheard o ho fun ask hask => ?_
        exact h.inTurn.departs n ask departs hask

/-- What is read comes off the front of what is on its way. -/
theorem Sound.sent_act (h : x.Sound) (e : Session.Event) :
    ∃ rest, x.sent = (x.read ++ x.session.taken e) ++ rest ∧
      ((x.session.act e).readsOn = true →
        FarEnd.incoming (x.session.act e).link <+: rest ∧
          (x.cut = false → rest = FarEnd.incoming (x.session.act e).link)) := by
  obtain ⟨-, -, hreads, htook⟩ := Session.act_reads x.session e
  obtain ⟨rest, hsent, hon⟩ := h.sent
  by_cases htaken : x.session.taken e = []
  · refine ⟨rest, by rw [htaken, List.append_nil, hsent], fun hr => ?_⟩
    obtain ⟨hr', hin⟩ := hreads hr
    have hrest := hon hr'
    rw [hin, htaken, List.nil_append] at hrest
    exact hrest
  · obtain ⟨hr, hr'⟩ := htook htaken
    obtain ⟨-, hin⟩ := hreads hr'
    obtain ⟨⟨more, rfl⟩, hcut⟩ := hon hr
    refine ⟨FarEnd.incoming (x.session.act e).link ++ more, ?_, fun _ => ⟨?_, fun hc => ?_⟩⟩
    · rw [hsent, hin]
      simp only [List.append_assoc]
    · exact List.prefix_append _ _
    · have hmore : more = [] := List.append_right_eq_self.mp (hcut hc)
      rw [hmore, List.append_nil]

/-- What is heard by the next event comes behind what was heard before. -/
theorem Sound.heard_act (h : x.Sound) (e : Session.Event) :
    (x.step (.own e)).heard
      = x.heard ++ (x.session.framer.feed (x.session.taken e)).filterMap Frame.reply? := by
  have hbound : (x.step (.own e)).bound = x.bound :=
    congrArg SessionSettings.maxFrameLen (Session.act_reads x.session e).1
  unfold heard
  rw [hbound, h.framer, ← List.filterMap_append, ← Framer.feed_append]
  rfl

/-- A packet that a call is handed now, or was before, was heard and ended the call. -/
theorem Sound.handed_act (h : x.Sound) {e : Session.Event} {n : ℕ} {p : Packet}
    (hp : (x.session.handing (x.session.act e) n).or (x.handed n) = some p) :
    p ∈ x.heard ∧ ∃ ask, (x.session.act e).ask? n = some ask ∧
      (x.session.act e).phase? n = some (.ended (ask.answer x.verifies p)) := by
  rcases Option.or_eq_some_iff.mp hp with hnow | ⟨-, hbefore⟩
  · obtain ⟨t, ask, hfull, hask, hphase⟩ := Session.handing_answers hnow
    exact ⟨h.full t p hfull, ask, Session.ask?_act e hask, hphase⟩
  · obtain ⟨hmem, ask, hask, hphase⟩ := h.handed n p hbefore
    exact ⟨hmem, ask, Session.ask?_act e hask, Session.ended_act hphase e⟩

/-- **What happens to the session keeps what is known of the stream.** -/
theorem Sound.own (h : x.Sound) (e : Session.Event) : (x.step (.own e)).Sound := by
  obtain ⟨hsettings, hframer, -⟩ := Session.act_reads x.session e
  have hbound : (x.step (.own e)).bound = x.bound := congrArg SessionSettings.maxFrameLen hsettings
  have hverifies : (x.step (.own e)).verifies = x.verifies :=
    congrArg SessionSettings.verifyReplies hsettings
  refine ⟨h.inTurn.act e, ?_, h.sent_act e, fun t p hp => ?_, fun n p hp => ?_,
    fun n r hr => h.told_act hr⟩
  · rw [hbound]
    refine hframer.trans ?_
    rw [h.framer, ← Framer.after_append]
    rfl
  · rw [h.heard_act]
    exact Session.full_act h.full hp
  · rw [h.heard_act, hverifies]
    exact (h.handed_act hp).imp_left (List.mem_append_left _)

/-- **Every step keeps what is known of the stream.** -/
theorem Sound.step (h : x.Sound) (e : Event L) : (x.step e).Sound := by
  cases e with
  | own e => exact h.own e
  | send bytes =>
    simp only [Inbound.step]
    split
    · rename_i hcan
      obtain ⟨hcut, haccepts⟩ := hcan
      obtain ⟨rest, hsent, hon⟩ := h.sent
      refine h.beyond ⟨rest ++ bytes, by rw [hsent, List.append_assoc], fun hr => ?_⟩
      obtain ⟨-, hrest⟩ := hon hr
      have hin : FarEnd.incoming (FarEnd.send x.session.link bytes) = rest ++ bytes := by
        rw [FarEnd.incoming_send bytes haccepts, hrest hcut]
      exact ⟨hin ▸ List.prefix_rfl, fun _ => hin.symm⟩
    · exact h
  | outside l =>
    simp only [Inbound.step]
    split
    · rename_i hcan
      obtain ⟨rest, hsent, hon⟩ := h.sent
      refine h.beyond ⟨rest, hsent, fun hr => ?_⟩
      obtain ⟨hheld, hrest⟩ := hon hr
      refine ⟨hcan.1.trans hheld, fun hc => ?_⟩
      obtain ⟨hcut, hsame⟩ := Bool.or_eq_false_iff.mp hc
      rw [hrest hcut, of_not_not (of_decide_eq_false hsame)]
    · exact h

theorem Sound.run : ∀ {x : Inbound L} (es : List (Event L)), x.Sound → (x.run es).Sound
  | _, [], h => h
  | _, e :: es, h => Sound.run es (h.step e)

/-! ### Answers that were decoded -/

/-- **What was decoded is genuine.** -/
structure Genuine (x : Inbound L) : Prop where
  /-- A decoded reply was sent with the right checksum, and is no error code. -/
  replies : ∀ (n : ℕ) (command : Command) (a : Answer),
    x.session.calls[n]? = some ⟨.reply command, .ended (.ok a)⟩ →
    ∃ p, x.handed n = some p ∧ x.Verified p ∧ a = .reply (Reply.parse p.payload) ∧
      ∀ code, Reply.parse p.payload ≠ .error code
  /-- Memory was spelled out in a reply that was sent with the right checksum. -/
  memory : ∀ (n : ℕ) (addr length : UInt64) (a : Answer),
    x.session.calls[n]? = some ⟨.memory addr length, .ended (.ok a)⟩ →
    ∃ p data, x.handed n = some p ∧ x.Verified p ∧ a = .data data ∧ p.payload ≠ [] ∧
      Hex.Spells p.payload data
  /-- A packet with a wrong checksum ends the call with that error. -/
  tampered : ∀ (n : ℕ) (ask : Ask) (φ : CallPhase) (p : Packet),
    x.session.calls[n]? = some ⟨ask, φ⟩ → x.handed n = some p → p.verify = false →
    (∃ command, ask = .reply command) ∨ (∃ addr length, ask = .memory addr length) →
    φ = .ended (.error (.wire (.checksumMismatch
      (Hex.asText (Checksum.digits p.payload)) (Text.lossy p.checksum))))
  /-- An error code was sent with the right checksum. -/
  remote : ∀ (n : ℕ) (code : UInt8),
    x.session.phase? n = some (.ended (.error (.remote code))) →
    ∃ p, x.handed n = some p ∧ x.Verified p ∧ Reply.parse p.payload = .error code

/-- A call that was handed a packet ended with what its ask makes of it. -/
theorem Sound.ended_of_handed (h : x.Sound) {n : ℕ} {ask : Ask} {φ : CallPhase} {p : Packet}
    (hn : x.session.calls[n]? = some ⟨ask, φ⟩) (hp : x.handed n = some p) :
    φ = .ended (ask.answer x.verifies p) := by
  obtain ⟨-, ask', hask, hphase⟩ := h.handed n p hp
  have hask' : x.session.ask? n = some ask := Session.ask?_of_call hn
  have hphase' : x.session.phase? n = some φ := Session.phase?_of_call hn
  obtain rfl : ask' = ask := Option.some.inj (hask.symm.trans hask')
  exact Option.some.inj (hphase'.symm.trans hphase)

/-- A call that did not end without a packet was handed one, and it was heard. -/
theorem Sound.answered (h : x.Sound) {n : ℕ} {ask : Ask} {r : Except SessionError Answer}
    (hn : x.session.calls[n]? = some ⟨ask, .ended r⟩) (hr : ¬x.Unheard n r) :
    ∃ p, x.handed n = some p ∧ p ∈ x.heard ∧ r = ask.answer x.verifies p := by
  have hphase : x.session.phase? n = some (.ended r) :=
    Session.phase?_of_call hn
  obtain ⟨p, hp⟩ := Option.ne_none_iff_exists'.mp ((h.told n r hphase).resolve_right hr)
  exact ⟨p, hp, (h.handed n p hp).1, CallPhase.ended.inj (h.ended_of_handed hn hp)⟩

omit [Link L] [FarEnd L] in
/-- A call that has something to send does not answer without a packet. -/
theorem not_unheard_ok {n : ℕ} {ask : Ask} {φ : CallPhase} {a : Answer}
    (hn : x.session.calls[n]? = some ⟨ask, φ⟩) (hbody : ask.body? ≠ none) :
    ¬x.Unheard n (.ok a) := by
  intro hu
  have hask : x.session.ask? n = some ask := Session.ask?_of_call hn
  cases a with
  | disconnected => exact hbody (hu ask hask)
  | packet | reply | data => exact hu

theorem settings_step (x : Inbound L) (e : Event L) :
    (x.step e).session.settings = x.session.settings := by
  cases e with
  | own e => exact (Session.act_reads x.session e).1
  | send bytes =>
    simp only [Inbound.step]
    split <;> rfl
  | outside l =>
    simp only [Inbound.step]
    split <;> rfl

theorem settings_run : ∀ (es : List (Event L)) (x : Inbound L),
    (x.run es).session.settings = x.session.settings
  | [], _ => rfl
  | e :: es, x => (settings_run es (x.step e)).trans (settings_step x e)

/-- **A decoded answer was sent as such.** Whatever bytes the target sends, over whatever link,
and whatever else happens meanwhile: with replies being verified, a decoded reply, memory and
an error code stand in the stream with the right checksum, and a packet with a wrong one ends
its call with that error. -/
theorem answers_genuine (link : L) (settings : SessionSettings)
    (hverify : settings.verifyReplies = true) (es : List (Event L)) :
    ((start link settings).run es).Genuine := by
  have h := (sound_start link settings).run es
  have hsettings := settings_run es (start link settings)
  set x := (start link settings).run es
  have hv : x.verifies = true := (congrArg SessionSettings.verifyReplies hsettings).trans hverify
  refine ⟨fun n command a hn => ?_, fun n addr length a hn => ?_,
    fun n ask φ p hn hp htampered hdecodes => ?_, fun n code hn => ?_⟩
  · obtain ⟨p, hp, hmem, ha⟩ := h.answered hn (not_unheard_ok hn nofun)
    rw [hv] at ha
    obtain ⟨r, hd, hanswer⟩ := Ask.answer_reply ha.symm
    obtain ⟨hverified, rfl, hno⟩ := decodeReply_ok hd
    exact ⟨p, hp, h.verified hmem hverified, hanswer, hno⟩
  · obtain ⟨p, hp, hmem, ha⟩ := h.answered hn (not_unheard_ok hn nofun)
    rw [hv] at ha
    obtain ⟨data, hd, hanswer⟩ := Ask.answer_memory ha.symm
    obtain ⟨hverified, hparse, -⟩ := decodeReply_ok hd
    obtain ⟨hne, hspells⟩ := Reply.spells_of_parse hparse.symm
    exact ⟨p, data, hp, h.verified hmem hverified, hanswer, hne, hspells⟩
  · rw [h.ended_of_handed hn hp, hv]
    have hd := decodeReply_tampered htampered
    rcases hdecodes with ⟨command, rfl⟩ | ⟨addr, length, rfl⟩
    · simp only [Ask.answer, hd, Except.map]
    · simp only [Ask.answer, hd]
  · obtain ⟨ask, hc, -⟩ := Session.phase?_eq_some hn
    obtain ⟨p, hp, hmem, ha⟩ := h.answered hc id
    rw [hv] at ha
    obtain ⟨hverified, hcode⟩ := decodeReply_remote (Ask.answer_remote ha.symm)
    exact ⟨p, hp, h.verified hmem hverified, hcode⟩

/-! ### Answers amid noise -/

/-- A call is issued and writes its frame, the target sends some bytes, they are read one by
one, and the call takes what it was handed. -/
def ask (n : ℕ) (a : Ask) (bytes : Bytes) : List (Event ScriptLink) :=
  .own (.issue a) :: List.replicate 3 (.own (.move (.call n)))
    ++ .send bytes :: List.replicate (bytes.length + 1) (.own (.move .reader))
    ++ [.own (.move (.call n))]

/-- Two bytes of memory, and the same with a wrong checksum. -/
def spelled : Packet := .sealed .reply [0x34, 0x31, 0x34, 0x42]
def smudged : Packet := { spelled with second := 0x30 }

/-- Stray bytes come in front of the answer to the first call, and the answer to the second
has a wrong checksum. -/
def noisy : Inbound ScriptLink :=
  (start {} {}).run (ask 0 (.memory 16 2) ([0x41, 0x42] ++ spelled.encode)
    ++ ask 1 (.memory 16 2) smudged.encode)

/-- The first call has its memory from a reply with the right checksum, and the second ends
with the error. -/
theorem answers_genuine_noisy : ({} : SessionSettings).verifyReplies = true ∧
    (∃ p, noisy.Verified p ∧ Hex.Spells p.payload [0x41, 0x4B]) ∧
    smudged.verify = false ∧ ∃ expected received, noisy.session.phase? 1
      = some (.ended (.error (.wire (.checksumMismatch expected received)))) := by
  -- the run is short enough to be computed
  have hfirst : noisy.session.calls[0]?
      = some ⟨.memory 16 2, .ended (.ok (.data [0x41, 0x4B]))⟩ := by rfl
  have hsecond : noisy.handed 1 = some smudged := by rfl
  have hsmudged : smudged.verify = false := by decide
  have hgenuine : noisy.Genuine := answers_genuine ({} : ScriptLink) {} rfl _
  obtain ⟨p, data, -, hverified, hdata, -, hspells⟩ := hgenuine.memory 0 16 2 _ hfirst
  obtain rfl : [0x41, 0x4B] = data := Answer.data.inj hdata
  have hask : noisy.session.ask? 1 = some (.memory 16 2) := by rfl
  obtain ⟨⟨_, φ⟩, hc, rfl⟩ := Option.map_eq_some_iff.mp hask
  obtain rfl := hgenuine.tampered 1 _ φ smudged hc hsecond hsmudged (.inr ⟨16, 2, rfl⟩)
  have hphase := congrArg (Option.map Call.phase) hc
  exact ⟨rfl, ⟨p, hverified, hspells⟩, hsmudged, _, _, hphase⟩

end Inbound

end ProbeLink

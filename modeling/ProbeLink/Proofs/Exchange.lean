/-
# Which reply a call gets

A target takes the command frames that it gets and answers each with one reply, in
the order of the frames and as late as it likes; a reply may come when its call
has timed out or was given up. Nothing on the wire says which command a reply
answers: the `i`-th reply answers the `i`-th frame, and a call gets the first
reply that is read after its claim (`Exchange.Sound`, kept by every step).

So a call whose claim was made when `k` replies had been read gets reply `k`. It is
its own if the target gets the call's frame as frame `k`, and not otherwise: the
replies to all frames before it have to be read when the claim is made
(`Exchange.reply_after_claim`). After a timeout the next call can claim too early,
and gets the late reply of the call before it (`Exchange.lateReply_mistaken`).

Key definitions: `Exchange`, `Exchange.step`, `Exchange.ReceivedAs`,
`Exchange.OwnReply`, `Exchange.Sound`.
Key theorems: `Exchange.Sound.step`, `Exchange.reply_after_claim`.
-/
import ProbeLink.Proofs.Keeping
import ProbeLink.Target

namespace ProbeLink

/-- The frames that a target with a bound gets out of bytes. -/
def Target.framesIn (bound : ℕ) (bytes : Bytes) : List Packet :=
  (({ framer := Framer.fresh bound } : Target).hear bytes).heard

/-- More bytes make more frames. -/
theorem Target.framesIn_mono (bound : ℕ) {a b : Bytes} (h : a <+: b) :
    framesIn bound a <+: framesIn bound b := by
  obtain ⟨r, rfl⟩ := h
  simp only [framesIn, hear, List.nil_append, Framer.feed_append, List.filterMap_append]
  exact List.prefix_append _ _

instance (m : ℕ) : (g : Segment) → Decidable (g.Fits m)
  | .ack | .nak => inferInstanceAs (Decidable True)
  | .stray b => inferInstanceAs (Decidable (b ∉ [ackByte, nakByte, replyMark, notificationMark]))
  | .frame p => inferInstanceAs (Decidable (endMark ∉ p.payload ∧ p.payload.length ≤ m))
  | .tooLong _ body => inferInstanceAs (Decidable (endMark ∉ body ∧ body.length = m + 1))

/-- The reply that a segment is. -/
def Segment.reply? : Segment → Option Packet
  | .frame p => if p.kind = .reply then some p else none
  | _ => none

theorem Segment.reply?_eq (m : ℕ) (g : Segment) : (g.output m).bind Frame.reply? = g.reply? := by
  cases g <;> rfl

/-- A call that ends with a packet ends with the one that it was handed. -/
theorem Ask.answer_packet {verify : Bool} {p q : Packet} {ask : Ask}
    (h : ask.answer verify p = .ok (.packet q)) : p = q := by
  cases ask with
  | packet command payload =>
    cases h
    rfl
  | reply c =>
    simp only [answer] at h
    cases hd : decodeReply verify p <;> rw [hd] at h <;> cases h
  | memory addr length =>
    simp only [answer] at h
    split at h <;> cases h
  | disconnect => cases h

/-- What is at a place of a list is there in a longer one. -/
theorem getElem?_mono {α : Type} {ps qs : List α} {k : ℕ} {p : α} (h : ps <+: qs)
    (hp : ps[k]? = some p) : qs[k]? = some p := by
  obtain ⟨r, rfl⟩ := h
  rw [List.getElem?_append_left (List.getElem?_eq_some_iff.mp hp).1]
  exact hp

/-! ### Tickets -/

namespace Rendezvous

/-- When these replies have come, the ticket is good for reply `k` and no other. -/
structure Promises (m : Rendezvous) (heard : List Packet) (t k : ℕ) : Prop where
  issued : t < m.channels.length
  waits : m.slot = some t → heard.length = k
  full : ∀ p, m.channel t = .full p → heard[k]? = some p

variable {m m' : Rendezvous} {heard : List Packet} {t k : ℕ}

/-- A ticket stays good while nothing is handed over. -/
theorem Promises.of_fades (h : m.Promises heard t k) (hm : m.Fades m') : m'.Promises heard t k :=
  ⟨h.issued.trans_le hm.length, fun hs => h.waits (hm.slot t h.issued hs),
    fun p hp => h.full p (hm.full t p h.issued hp)⟩

/-- The reply that comes next goes to the ticket that waits for it. -/
theorem Promises.offer (h : m.Promises heard t k) (p : Packet) :
    (m.offer p).1.Promises (heard ++ [p]) t k where
  issued := h.issued.trans_eq (m.offer_length p).symm
  waits hs := by
    rw [m.offer_slot p] at hs
    cases hs
  full q hq := by
    rcases offer_full hq with hq | ⟨hs, rfl⟩
    · exact getElem?_mono (List.prefix_append _ _) (h.full q hq)
    · rw [← h.waits hs, List.getElem?_concat_length]

theorem Promises.offerAll {m : Rendezvous} {heard : List Packet} : ∀ {ps : List Packet},
    m.Promises heard t k → (m.offerAll ps).1.Promises (heard ++ ps) t k
  | [], h => by rwa [List.append_nil]
  | p :: ps, h => by
    rw [List.append_cons]
    exact (h.offer p).offerAll

end Rendezvous

/-! ### A session and its target -/

/-- A session and its target, with what was sent and read so far, and with notes
on the calls: how many replies had been read when a call claimed one, and what was
on the wire when its turn to write came. -/
structure Exchange (L : Type) where
  session : Session L
  /-- The longest body that the target takes. -/
  bound : ℕ
  /-- The bytes that the session has read. -/
  read : Bytes := []
  /-- What the target has sent. -/
  sent : List Segment := []
  /-- Something that was sent is lost; the target sends nothing more. -/
  cut : Bool := false
  claimedAt : ℕ → Option ℕ := fun _ => none
  writtenAt : ℕ → Option Bytes := fun _ => none

/-- What can happen next. -/
inductive Happening (L : Type) where
  | move (a : Agent)
  | issue (ask : Ask)
  | abort (n : ℕ)
  | advance (ms : ℕ)
  | takeQueue
  /-- Something is done with the queue of notifications. -/
  | queue (q : Notifications)
  | letGo
  /-- The target answers the first frame that it has not answered. -/
  | answer (p : Packet)
  /-- The target sends something that is not a reply. -/
  | chatter (g : Segment)
  /-- The far end stalls, ends its stream or goes away. -/
  | outside (l : L)

namespace Exchange

section World

variable {L : Type} [Link L] [FarEnd L]

/-- The replies that the session has read. -/
def heard (x : Exchange L) : List Packet :=
  ((Framer.fresh x.session.settings.maxFrameLen).feed x.read).filterMap Frame.reply?

/-- The replies that the target has sent, each the answer to the frame of its number. -/
def answers (x : Exchange L) : List Packet := x.sent.filterMap Segment.reply?

/-- The bytes that a move takes off the link. -/
def taken (x : Exchange L) : Agent → Bytes
  | .reader => x.session.nextByte.toList
  | _ => []

/-- Call `n` gets a ticket between the two states. -/
def claims (s s' : Session L) (n : ℕ) : Bool :=
  match s.phase? n, s'.phase? n with
  | some .queued, some (.sending _) => true
  | _, _ => false

/-- The turn of call `n` to write has come, and it has not begun. -/
def turnsToWrite (s : Session L) (n : ℕ) : Bool :=
  match s.phase? n, s.outlet.line with
  | some (.sending _), ⟨_, _, false⟩ :: _ => true
  | _, _ => false

/-- The notes on claims once an agent has moved and left the session `s`. -/
def noteClaim (x : Exchange L) (s : Session L) (a : Agent) (n : ℕ) : Option ℕ :=
  if a = .call n ∧ claims x.session s n = true then some x.heard.length else x.claimedAt n

/-- The notes on the wire once an agent has moved. -/
def noteWrite (x : Exchange L) (a : Agent) (n : ℕ) : Option Bytes :=
  if a = .call n ∧ turnsToWrite x.session n = true then some (Link.wire x.session.link)
  else x.writtenAt n

/-- An agent has moved and left the session `s`. -/
def moved (x : Exchange L) (a : Agent) (s : Session L) : Exchange L :=
  { x with
    session := s
    read := x.read ++ x.taken a
    claimedAt := x.noteClaim s a
    writtenAt := x.noteWrite a }

/-- The target sends a segment. -/
def sends (x : Exchange L) (g : Segment) : Exchange L :=
  { x with
    session := { x.session with link := FarEnd.send x.session.link g.bytes }
    sent := x.sent ++ [g] }

/-- The target can send the segment, and the session can tell it apart. -/
def CanSend (x : Exchange L) (g : Segment) : Prop :=
  g.Fits x.session.settings.maxFrameLen ∧ x.cut = false ∧
    FarEnd.accepts x.session.link = true

instance (x : Exchange L) (g : Segment) : Decidable (x.CanSend g) :=
  inferInstanceAs (Decidable (_ ∧ _ ∧ _))

/-- One thing happens. What cannot happen changes nothing. -/
def step (x : Exchange L) : Happening L → Exchange L
  | .move a =>
    if Interplay.ready x.session a then x.moved a (Interplay.move x.session a) else x
  | .issue ask => { x with session := x.session.issue ask }
  | .abort n => { x with session := x.session.abort n }
  | .advance ms => { x with session := x.session.advance ms }
  | .takeQueue => { x with session := x.session.takeQueue.1 }
  | .queue q => { x with session := { x.session with notifications := q } }
  | .letGo => { x with session := x.session.letGo }
  | .answer p =>
    if x.CanSend (.frame p) ∧ p.kind = .reply ∧ x.answers.length
        < (Target.framesIn x.bound (Link.delivered x.session.link)).length then
      x.sends (.frame p)
    else x
  | .chatter g => if x.CanSend g ∧ g.reply? = none then x.sends g else x
  | .outside l =>
    if FarEnd.incoming l <+: FarEnd.incoming x.session.link ∧
        Link.wire l = Link.wire x.session.link then
      { x with
        session := { x.session with link := l }
        cut := x.cut || decide (FarEnd.incoming l ≠ FarEnd.incoming x.session.link) }
    else x

/-- A new session on a link, and a target behind it. -/
def start (link : L) (settings : SessionSettings) (bound : ℕ) : Exchange L :=
  { session := Session.start link settings, bound }

def run (x : Exchange L) (hs : List (Happening L)) : Exchange L := hs.foldl step x

/-- Something that can come of a new session with nothing on its way. -/
def Reached (x : Exchange L) : Prop :=
  ∃ (link : L) (settings : SessionSettings) (bound : ℕ) (hs : List (Happening L)),
    FarEnd.incoming link = [] ∧ x = (start link settings bound).run hs

/-- The target gets the frame of call `n`, whole and by itself, as its frame number `j`. -/
def ReceivedAs (x : Exchange L) (n j : ℕ) : Prop :=
  ∃ c command payload w, x.session.calls[n]? = some c ∧ c.ask.body? = some (command, payload) ∧
    x.writtenAt n = some w ∧
    w ++ commandFrame command payload <+: Link.delivered x.session.link ∧
    Target.framesIn x.bound (w ++ commandFrame command payload)
      = Target.framesIn x.bound w
        ++ [Packet.sealed .reply (textBytes command ++ textBytes payload)] ∧
    (Target.framesIn x.bound w).length = j

/-- The packet is the target's answer to the frame of call `n`. -/
def OwnReply (x : Exchange L) (n : ℕ) (p : Packet) : Prop :=
  ∃ j, x.ReceivedAs n j ∧ x.answers[j]? = some p

end World

/-! ### The invariant -/

section Invariant

variable {L : Type} {x y : Exchange L}

/-- Only a call in line gets a ticket. -/
theorem claims_eq_false {s s' : Session L} {n : ℕ} (h : s.phase? n ≠ some .queued) :
    claims s s' n = false := by
  unfold claims
  split
  · exact absurd (by assumption) h
  · rfl

/-- Only a call with a ticket begins to write. -/
theorem turnsToWrite_eq_false {s : Session L} {n : ℕ}
    (h : ∀ t, s.phase? n ≠ some (.sending t)) : turnsToWrite s n = false := by
  unfold turnsToWrite
  split
  · exact absurd (by assumption) (h _)
  · rfl

theorem noteClaim_eq {s : Session L} {a : Agent} {n : ℕ}
    (h : a = .call n → claims x.session s n = false) : x.noteClaim s a n = x.claimedAt n :=
  if_neg fun hn => Bool.false_ne_true ((h hn.1).symm.trans hn.2)

variable [Link L]

theorem noteWrite_eq {a : Agent} {n : ℕ} (h : a = .call n → turnsToWrite x.session n = false) :
    x.noteWrite a n = x.writtenAt n :=
  if_neg fun hn => Bool.false_ne_true ((h hn.1).symm.trans hn.2)

/-- The command frames on the wire. -/
def frames (x : Exchange L) : List Packet := Target.framesIn x.bound (Link.wire x.session.link)

/-- Call `n` claimed reply `k`, and its turn to write came when that many frames
were on the wire. -/
def Wrote (x : Exchange L) (n k : ℕ) : Prop :=
  x.claimedAt n = some k ∧
    ∃ w, x.writtenAt n = some w ∧ k ≤ (Target.framesIn x.bound w).length

/-- What the phase of call `n` has to do with the replies. -/
def Follows (x : Exchange L) (n : ℕ) : Option CallPhase → Prop
  | some (.sending t) => ∃ k, x.claimedAt n = some k ∧ k ≤ x.frames.length ∧
      x.session.rendezvous.Promises x.heard t k
  | some (.awaiting t _) => ∃ k, x.Wrote n k ∧ x.session.rendezvous.Promises x.heard t k
  | some (.ended (.ok (.packet p))) => ∃ k, x.Wrote n k ∧ x.heard[k]? = some p
  | _ => True

/-- A call waits for, or has got, the reply that it claimed. -/
structure CallSound (x : Exchange L) (n : ℕ) : Prop where
  early : CallPhase.Early (x.session.phase? n) → x.claimedAt n = none
  begun : x.session.Begun n → ∃ k, x.Wrote n k
  follows : x.Follows n (x.session.phase? n)

theorem follows_of_not_bound {o : Option CallPhase} (n : ℕ) (h : ¬CallPhase.Bound o) :
    x.Follows n o := by
  unfold Follows
  split
  · exact absurd trivial h
  · exact absurd trivial h
  · exact absurd trivial h
  · trivial

theorem follows_of_early {o : Option CallPhase} (n : ℕ) (h : CallPhase.Early o) :
    x.Follows n o := by
  unfold Follows
  split
  · exact h.elim
  · exact h.elim
  · exact h.elim
  · trivial

/-- What a phase has to do with the replies lasts as long as the notes on the call. -/
theorem Follows.transfer {n : ℕ} {o : Option CallPhase} (h : x.Follows n o)
    (hclaim : y.claimedAt n = x.claimedAt n) (hwrote : ∀ k, x.Wrote n k → y.Wrote n k)
    (hframes : x.frames.length ≤ y.frames.length) (hheard : x.heard <+: y.heard)
    (hholds : ∀ t k, x.session.rendezvous.Promises x.heard t k →
      y.session.rendezvous.Promises y.heard t k) : y.Follows n o := by
  unfold Follows at h ⊢
  split
  · obtain ⟨k, hk, hle, ht⟩ := h
    exact ⟨k, hclaim.trans hk, hle.trans hframes, hholds _ k ht⟩
  · obtain ⟨k, hk, ht⟩ := h
    exact ⟨k, hwrote k hk, hholds _ k ht⟩
  · obtain ⟨k, hk, hp⟩ := h
    exact ⟨k, hwrote k hk, getElem?_mono hheard hp⟩
  · trivial

/-- A call on which nothing new is noted stands right after a calm change. -/
theorem CallSound.transfer {n : ℕ} (h : x.CallSound n)
    (hphase : CallPhase.Calms (x.session.phase? n) (y.session.phase? n))
    (hbegun : y.session.Begun n → x.session.Begun n)
    (hclaim : y.claimedAt n = x.claimedAt n) (hwrite : y.writtenAt n = x.writtenAt n)
    (hbound : y.bound = x.bound) (hframes : x.frames.length ≤ y.frames.length)
    (hheard : x.heard <+: y.heard) (hholds : ∀ t k, x.session.rendezvous.Promises x.heard t k →
      y.session.rendezvous.Promises y.heard t k) :
    y.CallSound n := by
  have hwrote : ∀ k, x.Wrote n k → y.Wrote n k := by
    rintro k ⟨hk, w, hw, hle⟩
    exact ⟨hclaim.trans hk, w, hwrite.trans hw, hbound ▸ hle⟩
  refine ⟨fun he => ?_, fun hb => ?_, ?_⟩
  · rw [hclaim]
    rcases hphase with hp | ⟨hx, -⟩ | ⟨hy, -⟩
    · exact h.early (hp ▸ he)
    · exact h.early hx
    · exact absurd he hy
  · obtain ⟨k, hk⟩ := h.begun (hbegun hb)
    exact ⟨k, hwrote k hk⟩
  · rcases hphase with hp | ⟨-, hy⟩ | ⟨-, hy⟩
    · rw [hp]
      exact h.follows.transfer hclaim hwrote hframes hheard hholds
    · exact follows_of_early n hy
    · exact follows_of_not_bound n hy

variable [FarEnd L]

/-- What the target sent arrives in order, it answers no frame before it is sent,
and every call stands right. -/
structure Sound (x : Exchange L) : Prop where
  framer : x.session.framer = (Framer.fresh x.session.settings.maxFrameLen).after x.read
  fits : ∀ g ∈ x.sent, g.Fits x.session.settings.maxFrameLen
  read : x.read <+: x.sent.flatMap Segment.bytes
  pending : x.session.readsOn = true →
    x.read ++ FarEnd.incoming x.session.link <+: x.sent.flatMap Segment.bytes ∧
      (x.cut = false → x.read ++ FarEnd.incoming x.session.link = x.sent.flatMap Segment.bytes)
  asked : x.answers.length ≤ x.frames.length
  calls : ∀ n, x.CallSound n

/-- The replies that were read are the first ones that were sent. -/
theorem Sound.heard_answers (h : x.Sound) : x.heard <+: x.answers := by
  have hall := Framer.feed_segments h.fits
  obtain ⟨r, hr⟩ := h.read
  rw [← hr, Framer.feed_append] at hall
  have hanswers : x.answers = (x.sent.filterMap
      (Segment.output x.session.settings.maxFrameLen)).filterMap Frame.reply? := by
    rw [List.filterMap_filterMap, answers]
    exact List.filterMap_congr fun g _ => (Segment.reply?_eq _ g).symm
  rw [hanswers, ← hall, List.filterMap_append]
  exact List.prefix_append _ _

/-- A change that keeps all calls but those in `ns` keeps the invariant if it leaves
those right. -/
theorem Sound.of_keeps (h : x.Sound) {ns : Set ℕ} (k : Session.Keeps ns x.session y.session)
    (hbound : y.bound = x.bound) (hread : y.read = x.read) (hsent : y.sent = x.sent)
    (hcut : y.cut = x.cut)
    (hnotes : ∀ n ∉ ns, y.claimedAt n = x.claimedAt n ∧ y.writtenAt n = x.writtenAt n)
    (hcalls : ∀ n ∈ ns, y.CallSound n) : y.Sound := by
  have hheard : y.heard = x.heard := by rw [heard, heard, k.settings, hread]
  have hframes : x.frames.length ≤ y.frames.length := by
    rw [frames, frames, hbound]
    exact (Target.framesIn_mono x.bound k.wire).length_le
  refine ⟨?_, ?_, ?_, fun hr => ?_, ?_, fun n => ?_⟩
  · rw [k.framer, k.settings, hread, h.framer]
  · rw [k.settings, hsent]
    exact h.fits
  · rw [hread, hsent]
    exact h.read
  · obtain ⟨hr, hi⟩ := k.reading hr
    rw [hread, hsent, hi, hcut]
    exact h.pending hr
  · rw [answers, hsent]
    exact h.asked.trans hframes
  · by_cases hn : n ∈ ns
    · exact hcalls n hn
    · obtain ⟨hclaim, hwrite⟩ := hnotes n hn
      exact (h.calls n).transfer (k.phases n hn) (k.turns n hn) hclaim hwrite hbound hframes
        (hheard ▸ List.prefix_rfl) fun _ _ ht => hheard ▸ ht.of_fades k.rendezvous

theorem Sound.keeps (h : x.Sound) {s : Session L} (k : Session.Keeps ∅ x.session s) :
    ({ x with session := s } : Exchange L).Sound :=
  h.of_keeps k rfl rfl rfl rfl (fun _ _ => ⟨rfl, rfl⟩) fun _ hn => absurd hn (Set.notMem_empty _)

/-! ### Every step keeps it -/

/-- A byte that is read is the next one that was sent, and a reply that it
completes has the next number. -/
theorem Sound.readByte (h : x.Sound) {b : UInt8} (hb : x.session.nextByte = some b) :
    ({ x with session := x.session.moveReader, read := x.read ++ [b] } : Exchange L).Sound := by
  obtain ⟨hreads, l, hmove, hin, hwire⟩ := Session.moveReader_byte hb
  obtain ⟨hframer, hset, hlink, -, hm, hbegun⟩ :=
    Session.takeByte_facts ({ x.session with link := l } : Session L) b
  have hcalls := Session.calls_takeByte ({ x.session with link := l } : Session L) b
  rw [← hmove] at hframer hset hlink hm hbegun hcalls
  set y : Exchange L := { x with session := x.session.moveReader, read := x.read ++ [b] } with hy
  have hfeed : (x.session.framer).feed [b] = (x.session.framer.push b).2.toList := by
    simp only [Framer.feed]
    split <;> rename_i hp <;> rw [hp] <;> rfl
  have hheard : y.heard
      = x.heard ++ (x.session.framer.push b).2.toList.filterMap Frame.reply? := by
    simp only [heard, hy, hset, Framer.feed_append, List.filterMap_append, ← h.framer, hfeed]
  obtain ⟨hahead, hall⟩ := h.pending hreads
  have hnext : x.read ++ [b] ++ FarEnd.incoming l = x.read ++ FarEnd.incoming x.session.link := by
    rw [hin, List.append_assoc, List.singleton_append]
  have hlink' : y.session.link = l := hlink
  refine ⟨?_, ?_, ?_, fun _ => ?_, ?_, fun n => ?_⟩
  · show y.session.framer = _
    rw [hframer, hset, Framer.after_append, ← h.framer]
    rfl
  · rw [hset]
    exact h.fits
  · exact (List.prefix_append _ _).trans (hnext ▸ hahead)
  · rw [hlink', hnext]
    exact ⟨hahead, hall⟩
  · refine h.asked.trans (Target.framesIn_mono x.bound ?_).length_le
    rw [hlink']
    exact hwire
  · refine (h.calls n).transfer (.inl ?_) (hbegun n) rfl rfl rfl ?_ ?_ ?_
    · simp only [Session.phase?, hy, hcalls]
    · refine (Target.framesIn_mono x.bound ?_).length_le
      rw [hlink']
      exact hwire
    · rw [hheard]
      exact List.prefix_append _ _
    · intro t k ht
      rw [hheard]
      show Rendezvous.Promises x.session.moveReader.rendezvous _ t k
      rw [hm]
      exact ht.offerAll

/-- What the target sends has to arrive behind what it sent before. -/
theorem Sound.sends (h : x.Sound) {g : Segment} (hg : x.CanSend g)
    (hasked : (x.sends g).answers.length ≤ x.frames.length) : (x.sends g).Sound := by
  obtain ⟨hfits, hcut, haccepts⟩ := hg
  have hin : FarEnd.incoming (x.sends g).session.link
      = FarEnd.incoming x.session.link ++ g.bytes := FarEnd.incoming_send g.bytes haccepts
  have hframes : (x.sends g).frames = x.frames := by
    simp only [frames, Exchange.sends, FarEnd.wire_send]
  have hsent : (x.sends g).sent.flatMap Segment.bytes
      = x.sent.flatMap Segment.bytes ++ g.bytes := by
    simp only [Exchange.sends, List.flatMap_append, List.flatMap_singleton]
  refine ⟨h.framer, ?_, ?_, fun hr => ?_, hframes ▸ hasked, fun n => ?_⟩
  · intro y hy
    rcases List.mem_append.mp hy with hy | hy
    · exact h.fits y hy
    · rw [List.mem_singleton.mp hy]
      exact hfits
  · rw [hsent]
    exact h.read.trans (List.prefix_append _ _)
  · have hall := (h.pending hr).2 hcut
    have heq : (x.sends g).read ++ FarEnd.incoming (x.sends g).session.link
        = (x.sends g).sent.flatMap Segment.bytes := by
      rw [hsent, hin, ← hall, List.append_assoc]
      rfl
    exact ⟨heq ▸ List.prefix_rfl, fun _ => heq⟩
  · exact (h.calls n).transfer (.inl rfl) id rfl rfl rfl (hframes ▸ le_rfl) List.prefix_rfl
      fun _ _ ht => ht

/-- Whatever else happens to the link makes nothing up. -/
theorem Sound.outside (h : x.Sound) {l : L}
    (hin : FarEnd.incoming l <+: FarEnd.incoming x.session.link)
    (hwire : Link.wire l = Link.wire x.session.link) :
    ({ x with
      session := { x.session with link := l }
      cut := x.cut || decide (FarEnd.incoming l ≠ FarEnd.incoming x.session.link) }
        : Exchange L).Sound := by
  have hframes : Target.framesIn x.bound (Link.wire l) = x.frames := by rw [frames, hwire]
  refine ⟨h.framer, h.fits, h.read, fun hr => ?_, ?_, fun n => ?_⟩
  · obtain ⟨hahead, hall⟩ := h.pending hr
    refine ⟨((List.prefix_append_right_inj _).mpr hin).trans hahead, fun hcut => ?_⟩
    simp only [Bool.or_eq_false_iff, decide_eq_false_iff_not, not_not] at hcut
    rw [hcut.2]
    exact hall hcut.1
  · exact h.asked.trans (hframes ▸ le_rfl)
  · exact (h.calls n).transfer (.inl rfl) id rfl rfl rfl (hframes ▸ le_rfl) List.prefix_rfl
      fun _ _ ht => ht

/-! ### Moves of calls -/

/-- A move of call `n` keeps the invariant if it leaves that call right. -/
theorem Sound.moved (h : x.Sound) {n : ℕ} {s : Session L} (k : Session.Keeps {n} x.session s)
    (hn : (x.moved (.call n) s).CallSound n) : (x.moved (.call n) s).Sound := by
  refine h.of_keeps k rfl (List.append_nil _) rfl rfl (fun m hm => ?_) fun _ hm => hm ▸ hn
  have hne : Agent.call n ≠ .call m := fun he => hm (Agent.call.inj he).symm
  exact ⟨noteClaim_eq fun he => absurd he hne, noteWrite_eq fun he => absurd he hne⟩

/-- What a call does reads no byte. -/
theorem heard_moved {n : ℕ} {s : Session L} (k : Session.Keeps {n} x.session s) :
    (x.moved (.call n) s).heard = x.heard := by
  simp only [heard, Exchange.moved, taken, List.append_nil, k.settings]

/-- A call that claims a reply claims the one that is read next. -/
theorem Sound.claim (h : x.Sound) {n : ℕ} (hp : x.session.phase? n = some .queued)
    (command payload : String) : (x.moved (.call n) (x.session.claim n command payload)).Sound := by
  have hkeeps := Session.keeps_claim x.session n command payload
  have hnone : x.claimedAt n = none := (h.calls n).early (hp ▸ trivial)
  have hidle : ¬(x.session.claim n command payload).Begun n := by
    intro hb
    obtain ⟨k, hk, -⟩ := (h.calls n).begun (Session.begun_claim hb)
    rw [hnone] at hk
    cases hk
  refine h.moved hkeeps ?_
  rcases Session.claim_phase hp command payload with ⟨t, hphase, hlt, hopen⟩ | hphase
  · have hclaimed : (x.moved (.call n) (x.session.claim n command payload)).claimedAt n
        = some x.heard.length := by
      refine if_pos ⟨rfl, ?_⟩
      simp only [claims, hp, hphase]
    refine ⟨fun he => ?_, fun hb => absurd hb hidle, ?_⟩
    · simp only [Exchange.moved, hphase] at he
      exact he.elim
    · show Follows _ n ((x.session.claim n command payload).phase? n)
      rw [hphase]
      refine ⟨x.heard.length, hclaimed, ?_, hlt, fun _ => by rw [heard_moved hkeeps],
        fun p hfull => absurd (hopen.symm.trans hfull) nofun⟩
      calc x.heard.length ≤ x.answers.length := h.heard_answers.length_le
        _ ≤ x.frames.length := h.asked
        _ ≤ _ := (Target.framesIn_mono x.bound hkeeps.wire).length_le
  · refine ⟨fun he => ?_, fun hb => absurd hb hidle, ?_⟩
    · simp only [Exchange.moved, hphase] at he
      exact he.elim
    · exact follows_of_not_bound n (by simp only [Exchange.moved, hphase]; exact id)

/-- The turn of a call to write comes when the frames on the wire are no fewer than
the replies that had been read at its claim. -/
theorem Sound.afterSend (h : x.Sound) {n t : ℕ} (hp : x.session.phase? n = some (.sending t))
    (hr : x.session.outlet.ready x.session.link (.call n) = true) :
    (x.moved (.call n) (x.session.afterSend n t
      (x.session.outlet.move x.session.link (.call n)))).Sound := by
  obtain ⟨hl, hw⟩ := Outlet.move_onward hr
  have hkeeps := Session.keeps_afterSend t hl hw
    (p := (x.session.outlet.move x.session.link (.call n)).2.2)
  have hphase := Session.afterSend_phase hp (x.session.outlet.move x.session.link (.call n))
  set s := x.session.afterSend n t (x.session.outlet.move x.session.link (.call n)) with hs
  obtain ⟨k, hk, hle, hpromise⟩ : x.Follows n (some (.sending t)) := hp ▸ (h.calls n).follows
  have hclaim : (x.moved (.call n) s).claimedAt n = some k := by
    rw [← hk]
    exact noteClaim_eq fun _ => claims_eq_false (hp ▸ nofun)
  have hwrote : (x.moved (.call n) s).Wrote n k := by
    obtain ⟨⟨agent, outgoing, begun⟩, r, hline, rfl⟩ := Outlet.ready_agent hr
    refine ⟨hclaim, ?_⟩
    cases begun with
    | false =>
      refine ⟨Link.wire x.session.link, if_pos ⟨rfl, ?_⟩, hle⟩
      simp only [turnsToWrite, hp, hline]
    | true =>
      obtain ⟨k', hk', w, hw, hle'⟩ :=
        (h.calls n).begun ⟨_, hline ▸ List.mem_cons_self, rfl, rfl⟩
      obtain rfl : k = k' := Option.some.inj (hk.symm.trans hk')
      refine ⟨w, (noteWrite_eq fun _ => ?_).trans hw, hle'⟩
      simp only [turnsToWrite, hp, hline]
  have hpromise' : s.rendezvous.Promises (x.moved (.call n) s).heard t k := by
    rw [heard_moved hkeeps]
    exact hpromise.of_fades hkeeps.rendezvous
  refine h.moved hkeeps ⟨fun he => ?_, fun _ => ⟨k, hwrote⟩, ?_⟩
  · rcases hphase with hphase | ⟨d, hphase⟩ | ⟨e, hphase⟩ <;>
      simp only [Exchange.moved, hphase] at he <;> exact he.elim
  · show Follows _ n (s.phase? n)
    rcases hphase with hphase | ⟨d, hphase⟩ | ⟨e, hphase⟩ <;> rw [hphase]
    · exact ⟨k, hclaim, hle.trans (Target.framesIn_mono x.bound hkeeps.wire).length_le,
        hpromise'⟩
    · exact ⟨k, hwrote, hpromise'⟩
    · trivial

/-- The packet that a call ends with is the reply that it claimed. -/
theorem Sound.collect (h : x.Sound) {n t d : ℕ} (hp : x.session.phase? n = some (.awaiting t d))
    (ask : Ask) : (x.moved (.call n) (x.session.collect n t ask)).Sound := by
  have hkeeps := Session.keeps_collect x.session n t ask
  obtain ⟨k, ⟨hk, w, hw, hle⟩, hpromise⟩ : x.Follows n (some (.awaiting t d)) :=
    hp ▸ (h.calls n).follows
  have hwrote : (x.moved (.call n) (x.session.collect n t ask)).Wrote n k :=
    ⟨(noteClaim_eq fun _ => claims_eq_false (hp ▸ nofun)).trans hk, w,
      (noteWrite_eq fun _ => turnsToWrite_eq_false (hp ▸ nofun)).trans hw, hle⟩
  obtain ⟨r, hphase, hr⟩ : ∃ r, (x.session.collect n t ask).phase? n = some (.ended r) ∧
      ∀ p, r = .ok (.packet p) → x.heard[k]? = some p := by
    rcases Session.collect_phase hp ask with ⟨p, hfull, hphase⟩ | ⟨e, hphase⟩
    · refine ⟨_, hphase, fun q hq => ?_⟩
      rw [← Ask.answer_packet hq]
      exact hpromise.full p hfull
    · exact ⟨_, hphase, nofun⟩
  refine h.moved hkeeps ⟨fun he => ?_, fun _ => ⟨k, hwrote⟩, ?_⟩
  · simp only [Exchange.moved, hphase] at he
    exact he.elim
  · show Follows _ n ((x.session.collect n t ask).phase? n)
    rw [hphase]
    rcases r with e | (p | r | bytes | _)
    · trivial
    · exact ⟨k, hwrote, heard_moved hkeeps ▸ hr p rfl⟩
    · trivial
    · trivial
    · trivial

/-- A move that keeps all calls, and of which nothing is noted, keeps the invariant. -/
theorem Sound.still (h : x.Sound) {a : Agent} {s : Session L} (k : Session.Keeps ∅ x.session s)
    (hread : x.taken a = []) (hclaim : ∀ n, a = .call n → claims x.session s n = false)
    (hwrite : ∀ n, a = .call n → turnsToWrite x.session n = false) : (x.moved a s).Sound := by
  refine h.of_keeps k rfl ?_ rfl rfl (fun n _ => ?_) fun _ hn => absurd hn (Set.notMem_empty _)
  · simp only [Exchange.moved, hread, List.append_nil]
  · exact ⟨noteClaim_eq (hclaim n), noteWrite_eq (hwrite n)⟩

/-- A call that has nothing to do with a reply moves and keeps the invariant. -/
theorem Sound.moveOther (h : x.Sound) {n : ℕ} (hq : x.session.phase? n ≠ some .queued)
    (hs : ∀ t, x.session.phase? n ≠ some (.sending t))
    (ha : ∀ t d, x.session.phase? n ≠ some (.awaiting t d)) :
    (x.moved (.call n) (x.session.moveCall n)).Sound := by
  refine h.still (Session.keeps_moveCall hq hs ha) rfl ?_ ?_ <;> rintro m ⟨⟩
  · exact claims_eq_false hq
  · exact turnsToWrite_eq_false hs

/-- A move of a call keeps the invariant. -/
theorem Sound.moveCall (h : x.Sound) {n : ℕ} (hr : x.session.callReady n = true) :
    (x.moved (.call n) (x.session.moveCall n)).Sound := by
  unfold Session.callReady at hr
  cases hc : x.session.calls[n]? with
  | none => simp only [hc, Bool.false_eq_true] at hr
  | some c =>
    have hp : x.session.phase? n = some c.phase := Session.phase?_of_call hc
    cases hphase : c.phase with
    | queued =>
      rw [hphase] at hp
      cases hb : c.ask.body? with
      | none =>
        have hm : x.session.moveCall n = x.session := by
          simp only [Session.moveCall, hc, hphase, hb]
        rw [hm]
        refine h.still (.refl _) rfl ?_ ?_ <;> rintro m ⟨⟩
        · simp only [claims, hp]
        · exact turnsToWrite_eq_false (by simp [hp])
      | some body =>
        obtain ⟨command, payload⟩ := body
        have hm : x.session.moveCall n = x.session.claim n command payload := by
          simp only [Session.moveCall, hc, hphase, hb]
        rw [hm]
        exact h.claim hp command payload
    | sending t =>
      rw [hphase] at hp
      have hm : x.session.moveCall n = x.session.afterSend n t
          (x.session.outlet.move x.session.link (.call n)) := by
        simp only [Session.moveCall, hc, hphase]
      simp only [hc, hphase] at hr
      rw [hm]
      exact h.afterSend hp hr
    | awaiting t d =>
      rw [hphase] at hp
      have hm : x.session.moveCall n = x.session.collect n t c.ask := by
        simp only [Session.moveCall, hc, hphase]
      rw [hm]
      exact h.collect hp c.ask
    | _ => exact h.moveOther (by simp [hp, hphase]) (by simp [hp, hphase]) (by simp [hp, hphase])

/-- A move of the reading agent keeps the invariant. -/
theorem Sound.moveReader (h : x.Sound) (hr : x.session.readerReady = true) :
    (x.moved .reader x.session.moveReader).Sound := by
  cases hb : x.session.nextByte with
  | none =>
    exact h.still (Session.keeps_moveReader hr hb) (by rw [taken, hb, Option.toList]) nofun nofun
  | some b =>
    have hmoved : x.moved .reader x.session.moveReader
        = { x with session := x.session.moveReader, read := x.read ++ [b] } := by
      have hclaim : x.noteClaim x.session.moveReader .reader = x.claimedAt :=
        funext fun _ => noteClaim_eq nofun
      have hwrite : x.noteWrite .reader = x.writtenAt := funext fun _ => noteWrite_eq nofun
      rw [Exchange.moved, taken, hb, hclaim, hwrite, Option.toList]
    rw [hmoved]
    exact h.readByte hb

/-- **Every step keeps the invariant.** -/
theorem Sound.step (h : x.Sound) (e : Happening L) : (x.step e).Sound := by
  cases e with
  | move a =>
    simp only [Exchange.step]
    split
    · rename_i hr
      cases a with
      | reader => exact h.moveReader hr
      | call n => exact h.moveCall hr
      | _ =>
        exact h.still (Session.keeps_link (FarEnd.helperMove x.session.link _)) rfl nofun nofun
    · exact h
  | issue ask => exact h.keeps (Session.keeps_issue _ _)
  | abort n => exact h.keeps (Session.keeps_abort _ _)
  | advance ms => exact h.keeps { Session.Keeps.refl x.session with }
  | takeQueue => exact h.keeps { Session.Keeps.refl x.session with }
  | queue q => exact h.keeps { Session.Keeps.refl x.session with }
  | letGo => exact h.keeps (Session.keeps_letGo _)
  | answer p =>
    simp only [Exchange.step]
    split
    · rename_i hg
      obtain ⟨hg, hkind, hlt⟩ := hg
      refine h.sends hg ?_
      have hle := (Target.framesIn_mono x.bound
        (FarEnd.delivered x.session.link)).length_le
      have hmore : (x.sends (.frame p)).answers.length = x.answers.length + 1 := by
        simp [answers, Exchange.sends, Segment.reply?, hkind]
      rw [hmore, frames]
      omega
    · exact h
  | chatter g =>
    simp only [Exchange.step]
    split
    · rename_i hg
      refine h.sends hg.1 ?_
      have hsame : (x.sends g).answers = x.answers := by
        simp [answers, Exchange.sends, hg.2]
      rw [hsame]
      exact h.asked
    · exact h
  | outside l =>
    simp only [Exchange.step]
    split
    · rename_i hl
      exact h.outside hl.1 hl.2
    · exact h

/-! ### Runs -/

theorem sound_start {link : L} (hl : FarEnd.incoming link = []) (settings : SessionSettings)
    (bound : ℕ) : (start link settings bound).Sound where
  framer := rfl
  fits := nofun
  read := List.prefix_rfl
  pending _ := by
    have hnil : (start link settings bound).read
        ++ FarEnd.incoming (start link settings bound).session.link = [] := hl
    exact ⟨hnil ▸ List.prefix_rfl, fun _ => hnil⟩
  asked := Nat.zero_le _
  calls _ := ⟨fun _ => rfl, nofun, trivial⟩

theorem Sound.run : ∀ {x : Exchange L} (hs : List (Happening L)), x.Sound → (x.run hs).Sound
  | _, [], h => h
  | _, e :: hs, h => Sound.run hs (h.step e)

theorem Reached.sound (h : x.Reached) : x.Sound := by
  obtain ⟨link, settings, bound, hs, hl, rfl⟩ := h
  exact Sound.run hs (sound_start hl settings bound)

/-- **A call gets the reply that comes first after its claim.** If `k` replies had
been read when the call claimed one, it gets reply `k`, which answers frame `k`; no
frame before that is its own. So the reply is the call's own if the target gets the
call's frame as frame `k`, and, as long as no two replies are alike, not otherwise. -/
theorem reply_after_claim (hx : x.Reached) {n : ℕ} {command payload : String} {p : Packet}
    (hn : x.session.calls[n]? = some ⟨.packet command payload, .ended (.ok (.packet p))⟩) :
    ∃ k, x.claimedAt n = some k ∧ x.answers[k]? = some p ∧ (∀ j, x.ReceivedAs n j → k ≤ j) ∧
      (x.ReceivedAs n k → x.OwnReply n p) ∧
      (x.answers.Nodup → x.OwnReply n p → x.ReceivedAs n k) := by
  have hsound := hx.sound
  have hp : x.session.phase? n = some (.ended (.ok (.packet p))) := by
    rw [Session.phase?, hn, Option.map_some]
  obtain ⟨k, ⟨hk, w, hw, hle⟩, hheard⟩ : x.Follows n (some (.ended (.ok (.packet p)))) :=
    hp ▸ (hsound.calls n).follows
  have hanswer : x.answers[k]? = some p := getElem?_mono hsound.heard_answers hheard
  refine ⟨k, hk, hanswer, ?_, fun h => ⟨k, h, hanswer⟩, ?_⟩
  · rintro j ⟨c, command, payload, w', -, -, hw', -, -, rfl⟩
    obtain rfl : w = w' := Option.some.inj (hw.symm.trans hw')
    exact hle
  · rintro hnodup ⟨j, hj, hp'⟩
    obtain rfl : j = k := by
      have hlt := (List.getElem?_eq_some_iff.mp hp').1
      exact (List.getElem?_inj hlt hnodup).mp (hp'.trans hanswer.symm)
    exact hj

end Invariant

/-! ### A reply that comes too late -/

/-- A call gets in line, claims a reply and writes its frame. -/
def speak (n : ℕ) : List (Happening ScriptLink) := List.replicate 3 (.move (.call n))

/-- A first call that runs out of time. -/
def timeout : List (Happening ScriptLink) :=
  .issue (.packet "a" "") :: speak 0 ++ [.advance 3000, .move (.call 0)]

/-- The answers to the first frame and to the second. -/
def early : Packet := .sealed .reply []
def later : Packet := .sealed .reply [0x31]

/-- The first answer comes, and is dropped, before the second call claims. -/
def dropped : Exchange ScriptLink :=
  (start {} {} 8).run (timeout ++ .answer early :: List.replicate 5 (.move .reader)
    ++ .issue (.packet "b" "") :: speak 1
    ++ .answer later :: List.replicate 5 (.move .reader) ++ [.move (.call 1)])

/-- The first answer comes when the second call has claimed. -/
def mistaken : Exchange ScriptLink :=
  (start {} {} 8).run (timeout ++ .issue (.packet "b" "") :: speak 1
    ++ .answer early :: List.replicate 4 (.move .reader) ++ [.move (.call 1), .answer later])

/-- With the late reply out of the way the second call gets its own. -/
theorem reply_after_claim_dropped : dropped.Reached ∧
    dropped.session.calls[1]? = some ⟨.packet "b" "", .ended (.ok (.packet later))⟩ ∧
    dropped.OwnReply 1 later := by
  have hx : dropped.Reached := ⟨_, _, _, _, rfl, rfl⟩
  -- the run is short enough to be computed
  have hn : dropped.session.calls[1]? = some ⟨.packet "b" "", .ended (.ok (.packet later))⟩ := rfl
  obtain ⟨k, hk, -, -, hown, -⟩ := reply_after_claim hx hn
  obtain rfl : 1 = k := Option.some.inj hk
  have hsecond : dropped.ReceivedAs 1 1 :=
    ⟨_, _, _, commandFrame "a" "" ++ [ackByte], rfl, rfl, rfl, by decide, by decide, by decide⟩
  exact ⟨hx, hn, hown hsecond⟩

/-- A late reply that finds the next call waiting is taken for that call's own. -/
theorem lateReply_mistaken : mistaken.Reached ∧
    mistaken.session.calls[1]? = some ⟨.packet "b" "", .ended (.ok (.packet early))⟩ ∧
    mistaken.OwnReply 0 early ∧ ¬mistaken.OwnReply 1 early := by
  have hfirst : mistaken.ReceivedAs 0 0 :=
    ⟨_, _, _, [], rfl, rfl, rfl, by decide, by decide, rfl⟩
  refine ⟨⟨_, _, _, _, rfl, rfl⟩, rfl, ⟨0, hfirst, rfl⟩, ?_⟩
  rintro ⟨j, ⟨c, command, payload, w, -, -, hw, -, -, rfl⟩, hp⟩
  obtain rfl : commandFrame "a" "" = w := Option.some.inj hw
  exact absurd hp (by decide)

end Exchange

end ProbeLink

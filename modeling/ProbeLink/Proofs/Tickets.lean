/-
# What a step does to the holder of a ticket

Somebody has a ticket as long as it is unused or a wait on it goes on, and nobody
has it twice (`Timeline.inHand`). So waits do not get in each other's way: settling
all of them is settling each by itself (`Timeline.settleWaits_eq_map`), and only a
wait that times out with its own ticket in the slot empties the slot.

What an event brings to the ticket in the slot is told from the event alone
(`Timeline.Event.brings`). A ticket in somebody's hand is out of the slot exactly
when something was brought to it, and whoever waits has been told so already
(`Timeline.Settled`, kept by every step).

Key definitions: `Timeline.inHand`, `Timeline.Event.brings`, `Timeline.Settled`.
Key theorems: `Timeline.Sound.step`, `Timeline.Sound.step_unused`,
`Timeline.Settled.step_running`.
-/
import Mathlib.Data.List.Nodup
import ProbeLink.Proofs.Exchange
import ProbeLink.Rendezvous.Timeline

namespace ProbeLink

/-! ### The channels after each operation -/

/-- What the holder of the ticket finds, if there is anything to find. -/
def Channel.outcome : Channel → Option (Except SessionError Packet)
  | .full p => some (.ok p)
  | .hungUp => some (.error .closed)
  | .opened | .abandoned => none

namespace Rendezvous

variable (m : Rendezvous)

theorem lt_of_channel_ne {m : Rendezvous} {id : ℕ} (h : m.channel id ≠ .abandoned) :
    id < m.channels.length := by
  by_contra hle
  have hnone : m.channels[id]? = none := List.getElem?_eq_none (Nat.not_lt.mp hle)
  exact h (by rw [channel, List.getD_eq_getElem?_getD, hnone]; rfl)

theorem channel_abandon (id k : ℕ) :
    (m.abandon id).channel k = if k = id then .abandoned else m.channel k := by
  have h := m.channel_set id k .abandoned m.slot
  rw [abandon, h]
  by_cases hk : k = id
  · subst hk
    by_cases hlt : k < m.channels.length
    · simp [hlt]
    · rw [if_neg (by simp [hlt]), if_pos rfl]
      by_contra hne
      exact hlt (lt_of_channel_ne hne)
  · rw [if_neg hk, if_neg (fun h => hk h.1.symm)]

/-- Hanging up takes effect on a channel where nothing was sent. -/
theorem channel_hangUp (id k : ℕ) :
    (m.hangUp id).channel k = if k = id ∧ m.channel k = .opened then .hungUp else m.channel k := by
  unfold hangUp
  by_cases ho : m.channel id = .opened
  · rw [if_pos ho, channel_set]
    by_cases hk : k = id
    · subst hk
      have hlt : k < m.channels.length := lt_of_channel_ne (by rw [ho]; decide)
      simp [ho, hlt]
    · rw [if_neg (fun h => hk h.1.symm), if_neg (fun h => hk h.1)]
  · rw [if_neg ho, if_neg]
    rintro ⟨rfl, h⟩
    exact ho h

theorem length_hangUp (id : ℕ) : (m.hangUp id).channels.length = m.channels.length := by
  unfold hangUp
  split <;> simp

theorem closed_hangUp (id : ℕ) : (m.hangUp id).closed = m.closed := by
  unfold hangUp
  split <;> rfl

@[simp] theorem slot_clear : m.clear.slot = none := by
  unfold clear
  split
  · rfl
  · assumption

@[simp] theorem length_clear : m.clear.channels.length = m.channels.length := by
  unfold clear
  split
  · exact m.length_hangUp _
  · rfl

@[simp] theorem closed_clear : m.clear.closed = m.closed := by
  unfold clear
  split
  · exact m.closed_hangUp _
  · rfl

/-- Emptying the slot hangs its ticket up. -/
theorem channel_clear (k : ℕ) : m.clear.channel k
    = if m.slot = some k ∧ m.channel k = .opened then .hungUp else m.channel k := by
  unfold clear
  split
  · rename_i id hs
    have h := m.channel_hangUp id k
    rw [hs]
    simp only [Option.some.injEq, eq_comm (a := id)]
    exact h
  · rename_i hs
    rw [hs, if_neg (fun h => nomatch h.1)]

@[simp] theorem slot_withdraw (id : ℕ) :
    (m.withdraw id).slot = if m.slot = some id then none else m.slot := by
  unfold withdraw
  split
  · exact m.slot_clear
  · rfl

@[simp] theorem length_withdraw (id : ℕ) :
    (m.withdraw id).channels.length = m.channels.length := by
  unfold withdraw
  split
  · exact m.length_clear
  · rfl

@[simp] theorem closed_withdraw (id : ℕ) : (m.withdraw id).closed = m.closed := by
  unfold withdraw
  split
  · exact m.closed_clear
  · rfl

theorem channel_withdraw (id k : ℕ) : (m.withdraw id).channel k
    = if m.slot = some k ∧ k = id ∧ m.channel k = .opened then .hungUp else m.channel k := by
  unfold withdraw
  by_cases hs : m.slot = some id
  · rw [if_pos hs, channel_clear]
    by_cases hk : m.slot = some k
    · have hid : k = id := Option.some.inj (hk.symm.trans hs)
      simp [hk, hid]
    · rw [if_neg (fun h => hk h.1), if_neg (fun h => hk h.1)]
  · rw [if_neg hs, if_neg]
    rintro ⟨hk, rfl, -⟩
    exact hs hk

theorem channel_offer (p : Packet) (k : ℕ) : (m.offer p).1.channel k
    = if m.slot = some k ∧ m.channel k = .opened then .full p else m.channel k := by
  unfold offer
  split
  · rename_i hs
    rw [hs, if_neg (fun h => nomatch h.1)]
  · rename_i id hs
    by_cases ho : m.channel id = .opened
    · rw [if_pos ho, channel_set, hs]
      by_cases hk : id = k
      · subst hk
        have hlt : id < m.channels.length := lt_of_channel_ne (by rw [ho]; decide)
        simp [ho, hlt]
      · rw [if_neg (fun h => hk h.1), if_neg (fun h => hk (Option.some.inj h.1))]
    · rw [if_neg ho, if_neg]
      · rfl
      · rintro ⟨hk, h⟩
        rw [hs] at hk
        cases hk
        exact ho h

/-- A packet is taken by a ticket in the slot whose receiver is there. -/
theorem offer_taken (p : Packet) :
    (m.offer p).2 = true ↔ ∃ id, m.slot = some id ∧ m.channel id = .opened := by
  unfold offer
  split
  · rename_i hs
    simp [hs]
  · rename_i id hs
    by_cases ho : m.channel id = .opened
    · simp [hs, ho]
    · simp [hs, ho]

@[simp] theorem closed_offer (p : Packet) : (m.offer p).1.closed = m.closed := by
  unfold offer
  split
  · rfl
  · split <;> rfl

theorem claim_of_closed (h : m.closed = true) : m.claim = (m, none) := by
  rw [claim, if_pos h]

theorem claim_of_open (h : m.closed = false) : m.claim
    = ({ m.clear with
        slot := some m.channels.length, channels := m.clear.channels ++ [.opened] },
      some m.channels.length) := by
  rw [claim, if_neg (by simp [h])]
  simp

/-- The channels after a claim. -/
theorem channel_claim (h : m.closed = false) (k : ℕ) : m.claim.1.channel k
    = if k = m.channels.length then .opened else m.clear.channel k := by
  rw [claim_of_open m h]
  simp only [channel, List.getD_eq_getElem?_getD]
  by_cases hk : k = m.channels.length
  · subst hk
    have hnew : (m.clear.channels ++ [Channel.opened])[m.channels.length]? = some .opened := by
      rw [← m.length_clear, List.getElem?_concat_length]
    rw [hnew, if_pos rfl]
    rfl
  · rw [if_neg hk]
    by_cases hlt : k < m.clear.channels.length
    · rw [List.getElem?_append_left hlt]
    · have hle : (m.clear.channels ++ [Channel.opened]).length ≤ k := by
        rw [List.length_append, List.length_singleton]
        rw [length_clear] at hlt ⊢
        omega
      rw [List.getElem?_eq_none hle, List.getElem?_eq_none (Nat.not_lt.mp hlt)]

end Rendezvous

namespace Timeline

/-! ### Settling -/

/-- The ticket that a wait goes on for. -/
def Wait.ticket? : Wait → Option ℕ
  | .running ticket _ _ => some ticket
  | .ended _ | .dropped => none

/-- A wait looks at its channel first and at the clock second. -/
theorem settleWait_running (now : ℕ) (m : Rendezvous) (id limit deadline : ℕ) :
    settleWait now m (.running id limit deadline) = match (m.channel id).outcome with
      | some r => (m.abandon id, .ended r)
      | none => if deadline ≤ now then
          ((m.withdraw id).abandon id, .ended (.error (.timeout limit)))
        else (m, .running id limit deadline) := by
  simp only [settleWait]
  cases h : m.channel id <;> simp only [Channel.outcome]

/-- A wait ends and lets its ticket go, or leaves everything as it is. -/
theorem settleWait_ends_or_stays (now : ℕ) (m : Rendezvous) (w : Wait) :
    (∃ r, (settleWait now m w).2 = .ended r ∧
      ∀ id, w.ticket? = some id → (settleWait now m w).1.channel id = .abandoned) ∨
    settleWait now m w = (m, w) := by
  cases w with
  | running id limit deadline =>
    have hgone : ∀ m : Rendezvous, ∀ k, (Wait.running id limit deadline).ticket? = some k →
        (m.abandon id).channel k = .abandoned := by
      rintro m _ ⟨⟩
      rw [m.channel_abandon, if_pos rfl]
    rw [settleWait_running]
    cases (m.channel id).outcome with
    | some r => exact .inl ⟨r, rfl, hgone m⟩
    | none =>
      by_cases hd : deadline ≤ now
      · simp only [hd, if_true]
        exact .inl ⟨_, rfl, hgone _⟩
      · exact .inr (if_neg hd)
  | ended r => exact .inr rfl
  | dropped => exact .inr rfl

/-- A wait touches no ticket but its own. -/
theorem channel_settleWait_of_ne (now : ℕ) (m : Rendezvous) {w : Wait} {id : ℕ}
    (h : w.ticket? ≠ some id) : (settleWait now m w).1.channel id = m.channel id := by
  cases w with
  | running k limit deadline =>
    have hk : id ≠ k := fun hk => h (congrArg some hk.symm)
    rw [settleWait_running]
    cases (m.channel k).outcome with
    | some r => simp only [m.channel_abandon, hk, if_false]
    | none =>
      by_cases hd : deadline ≤ now
      · simp only [hd, if_true, Rendezvous.channel_abandon, Rendezvous.channel_withdraw, hk,
          if_false, false_and, and_false]
      · simp only [hd, if_false]
  | ended r => rfl
  | dropped => rfl

/-- What a wait comes to, and what becomes of its ticket, hangs on its own channel only. -/
theorem settleWait_congr {now : ℕ} {m m' : Rendezvous} {w : Wait}
    (h : ∀ id, w.ticket? = some id → m'.channel id = m.channel id) :
    (settleWait now m' w).2 = (settleWait now m w).2 ∧ ∀ id, w.ticket? = some id →
      (settleWait now m' w).1.channel id = (settleWait now m w).1.channel id := by
  cases w with
  | running id limit deadline =>
    have hid := h id rfl
    rw [settleWait_running, settleWait_running, hid]
    cases (m.channel id).outcome with
    | some r =>
      refine ⟨rfl, ?_⟩
      rintro _ ⟨⟩
      rw [m.channel_abandon, m'.channel_abandon, if_pos rfl, if_pos rfl]
    | none =>
      by_cases hd : deadline ≤ now
      · simp only [hd, if_true, true_and]
        rintro _ ⟨⟩
        rw [Rendezvous.channel_abandon, Rendezvous.channel_abandon, if_pos rfl, if_pos rfl]
      · simp only [hd, if_false, true_and]
        exact h
  | ended r => exact ⟨rfl, nofun⟩
  | dropped => exact ⟨rfl, nofun⟩

/-- Only a wait that times out empties the slot, and only if its ticket is there. -/
theorem slot_settleWait (now : ℕ) (m : Rendezvous) (w : Wait) (k : ℕ) :
    (settleWait now m w).1.slot = some k ↔ m.slot = some k ∧ ∀ limit deadline,
      w = .running k limit deadline → (m.channel k).outcome = none → now < deadline := by
  cases w with
  | running id limit deadline =>
    rw [settleWait_running]
    cases ho : (m.channel id).outcome with
    | some r =>
      refine ⟨fun h => ⟨h, ?_⟩, fun h => h.1⟩
      rintro _ _ ⟨⟩ hk
      rw [ho] at hk
      cases hk
    | none =>
      by_cases hd : deadline ≤ now
      · simp only [hd, if_true, Rendezvous.abandon, Rendezvous.slot_withdraw]
        by_cases hs : m.slot = some id
        · rw [if_pos hs]
          refine ⟨nofun, fun h => ?_⟩
          obtain rfl : id = k := Option.some.inj (hs.symm.trans h.1)
          exact absurd (h.2 limit deadline rfl ho) (Nat.not_lt.mpr hd)
        · rw [if_neg hs]
          refine ⟨fun h => ⟨h, ?_⟩, fun h => h.1⟩
          rintro _ _ ⟨⟩ -
          exact absurd h hs
      · simp only [hd, if_false]
        refine ⟨fun h => ⟨h, ?_⟩, fun h => h.1⟩
        rintro _ _ ⟨⟩ -
        exact Nat.not_le.mp hd
  | ended r => exact ⟨fun h => ⟨h, nofun⟩, fun h => h.1⟩
  | dropped => exact ⟨fun h => ⟨h, nofun⟩, fun h => h.1⟩

theorem settleWait_frame (now : ℕ) (m : Rendezvous) (w : Wait) :
    (settleWait now m w).1.closed = m.closed ∧
      (settleWait now m w).1.channels.length = m.channels.length := by
  cases w with
  | running id limit deadline =>
    rw [settleWait_running]
    cases (m.channel id).outcome with
    | some r => simp [Rendezvous.abandon]
    | none => by_cases hd : deadline ≤ now <;> simp [hd, Rendezvous.abandon]
  | ended r => exact ⟨rfl, rfl⟩
  | dropped => exact ⟨rfl, rfl⟩

/-- The tickets that are waited on. -/
def waitedOn (ws : List Wait) : List ℕ := ws.filterMap Wait.ticket?

theorem mem_waitedOn {ws : List Wait} {w : Wait} {id : ℕ} (hw : w ∈ ws)
    (hid : w.ticket? = some id) : id ∈ waitedOn ws := List.mem_filterMap.mpr ⟨w, hw, hid⟩

theorem nodup_waitedOn_cons {w : Wait} {ws : List Wait} (h : (waitedOn (w :: ws)).Nodup) :
    (∀ id, w.ticket? = some id → id ∉ waitedOn ws) ∧ (waitedOn ws).Nodup := by
  rw [waitedOn, List.filterMap_cons] at h
  cases hw : w.ticket? with
  | none =>
    rw [hw] at h
    exact ⟨nofun, h⟩
  | some id =>
    rw [hw] at h
    obtain ⟨h1, h2⟩ := List.nodup_cons.mp h
    refine ⟨?_, h2⟩
    rintro k ⟨⟩
    exact h1

/-- A wait finds its channel as it was before the waits on other tickets. -/
theorem channel_settleWait_of_notMem {now : ℕ} {m : Rendezvous} {w v : Wait} {ws : List Wait}
    (hw : ∀ id, w.ticket? = some id → id ∉ waitedOn ws) (hv : v ∈ ws) {id : ℕ}
    (hid : v.ticket? = some id) : (settleWait now m w).1.channel id = m.channel id :=
  channel_settleWait_of_ne now m fun h => hw id h (mem_waitedOn hv hid)

/-- **Waits do not get in each other's way.** -/
theorem settleWaits_eq_map (now : ℕ) : ∀ (ws : List Wait) (m : Rendezvous), (waitedOn ws).Nodup →
    (settleWaits now m ws).2 = ws.map fun w => (settleWait now m w).2
  | [], _, _ => rfl
  | w :: ws, m, h => by
    obtain ⟨hw, hws⟩ := nodup_waitedOn_cons h
    rw [settleWaits, List.map_cons]
    simp only
    rw [settleWaits_eq_map now ws _ hws]
    congr 1
    exact List.map_congr_left fun v hv => (settleWait_congr fun id hid =>
      channel_settleWait_of_notMem hw hv hid).1

theorem channel_settleWaits_of_notMem (now : ℕ) {id : ℕ} : ∀ (ws : List Wait) (m : Rendezvous),
    id ∉ waitedOn ws → (settleWaits now m ws).1.channel id = m.channel id
  | [], _, _ => rfl
  | w :: ws, m, h => by
    rw [settleWaits]
    simp only
    rw [channel_settleWaits_of_notMem now ws _ fun hid => h ?_, channel_settleWait_of_ne]
    · exact fun hid => h (mem_waitedOn List.mem_cons_self hid)
    · obtain ⟨v, hv, hid⟩ := List.mem_filterMap.mp hid
      exact mem_waitedOn (List.mem_cons_of_mem w hv) hid

/-- The channel of a ticket is what the wait on it leaves of it. -/
theorem channel_settleWaits (now : ℕ) {id : ℕ} : ∀ (ws : List Wait) (m : Rendezvous),
    (waitedOn ws).Nodup → ∀ v ∈ ws, v.ticket? = some id →
    (settleWaits now m ws).1.channel id = (settleWait now m v).1.channel id
  | w :: ws, m, h, v, hv, hid => by
    obtain ⟨hw, hws⟩ := nodup_waitedOn_cons h
    rw [settleWaits]
    simp only
    rcases List.mem_cons.mp hv with rfl | hv
    · exact channel_settleWaits_of_notMem now ws _ (hw id hid)
    · rw [channel_settleWaits now ws _ hws v hv hid]
      exact (settleWait_congr fun k hk => channel_settleWait_of_notMem hw hv hk).2 id hid

/-- Only a wait on the ticket in the slot, by timing out, empties the slot. -/
theorem slot_settleWaits (now k : ℕ) : ∀ (ws : List Wait) (m : Rendezvous), (waitedOn ws).Nodup →
    ((settleWaits now m ws).1.slot = some k ↔ m.slot = some k ∧ ∀ limit deadline,
      .running k limit deadline ∈ ws → (m.channel k).outcome = none → now < deadline)
  | [], _, _ => by simp [settleWaits]
  | w :: ws, m, h => by
    obtain ⟨hw, hws⟩ := nodup_waitedOn_cons h
    rw [settleWaits]
    simp only
    rw [slot_settleWaits now k ws _ hws, slot_settleWait]
    by_cases hk : w.ticket? = some k
    · -- no other wait is on the same ticket
      have hone : ∀ limit deadline, Wait.running k limit deadline ∉ ws := fun limit deadline hv =>
        hw k hk (mem_waitedOn hv rfl)
      constructor
      · rintro ⟨⟨hs, h1⟩, -⟩
        refine ⟨hs, fun limit deadline hv ho => ?_⟩
        rcases List.mem_cons.mp hv with he | hv
        · exact h1 limit deadline he.symm ho
        · exact absurd hv (hone limit deadline)
      · rintro ⟨hs, hall⟩
        refine ⟨⟨hs, fun limit deadline he => ?_⟩, fun limit deadline hv => ?_⟩
        · exact hall limit deadline (he ▸ List.mem_cons_self)
        · exact absurd hv (hone limit deadline)
    · have hne : ∀ limit deadline, w ≠ .running k limit deadline := by
        rintro limit deadline rfl
        exact hk rfl
      rw [channel_settleWait_of_ne now m hk]
      constructor
      · rintro ⟨⟨hs, -⟩, hall⟩
        refine ⟨hs, fun limit deadline hv => ?_⟩
        rcases List.mem_cons.mp hv with he | hv
        · exact absurd he.symm (hne limit deadline)
        · exact hall limit deadline hv
      · rintro ⟨hs, hall⟩
        exact ⟨⟨hs, fun limit deadline he => absurd he (hne limit deadline)⟩,
          fun limit deadline hv => hall limit deadline (List.mem_cons_of_mem _ hv)⟩

theorem settleWaits_frame (now : ℕ) : ∀ (ws : List Wait) (m : Rendezvous),
    (settleWaits now m ws).1.closed = m.closed ∧
      (settleWaits now m ws).1.channels.length = m.channels.length
  | [], _ => ⟨rfl, rfl⟩
  | w :: ws, m => by
    obtain ⟨h1, h2⟩ := settleWait_frame now m w
    obtain ⟨h3, h4⟩ := settleWaits_frame now ws (settleWait now m w).1
    exact ⟨h3.trans h1, h4.trans h2⟩

/-! ### What holds of every timeline -/

/-- The tickets that somebody has: the unused ones and those that are waited on. -/
def inHand (t : Timeline) : List ℕ := t.unused ++ waitedOn t.waits

/-- Nobody has a ticket twice. The slot holds the latest ticket, to which nothing was
brought yet; any other ticket in somebody's hand has had its share. -/
structure Sound (t : Timeline) : Prop where
  nodup : t.inHand.Nodup
  held : ∀ id, id ∈ t.inHand ↔ t.rendezvous.channel id ≠ .abandoned
  latest : ∀ id, t.rendezvous.slot = some id → id + 1 = t.rendezvous.channels.length
  pending : ∀ id, t.rendezvous.slot = some id → (t.rendezvous.channel id).outcome = none
  opened : ∀ id, t.rendezvous.channel id = .opened → t.rendezvous.slot = some id
  closed : t.rendezvous.closed = true → t.rendezvous.slot = none

/-- Besides, nobody waits who could be told something. -/
structure Settled (t : Timeline) : Prop extends t.Sound where
  running : ∀ id limit deadline, .running id limit deadline ∈ t.waits →
    t.rendezvous.channel id = .opened ∧ t.now < deadline

variable {t : Timeline}

theorem Sound.nodup_waitedOn (h : t.Sound) : (waitedOn t.waits).Nodup :=
  (List.nodup_append.mp h.nodup).2.1

theorem Sound.lt_of_inHand (h : t.Sound) {id : ℕ} (hid : id ∈ t.inHand) :
    id < t.rendezvous.channels.length := Rendezvous.lt_of_channel_ne ((h.held id).mp hid)

/-- A ticket in somebody's hand is in the slot, or has had its share. -/
theorem Sound.opened_or_outcome (h : t.Sound) {id : ℕ} (hid : id ∈ t.inHand) :
    (t.rendezvous.channel id = .opened ∧ t.rendezvous.slot = some id) ∨
      ∃ r, (t.rendezvous.channel id).outcome = some r ∧ t.rendezvous.slot ≠ some id := by
  have hne := (h.held id).mp hid
  have hpending := h.pending id
  cases hc : t.rendezvous.channel id with
  | opened => exact .inl ⟨rfl, h.opened id hc⟩
  | abandoned => exact absurd hc hne
  | full p =>
    rw [hc] at hpending
    exact .inr ⟨_, rfl, fun hs => nomatch hpending hs⟩
  | hungUp =>
    rw [hc] at hpending
    exact .inr ⟨_, rfl, fun hs => nomatch hpending hs⟩

theorem waits_settle (h : t.Sound) :
    t.settle.waits = t.waits.map fun w => (settleWait t.now t.rendezvous w).2 :=
  settleWaits_eq_map t.now t.waits t.rendezvous h.nodup_waitedOn

theorem slot_settle (h : t.Sound) (k : ℕ) :
    t.settle.rendezvous.slot = some k ↔ t.rendezvous.slot = some k ∧ ∀ limit deadline,
      .running k limit deadline ∈ t.waits → t.now < deadline := by
  refine (slot_settleWaits t.now k t.waits t.rendezvous h.nodup_waitedOn).trans ?_
  refine and_congr_right fun hs => ?_
  simp only [h.pending k hs, true_imp_iff]

/-- An unused ticket is not touched by settling. -/
theorem channel_settle_unused (h : t.Sound) {id : ℕ} (hid : id ∈ t.unused) :
    t.settle.rendezvous.channel id = t.rendezvous.channel id :=
  channel_settleWaits_of_notMem t.now t.waits t.rendezvous fun hw =>
    (List.nodup_append.mp h.nodup).2.2 id hid id hw rfl

/-- Settling gives no ticket to anybody. -/
theorem waitedOn_settle_sublist (now : ℕ) (m : Rendezvous) : ∀ ws : List Wait,
    (waitedOn (ws.map fun w => (settleWait now m w).2)).Sublist (waitedOn ws)
  | [] => .slnil
  | w :: ws => by
    have ih := waitedOn_settle_sublist now m ws
    simp only [waitedOn, List.map_cons, List.filterMap_cons] at ih ⊢
    rcases settleWait_ends_or_stays now m w with ⟨r, hr, -⟩ | hstay
    · rw [hr]
      cases hw : w.ticket? with
      | none => exact ih
      | some id => exact ih.cons id
    · rw [hstay]
      cases hw : w.ticket? with
      | none => exact ih
      | some id => exact ih.cons_cons id

theorem mem_waitedOn_settle (h : t.Sound) {id : ℕ} : id ∈ waitedOn t.settle.waits ↔
    ∃ w ∈ t.waits, w.ticket? = some id ∧
      settleWait t.now t.rendezvous w = (t.rendezvous, w) := by
  rw [waits_settle h, waitedOn, List.filterMap_map, List.mem_filterMap]
  constructor
  · rintro ⟨w, hw, hid⟩
    rw [Function.comp_apply] at hid
    rcases settleWait_ends_or_stays t.now t.rendezvous w with ⟨r, hr, -⟩ | hstay
    · rw [hr] at hid
      cases hid
    · rw [hstay] at hid
      exact ⟨w, hw, hid, hstay⟩
  · rintro ⟨w, hw, hid, hstay⟩
    exact ⟨w, hw, by rw [Function.comp_apply, hstay, hid]⟩

/-- A ticket is in somebody's hand after settling if its channel was not let go. -/
theorem channel_settle (h : t.Sound) (id : ℕ) :
    (id ∈ t.settle.inHand ∧ t.settle.rendezvous.channel id = t.rendezvous.channel id ∧
      id ∈ t.inHand) ∨
    (id ∉ t.settle.inHand ∧ t.settle.rendezvous.channel id = .abandoned) := by
  obtain ⟨-, -, hdisjoint⟩ := List.nodup_append.mp h.nodup
  by_cases hu : id ∈ t.unused
  · exact .inl ⟨List.mem_append_left _ hu, channel_settle_unused h hu, List.mem_append_left _ hu⟩
  · have hmem : id ∈ t.settle.inHand ↔ id ∈ waitedOn t.settle.waits :=
      List.mem_append.trans (or_iff_right hu)
    rw [hmem, mem_waitedOn_settle h]
    by_cases hw : id ∈ waitedOn t.waits
    · obtain ⟨w, hw, hid⟩ := List.mem_filterMap.mp hw
      have hchannel : t.settle.rendezvous.channel id
          = (settleWait t.now t.rendezvous w).1.channel id :=
        channel_settleWaits t.now t.waits t.rendezvous h.nodup_waitedOn w hw hid
      rw [hchannel]
      rcases settleWait_ends_or_stays t.now t.rendezvous w with ⟨r, hr, hgone⟩ | hstay
      · refine .inr ⟨?_, hgone id hid⟩
        rintro ⟨v, hv, hvid, hstay⟩
        have hkept := channel_settleWaits t.now t.waits t.rendezvous h.nodup_waitedOn v hv hvid
        rw [hstay, channel_settleWaits t.now t.waits t.rendezvous h.nodup_waitedOn w hw hid,
          hgone id hid] at hkept
        exact (h.held id).mp (List.mem_append_right _ (mem_waitedOn hw hid)) hkept.symm
      · exact .inl ⟨⟨w, hw, hid, hstay⟩, by rw [hstay],
          List.mem_append_right _ (mem_waitedOn hw hid)⟩
    · refine .inr ⟨?_, ?_⟩
      · rintro ⟨w, hv, hid, -⟩
        exact hw (mem_waitedOn hv hid)
      · have hout : id ∉ t.inHand := fun hid => (List.mem_append.mp hid).elim hu hw
        rw [show t.settle.rendezvous.channel id = t.rendezvous.channel id from
          channel_settleWaits_of_notMem t.now t.waits t.rendezvous hw]
        exact not_not.mp fun hne => hout ((h.held id).mpr hne)

theorem Sound.settle (h : t.Sound) : t.settle.Settled where
  nodup := by
    refine h.nodup.sublist ((List.append_sublist_append_left _).mpr ?_)
    rw [waits_settle h]
    exact waitedOn_settle_sublist t.now t.rendezvous t.waits
  held id := by
    rcases channel_settle h id with ⟨hin, hsame, hin'⟩ | ⟨hout, hgone⟩
    · rw [hsame]
      exact iff_of_true hin ((h.held id).mp hin')
    · exact iff_of_false hout (not_not.mpr hgone)
  latest id hs := by
    have hlength : t.settle.rendezvous.channels.length = t.rendezvous.channels.length :=
      (settleWaits_frame t.now t.waits t.rendezvous).2
    rw [hlength]
    exact h.latest id ((slot_settle h id).mp hs).1
  pending id hs := by
    rcases channel_settle h id with ⟨-, hsame, -⟩ | ⟨-, hgone⟩
    · rw [hsame]
      exact h.pending id ((slot_settle h id).mp hs).1
    · rw [hgone]
      rfl
  opened id ho := by
    rcases channel_settle h id with ⟨hin, hsame, -⟩ | ⟨-, hgone⟩
    · rw [hsame] at ho
      refine (slot_settle h id).mpr ⟨h.opened id ho, fun limit deadline hw => ?_⟩
      -- whoever waits on it and is due would have let it go
      by_contra hd
      have hgone := channel_settleWaits t.now t.waits t.rendezvous h.nodup_waitedOn _ hw rfl
      rw [settleWait_running, ho] at hgone
      simp only [Channel.outcome, Nat.not_lt.mp hd, if_true] at hgone
      rw [Rendezvous.channel_abandon, if_pos rfl] at hgone
      exact ((h.held id).mp (List.mem_append_right _ (mem_waitedOn hw rfl))) (by
        rw [← hsame]; exact hgone)
    · rw [hgone] at ho
      cases ho
  closed hc := by
    have hclosed : t.settle.rendezvous.closed = t.rendezvous.closed :=
      (settleWaits_frame t.now t.waits t.rendezvous).1
    have hnone := h.closed (hclosed ▸ hc)
    rw [Option.eq_none_iff_forall_ne_some]
    intro id hs
    rw [((slot_settle h id).mp hs).1] at hnone
    cases hnone
  running id limit deadline hw := by
    rw [waits_settle h] at hw
    obtain ⟨w, hmem, hw⟩ := List.mem_map.mp hw
    rcases settleWait_ends_or_stays t.now t.rendezvous w with ⟨r, hr, -⟩ | hstay
    · rw [hr] at hw
      cases hw
    · rw [hstay] at hw
      subst hw
      have hchannel := channel_settleWaits t.now t.waits t.rendezvous h.nodup_waitedOn _ hmem rfl
      rw [hstay] at hchannel
      rw [settleWait_running] at hstay
      rcases h.opened_or_outcome (List.mem_append_right _ (mem_waitedOn hmem rfl)) with
        ⟨ho, -⟩ | ⟨r, hr, -⟩
      · refine ⟨hchannel.trans ho, ?_⟩
        by_contra hd
        rw [ho] at hstay
        simp only [Channel.outcome] at hstay
        have hdue : deadline ≤ t.now := Nat.not_lt.mp hd
        rw [if_pos hdue] at hstay
        cases (Prod.mk.inj hstay).2
      · rw [hr] at hstay
        cases (Prod.mk.inj hstay).2

/-! ### Events -/

/-- What an event brings to a ticket that is in the slot. -/
def Event.brings (id : ℕ) : Event → Option (Except SessionError Packet)
  | .offer p => some (.ok p)
  | .claim | .close => some (.error .closed)
  | .withdraw k => if k = id then some (.error .closed) else none
  | .await _ _ | .forget _ | .advance _ | .abort _ => none

/-- By how much an event moves the clock. -/
def Event.elapsed : Event → ℕ
  | .advance ms => ms
  | _ => 0

/-- Something is done to the slot, and nobody gets or loses a ticket. -/
theorem Sound.of_rendezvous (h : t.Sound) {m : Rendezvous}
    (hheld : ∀ id, m.channel id = .abandoned ↔ t.rendezvous.channel id = .abandoned)
    (hslot : ∀ id, m.slot = some id → t.rendezvous.slot = some id ∧
      m.channel id = t.rendezvous.channel id)
    (hopened : ∀ id, m.channel id = .opened → m.slot = some id)
    (hlength : m.channels.length = t.rendezvous.channels.length)
    (hclosed : m.closed = true → m.slot = none) :
    ({ t with rendezvous := m } : Timeline).Sound where
  nodup := h.nodup
  held id := (h.held id).trans (not_congr (hheld id)).symm
  latest id hs := (h.latest id (hslot id hs).1).trans hlength.symm
  pending id hs := by
    obtain ⟨hs, hc⟩ := hslot id hs
    exact hc ▸ h.pending id hs
  opened := hopened
  closed := hclosed

/-- The tickets change hands. -/
theorem Sound.of_perm (h : t.Sound) {u : Timeline} (hm : u.rendezvous = t.rendezvous)
    (hp : u.inHand.Perm t.inHand) : u.Sound where
  nodup := hp.nodup_iff.mpr h.nodup
  held id := by rw [hm, hp.mem_iff, h.held id]
  latest := hm ▸ h.latest
  pending := hm ▸ h.pending
  opened := hm ▸ h.opened
  closed := hm ▸ h.closed

/-- A ticket is let go. -/
theorem Sound.of_perm_cons (h : t.Sound) {u : Timeline} {id : ℕ}
    (hm : u.rendezvous = t.rendezvous.abandon id) (hp : t.inHand.Perm (id :: u.inHand)) :
    u.Sound := by
  obtain ⟨hout, hnodup⟩ := List.nodup_cons.mp (hp.nodup_iff.mp h.nodup)
  have hchannel : ∀ k, u.rendezvous.channel k
      = if k = id then .abandoned else t.rendezvous.channel k := by
    intro k
    rw [hm, Rendezvous.channel_abandon]
  have hslot : u.rendezvous.slot = t.rendezvous.slot := by rw [hm, Rendezvous.abandon]
  refine ⟨hnodup, fun k => ?_, fun k hs => ?_, fun k hs => ?_, fun k ho => ?_, fun hc => ?_⟩
  · rw [hchannel]
    by_cases hk : k = id
    · subst hk
      rw [if_pos rfl]
      exact iff_of_false hout (fun hne => hne rfl)
    · rw [if_neg hk, ← h.held k, hp.mem_iff, List.mem_cons]
      exact (or_iff_right hk).symm
  · rw [hm, Rendezvous.abandon, List.length_set]
    exact h.latest k (hslot ▸ hs)
  · rw [hchannel]
    by_cases hk : k = id
    · rw [if_pos hk]
      rfl
    · rw [if_neg hk]
      exact h.pending k (hslot ▸ hs)
  · rw [hchannel] at ho
    by_cases hk : k = id
    · rw [if_pos hk] at ho
      cases ho
    · rw [if_neg hk] at ho
      exact hslot ▸ h.opened k ho
  · rw [hm] at hc
    exact hslot ▸ h.closed hc

theorem Sound.clear (h : t.Sound) (closed : Bool) :
    ({ t with rendezvous := { t.rendezvous.clear with closed } } : Timeline).Sound := by
  have hchannel : ∀ k, ({ t.rendezvous.clear with closed } : Rendezvous).channel k
      = if t.rendezvous.slot = some k ∧ t.rendezvous.channel k = .opened then .hungUp
        else t.rendezvous.channel k := t.rendezvous.channel_clear
  refine h.of_rendezvous (fun k => ?_) (fun k hs => ?_) (fun k ho => ?_)
    t.rendezvous.length_clear (fun _ => t.rendezvous.slot_clear)
  · rw [hchannel]
    by_cases hk : t.rendezvous.slot = some k ∧ t.rendezvous.channel k = .opened
    · rw [if_pos hk, hk.2]
      exact iff_of_false nofun nofun
    · rw [if_neg hk]
  · rw [show ({ t.rendezvous.clear with closed } : Rendezvous).slot = none from
      t.rendezvous.slot_clear] at hs
    cases hs
  · rw [hchannel] at ho
    by_cases hk : t.rendezvous.slot = some k ∧ t.rendezvous.channel k = .opened
    · rw [if_pos hk] at ho
      cases ho
    · rw [if_neg hk] at ho
      exact absurd ⟨h.opened k ho, ho⟩ hk

theorem Sound.withdraw (h : t.Sound) (id : ℕ) :
    ({ t with rendezvous := t.rendezvous.withdraw id } : Timeline).Sound := by
  by_cases hs : t.rendezvous.slot = some id
  · rw [Rendezvous.withdraw, if_pos hs]
    have hclear := h.clear t.rendezvous.closed
    rwa [← t.rendezvous.closed_clear] at hclear
  · rw [Rendezvous.withdraw, if_neg hs]
    exact h

theorem Sound.offer (h : t.Sound) (p : Packet) :
    ({ t with rendezvous := (t.rendezvous.offer p).1 } : Timeline).Sound := by
  refine h.of_rendezvous (fun k => ?_) (fun k hs => ?_) (fun k ho => ?_)
    (t.rendezvous.offer_length p) (fun _ => t.rendezvous.offer_slot p)
  · rw [Rendezvous.channel_offer]
    by_cases hk : t.rendezvous.slot = some k ∧ t.rendezvous.channel k = .opened
    · rw [if_pos hk, hk.2]
      exact iff_of_false nofun nofun
    · rw [if_neg hk]
  · rw [t.rendezvous.offer_slot] at hs
    cases hs
  · rw [Rendezvous.channel_offer] at ho
    by_cases hk : t.rendezvous.slot = some k ∧ t.rendezvous.channel k = .opened
    · rw [if_pos hk] at ho
      cases ho
    · rw [if_neg hk] at ho
      exact absurd ⟨h.opened k ho, ho⟩ hk

theorem Sound.claim (h : t.Sound) (hc : t.rendezvous.closed = false) :
    ({ t with
      rendezvous := t.rendezvous.claim.1
      unused := t.unused ++ [t.rendezvous.channels.length] } : Timeline).Sound := by
  have hclear := h.clear t.rendezvous.closed
  rw [← t.rendezvous.closed_clear] at hclear
  have hnew : t.rendezvous.channels.length ∉ t.inHand := fun hid =>
    lt_irrefl _ (h.lt_of_inHand hid)
  have hchannel := t.rendezvous.channel_claim hc
  have hslot : t.rendezvous.claim.1.slot = some t.rendezvous.channels.length := by
    rw [t.rendezvous.claim_of_open hc]
  have hp : (t.unused ++ [t.rendezvous.channels.length] ++ waitedOn t.waits).Perm
      (t.rendezvous.channels.length :: t.inHand) := by
    rw [List.append_assoc]
    exact List.perm_middle
  refine ⟨hp.nodup_iff.mpr (List.nodup_cons.mpr ⟨hnew, h.nodup⟩), fun k => ?_, fun k hs => ?_,
    fun k hs => ?_, fun k ho => ?_, fun hcl => ?_⟩
  · rw [hchannel]
    refine hp.mem_iff.trans (List.mem_cons.trans ?_)
    by_cases hk : k = t.rendezvous.channels.length
    · rw [if_pos hk]
      exact iff_of_true (.inl hk) nofun
    · rw [if_neg hk]
      exact (or_iff_right hk).trans (hclear.held k)
  · obtain rfl : t.rendezvous.channels.length = k := Option.some.inj (hslot.symm.trans hs)
    rw [t.rendezvous.claim_of_open hc]
    simp
  · obtain rfl : t.rendezvous.channels.length = k := Option.some.inj (hslot.symm.trans hs)
    rw [hchannel, if_pos rfl]
    rfl
  · rw [hchannel] at ho
    by_cases hk : k = t.rendezvous.channels.length
    · rw [hk]
      exact hslot
    · rw [if_neg hk] at ho
      have hs := hclear.opened k ho
      rw [show ({ t with rendezvous := t.rendezvous.clear } : Timeline).rendezvous.slot = none
        from t.rendezvous.slot_clear] at hs
      cases hs
  · rw [t.rendezvous.claim_of_open hc] at hcl
    rw [show t.rendezvous.clear.closed = false from t.rendezvous.closed_clear.trans hc] at hcl
    cases hcl

/-- A wait that is given up lets its ticket go. -/
theorem perm_set_dropped {ws : List Wait} {n id limit deadline : ℕ}
    (hn : ws[n]? = some (.running id limit deadline)) :
    (waitedOn ws).Perm (id :: waitedOn (ws.set n .dropped)) := by
  obtain ⟨hlt, hget⟩ := List.getElem?_eq_some_iff.mp hn
  obtain ⟨before, behind, hws, -, hset⟩ : ∃ l₁ l₂, ws = l₁ ++ ws[n] :: l₂ ∧ l₁.length = n ∧
      ws.set n .dropped = l₁ ++ Wait.dropped :: l₂ := List.exists_of_set hlt
  rw [hget] at hws
  rw [hset, hws]
  simp only [waitedOn, List.filterMap_append, List.filterMap_cons, Wait.ticket?]
  exact List.perm_middle

/-- **Every event keeps what holds of all timelines.** -/
theorem Sound.act (h : t.Sound) (e : Event) : (t.act e).1.Sound := by
  cases e with
  | claim =>
    cases hc : t.rendezvous.closed with
    | true =>
      simp only [Timeline.act, t.rendezvous.claim_of_closed hc]
      exact h
    | false =>
      have hclaim := h.claim hc
      simp only [Timeline.act, t.rendezvous.claim_of_open hc] at hclaim ⊢
      exact hclaim
  | offer p => exact h.offer p
  | await id limit =>
    by_cases hid : id ∈ t.unused
    · simp only [Timeline.act, hid, if_true]
      refine h.of_perm rfl ?_
      have hp : t.unused.Perm (id :: t.unused.erase id) := List.perm_cons_erase hid
      simp only [inHand, waitedOn, List.filterMap_append, List.filterMap_cons, Wait.ticket?,
        List.filterMap_nil, ← List.append_assoc]
      refine (List.perm_append_singleton id _).trans ?_
      exact (hp.append_right _).symm
    · simp only [Timeline.act, hid, if_false]
      exact h
  | forget id =>
    by_cases hid : id ∈ t.unused
    · simp only [Timeline.act, hid, if_true]
      exact h.of_perm_cons rfl ((List.perm_cons_erase hid).append_right _)
    · simp only [Timeline.act, hid, if_false]
      exact h
  | withdraw id => exact h.withdraw id
  | close => exact h.clear true
  | advance ms => exact h.of_perm rfl (.refl _)
  | abort n =>
    simp only [Timeline.act]
    split
    · rename_i id limit deadline hn
      refine h.of_perm_cons rfl ?_
      refine ((perm_set_dropped hn).append_left t.unused).trans ?_
      exact List.perm_middle
    · exact h

theorem Sound.step (h : t.Sound) (e : Event) : (t.step e).1.Settled := (h.act e).settle

theorem settled_start : ({} : Timeline).Settled where
  nodup := List.nodup_nil
  held id := by simp [inHand, waitedOn, Rendezvous.channel]
  latest _ := nofun
  pending _ := nofun
  opened id ho := by simp [Rendezvous.channel] at ho
  closed _ := rfl
  running _ _ _ := nofun

/-! ### What a step does for one ticket -/

/-- When the slot is emptied, a ticket in hand that has no outcome yet ends as closed. -/
theorem Sound.outcome_clear (h : t.Sound) {id : ℕ} (hid : id ∈ t.inHand) :
    (t.rendezvous.clear.channel id).outcome
      = (t.rendezvous.channel id).outcome.or (some (.error .closed)) := by
  rw [Rendezvous.channel_clear]
  rcases h.opened_or_outcome hid with ⟨ho, hs⟩ | ⟨r, hr, hs⟩
  · rw [if_pos ⟨hs, ho⟩, ho]
    rfl
  · rw [if_neg (fun h => hs h.1), hr]
    rfl

/-- What was brought to a ticket stays; otherwise it gets what the event brings. -/
theorem Sound.outcome_act (h : t.Sound) (e : Event) {id : ℕ} (hid : id ∈ t.inHand)
    (hid' : id ∈ (t.act e).1.inHand) : ((t.act e).1.rendezvous.channel id).outcome
      = (t.rendezvous.channel id).outcome.or (e.brings id) := by
  have hkept : (t.act e).1.rendezvous.channel id ≠ .abandoned := ((h.act e).held id).mp hid'
  have hold : t.rendezvous.channel id = .opened ∧ t.rendezvous.slot = some id ∨
      ∃ r, (t.rendezvous.channel id).outcome = some r ∧ t.rendezvous.slot ≠ some id :=
    h.opened_or_outcome hid
  cases e with
  | claim =>
    have hnew : id ≠ t.rendezvous.channels.length := (h.lt_of_inHand hid).ne
    cases hc : t.rendezvous.closed with
    | true =>
      rcases hold with ⟨-, hs⟩ | ⟨r, hr, -⟩
      · rw [h.closed hc] at hs
        cases hs
      · simp only [Timeline.act, t.rendezvous.claim_of_closed hc, hr, Option.some_or]
    | false =>
      have hchannel : (t.act .claim).1.rendezvous.channel id = t.rendezvous.clear.channel id := by
        have hclaim := t.rendezvous.channel_claim hc id
        rw [if_neg hnew] at hclaim
        simp only [Timeline.act, t.rendezvous.claim_of_open hc] at hclaim ⊢
        exact hclaim
      rw [hchannel, h.outcome_clear hid]
      rfl
  | offer p =>
    simp only [Timeline.act, Rendezvous.channel_offer]
    rcases hold with ⟨ho, hs⟩ | ⟨r, hr, hs⟩
    · rw [if_pos ⟨hs, ho⟩, ho]
      rfl
    · rw [if_neg (fun h => hs h.1), hr]
      rfl
  | await k limit =>
    simp only [Timeline.act, Event.brings, Option.or_none]
    split <;> rfl
  | forget k =>
    simp only [Timeline.act, Event.brings, Option.or_none] at hkept ⊢
    by_cases hk : k ∈ t.unused
    · simp only [hk, if_true, Rendezvous.channel_abandon] at hkept ⊢
      by_cases hidk : id = k
      · rw [if_pos hidk] at hkept
        exact absurd rfl hkept
      · rw [if_neg hidk]
    · simp only [hk, if_false]
  | withdraw k =>
    simp only [Timeline.act, Rendezvous.channel_withdraw]
    rcases hold with ⟨ho, hs⟩ | ⟨r, hr, hs⟩
    · by_cases hk : id = k
      · rw [if_pos ⟨hs, hk, ho⟩, ho, Event.brings, if_pos hk.symm]
        rfl
      · rw [if_neg (fun h => hk h.2.1), Event.brings, if_neg (Ne.symm hk), Option.or_none]
    · rw [if_neg (fun h => hs h.1), hr]
      rfl
  | close =>
    have hchannel : (t.act .close).1.rendezvous.channel id = t.rendezvous.clear.channel id := rfl
    rw [hchannel, h.outcome_clear hid]
    rfl
  | advance ms => rw [Event.brings, Option.or_none, Timeline.act]
  | abort n =>
    simp only [Timeline.act, Event.brings, Option.or_none] at hkept ⊢
    split <;> rename_i hn
    · rename_i k limit deadline
      simp only [hn, Rendezvous.channel_abandon] at hkept ⊢
      by_cases hidk : id = k
      · rw [if_pos hidk] at hkept
        exact absurd rfl hkept
      · rw [if_neg hidk]
    · rfl

theorem now_step (t : Timeline) (e : Event) : (t.step e).1.now = t.now + e.elapsed := by
  have hact : (t.act e).1.now = t.now + e.elapsed := by
    cases e <;> simp only [Timeline.act, Event.elapsed, Nat.add_zero] <;> split <;> rfl
  exact hact

/-- Only whoever waits can give up waiting. -/
theorem getElem?_act {e : Event} {n : ℕ} {w : Wait} (hw : t.waits[n]? = some w)
    (he : e = .abort n → w.ticket? = none) : (t.act e).1.waits[n]? = some w := by
  cases e with
  | await id limit =>
    simp only [Timeline.act]
    split
    · exact getElem?_mono (List.prefix_append _ _) hw
    · exact hw
  | abort k =>
    simp only [Timeline.act]
    split
    · rename_i id limit deadline hk
      have hne : k ≠ n := by
        rintro rfl
        obtain rfl : w = .running id limit deadline := Option.some.inj (hw.symm.trans hk)
        exact nomatch he rfl
      rw [List.getElem?_set_ne hne]
      exact hw
    · exact hw
  | claim | forget id =>
    simp only [Timeline.act]
    split <;> exact hw
  | _ => exact hw

theorem getElem?_step (h : t.Sound) (e : Event) (n : ℕ) :
    (t.step e).1.waits[n]? = (t.act e).1.waits[n]?.map fun w =>
      (settleWait (t.act e).1.now (t.act e).1.rendezvous w).2 := by
  have hsettle : (t.step e).1.waits = (t.act e).1.settle.waits := rfl
  rw [hsettle, waits_settle (h.act e), List.getElem?_map]

/-- A wait that is over stays so. -/
theorem Sound.step_over (h : t.Sound) (e : Event) {n : ℕ} {w : Wait}
    (hw : t.waits[n]? = some w) (hover : w.ticket? = none) :
    (t.step e).1.waits[n]? = some w := by
  rw [getElem?_step h, getElem?_act hw fun _ => hover, Option.map_some]
  cases w with
  | running id limit deadline => cases hover
  | ended r => rfl
  | dropped => rfl

/-- **A wait that goes on** ends with what the event brings, or when its time is up. -/
theorem Settled.step_running (h : t.Settled) {e : Event} {n id limit deadline : ℕ}
    (hw : t.waits[n]? = some (.running id limit deadline)) (he : e ≠ .abort n) :
    (t.step e).1.waits[n]? = some (match e.brings id with
      | some r => .ended r
      | none => if deadline ≤ t.now + e.elapsed then .ended (.error (.timeout limit))
        else .running id limit deadline) := by
  have hw' := getElem?_act hw (e := e) fun he' => absurd he' he
  have hin : id ∈ t.inHand := List.mem_append_right _ (mem_waitedOn (List.mem_of_getElem? hw) rfl)
  have hin' : id ∈ (t.act e).1.inHand :=
    List.mem_append_right _ (mem_waitedOn (List.mem_of_getElem? hw') rfl)
  obtain ⟨ho, -⟩ := h.running id limit deadline (List.mem_of_getElem? hw)
  have houtcome := h.outcome_act e hin hin'
  rw [ho, show Channel.opened.outcome = none from rfl, Option.none_or] at houtcome
  have hnow : (t.act e).1.now = t.now + e.elapsed := now_step t e
  rw [getElem?_step h.toSound, hw', Option.map_some, settleWait_running, houtcome, hnow]
  cases e.brings id with
  | some r => rfl
  | none => by_cases hd : deadline ≤ t.now + e.elapsed <;> simp only [hd, if_true, if_false]

/-- A wait that is given up ends without a result. -/
theorem Sound.step_abort (h : t.Sound) {n id limit deadline : ℕ}
    (hw : t.waits[n]? = some (.running id limit deadline)) :
    (t.step (.abort n)).1.waits[n]? = some .dropped := by
  have hlt := (List.getElem?_eq_some_iff.mp hw).1
  have hact : (t.act (.abort n)).1.waits[n]? = some .dropped := by
    simp only [Timeline.act, hw, List.getElem?_set_self hlt]
  rw [getElem?_step h, hact]
  rfl

/-- An unused ticket that is not used gets what the event brings. -/
theorem Sound.step_unused (h : t.Sound) {e : Event} {id : ℕ} (hid : id ∈ t.unused)
    (hf : e ≠ .forget id) (ha : ∀ limit, e ≠ .await id limit) :
    id ∈ (t.step e).1.unused ∧ ((t.step e).1.rendezvous.channel id).outcome
      = (t.rendezvous.channel id).outcome.or (e.brings id) := by
  have hkept : id ∈ (t.act e).1.unused := by
    cases e with
    | claim =>
      simp only [Timeline.act]
      split
      · exact List.mem_append_left _ hid
      · exact hid
    | await k limit =>
      simp only [Timeline.act]
      split
      · have hne : id ≠ k := by
          rintro rfl
          exact ha limit rfl
        exact (List.mem_erase_of_ne hne).mpr hid
      · exact hid
    | forget k =>
      simp only [Timeline.act]
      split
      · have hne : id ≠ k := by
          rintro rfl
          exact hf rfl
        exact (List.mem_erase_of_ne hne).mpr hid
      · exact hid
    | abort n =>
      simp only [Timeline.act]
      split <;> exact hid
    | _ => exact hid
  refine ⟨hkept, ?_⟩
  rw [← h.outcome_act e (List.mem_append_left _ hid) (List.mem_append_left _ hkept)]
  exact congrArg _ (channel_settle_unused (h.act e) hkept)

/-- **A wait that begins** ends at once if something was brought to its ticket, or if it
has no time. -/
theorem Sound.step_await (h : t.Sound) {id : ℕ} (hid : id ∈ t.unused) (limit : ℕ) :
    (t.step (.await id limit)).1.waits[t.waits.length]?
      = some (match (t.rendezvous.channel id).outcome with
        | some r => .ended r
        | none => if limit = 0 then .ended (.error (.timeout limit))
          else .running id limit (t.now + limit)) := by
  have hact : (t.act (.await id limit)).1.waits[t.waits.length]?
      = some (.running id limit (t.now + limit)) := by
    simp only [Timeline.act, hid, if_true, List.getElem?_concat_length]
  have hm : (t.act (.await id limit)).1.rendezvous = t.rendezvous := by
    simp only [Timeline.act, hid, if_true]
  have hnow : (t.act (.await id limit)).1.now = t.now := by
    simp only [Timeline.act, hid, if_true]
  rw [getElem?_step h, hact, Option.map_some, settleWait_running, hm, hnow]
  cases (t.rendezvous.channel id).outcome with
  | some r => rfl
  | none =>
    by_cases hl : limit = 0
    · simp [hl]
    · have hd : ¬t.now + limit ≤ t.now := by omega
      simp only [hd, hl, if_false]

/-- A ticket is unused until it is waited on or forgotten. -/
theorem Sound.step_spends (h : t.Sound) {e : Event} {id : ℕ}
    (he : e = .forget id ∨ ∃ limit, e = .await id limit) : id ∉ (t.step e).1.unused := by
  have hnodup := (List.nodup_append.mp h.nodup).1
  have hout : id ∉ (t.act e).1.unused := by
    rcases he with rfl | ⟨limit, rfl⟩ <;> simp only [Timeline.act] <;> split
    · exact hnodup.not_mem_erase
    · assumption
    · exact hnodup.not_mem_erase
    · assumption
  exact hout

end Timeline

end ProbeLink

/-
# Pairing replies with waiters

A rendezvous has one slot. Whoever claims it gets a ticket; the next reply goes
to the ticket in the slot, and a reply that finds the slot empty is dropped. A
reply that was handed over stays with its ticket until it is collected, whatever
happens to the slot later. A ticket whose claim was replaced or withdrawn, or
ended by the close of the whole, is hung up.

Tickets are numbered from zero in the order of the claims, so the channels are a
list and the next number is its length. Each channel is open until its one
packet arrives or its sender goes away, and it may be abandoned by its receiver.

Key definitions: `Rendezvous`, `Rendezvous.claim`, `Rendezvous.offer`,
`Rendezvous.withdraw`, `Rendezvous.close`.
-/
import ProbeLink.Packet

namespace ProbeLink

/-- The way from the slot to the holder of one ticket. -/
inductive Channel where
  /-- Both ends exist and nothing was sent. -/
  | opened
  /-- A packet was handed over and not collected. -/
  | full (p : Packet)
  /-- The sending end is gone and nothing was sent. -/
  | hungUp
  /-- The receiving end is gone. -/
  | abandoned
  deriving DecidableEq, Repr

/-- The slot, and the channel of every ticket. -/
structure Rendezvous where
  /-- The ticket that gets the next reply. -/
  slot : Option Nat := none
  channels : List Channel := []
  closed : Bool := false
  deriving DecidableEq, Repr

namespace Rendezvous

/-- Whether somebody claims the next reply. -/
def isClaimed (m : Rendezvous) : Bool := m.slot.isSome

/-- The channel of a ticket. -/
def channel (m : Rendezvous) (id : Nat) : Channel := m.channels.getD id .abandoned

/-- Lets the sending end of a ticket's channel go. -/
def hangUp (m : Rendezvous) (id : Nat) : Rendezvous :=
  if m.channel id = .opened then { m with channels := m.channels.set id .hungUp } else m

/-- Empties the slot. -/
def clear (m : Rendezvous) : Rendezvous :=
  match m.slot with
  | some id => { m.hangUp id with slot := none }
  | none => m

/-- Claims the slot and gives the ticket; nothing once closed. An older claim is
hung up. -/
def claim (m : Rendezvous) : Rendezvous × Option Nat :=
  if m.closed then (m, none)
  else
    let m := m.clear
    ({ m with slot := some m.channels.length, channels := m.channels ++ [.opened] },
      some m.channels.length)

/-- Hands a packet to the ticket in the slot; whether it was taken. The slot is
empty afterwards. -/
def offer (m : Rendezvous) (p : Packet) : Rendezvous × Bool :=
  match m.slot with
  | none => (m, false)
  | some id =>
    if m.channel id = .opened then
      ({ m with slot := none, channels := m.channels.set id (.full p) }, true)
    else ({ m with slot := none }, false)

/-- Empties the slot if it still belongs to `id`. -/
def withdraw (m : Rendezvous) (id : Nat) : Rendezvous :=
  if m.slot = some id then m.clear else m

/-- Refuses every later claim and hangs up the present one. -/
def close (m : Rendezvous) : Rendezvous := { m.clear with closed := true }

/-- Lets the receiving end of a ticket go. The slot does not notice. -/
def abandon (m : Rendezvous) (id : Nat) : Rendezvous :=
  { m with channels := m.channels.set id .abandoned }

end Rendezvous

end ProbeLink

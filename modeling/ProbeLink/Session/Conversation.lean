/-
# A session in conversation with a target

A session on a serial line and a target at the far end of the line. The target
answers the frames it gets with responses that are laid out beforehand, one for
each frame in the order in which they come, repetitions included; frames beyond
the last response are heard and not answered. Calls are made one after the
other: each is over, at the latest by its timeout, before the next one begins.

Key definitions: `Conversation`, `Conversation.converse`, `Conversation.call`.
-/
import ProbeLink.Link.Serial
import ProbeLink.Session.Control
import ProbeLink.Target

namespace ProbeLink

/-- A session, the target behind its line, and what the target will do. -/
structure Conversation where
  session : Session SerialLine
  target : Target := {}
  /-- How many bytes of the line the target has taken in. -/
  taken : Nat := 0
  responses : List Target.Response := []

namespace Conversation

/-- Lets the session come to rest and the target take in what it was sent. -/
def settle (c : Conversation) : Conversation :=
  let session := Interplay.settle c.session
  { c with
    session
    target := c.target.hear (session.link.sent.drop c.taken)
    taken := session.link.sent.length }

/-- Does what the target does about a frame. -/
def respond (c : Conversation) : Target.Response → Conversation
  | .send bytes => { c with session := { c.session with link := c.session.link.offer bytes } }
  | .hangUp => { c with session := { c.session with link := c.session.link.hangUp } }

/-- Lets the target answer frames until it has answered all that it got or has
no response left; `answered` is how many frames it has answered before. -/
def exchange (answered : Nat) (c : Conversation) : List Target.Response → Conversation
  | [] => { c with responses := [] }
  | r :: rs =>
    if answered < c.target.heard.length then exchange (answered + 1) (c.respond r).settle rs
    else { c with responses := r :: rs }

/-- Lets both sides go on until neither has anything to do but wait. The frames
answered so far are those for which a response was used. -/
def converse (total : Nat) (c : Conversation) : Conversation :=
  let c := c.settle
  exchange (total - c.responses.length) c c.responses

/-- Makes a call and lets it come to its end: the other side answers, or the
clock runs out. -/
def call (total : Nat) (c : Conversation) (ask : Ask) : Conversation :=
  let c := ({ c with session := c.session.issue ask }).converse total
  if c.session.hasLiveCall then
    ({ c with session := c.session.advance c.session.settings.replyTimeoutMs }).converse total
  else c

/-- A conversation over a list of calls that ends with the session being
disconnected and one more command being tried. -/
def hold (settings : SessionSettings) (responses : List Target.Response) (asks : List Ask) :
    Conversation :=
  let c : Conversation := { session := Session.start {} settings, responses }
  (asks ++ [Ask.disconnect, Ask.packet "x" ""]).foldl (call responses.length) c

end Conversation

end ProbeLink

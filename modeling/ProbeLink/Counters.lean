/-
# Counters of a session

A session counts eight kinds of event. The counters can be read together, or
written in the text format of metrics collectors: one family for each counter,
in the order of their names, with a line of help, a line of type and the value.

Key definitions: `Counter`, `Counters`, `Counters.bump`, `Counters.exposition`.
-/

namespace ProbeLink

/-- A kind of event that is counted. -/
inductive Counter where
  | acksSent
  | commandsSent
  | droppedReplies
  | framingErrors
  | notifications
  | replies
  | retransmits
  | timeouts
  deriving DecidableEq, Repr

/-- How often each kind of event has happened. -/
structure Counters where
  acksSent : Nat := 0
  commandsSent : Nat := 0
  droppedReplies : Nat := 0
  framingErrors : Nat := 0
  notifications : Nat := 0
  replies : Nat := 0
  retransmits : Nat := 0
  timeouts : Nat := 0
  deriving DecidableEq, Repr

namespace Counter

/-- All counters, in the order of their names. -/
def all : List Counter :=
  [.acksSent, .commandsSent, .droppedReplies, .framingErrors, .notifications, .replies,
    .retransmits, .timeouts]

/-- The name under which a counter is published. -/
def metric : Counter → String
  | .acksSent => "sidestub_acks_sent_total"
  | .commandsSent => "sidestub_commands_sent_total"
  | .droppedReplies => "sidestub_dropped_replies_total"
  | .framingErrors => "sidestub_framing_errors_total"
  | .notifications => "sidestub_notifications_total"
  | .replies => "sidestub_replies_total"
  | .retransmits => "sidestub_retransmits_total"
  | .timeouts => "sidestub_timeouts_total"

/-- What a counter counts, in words. -/
def help : Counter → String
  | .acksSent => "Acknowledgements written"
  | .commandsSent => "Command frames written"
  | .droppedReplies => "Replies that arrived with no command waiting"
  | .framingErrors => "Oversized frames and bytes outside a frame"
  | .notifications => "Notification packets received"
  | .replies => "Standard replies received"
  | .retransmits => "Commands resent after a NAK"
  | .timeouts => "Commands that got no reply in time"

end Counter

namespace Counters

/-- The value of one counter. -/
def get (s : Counters) : Counter → Nat
  | .acksSent => s.acksSent
  | .commandsSent => s.commandsSent
  | .droppedReplies => s.droppedReplies
  | .framingErrors => s.framingErrors
  | .notifications => s.notifications
  | .replies => s.replies
  | .retransmits => s.retransmits
  | .timeouts => s.timeouts

/-- Counts one event. -/
def bump (s : Counters) : Counter → Counters
  | .acksSent => { s with acksSent := s.acksSent + 1 }
  | .commandsSent => { s with commandsSent := s.commandsSent + 1 }
  | .droppedReplies => { s with droppedReplies := s.droppedReplies + 1 }
  | .framingErrors => { s with framingErrors := s.framingErrors + 1 }
  | .notifications => { s with notifications := s.notifications + 1 }
  | .replies => { s with replies := s.replies + 1 }
  | .retransmits => { s with retransmits := s.retransmits + 1 }
  | .timeouts => { s with timeouts := s.timeouts + 1 }

/-- Counting moves the one counter by one and no other. -/
theorem get_bump (s : Counters) (c d : Counter) :
    (s.bump c).get d = s.get d + if c = d then 1 else 0 := by
  cases c <;> cases d <;> simp [bump, get]

/-- The family of one counter in the text format. -/
def family (s : Counters) (c : Counter) : String :=
  "# HELP " ++ c.metric ++ " " ++ c.help ++ "\n# TYPE " ++ c.metric ++ " counter\n"
    ++ c.metric ++ " " ++ toString (s.get c) ++ "\n"

/-- All counters in the text format. -/
def exposition (s : Counters) : String := String.join (Counter.all.map s.family)

end Counters

end ProbeLink
